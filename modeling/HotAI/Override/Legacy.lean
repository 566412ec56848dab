import HotAI.Override.Apply

/-! # The legacy override as a map update

Each key of the override is escaped and handed to `sjson` as a path. What a path of one part stands for is the syntax that
`sjson` documents. -/
namespace HotAI.Override
open HotAI.Lib List

/-- A backslash takes the next character literally; a dot or a sign of queries and wildcards makes more than a key. -/
def literalKey : List Char → Option (List Char)
  | [] => some []
  | '\\' :: c :: rest => (literalKey rest).map (c :: ·)
  | c :: rest => if c ∈ ['.', '|', '#', '@', '*', '?', '\\'] then none else (literalKey rest).map (c :: ·)

/-- A colon in front says that the key is that of an object. -/
def pathKey (path : String) : Option String :=
  match path.toList with
  | [] => none
  | ':' :: rest => (literalKey rest).map String.ofList
  | chars => (literalKey chars).map String.ofList

/-- A sign of queries or wildcards stands before the first dot. -/
def isQuery : List Char → Bool
  | [] => false
  | '\\' :: _ :: rest => isQuery rest
  | c :: rest => c ∈ ['|', '#', '@', '*', '?'] || (c ≠ '.' && isQuery rest)

structure Documented (lib : Libraries) : Prop where
  empty : ∀ data value, lib.set data "" value = .error "path cannot be empty"
  key : ∀ fields path value key, pathKey path = some key →
    lib.set (.obj fields) path value = .ok (.obj (Assoc.set fields key value))
  /-- A query changes values that it finds and adds no member. -/
  query : ∀ fields path value result, isQuery path.toList → lib.set (.obj fields) path value = .ok result →
    ∃ updated, result = .obj updated ∧ updated.map Prod.fst = fields.map Prod.fst

structure PlainKey (key : String) : Prop where
  nonempty : key ≠ ""
  colon : key.toList.head? ≠ some ':'
  signs : ∀ c ∈ key.toList, c ∉ ['|', '#', '@']

/-- The member that is written for a key without signs of queries. -/
def writtenKey (key : String) : String :=
  match key.toList with
  | ':' :: rest => String.ofList rest
  | _ => key

theorem writtenKey_of_colon {key : String} (h : key.toList.head? ≠ some ':') : writtenKey key = key := by
  unfold writtenKey
  split
  · simp_all
  · rfl

theorem literalKey_escape {chars : List Char} (h : ∀ c ∈ chars, c ∉ ['|', '#', '@']) :
    literalKey (chars.flatMap fun c => if c ∈ ['.', '*', '?', '\\'] then ['\\', c] else [c]) = some chars := by
  induction chars with
  | nil => rfl
  | cons c rest ih =>
    obtain ⟨hc, hrest⟩ := forall_mem_cons.mp h
    rw [flatMap_cons]
    split
    · rw [cons_append, singleton_append, literalKey, ih hrest]
      rfl
    · next hplain =>
      have hback : c ≠ '\\' := fun heq => hplain (by simp [heq])
      rw [singleton_append, literalKey.eq_3 _ _ (fun _ _ heq => absurd heq hback), if_neg (by simp_all), ih hrest]
      rfl

theorem isQuery_escape {chars : List Char} (h : ∃ c ∈ chars, c ∈ ['|', '#', '@']) :
    isQuery (chars.flatMap fun c => if c ∈ ['.', '*', '?', '\\'] then ['\\', c] else [c]) = true := by
  induction chars with
  | nil => simp at h
  | cons c rest ih =>
    obtain ⟨d, hd, hsign⟩ := h
    rw [flatMap_cons]
    split
    · next hescaped =>
      have hne : d ≠ c := by
        rintro rfl
        fin_cases hescaped <;> exact absurd hsign (by decide)
      rw [cons_append, singleton_append, isQuery]
      exact ih ⟨d, (mem_cons.mp hd).resolve_left hne, hsign⟩
    · next hplain =>
      have hback : c ≠ '\\' := fun heq => hplain (by simp [heq])
      rw [singleton_append, isQuery.eq_3 _ _ (fun _ _ heq => absurd heq hback)]
      rcases mem_cons.mp hd with rfl | hd
      · fin_cases hsign <;> rfl
      · have hdot : c ≠ '.' := fun heq => hplain (by simp [heq])
        rw [ih ⟨d, hd, hsign⟩]
        simp [hdot]

theorem pathKey_escape {key : String} (hne : key ≠ "") (h : ∀ c ∈ key.toList, c ∉ ['|', '#', '@']) :
    pathKey (escapeSjsonLiteralKey key) = some (writtenKey key) := by
  obtain ⟨c, rest, hchars⟩ := exists_cons_of_ne_nil (show key.toList ≠ [] by simpa using hne)
  rw [hchars] at h
  rw [pathKey, escapeSjsonLiteralKey, String.toList_ofList, hchars]
  by_cases hcolon : c = ':'
  · subst hcolon
    rw [flatMap_cons, if_neg (by decide), singleton_append]
    simp only [literalKey_escape (forall_mem_cons.mp h).2, writtenKey, hchars]
    rfl
  · have hread := literalKey_escape h
    rw [writtenKey_of_colon (by simpa [hchars] using hcolon), ← String.ofList_toList (s := key), hchars]
    split
    · next heq =>
      rw [heq] at hread
      cases hread
    · next heq =>
      rw [flatMap_cons] at heq
      split at heq <;> simp_all
    · rw [hread]
      rfl

/-- The override sets its own keys, and no others. -/
def MapUpdate (lib : Libraries) (fields paramOverride : Fields) : Prop :=
  ∃ result, applyOperationsLegacy lib (.obj fields) paramOverride = .ok (.obj result) ∧
    ∀ key, Assoc.get result key = (Assoc.get paramOverride key).or (Assoc.get fields key)

variable {lib : Libraries} {paramOverride : Fields}

theorem mapUpdate_of_plain (hlib : Documented lib) (hkeys : ∀ item ∈ paramOverride, PlainKey item.1)
    (hdistinct : (paramOverride.map Prod.fst).Nodup) (fields : Fields) : MapUpdate lib fields paramOverride := by
  induction paramOverride generalizing fields with
  | nil => exact ⟨fields, rfl, fun key => rfl⟩
  | cons item rest ih =>
    obtain ⟨name, value⟩ := item
    obtain ⟨hname, hrest⟩ := forall_mem_cons.mp hkeys
    rw [map_cons, nodup_cons] at hdistinct
    obtain ⟨result, hresult, hget⟩ := ih hrest hdistinct.2 (Assoc.set fields name value)
    have hpath := pathKey_escape hname.nonempty hname.signs
    rw [writtenKey_of_colon hname.colon] at hpath
    refine ⟨result, ?_, fun key => ?_⟩
    · rw [applyOperationsLegacy, foldlM_cons, hlib.key fields _ value name hpath]
      exact hresult
    · rw [hget, Assoc.get_set]
      unfold Assoc.get
      rw [lookup_cons]
      by_cases hkey : key = name
      · have hnone : rest.lookup name = none := lookup_eq_none_iff.mpr fun other hother => by
          have hne : name ≠ other.1 := fun heq => hdistinct.1 (heq ▸ mem_map.mpr ⟨other, hother, rfl⟩)
          simpa using hne
        simp [hkey, hnone]
      · simp [hkey, beq_eq_false_iff_ne.mpr hkey]

theorem mem_names_iff (fields : Fields) (name : String) : name ∈ fields.map Prod.fst ↔ Assoc.get fields name ≠ none := by
  simp only [Assoc.get, Ne, lookup_eq_none_iff, not_forall, mem_map, bne_iff_ne, not_not, exists_prop, @eq_comm _ name]

/-- A run that succeeds has no empty key, and each of its members was there or is that of a key without signs. -/
theorem names_of_ok (hlib : Documented lib) {fields result : Fields}
    (hok : applyOperationsLegacy lib (.obj fields) paramOverride = .ok (.obj result)) :
    (∀ item ∈ paramOverride, item.1 ≠ "") ∧ ∀ name ∈ result.map Prod.fst, name ∈ fields.map Prod.fst ∨
      ∃ item ∈ paramOverride, (∀ c ∈ item.1.toList, c ∉ ['|', '#', '@']) ∧ name = writtenKey item.1 := by
  induction paramOverride generalizing fields with
  | nil =>
    cases hok
    simp
  | cons item rest ih =>
    rw [applyOperationsLegacy, foldlM_cons] at hok
    obtain ⟨data, hset, hok⟩ := bind_ok hok
    have hne : item.1 ≠ "" := fun heq => by
      rw [heq, show escapeSjsonLiteralKey "" = "" from rfl, hlib.empty] at hset
      cases hset
    by_cases hsigns : ∀ c ∈ item.1.toList, c ∉ ['|', '#', '@']
    · rw [hlib.key fields _ item.2 _ (pathKey_escape hne hsigns)] at hset
      cases hset
      obtain ⟨hrest, hnames⟩ := ih hok
      refine ⟨forall_mem_cons.mpr ⟨hne, hrest⟩, fun name hname => ?_⟩
      rcases hnames name hname with h | ⟨other, hother, h⟩
      · rw [mem_names_iff, Assoc.get_set] at h
        split_ifs at h with heq
        · exact .inr ⟨item, mem_cons_self .., hsigns, heq⟩
        · exact .inl ((mem_names_iff fields name).mpr h)
      · exact .inr ⟨other, mem_cons_of_mem _ hother, h⟩
    · have hquery : isQuery (escapeSjsonLiteralKey item.1).toList = true := by
        rw [escapeSjsonLiteralKey, String.toList_ofList]
        push Not at hsigns
        exact isQuery_escape hsigns
      obtain ⟨updated, rfl, hsame⟩ := hlib.query fields _ item.2 data hquery hset
      obtain ⟨hrest, hnames⟩ := ih hok
      refine ⟨forall_mem_cons.mpr ⟨hne, hrest⟩, fun name hname => ?_⟩
      rcases hnames name hname with h | ⟨other, hother, h⟩
      · exact .inl (hsame ▸ h)
      · exact .inr ⟨other, mem_cons_of_mem _ hother, h⟩

theorem plain_of_mapUpdate (hlib : Documented lib) (h : MapUpdate lib [] paramOverride) :
    ∀ item ∈ paramOverride, PlainKey item.1 := by
  obtain ⟨result, hok, hget⟩ := h
  obtain ⟨hnonempty, hnames⟩ := names_of_ok hlib hok
  have hwritten : ∀ item ∈ paramOverride, ∃ other ∈ paramOverride,
      (∀ c ∈ other.1.toList, c ∉ ['|', '#', '@']) ∧ item.1 = writtenKey other.1 := by
    intro item hitem
    have hmem := (mem_names_iff paramOverride item.1).mp (mem_map_of_mem hitem)
    have hresult : Assoc.get result item.1 ≠ none := by
      rw [hget, show Assoc.get ([] : Fields) item.1 = none from rfl, Option.or_none]
      exact hmem
    simpa using hnames item.1 ((mem_names_iff result item.1).mpr hresult)
  have hsuffix (key : String) : key.toList = (writtenKey key).toList ∨ key.toList = ':' :: (writtenKey key).toList := by
    unfold writtenKey
    split <;> simp_all
  -- a key with a colon in front is written only for one with two, and so on
  have hlong (n : ℕ) : (∃ item ∈ paramOverride, item.1.toList.head? = some ':') →
      ∃ item ∈ paramOverride, item.1.toList.head? = some ':' ∧ n ≤ item.1.toList.length := by
    intro hcolon
    induction n with
    | zero => simpa using hcolon
    | succ n ih =>
      obtain ⟨item, hitem, hhead, hlength⟩ := ih
      obtain ⟨other, hother, -, heq⟩ := hwritten item hitem
      rcases hsuffix other.1 with h | h
      · have hfix : writtenKey other.1 = other.1 := String.toList_inj.mp h.symm
        rw [heq, hfix] at hhead
        obtain ⟨rest, hrest⟩ := head?_eq_some_iff.mp hhead
        simp [writtenKey, hrest, ← String.toList_inj] at hfix
      · exact ⟨other, hother, by rw [h]; rfl, by rw [h, ← heq]; simpa using hlength⟩
  intro item hitem
  refine ⟨hnonempty item hitem, fun hcolon => ?_, fun c hc hsign => ?_⟩
  · obtain ⟨other, hother, -, hlength⟩ := hlong ((paramOverride.map (·.1.toList.length)).sum + 1) ⟨item, hitem, hcolon⟩
    have hle := single_le_sum (by simp) _ (mem_map_of_mem (f := fun other : String × Json => other.1.toList.length) hother)
    omega
  · obtain ⟨other, -, hsigns, heq⟩ := hwritten item hitem
    refine hsigns c ?_ hsign
    rw [heq] at hc
    rcases hsuffix other.1 with h | h <;> rw [h]
    · exact hc
    · exact mem_cons_of_mem _ hc

/-- The override is a map update of every body exactly if its keys are plain ones, in whatever order it is visited. -/
theorem legacy_is_map_update_iff (hlib : Documented lib) (hdistinct : (paramOverride.map Prod.fst).Nodup) :
    (∀ fields, MapUpdate lib fields paramOverride) ↔ ∀ item ∈ paramOverride, PlainKey item.1 :=
  ⟨fun h => plain_of_mapUpdate hlib (h []), fun h => mapUpdate_of_plain hlib h hdistinct⟩

/-- A path that is more than a key is not followed. -/
def literalLibraries : Libraries :=
  { sampleLibraries with
    set := fun data path value =>
      if path = "" then .error "path cannot be empty"
      else match data, pathKey path with
        | .obj fields, some key => .ok (.obj (Assoc.set fields key value))
        | _, _ => .ok data }

theorem literalKey_of_query {chars : List Char} (h : isQuery chars = true) : literalKey chars = none := by
  fun_induction isQuery chars with
  | case1 => cases h
  | case2 c rest ih => rw [literalKey, ih h]; rfl
  | case3 c rest hback ih =>
    rw [literalKey.eq_3 _ _ hback]
    split_ifs with hc
    · rfl
    · have hrest : isQuery rest = true := by simp_all
      rw [ih hrest]
      rfl

theorem pathKey_of_query {path : String} (h : isQuery path.toList = true) : pathKey path = none := by
  unfold pathKey
  split
  · rfl
  · next rest heq =>
    rw [heq] at h
    rw [literalKey_of_query (by simpa [isQuery] using h)]
    rfl
  · rw [literalKey_of_query h]
    rfl

theorem documented_literalLibraries : Documented literalLibraries where
  empty _ _ := rfl
  key fields path value key h := by
    have hne : path ≠ "" := by
      rintro rfl
      cases h
    change (if path = "" then _ else _) = _
    rw [if_neg hne, h]
  query fields path value result h hset := by
    have hne : path ≠ "" := by
      rintro rfl
      cases h
    change (if path = "" then _ else _) = _ at hset
    rw [if_neg hne, pathKey_of_query h] at hset
    cases hset
    exact ⟨fields, rfl, rfl⟩

theorem legacy_update_of_two : ∃ result, applyOperationsLegacy literalLibraries (.obj [("a", .null)])
    [("a.b", .null), ("x:*", .bool true)] = .ok (.obj result) ∧ Assoc.get result "x:*" = some (.bool true) := by
  obtain ⟨result, hresult, hget⟩ := (@legacy_is_map_update_iff literalLibraries [("a.b", .null), ("x:*", .bool true)]
    documented_literalLibraries (by decide)).mpr
    (by simp only [forall_mem_cons]; exact ⟨⟨by decide, by decide, by simp⟩, ⟨by decide, by decide, by simp⟩, by simp⟩)
    [("a", .null)]
  exact ⟨result, hresult, hget "x:*"⟩

/-- A colon in front of a key is lost, and the empty key fails. -/
theorem legacy_loses_colon : applyOperationsLegacy literalLibraries (.obj []) [(":a", .null)] = .ok (.obj [("a", .null)]) ∧
      applyOperationsLegacy literalLibraries (.obj []) [("", .null)] = .error "path cannot be empty" :=
  ⟨rfl, rfl⟩

end HotAI.Override
