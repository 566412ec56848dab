import HotAI.Lib.GoStrings

/-! # Pieces joined by a separator

Joining pieces with a separator of one character, trimming the separator at both ends and splitting
again gives the pieces back exactly when none contains it and neither end is empty. -/
namespace HotAI.Lib
open List

/-- `strings.Trim(s, c)` for a single character. -/
def trimChar (c : Char) (s : String) : String := String.ofList (trimEnds (fun d => d = c) s.toList)

section Lists

variable {α : Type*}

theorem splitAux_singleton [DecidableEq α] (x : α) (acc l : List α) :
    splitAux [x] 0 acc l = (l.splitOn x).modifyHead (acc.reverse ++ ·) := by
  induction l generalizing acc with
  | nil => simp [splitAux]
  | cons a l ih =>
    have hfront : [x].isPrefixOf (a :: l) = (a == x) := by
      simp [isPrefixOf, BEq.comm]
    rw [splitAux, hfront, splitOn_cons_eq_if_modifyHead]
    by_cases ha : a = x
    · subst ha
      have hself : (l.splitOn a).modifyHead (([] : List α).reverse ++ ·) = l.splitOn a := by
        cases l.splitOn a <;> rfl
      simp only [BEq.rfl, if_true, length_singleton, Nat.sub_self, ih, hself, modifyHead_cons, append_nil]
    · rw [if_neg (by simpa using ha), if_neg (by simpa using ha), ih, modifyHead_modifyHead]
      congr 1
      funext piece
      simp

theorem not_mem_of_mem_splitOn [DecidableEq α] {x : α} {l piece : List α} (h : piece ∈ l.splitOn x) : x ∉ piece := by
  induction l generalizing piece with
  | nil =>
    rw [splitOn_nil, mem_singleton] at h
    simp [h]
  | cons a l ih =>
    rw [splitOn_cons_eq_if_modifyHead] at h
    split at h
    · rcases mem_cons.mp h with rfl | hrest
      · exact not_mem_nil
      · exact ih hrest
    · next ha =>
      cases hsplit : l.splitOn x with
      | nil =>
        rw [hsplit] at h
        cases h
      | cons first rest =>
        rw [hsplit] at h ih
        rcases mem_cons.mp h with rfl | hrest
        · intro hx
          rcases mem_cons.mp hx with rfl | hx
          · exact ha BEq.rfl
          · exact ih (mem_cons_self ..) hx
        · exact ih (mem_cons_of_mem _ hrest)

theorem trimEnds_eq_self_iff (p : α → Bool) (l : List α) :
    trimEnds p l = l ↔ (∀ a, l.head? = some a → p a = false) ∧ ∀ a, l.getLast? = some a → p a = false := by
  constructor
  · intro h
    have hfront : l.dropWhile p = l := by rw [← h, dropWhile_trimEnds]
    have hback : l.rdropWhile p = l := by
      rw [trimEnds, hfront] at h
      exact h
    constructor
    · intro a ha
      obtain ⟨rest, rfl⟩ := head?_eq_some_iff.mp ha
      have hpos := dropWhile_eq_self_iff.mp hfront (Nat.succ_pos _)
      simpa using hpos
    · intro a ha
      obtain ⟨init, rfl⟩ := getLast?_eq_some_iff.mp ha
      have hpos := rdropWhile_eq_self_iff.mp hback (by simp)
      simpa using hpos
  · rintro ⟨hhead, hlast⟩
    have hfront : l.dropWhile p = l := by
      cases l with
      | nil => rfl
      | cons a l => exact dropWhile_cons_of_neg (by simp [hhead a rfl])
    rw [trimEnds, hfront, rdropWhile_eq_self_iff]
    intro hl
    simp [hlast _ (getLast?_eq_some_getLast hl)]

theorem head?_intercalate (x : α) (k : List α) (rest : List (List α)) :
    ([x].intercalate (k :: rest)).head? = k.head?.or (if rest = [] then none else some x) := by
  cases rest with
  | nil => simp
  | cons b rest => simp [intercalate_cons_cons]

theorem getLast?_intercalate (x : α) (init : List (List α)) (k : List α) :
    ([x].intercalate (init ++ [k])).getLast? = k.getLast?.or (if init = [] then none else some x) := by
  induction init with
  | nil => simp
  | cons a init ih =>
    obtain ⟨b, rest, hrest⟩ := exists_cons_of_ne_nil (append_ne_nil_of_right_ne_nil init (cons_ne_nil k []))
    rw [cons_append, hrest, intercalate_cons_cons, ← hrest, getLast?_append, ih]
    cases k.getLast? with
    | some c => simp
    | none => by_cases hinit : init = [] <;> simp [hinit]

/-- An end piece that is not empty keeps the separator from the end; an empty one shows the separator
next to it. -/
theorem edge_ne_iff {x : α} {piece : List α} {edge : Option α} {others : List (List α)}
    (hedge : edge = none ↔ piece = []) (hmem : ∀ c, edge = some c → c ∈ piece) (hfree : x ∉ piece)
    (hothers : piece = [] → others ≠ []) :
    (∀ c, edge.or (if others = [] then none else some x) = some c → c ≠ x) ↔ piece ≠ [] := by
  cases hcases : edge with
  | none =>
    have hpiece := hedge.mp hcases
    simp [hpiece, hothers hpiece]
  | some c =>
    have hpiece : piece ≠ [] := ne_nil_of_mem (hmem c hcases)
    have hc : c ≠ x := fun h => hfree (h ▸ hmem c hcases)
    simp [hpiece, hc]

theorem trimEnds_intercalate_iff [DecidableEq α] {x : α} {pieces : List (List α)} (hne : pieces ≠ [])
    (htext : [x].intercalate pieces ≠ []) (hfree : ∀ piece ∈ pieces, x ∉ piece) :
    trimEnds (fun d => d = x) ([x].intercalate pieces) = [x].intercalate pieces ↔
      pieces.head? ≠ some [] ∧ pieces.getLast? ≠ some [] := by
  have halone : pieces ≠ [[]] := fun h => htext (by rw [h]; rfl)
  simp only [trimEnds_eq_self_iff, decide_eq_false_iff_not]
  refine and_congr ?_ ?_
  · obtain ⟨first, rest, rfl⟩ := exists_cons_of_ne_nil hne
    rw [head?_intercalate, head?_cons, Ne, Option.some_inj]
    refine edge_ne_iff head?_eq_none_iff (fun c hc => mem_of_mem_head? hc)
      (hfree first (mem_cons_self ..)) (fun hfirst hrest => halone ?_)
    rw [hfirst, hrest]
  · obtain ⟨init, last, rfl⟩ := eq_nil_or_concat' pieces |>.resolve_left hne
    rw [getLast?_intercalate, getLast?_concat, Ne, Option.some_inj]
    refine edge_ne_iff getLast?_eq_none_iff (fun c hc => mem_of_mem_getLast? hc)
      (hfree last (mem_append_right _ (mem_singleton_self _))) (fun hlast hinit => halone ?_)
    rw [hlast, hinit]
    rfl

end Lists

section Strings

variable {x : Char} {sep : String} (hsep : sep.toList = [x])
include hsep

theorem split_eq_splitOn (s : String) : split s sep = (s.toList.splitOn x).map String.ofList := by
  have hself : (s.toList.splitOn x).modifyHead (([] : List Char).reverse ++ ·) = s.toList.splitOn x := by
    cases s.toList.splitOn x <;> rfl
  rw [split, hsep, splitAux_singleton, hself]

theorem intercalate_split (s : String) : sep.intercalate (split s sep) = s := by
  apply String.toList_inj.mp
  rw [String.toList_intercalate, hsep, split_eq_splitOn hsep, map_map]
  have hid : String.toList ∘ String.ofList = id := funext fun l => String.toList_ofList
  rw [hid, map_id, intercalate_splitOn]

theorem split_intercalate {pieces : List String} (hne : pieces ≠ []) (hfree : ∀ piece ∈ pieces, x ∉ piece.toList) :
    split (sep.intercalate pieces) sep = pieces := by
  have hfree' : ∀ l ∈ pieces.map String.toList, x ∉ l := forall_mem_map.mpr hfree
  rw [split_eq_splitOn hsep, String.toList_intercalate, hsep, splitOn_intercalate x hfree' (by simpa using hne),
    map_map]
  have hid : String.ofList ∘ String.toList = id := funext fun s => String.ofList_toList
  rw [hid, map_id]

theorem not_mem_of_mem_split {s piece : String} (h : piece ∈ split s sep) : x ∉ piece.toList := by
  rw [split_eq_splitOn hsep] at h
  obtain ⟨l, hl, rfl⟩ := mem_map.mp h
  rw [String.toList_ofList]
  exact not_mem_of_mem_splitOn hl

theorem trimChar_intercalate_iff {pieces : List String} (hne : pieces ≠ []) (htext : sep.intercalate pieces ≠ "")
    (hfree : ∀ piece ∈ pieces, x ∉ piece.toList) :
    trimChar x (sep.intercalate pieces) = sep.intercalate pieces ↔ pieces.head? ≠ some "" ∧ pieces.getLast? ≠ some "" := by
  have hmap : ∀ edge : Option String, edge.map String.toList ≠ some [] ↔ edge ≠ some "" := by
    intro edge
    cases edge with
    | none => simp
    | some piece => simp
  have htext' : [x].intercalate (pieces.map String.toList) ≠ [] := by
    rw [← hsep, ← String.toList_intercalate]
    exact fun h => htext (String.toList_inj.mp h)
  have hfree' : ∀ l ∈ pieces.map String.toList, x ∉ l := forall_mem_map.mpr hfree
  rw [trimChar, ← String.toList_inj, String.toList_ofList, String.toList_intercalate, hsep,
    trimEnds_intercalate_iff (by simpa using hne) htext' hfree', head?_map, getLast?_map, hmap, hmap]

theorem split_trimChar_intercalate_iff {pieces : List String} (hne : pieces ≠ []) (htext : sep.intercalate pieces ≠ "") :
    split (trimChar x (sep.intercalate pieces)) sep = pieces ↔
      (∀ piece ∈ pieces, x ∉ piece.toList) ∧ pieces.head? ≠ some "" ∧ pieces.getLast? ≠ some "" := by
  constructor
  · intro h
    have hfree : ∀ piece ∈ pieces, x ∉ piece.toList := fun piece hpiece =>
      not_mem_of_mem_split hsep (h ▸ hpiece)
    -- joining what was split gives the trimmed text, so nothing was trimmed
    have htrim : trimChar x (sep.intercalate pieces) = sep.intercalate pieces := by
      rw [← intercalate_split hsep (trimChar x (sep.intercalate pieces)), h]
    exact ⟨hfree, (trimChar_intercalate_iff hsep hne htext hfree).mp htrim⟩
  · rintro ⟨hfree, hends⟩
    rw [(trimChar_intercalate_iff hsep hne htext hfree).mpr hends]
    exact split_intercalate hsep hne hfree

end Strings

end HotAI.Lib
