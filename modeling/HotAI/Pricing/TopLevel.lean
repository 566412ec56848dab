import HotAI.Pricing.BillingExpr

/-! # Cutting outside parentheses

`splitTopLevelMultiply` and `splitTopLevelAnd` count every parenthesis. `passOver` is the depth behind a text in which no
separator is met at depth zero. Joined texts are cut where they were joined if each is passed over and all but the last end
at depth zero. -/
namespace HotAI.BillingExpr
open HotAI.Lib List

/-- The depth behind a text, `none` if `sep` begins in it at depth zero. -/
def passOver (sep : Text) : ℤ → Text → Option ℤ
  | depth, [] => some depth
  | depth, c :: rest =>
      if depthAfter depth c = 0 ∧ sep.isPrefixOf (c :: rest) then none else passOver sep (depthAfter depth c) rest

/-- No occurrence of `sep` begins in the first text and ends in the second. -/
def Apart (sep s t : Text) : Prop := (∀ c ∈ t.head?, c ∉ sep) ∨ (∀ c ∈ s.getLast?, c ∉ sep)

theorem Apart.tail {sep s t : Text} {c : Char} (h : Apart sep (c :: s) t) : Apart sep s t := by
  rcases h with h | h
  · exact .inl h
  · refine .inr fun x hx => h x ?_
    cases s with
    | nil => cases hx
    | cons y s => exact hx

variable {sep s t : Text} {c : Char} {x : Char} {texts : List Text}

theorem Apart.isPrefixOf_append (h : Apart sep (c :: s) t) : sep.isPrefixOf ((c :: s) ++ t) = sep.isPrefixOf (c :: s) := by
  rw [Bool.eq_iff_iff, isPrefixOf_iff_prefix, isPrefixOf_iff_prefix]
  refine ⟨fun hsep => ?_, fun hsep => hsep.trans (prefix_append ..)⟩
  rcases prefix_or_prefix_of_prefix hsep (prefix_append (c :: s) t) with hshort | ⟨more, rfl⟩
  · exact hshort
  · rw [prefix_append_right_inj] at hsep
    rcases h with h | h
    · cases more with
      | nil => rw [append_nil]
      | cons x more =>
        obtain ⟨t, rfl⟩ := hsep
        exact absurd (mem_append_right _ mem_cons_self) (h x rfl)
    · have hlast := getLast?_eq_some_getLast (cons_ne_nil c s)
      exact absurd (mem_append_left _ (getLast_mem _)) (h _ hlast)

theorem passOver_append (h : Apart sep s t) (depth : ℤ) :
    passOver sep depth (s ++ t) = (passOver sep depth s).bind (passOver sep · t) := by
  induction s generalizing depth with
  | nil => rfl
  | cons c s ih =>
    have hsep := h.isPrefixOf_append
    rw [cons_append] at hsep ⊢
    rw [passOver, passOver, hsep]
    split
    · rfl
    · exact ih h.tail _

theorem passOver_plain (hsep : ∀ c ∈ s, ∀ x ∈ sep.head?, c ≠ x) (hne : sep ≠ [])
    (hparens : ∀ c ∈ s, c ≠ '(' ∧ c ≠ ')') (depth : ℤ) : passOver sep depth s = some depth := by
  induction s generalizing depth with
  | nil => rfl
  | cons c s ih =>
    obtain ⟨x, sep, rfl⟩ := exists_cons_of_ne_nil hne
    obtain ⟨hopen, hclose⟩ := hparens c mem_cons_self
    have hnot : ¬(x :: sep).isPrefixOf (c :: s) = true := by
      rw [List.isPrefixOf_iff_prefix, cons_prefix_cons]
      exact fun heq => hsep c mem_cons_self x rfl heq.1.symm
    rw [passOver, if_neg fun hcut => hnot hcut.2, depthAfter, if_neg hopen, if_neg hclose]
    exact ih (fun c hc => hsep c (mem_cons_of_mem _ hc)) (fun c hc => hparens c (mem_cons_of_mem _ hc)) _

theorem cut_of_passOver {depth : ℤ} (h : (passOver sep depth s).isSome) (acc : Text) :
    cut sep depth 0 acc s = [acc.reverse ++ s] := by
  induction s generalizing depth acc with
  | nil => rw [cut, append_nil]
  | cons c s ih =>
    rw [passOver] at h
    split at h
    · cases h
    · rename_i hcut
      rw [cut, if_neg hcut, ih h, reverse_cons, append_assoc, singleton_append]

theorem cut_skip (sep : Text) (depth : ℤ) (acc s t : Text) :
    cut sep depth s.length acc (s ++ t) = cut sep depth 0 acc t := by
  induction s with
  | nil => rfl
  | cons c s ih => exact ih

theorem cut_joined {depth : ℤ} (h : passOver (x :: sep) depth s = some 0)
    (hx : depthAfter 0 x = 0) (hlast : ∀ c ∈ s.getLast?, c ∉ x :: sep) (acc : Text) :
    cut (x :: sep) depth 0 acc (s ++ ((x :: sep) ++ t)) = (acc.reverse ++ s) :: cut (x :: sep) 0 0 [] t := by
  induction s generalizing depth acc with
  | nil =>
    cases h
    have hstarts : (x :: sep).isPrefixOf ((x :: sep) ++ t) = true :=
      isPrefixOf_iff_prefix.mpr (prefix_append ..)
    rw [nil_append, append_nil, cons_append, cut, if_pos ⟨hx, hstarts⟩, hx, length_cons,
      Nat.add_sub_cancel, cut_skip]
  | cons c s ih =>
    have hapart : Apart (x :: sep) (c :: s) ((x :: sep) ++ t) := .inr hlast
    have hsep := hapart.isPrefixOf_append
    rw [cons_append] at hsep ⊢
    rw [passOver] at h
    split at h
    · cases h
    · rename_i hcut
      rw [cut, hsep, if_neg hcut, ih h, reverse_cons, append_assoc, singleton_append]
      intro y hy
      cases s with
      | nil => cases hy
      | cons z s => exact hlast y hy

def Separate {α : Type} (pass : ℤ → α → Option ℤ) : List α → Prop
  | [] => True
  | [a] => (pass 0 a).isSome
  | a :: more => pass 0 a = some 0 ∧ Separate pass more

instance decidableSeparate {α : Type} (pass : ℤ → α → Option ℤ) : ∀ items, Decidable (Separate pass items)
  | [] => .isTrue trivial
  | [a] => inferInstanceAs (Decidable ((pass 0 a).isSome = true))
  | a :: b :: more => @instDecidableAnd (pass 0 a = some 0) (Separate pass (b :: more)) _ (decidableSeparate pass (b :: more))

theorem Separate.of_eq {α β : Type} {pass : ℤ → α → Option ℤ} {pass' : ℤ → β → Option ℤ} {f : α → β} {items : List α}
    (hpass : ∀ a ∈ items, pass' 0 (f a) = pass 0 a) (h : Separate pass items) : Separate pass' (items.map f) := by
  induction items with
  | nil => trivial
  | cons a more ih =>
    have ha := hpass a mem_cons_self
    cases more with
    | nil => exact (congrArg Option.isSome ha).trans h
    | cons b more => exact ⟨ha.trans h.1, ih (fun c hc => hpass c (mem_cons_of_mem _ hc)) h.2⟩

theorem cut_intercalate (hne : texts ≠ []) (h : Separate (passOver (x :: sep)) texts) (hx : depthAfter 0 x = 0)
    (hlast : ∀ s ∈ texts, ∀ c ∈ s.getLast?, c ∉ x :: sep) :
    cut (x :: sep) 0 0 [] ((x :: sep).intercalate texts) = texts := by
  induction texts with
  | nil => exact absurd rfl hne
  | cons s more ih =>
    cases more with
    | nil =>
      rw [intercalate_singleton, cut_of_passOver h]
      rfl
    | cons t more =>
      rw [intercalate_cons_cons, append_assoc, cut_joined h.1 hx (hlast s mem_cons_self),
        ih (cons_ne_nil _ _) h.2 fun s hs => hlast s (mem_cons_of_mem _ hs)]
      rfl

def isEdge (c : Char) : Bool := !isJsSpace c && c ∉ ['&', '*', '|']

abbrev Starts (s : Text) : Prop := ∃ c rest, s = c :: rest ∧ isEdge c = true

abbrev Stops (s : Text) : Prop := ∃ front c, s = front ++ [c] ∧ isEdge c = true

theorem isEdge_iff : isEdge c = true ↔ isJsSpace c = false ∧ c ∉ ['&', '*', '|'] := by
  rw [isEdge, Bool.and_eq_true_iff, decide_eq_true_iff, Bool.not_eq_true']

structure Solid (s : Text) : Prop where
  starts : ∃ c rest, s = c :: rest ∧ isEdge c = true
  stops : ∃ front c, s = front ++ [c] ∧ isEdge c = true

theorem Solid.ne_nil (h : Solid s) : s ≠ [] := by
  obtain ⟨-, -, rfl, -⟩ := h.starts
  exact cons_ne_nil _ _

theorem Solid.trim_eq (h : Solid s) : trim s = s := by
  obtain ⟨c, rest, hs, hc⟩ := h.starts
  obtain ⟨front, d, hs', hd⟩ := h.stops
  have hspace : ∀ {x : Char}, isEdge x = true → ¬isJsSpace x = true := fun hx => by
    rw [(isEdge_iff.mp hx).1]
    exact Bool.false_ne_true
  rw [trim, trimEnds]
  nth_rewrite 1 [hs]
  rw [dropWhile_cons_of_neg (hspace hc), ← hs, hs', rdropWhile_concat_neg _ _ _ (hspace hd)]

theorem Solid.append {s t : Text} (hs : Starts s) (ht : Stops t) : Solid (s ++ t) := by
  obtain ⟨c, rest, rfl, hc⟩ := hs
  obtain ⟨front, d, rfl, hd⟩ := ht
  exact ⟨⟨c, rest ++ (front ++ [d]), cons_append, hc⟩, ⟨c :: rest ++ front, d, (append_assoc ..).symm, hd⟩⟩

theorem solid_intercalate {sep : Text} {texts : List Text} (hne : texts ≠ []) (h : ∀ s ∈ texts, Solid s) :
    Solid (sep.intercalate texts) := by
  induction texts with
  | nil => exact absurd rfl hne
  | cons s more ih =>
    have hs := h s mem_cons_self
    cases more with
    | nil => rwa [intercalate_singleton]
    | cons t more =>
      obtain ⟨front, c, hstops, hc⟩ := (ih (cons_ne_nil _ _) fun s hs => h s (mem_cons_of_mem _ hs)).stops
      rw [intercalate_cons_cons, append_assoc]
      exact .append hs.starts ⟨sep ++ front, c, by rw [hstops, append_assoc], hc⟩

/-- A separator such as `" && "`, `" * "` and `" || "`. -/
structure Sign (sep : Text) : Prop where
  shape : ∃ more, sep = ' ' :: more
  chars : ∀ c ∈ sep, c ∈ [' ', '&', '*', '|']

theorem Sign.ne_nil (h : Sign sep) : sep ≠ [] := by
  obtain ⟨-, rfl⟩ := h.shape
  exact cons_ne_nil _ _

theorem Sign.head (h : Sign sep) (hx : x ∈ sep.head?) : x = ' ' := by
  obtain ⟨more, rfl⟩ := h.shape
  exact (Option.mem_some_iff.mp hx).symm

theorem Sign.not_mem (h : Sign sep) (hc : isEdge c = true) : c ∉ sep := by
  intro hmem
  obtain ⟨hspace, hsign⟩ := isEdge_iff.mp hc
  rcases mem_cons.mp (h.chars c hmem) with rfl | hmem
  · exact absurd hspace (by decide)
  · exact hsign hmem

theorem Sign.apart_of_starts (h : Sign sep) (ht : Starts t) : Apart sep s t := by
  obtain ⟨c, -, rfl, hc⟩ := ht
  exact .inl fun x hx => Option.mem_some_iff.mp hx ▸ h.not_mem hc

theorem Sign.apart_of_stops (h : Sign sep) (hs : Stops s) : Apart sep s t := by
  obtain ⟨-, c, rfl, hc⟩ := hs
  refine .inr fun x hx => ?_
  rw [getLast?_concat] at hx
  exact Option.mem_some_iff.mp hx ▸ h.not_mem hc

theorem splitTopLevel_intercalate (hsep : Sign sep)
    (h : Separate (passOver sep) texts) (hsolid : ∀ s ∈ texts, Solid s) (hne : texts ≠ []) :
    splitTopLevel sep (sep.intercalate texts) = texts := by
  have hlast : ∀ s ∈ texts, ∀ c ∈ s.getLast?, c ∉ sep := by
    intro s hs c hc
    obtain ⟨front, d, rfl, hd⟩ := (hsolid s hs).stops
    rw [getLast?_concat] at hc
    exact Option.mem_some_iff.mp hc ▸ hsep.not_mem hd
  obtain ⟨more, rfl⟩ := hsep.shape
  rw [splitTopLevel, cut_intercalate hne h rfl hlast, map_congr_left fun s hs => (hsolid s hs).trim_eq, map_id']
  refine filter_eq_self.mpr fun s hs => ?_
  exact decide_eq_true (hsolid s hs).ne_nil

end HotAI.BillingExpr
