import HotAI.Lib.GoStrings

/-! # Reading JSON text

The grammar that `encoding/json` accepts. A reader gives back what is left of the text. `rawArray` is `Unmarshal` into a
list of `RawMessage`: the texts of the elements, as they stand. -/
namespace HotAI.Lib.JsonText
open List

abbrev Reader := List Char → Option (List Char)

def isBlank (c : Char) : Bool := c = ' ' || c = '\t' || c = '\r' || c = '\n'

def skipBlank (cs : List Char) : List Char := cs.dropWhile isBlank

/-! ## Scalars -/

def literal (word : String) : Reader := fun cs =>
  if word.toList.isPrefixOf cs then some (cs.drop word.length) else none

def isHex (c : Char) : Bool := c.isDigit || ('a' ≤ c && c ≤ 'f') || ('A' ≤ c && c ≤ 'F')

def string : Reader
  | '"' :: cs => some cs
  | '\\' :: 'u' :: a :: b :: c :: d :: cs => if [a, b, c, d].all isHex then string cs else none
  | '\\' :: c :: cs => if c ∈ ['"', '\\', '/', 'b', 'f', 'n', 'r', 't'] then string cs else none
  | c :: cs => if c.toNat < 32 then none else string cs
  | [] => none

def digits : Reader
  | [] => none
  | c :: cs => if c.isDigit then some (cs.dropWhile Char.isDigit) else none

def dropSign (signs : List Char) : List Char → List Char
  | [] => []
  | c :: cs => if c ∈ signs then cs else c :: cs

def integer : Reader
  | '0' :: cs => some cs
  | cs => digits cs

def fraction : Reader
  | '.' :: cs => digits cs
  | cs => some cs

def exponent : Reader
  | [] => some []
  | c :: cs => if c = 'e' ∨ c = 'E' then digits (dropSign ['+', '-'] cs) else some (c :: cs)

def number : Reader := fun cs => ((integer (dropSign ['-'] cs)).bind fraction).bind exponent

def scalar : Reader
  | '"' :: cs => string cs
  | 't' :: cs => literal "rue" cs
  | 'f' :: cs => literal "alse" cs
  | 'n' :: cs => literal "ull" cs
  | cs => number cs

/-! ## Values

The fuel bounds the number of nested calls; two for every character are enough. -/

mutual

def value : ℕ → Reader
  | 0, _ => none
  | fuel + 1, cs => match cs with
      | '\x7b' :: cs => match skipBlank cs with
          | '\x7d' :: rest => some rest
          | cs => members fuel cs
      | '[' :: cs => match skipBlank cs with
          | ']' :: rest => some rest
          | cs => elements fuel cs
      | cs => scalar cs

def members : ℕ → Reader
  | 0, _ => none
  | fuel + 1, cs => match cs with
      | '"' :: cs => match (string cs).map skipBlank with
          | some (':' :: cs) => match (value fuel (skipBlank cs)).map skipBlank with
              | some (',' :: cs) => members fuel (skipBlank cs)
              | some ('\x7d' :: cs) => some cs
              | _ => none
          | _ => none
      | _ => none

def elements : ℕ → Reader
  | 0, _ => none
  | fuel + 1, cs => match (value fuel cs).map skipBlank with
      | some (',' :: cs) => elements fuel (skipBlank cs)
      | some (']' :: cs) => some cs
      | _ => none

end

def textUpTo (cs rest : List Char) : List Char := cs.take (cs.length - rest.length)

def rawElements : ℕ → List Char → Option (List (List Char))
  | 0, _ => none
  | fuel + 1, cs => match value fuel cs with
      | none => none
      | some rest => match skipBlank rest with
          | ',' :: more => (rawElements fuel (skipBlank more)).map (textUpTo cs rest :: ·)
          | ']' :: after => if skipBlank after = [] then some [textUpTo cs rest] else none
          | _ => none

def rawArray (text : String) : Option (List String) :=
  match text.toList with
  | '[' :: cs => match skipBlank cs with
      | ']' :: after => if skipBlank after = [] then some [] else none
      | first => (rawElements (2 * text.length + 2) first).map (·.map String.ofList)
  | _ => none

example : rawArray "[ \x7b\"a\": [1,\n 2.5e-1]\x7d , \"x\\u0041\", null]" =
    some ["\x7b\"a\": [1,\n 2.5e-1]\x7d", "\"x\\u0041\"", "null"] := by
  decide +kernel

/-! ## The elements lie in the text, one after the other -/

theorem length_skipBlank_le (cs : List Char) : (skipBlank cs).length ≤ cs.length := length_dropWhile_le ..

def Shrinks (read : Reader) : Prop := ∀ {cs rest : List Char}, read cs = some rest → rest.length ≤ cs.length

theorem shrinks_literal (word : String) : Shrinks (literal word) := by
  intro cs rest h
  unfold literal at h
  split at h
  · cases h
    exact (length_drop ..).trans_le (Nat.sub_le ..)
  · cases h

theorem shrinks_string : Shrinks string := by
  intro cs rest h
  fun_induction string cs with
  | case1 cs =>
    cases h
    exact Nat.le_succ _
  | case2 a b c d cs hhex ih =>
    have hcs := ih h
    simp only [length_cons]
    omega
  | case4 c cs hu hesc ih =>
    have hcs := ih h
    simp only [length_cons]
    omega
  | case7 c cs h1 h2 h3 hctl ih => exact (ih h).trans (Nat.le_succ _)
  | _ => cases h

theorem shrinks_digits : Shrinks digits := by
  intro cs rest h
  unfold digits at h
  split at h
  · cases h
  · split at h
    · cases h
      exact (length_dropWhile_le ..).trans (Nat.le_succ _)
    · cases h

theorem length_dropSign_le (signs cs : List Char) : (dropSign signs cs).length ≤ cs.length := by
  unfold dropSign
  split
  · exact le_rfl
  · split
    · exact Nat.le_succ _
    · exact le_rfl

theorem shrinks_integer : Shrinks integer := by
  intro cs rest h
  unfold integer at h
  split at h
  · cases h
    exact Nat.le_succ _
  · exact shrinks_digits h

theorem shrinks_fraction : Shrinks fraction := by
  intro cs rest h
  unfold fraction at h
  split at h
  · exact (shrinks_digits h).trans (Nat.le_succ _)
  · cases h
    exact le_rfl

theorem shrinks_exponent : Shrinks exponent := by
  intro cs rest h
  unfold exponent at h
  split at h
  · cases h
    exact le_rfl
  · split at h
    · exact ((shrinks_digits h).trans (length_dropSign_le ..)).trans (Nat.le_succ _)
    · cases h
      exact le_rfl

theorem shrinks_number : Shrinks number := by
  intro cs rest h
  obtain ⟨afterFraction, hfraction, hexponent⟩ := Option.bind_eq_some_iff.mp h
  obtain ⟨afterInteger, hinteger, hfraction⟩ := Option.bind_eq_some_iff.mp hfraction
  exact (shrinks_exponent hexponent).trans <| (shrinks_fraction hfraction).trans <|
    (shrinks_integer hinteger).trans (length_dropSign_le ..)

theorem shrinks_scalar : Shrinks scalar := by
  intro cs rest h
  unfold scalar at h
  split at h
  · exact (shrinks_string h).trans (Nat.le_succ _)
  · exact (shrinks_literal _ h).trans (Nat.le_succ _)
  · exact (shrinks_literal _ h).trans (Nat.le_succ _)
  · exact (shrinks_literal _ h).trans (Nat.le_succ _)
  · exact shrinks_number h

theorem Shrinks.skipBlank {read : Reader} (hread : Shrinks read) {cs rest : List Char}
    (h : (read cs).map JsonText.skipBlank = some rest) : rest.length ≤ cs.length := by
  obtain ⟨after, hafter, rfl⟩ := Option.map_eq_some_iff.mp h
  exact (length_skipBlank_le after).trans (hread hafter)

variable {fuel : ℕ}

theorem shrinks_value_succ (hmembers : Shrinks (members fuel)) (helements : Shrinks (elements fuel)) :
    Shrinks (value (fuel + 1)) := by
  have hinner : ∀ {read : Reader} {c : Char} {cs rest : List Char}, Shrinks read →
      read (skipBlank cs) = some rest → rest.length ≤ (c :: cs).length := by
    intro read c cs rest hread h
    exact ((hread h).trans (length_skipBlank_le cs)).trans (Nat.le_succ _)
  have hclosed : ∀ {c close : Char} {cs rest : List Char}, skipBlank cs = close :: rest → rest.length ≤ (c :: cs).length := by
    intro c close cs rest hskip
    have hlen := length_skipBlank_le cs
    rw [hskip] at hlen
    exact (Nat.le_of_succ_le hlen).trans (Nat.le_succ _)
  intro cs rest h
  unfold value at h
  split at h
  · next cs =>
    split at h
    · next after hskip =>
      cases h
      exact hclosed hskip
    · exact hinner hmembers h
  · next cs =>
    split at h
    · next after hskip =>
      cases h
      exact hclosed hskip
    · exact hinner helements h
  · exact shrinks_scalar h

theorem shrinks_members_succ (hvalue : Shrinks (value fuel)) (hmembers : Shrinks (members fuel)) :
    Shrinks (members (fuel + 1)) := by
  intro cs rest h
  unfold members at h
  split at h
  · split at h
    · next cs _ afterName hname =>
      have hname' := shrinks_string.skipBlank hname
      have hblank := length_skipBlank_le afterName
      split at h
      · next more hmore =>
        have hmore' := hvalue.skipBlank hmore
        have hrest := (hmembers h).trans (length_skipBlank_le more)
        simp only [length_cons] at hname' hmore' ⊢
        omega
      · next after hafter =>
        have hafter' := hvalue.skipBlank hafter
        cases h
        simp only [length_cons] at hname' hafter' ⊢
        omega
      · cases h
    · cases h
  · cases h

theorem shrinks_elements_succ (hvalue : Shrinks (value fuel)) (helements : Shrinks (elements fuel)) :
    Shrinks (elements (fuel + 1)) := by
  intro cs rest h
  unfold elements at h
  split at h
  · next more hmore =>
    have hmore' := hvalue.skipBlank hmore
    have hrest := (helements h).trans (length_skipBlank_le more)
    rw [length_cons] at hmore'
    omega
  · next after hafter =>
    have hafter' := hvalue.skipBlank hafter
    cases h
    rw [length_cons] at hafter'
    omega
  · cases h

theorem shrinks_none : Shrinks fun _ => none := by
  intro cs rest h
  cases h

theorem shrinks_all (fuel : ℕ) : Shrinks (value fuel) ∧ Shrinks (members fuel) ∧ Shrinks (elements fuel) := by
  induction fuel with
  | zero => exact ⟨shrinks_none, shrinks_none, shrinks_none⟩
  | succ fuel ih =>
    obtain ⟨hvalue, hmembers, helements⟩ := ih
    exact ⟨shrinks_value_succ hmembers helements, shrinks_members_succ hvalue hmembers,
      shrinks_elements_succ hvalue helements⟩

theorem length_rawElements_le {cs : List Char} {items : List (List Char)}
    (h : rawElements fuel cs = some items) : (items.map List.length).sum + items.length ≤ cs.length := by
  induction fuel generalizing cs items with
  | zero => cases h
  | succ fuel ih =>
    unfold rawElements at h
    split at h
    · cases h
    next rest hrest =>
    have hlen := (shrinks_all fuel).1 hrest
    have hitem : (textUpTo cs rest).length = cs.length - rest.length := by
      rw [textUpTo, length_take]
      omega
    have hblank := length_skipBlank_le rest
    split at h
    · next more hmore =>
      obtain ⟨others, hothers, rfl⟩ := Option.map_eq_some_iff.mp h
      have hsum := (ih hothers).trans (length_skipBlank_le more)
      rw [hmore, length_cons] at hblank
      simp only [map_cons, sum_cons, length_cons, hitem]
      omega
    · next after hafter =>
      split at h
      · cases h
        rw [hafter, length_cons] at hblank
        simp only [map_cons, map_nil, sum_cons, sum_nil, length_cons, length_nil,
          hitem]
        omega
      · cases h
    · cases h

theorem length_rawArray_lt {text : String} {items : List String} (h : rawArray text = some items) :
    (items.map String.length).sum + items.length < text.length := by
  rw [← String.length_toList]
  unfold rawArray at h
  split at h
  · next cs htext =>
    rw [htext, length_cons]
    have hblank := length_skipBlank_le cs
    split at h
    · split at h
      · cases h
        simp only [map_nil, sum_nil, length_nil]
        omega
      · cases h
    · obtain ⟨raw, hraw, rfl⟩ := Option.map_eq_some_iff.mp h
      have hlen := length_rawElements_le hraw
      have hsizes : (raw.map String.ofList).map String.length = raw.map length := by
        rw [map_map]
        exact map_congr_left fun item _ => String.length_ofList
      rw [hsizes, length_map]
      omega
  · cases h

end HotAI.Lib.JsonText
