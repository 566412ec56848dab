import HotAI.Lib.Run

/-! # Functions of Go's `strings` package

Go strings are lists of runes. `trimSpace` cuts white space as `unicode.IsSpace` defines it. Case is that of the ASCII
letters. -/
namespace HotAI.Lib
open List String

def isSpace (c : Char) : Bool :=
  c ∈ ['\t', '\n', '\u000b', '\u000c', '\r', ' ', '\u0085', '\u00a0', '\u1680', '\u2028', '\u2029',
    '\u202f', '\u205f', '\u3000'] || ('\u2000' ≤ c && c ≤ '\u200a')

/-- The list without the ends that satisfy `p`. -/
def trimEnds {α : Type*} (p : α → Bool) (l : List α) : List α := (l.dropWhile p).rdropWhile p

variable {α : Type*} {as : List α} {f g : α → String}

theorem dropWhile_trimEnds (p : α → Bool) (l : List α) : (trimEnds p l).dropWhile p = trimEnds p l := by
  unfold trimEnds
  cases h : l.dropWhile p with
  | nil => simp
  | cons a rest =>
    have ha : p a = false := by
      have := head_dropWhile_not p (l := l) (by simp [h])
      simpa [h] using this
    -- the first element stays, because it stops the scan from the right
    have hne : (a :: rest).rdropWhile p ≠ [] := fun hnil => by
      have := rdropWhile_eq_nil_iff.mp hnil a (mem_cons_self ..)
      simp [ha] at this
    obtain ⟨b, rest', hrest⟩ := exists_cons_of_ne_nil hne
    have hb : b = a := by
      have hprefix := rdropWhile_prefix p (l := a :: rest)
      rw [hrest] at hprefix
      exact (cons_prefix_cons.mp hprefix).1
    subst hb
    rw [hrest, dropWhile_cons_of_neg (by simp [ha])]

theorem trimEnds_idem (p : α → Bool) (l : List α) : trimEnds p (trimEnds p l) = trimEnds p l := by
  rw [trimEnds, dropWhile_trimEnds, trimEnds, rdropWhile_idempotent]

def trimSpace (s : String) : String := String.ofList (trimEnds isSpace s.toList)

theorem trimSpace_idem (s : String) : trimSpace (trimSpace s) = trimSpace s := by
  unfold trimSpace
  rw [toList_ofList, trimEnds_idem]

theorem length_trimSpace_le (s : String) : (trimSpace s).length ≤ s.length := by
  have hcut : (trimEnds isSpace s.toList).Sublist s.toList :=
    (List.rdropWhile_prefix isSpace _).sublist.trans (dropWhile_sublist isSpace)
  rw [trimSpace, length_ofList]
  exact hcut.length_le

def toLower (s : String) : String := String.ofList (s.toList.map Char.toLower)

def toUpper (s : String) : String := String.ofList (s.toList.map Char.toUpper)

def equalFold (s t : String) : Bool := toLower s = toLower t

/-! ## Searching and cutting -/

def hasPrefix (s start : String) : Bool := start.toList.isPrefixOf s.toList

def hasSuffix (s «end» : String) : Bool := «end».toList.isSuffixOf s.toList

def contains (s part : String) : Bool := s.toList.tails.any part.toList.isPrefixOf

def trimPrefix (s start : String) : String :=
  if hasPrefix s start then String.ofList (s.toList.drop start.length) else s

def trimSuffix (s «end» : String) : String :=
  if hasSuffix s «end» then String.ofList (s.toList.take (s.length - «end».length)) else s

/-- The pieces between the occurrences of `sep`, found from the left without overlap; `skip` elements are still to be passed
over. -/
def splitAux {α : Type*} [BEq α] (sep : List α) : ℕ → List α → List α → List (List α)
  | _, acc, [] => [acc.reverse]
  | skip + 1, acc, _ :: rest => splitAux sep skip acc rest
  | 0, acc, a :: rest =>
      if sep.isPrefixOf (a :: rest) then acc.reverse :: splitAux sep (sep.length - 1) [] rest
      else splitAux sep 0 (a :: acc) rest

/-- `strings.Split` for a separator that is not empty. -/
def split (s sep : String) : List String := (splitAux sep.toList 0 [] s.toList).map String.ofList

/-- `strings.Replace(s, old, new, 1)` for an `old` that is not empty. -/
def replaceFirst (s old new : String) : String :=
  match split s old with
  | first :: second :: rest => first ++ new ++ old.intercalate (second :: rest)
  | _ => s

/-- `strings.ReplaceAll` for an `old` that is not empty. -/
def replaceAll (s old new : String) : String := new.intercalate (split s old)

def dropBytes : ℕ → List Char → List Char
  | _, [] => []
  | n, c :: cs => if n = 0 then c :: cs else dropBytes (n - c.utf8Size) cs

/-- `s[n:]` for an `n` between two runes. -/
def sliceFrom (s : String) (n : ℕ) : String := String.ofList (dropBytes n s.toList)

theorem sliceFrom_zero (s : String) : sliceFrom s 0 = s := by
  unfold sliceFrom
  cases h : s.toList with
  | nil => exact (toList_eq_nil_iff.mp h).symm
  | cons c cs => rw [dropBytes, if_pos rfl, ← h, ofList_toList]

/-! ## Concatenation -/

def joinMap {α : Type*} (f : α → String) : List α → String
  | [] => ""
  | a :: as => f a ++ joinMap f as

theorem joinMap_append (f : α → String) (as bs : List α) : joinMap f (as ++ bs) = joinMap f as ++ joinMap f bs := by
  induction as with
  | nil => exact String.empty_append.symm
  | cons a as ih => rw [cons_append, joinMap, ih, joinMap, String.append_assoc]

theorem joinMap_map {α β : Type*} (f : β → String) (g : α → β) (as : List α) :
    joinMap f (as.map g) = joinMap (fun a => f (g a)) as := by
  induction as with
  | nil => rfl
  | cons a as ih => rw [map_cons, joinMap, ih, joinMap]

theorem joinMap_eq_empty_iff : joinMap f as = "" ↔ ∀ a ∈ as, f a = "" := by
  induction as with
  | nil => exact ⟨fun _ _ h => absurd h not_mem_nil, fun _ => rfl⟩
  | cons a as ih => rw [joinMap, append_eq_empty_iff, ih, forall_mem_cons]

theorem length_joinMap_le (h : ∀ a ∈ as, (f a).length ≤ (g a).length) : (joinMap f as).length ≤ (joinMap g as).length := by
  induction as with
  | nil => exact le_rfl
  | cons a as ih =>
    obtain ⟨ha, has⟩ := forall_mem_cons.mp h
    have hrest := ih has
    rw [joinMap, joinMap, String.length_append, String.length_append]
    omega

theorem append_eq_append_iff_of_length_le {a b c d : String} (hac : a.length ≤ c.length) (hbd : b.length ≤ d.length) :
    a ++ b = c ++ d ↔ a = c ∧ b = d := by
  constructor
  · intro h
    have hlength := congrArg String.length h
    rw [String.length_append, String.length_append] at hlength
    have hlist : a.toList ++ b.toList = c.toList ++ d.toList := by
      rw [← String.toList_append, ← String.toList_append, h]
    obtain ⟨hac', hbd'⟩ := append_inj hlist (by rw [String.length_toList, String.length_toList]; omega)
    exact ⟨String.toList_inj.mp hac', String.toList_inj.mp hbd'⟩
  · rintro ⟨rfl, rfl⟩
    rfl

theorem joinMap_eq_joinMap_iff (h : ∀ a ∈ as, (f a).length ≤ (g a).length) :
    joinMap f as = joinMap g as ↔ ∀ a ∈ as, f a = g a := by
  induction as with
  | nil => simp [joinMap]
  | cons a as ih =>
    obtain ⟨ha, has⟩ := forall_mem_cons.mp h
    rw [joinMap, joinMap, append_eq_append_iff_of_length_le ha (length_joinMap_le has), ih has, forall_mem_cons]

theorem flatMap_eq_flatMap_iff {α β : Type*} {f g : α → List β} {as : List α}
    (h : ∀ a ∈ as, (f a).length ≤ (g a).length) : as.flatMap f = as.flatMap g ↔ ∀ a ∈ as, f a = g a := by
  induction as with
  | nil => simp
  | cons a as ih =>
    obtain ⟨ha, has⟩ := forall_mem_cons.mp h
    have hle : (as.flatMap f).length ≤ (as.flatMap g).length := by
      rw [length_flatMap, length_flatMap]
      exact sum_le_sum has
    rw [flatMap_cons, flatMap_cons, forall_mem_cons, ← ih has]
    constructor
    · intro heq
      have hlength := congrArg List.length heq
      rw [List.length_append, List.length_append] at hlength
      exact append_inj heq (by omega)
    · rintro ⟨h₁, h₂⟩
      rw [h₁, h₂]

end HotAI.Lib
