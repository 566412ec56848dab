import HotAI.Pricing.RuleEditor
import HotAI.Pricing.TopLevel

/-! # Conditions through the editor

The printer escapes the strings of a condition, the reader takes paths and time zones as they stand and reads values as
JSON. Without escapes and blanks to trim, a printed condition is read back. -/
namespace HotAI.RuleEditor
open HotAI.Lib JsonText List
open HotAI.BillingExpr (Text trim splitTopLevel splitTopLevelMultiply splitTopLevelAnd isNumberChar isNumberText isJsSpace
  isLineTerminator readCall literalArgument stringLiteral isJson inParens isNumericLiteral paramGuard stripEnd passOver
  Separate Solid Sign Apart passOver_append passOver_plain splitTopLevel_intercalate depthAfter mantissa isEdge isEdge_iff times)

/-! ## Numbers -/

def Takes (p : Char → Bool) (s rest : Text) : Prop := ∃ front, s = front ++ rest ∧ front.all p

variable {s rest : Text} {c : Char}

theorem Takes.trans {p : Char → Bool} {t u : Text} (h : Takes p s t) (h' : Takes p t u) : Takes p s u := by
  obtain ⟨front, rfl, hfront⟩ := h
  obtain ⟨front', rfl, hfront'⟩ := h'
  refine ⟨front ++ front', (append_assoc ..).symm, ?_⟩
  rw [all_append, hfront, hfront']
  rfl

theorem Takes.refl (p : Char → Bool) (s : Text) : Takes p s s := ⟨[], rfl, rfl⟩

theorem Takes.cons {p : Char → Bool} {c : Char} {s rest : Text} (hc : p c = true) (h : Takes p s rest) :
    Takes p (c :: s) rest := by
  obtain ⟨front, rfl, hfront⟩ := h
  refine ⟨c :: front, rfl, ?_⟩
  rw [all_cons, hc, hfront]
  rfl

theorem isNumberChar_of_isDigit (h : c.isDigit = true) : isNumberChar c = true := by
  rw [isNumberChar, h, Bool.true_or]

theorem takes_dropWhile (s : Text) : Takes isNumberChar s (s.dropWhile Char.isDigit) := by
  refine ⟨s.takeWhile Char.isDigit, takeWhile_append_dropWhile.symm, ?_⟩
  exact all_eq_true.mpr fun c hc => isNumberChar_of_isDigit (mem_takeWhile_imp hc)

theorem takes_digits (h : digits s = some rest) : Takes isNumberChar s rest := by
  cases s with
  | nil => cases h
  | cons c s =>
    rw [digits] at h
    split at h
    · rename_i hc
      cases h
      exact .cons (isNumberChar_of_isDigit hc) (takes_dropWhile s)
    · cases h

theorem takes_dropSign {signs : List Char} (hsigns : ∀ c ∈ signs, isNumberChar c = true) (s : Text) :
    Takes isNumberChar s (dropSign signs s) := by
  cases s with
  | nil => exact .refl ..
  | cons c s =>
    rw [dropSign]
    split
    · rename_i hc
      exact .cons (hsigns c hc) (.refl ..)
    · exact .refl ..

theorem takes_mantissa (h : mantissa s = some rest) : Takes isNumberChar s rest := by
  unfold mantissa at h
  split at h
  · rename_i more hdigits
    cases h
    exact (takes_digits hdigits).trans (.cons (by decide) (takes_dropWhile more))
  · rename_i hdigits
    cases h
    exact takes_digits hdigits
  · split at h
    · exact .cons (by decide) (takes_digits h)
    · cases h

theorem takes_exponent (h : exponent s = some rest) : Takes isNumberChar s rest := by
  cases s with
  | nil =>
    cases h
    exact .refl ..
  | cons c s =>
    rw [exponent] at h
    split at h
    · rename_i hc
      have hchar : isNumberChar c = true := by rcases hc with rfl | rfl <;> decide
      have hsigns : ∀ c ∈ ['+', '-'], isNumberChar c = true := all_eq_true.mp (by decide)
      exact .cons hchar ((takes_dropSign hsigns s).trans (takes_digits h))
    · cases h
      exact .refl ..

theorem isNumberText_of_isNumericLiteral (h : isNumericLiteral s = true) : isNumberText s = true := by
  have hread := of_decide_eq_true h
  obtain ⟨rest, hmantissa, hexponent⟩ := Option.bind_eq_some_iff.mp hread
  have hsigns : ∀ c ∈ ['-'], isNumberChar c = true := all_eq_true.mp (by decide)
  obtain ⟨front, hs, hfront⟩ := ((takes_dropSign hsigns s).trans (takes_mantissa hmantissa)).trans
    (takes_exponent hexponent)
  rw [append_nil] at hs
  have hne : s ≠ [] := by
    rintro rfl
    exact absurd h (by decide)
  rw [isNumberText, decide_eq_true hne, hs, hfront]
  rfl

theorem toNat_of_isNumberChar (h : isNumberChar c = true) : c.toNat ≤ 101 := by
  rcases Bool.or_eq_true_iff.mp h with hdigit | hmem
  · exact (Char.isDigit_iff_toNat.mp hdigit).2.trans (by decide)
  · have hsmall : ['.', 'e', 'E', '+', '-'].all (·.toNat ≤ 101) = true := by decide
    exact of_decide_eq_true (all_eq_true.mp hsmall c (of_decide_eq_true hmem))

theorem isNumberChar_of_isJsSpace (h : isJsSpace c = true) : isNumberChar c = false := by
  rcases Bool.or_eq_true_iff.mp h with hmem | hrange
  · have hlist : ['\t', '\n', '\u000b', '\u000c', '\r', ' ', '\u00a0', '\u1680', '\u2028', '\u2029', '\u202f', '\u205f',
        '\u3000', '\ufeff'].all (fun x => !isNumberChar x) = true := by decide
    exact (Bool.not_eq_true' _).mp (all_eq_true.mp hlist c (of_decide_eq_true hmem))
  · have hlarge : 8192 ≤ c.toNat := of_decide_eq_true (Bool.and_eq_true_iff.mp hrange).1
    refine Bool.eq_false_iff.mpr fun hc => ?_
    have := toNat_of_isNumberChar hc
    omega

theorem isNumberChar_quiet (h : isNumberChar c = true) : isJsSpace c = false ∧ c ∉ ['&', '*', '|', '(', ')', ' ', '"'] := by
  constructor
  · refine Bool.eq_false_iff.mpr fun hspace => ?_
    rw [isNumberChar_of_isJsSpace hspace] at h
    cases h
  · intro hmem
    have hlist : ['&', '*', '|', '(', ')', ' ', '"'].all (fun x => !isNumberChar x) = true := by decide
    have hc := all_eq_true.mp hlist c hmem
    rw [h] at hc
    cases hc

theorem isNumberText_iff : isNumberText s = true ↔ s ≠ [] ∧ ∀ c ∈ s, isNumberChar c = true := by
  rw [isNumberText, Bool.and_eq_true_iff, all_eq_true, decide_eq_true_iff]

theorem solid_of_isNumberText (h : isNumberText s = true) : Solid s := by
  obtain ⟨hne, hchars⟩ := isNumberText_iff.mp h
  have hedge : ∀ c ∈ s, isEdge c = true := by
    intro c hc
    obtain ⟨hspace, hquiet⟩ := isNumberChar_quiet (hchars c hc)
    exact isEdge_iff.mpr ⟨hspace, fun hsign => hquiet (mem_append_left ['(', ')', ' ', '"'] hsign)⟩
  exact ⟨⟨s.head hne, s.tail, (cons_head_tail hne).symm, hedge _ (head_mem hne)⟩,
    ⟨s.dropLast, s.getLast hne, (dropLast_append_getLast hne).symm, hedge _ (getLast_mem hne)⟩⟩

theorem solid_of_isNumericLiteral (h : isNumericLiteral s = true) : Solid s :=
  solid_of_isNumberText (isNumberText_of_isNumericLiteral h)

/-! ## Strings -/

def Plain (s : Text) : Prop := ∀ c ∈ s, c ≠ '"' ∧ c ≠ '\\' ∧ 32 ≤ c.toNat

instance (s : Text) : Decidable (Plain s) := List.decidableBAll _ s

def hexDigits : List Char := ['0', '1', '2', '3', '4', '5', '6', '7', '8', '9', 'a', 'b', 'c', 'd', 'e', 'f']

theorem digitChar_mem {n : ℕ} (h : n < 16) : Nat.digitChar n ∈ hexDigits := by
  have hall : ∀ n < 16, Nat.digitChar n ∈ hexDigits := by decide
  exact hall n h

def unescapeChar : Char → Char
  | 'b' => '\u0008'
  | 'f' => '\u000c'
  | 'n' => '\n'
  | 'r' => '\r'
  | 't' => '\t'
  | c => c

theorem escapeChar_forms (c : Char) : (escapeChar c = [c] ∧ c ≠ '"' ∧ c ≠ '\\' ∧ 32 ≤ c.toNat) ∨
    ((c = '"' ∨ c = '\\' ∨ c.toNat < 32) ∧ ∃ x ∈ ['"', '\\', 'b', 'f', 'n', 'r', 't'],
      escapeChar c = ['\\', x] ∧ unescapeChar x = c) ∨
    (c.toNat < 32 ∧ escapeChar c = ['\\', 'u', '0', '0', Nat.digitChar (c.toNat / 16), Nat.digitChar (c.toNat % 16)]) := by
  by_cases hspecial : c ∈ ['"', '\\', '\u0008', '\u000c', '\n', '\r', '\t']
  · right
    left
    simp only [mem_cons, not_mem_nil, or_false] at hspecial
    rcases hspecial with rfl | rfl | rfl | rfl | rfl | rfl | rfl
    all_goals exact ⟨by decide, _, by decide, rfl, by rfl⟩
  · simp only [mem_cons, not_mem_nil, or_false, not_or] at hspecial
    obtain ⟨hquote, hback, hb, hf, hn, hr, ht⟩ := hspecial
    rw [escapeChar, if_neg hquote, if_neg hback, if_neg hb, if_neg hf, if_neg hn, if_neg hr, if_neg ht]
    by_cases hsmall : c.toNat < 32
    · exact .inr (.inr ⟨hsmall, if_pos hsmall⟩)
    · exact .inl ⟨if_neg hsmall, hquote, hback, not_lt.mp hsmall⟩

theorem escapeChar_cases (c : Char) : (escapeChar c = [c] ∧ c ≠ '"' ∧ c ≠ '\\' ∧ 32 ≤ c.toNat) ∨
    ((c = '"' ∨ c = '\\' ∨ c.toNat < 32) ∧ ∃ x more, escapeChar c = '\\' :: x :: more ∧
      x ∈ ['"', '\\', 'b', 'f', 'n', 'r', 't', 'u'] ∧ ∀ y ∈ more, y ∈ hexDigits) := by
  rcases escapeChar_forms c with hself | ⟨hc, x, hx, heq, -⟩ | ⟨hsmall, heq⟩
  · exact .inl hself
  · exact .inr ⟨hc, x, [], heq, mem_append_left ['u'] hx, fun y hy => absurd hy not_mem_nil⟩
  · refine .inr ⟨.inr (.inr hsmall), 'u', _, heq, by decide, fun y hy => ?_⟩
    simp only [mem_cons, not_mem_nil, or_false] at hy
    rcases hy with rfl | rfl | rfl | rfl
    · decide
    · decide
    · exact digitChar_mem (by omega)
    · exact digitChar_mem (by omega)

theorem escape_cons (c : Char) (s : Text) : escape (c :: s) = escapeChar c ++ escape s := rfl

theorem escape_of_plain (h : Plain s) : escape s = s := by
  induction s with
  | nil => rfl
  | cons c s ih =>
    obtain ⟨hquote, hback, hlarge⟩ := h c mem_cons_self
    rcases escapeChar_cases c with ⟨heq, -⟩ | ⟨hc, -⟩
    · rw [escape_cons, heq, ih fun x hx => h x (mem_cons_of_mem _ hx)]
      rfl
    · rcases hc with hc | hc | hc
      · exact absurd hc hquote
      · exact absurd hc hback
      · omega

theorem stringLiteral_cons (hquote : c ≠ '"') (hback : c ≠ '\\') (s : Text) : stringLiteral (c :: s) = stringLiteral s := by
  rw [stringLiteral]
  · exact hquote
  · exact fun _ _ hc _ => hback hc
  · exact fun hc _ => hback hc

theorem stringLiteral_hex {more : Text} (h : ∀ y ∈ more, y ∈ hexDigits) (rest : Text) :
    stringLiteral (more ++ rest) = stringLiteral rest := by
  induction more with
  | nil => rfl
  | cons y more ih =>
    have hall : hexDigits.all (fun y => y ≠ '"' ∧ y ≠ '\\') = true := by decide
    have hy := of_decide_eq_true (all_eq_true.mp hall y (h y mem_cons_self))
    rw [cons_append, stringLiteral_cons hy.1 hy.2]
    exact ih fun x hx => h x (mem_cons_of_mem _ hx)

theorem stringLiteral_escape (s rest : Text) : stringLiteral (escape s ++ '"' :: rest) = some rest := by
  induction s with
  | nil => rfl
  | cons c s ih =>
    rw [escape_cons, append_assoc]
    rcases escapeChar_cases c with ⟨heq, hquote, hback, -⟩ | ⟨-, x, more, heq, hx, hmore⟩
    · rw [heq, singleton_append, stringLiteral_cons hquote hback, ih]
    · have hline : isLineTerminator x = false := by
        have hall : ['"', '\\', 'b', 'f', 'n', 'r', 't', 'u'].all (fun x => !isLineTerminator x) = true := by decide
        exact (Bool.not_eq_true' _).mp (all_eq_true.mp hall x hx)
      rw [heq, cons_append, cons_append, stringLiteral, hline, if_neg Bool.false_ne_true,
        stringLiteral_hex hmore, ih]

theorem literalArgument_quote (s : Text) : literalArgument (quote s ++ [')']) = some (quote s) := by
  have hread : stringLiteral (escape s ++ ['"'] ++ [')']) = some [')'] := by
    rw [List.append_assoc]
    exact stringLiteral_escape s [')']
  rw [quote, List.cons_append, List.cons_append, literalArgument, if_pos hread, List.dropLast_concat]

/-! ## A parser of JSON strings -/

def hexValue (c : Char) : ℕ := hexDigits.idxOf c.toLower

def unescape : Text → Text
  | '\\' :: 'u' :: a :: b :: c :: d :: cs =>
      Char.ofNat (((hexValue a * 16 + hexValue b) * 16 + hexValue c) * 16 + hexValue d) :: unescape cs
  | '\\' :: c :: cs => unescapeChar c :: unescape cs
  | c :: cs => c :: unescape cs
  | [] => []

theorem string_escape (s rest : Text) : string (escape s ++ '"' :: rest) = some rest := by
  induction s with
  | nil => rfl
  | cons c s ih =>
    rw [escape_cons, append_assoc]
    rcases escapeChar_forms c with ⟨heq, hquote, hback, hlarge⟩ | ⟨-, x, hx, heq, -⟩ | ⟨hsmall, heq⟩
    · have hstep : string (c :: (escape s ++ '"' :: rest)) = if c.toNat < 32 then none else string (escape s ++ '"' :: rest) := by
        rw [string]
        · exact hquote
        · exact fun _ _ _ _ _ hc _ => hback hc
        · exact fun _ _ hc _ => hback hc
      rw [heq, singleton_append, hstep, if_neg (not_lt.mpr hlarge), ih]
    · have hstep : string ('\\' :: x :: (escape s ++ '"' :: rest)) = string (escape s ++ '"' :: rest) := by
        simp only [mem_cons, not_mem_nil, or_false] at hx
        rcases hx with rfl | rfl | rfl | rfl | rfl | rfl | rfl <;> rfl
      rw [heq, cons_append, singleton_append, hstep, ih]
    · have hhex : ∀ x ∈ hexDigits, isHex x = true := all_eq_true.mp (by decide)
      rw [heq]
      simp only [cons_append, nil_append, string, all_cons, hhex _ (digitChar_mem (show c.toNat / 16 < 16 by omega)),
        hhex _ (digitChar_mem (show c.toNat % 16 < 16 by omega))]
      exact ih

theorem unescape_code {n : ℕ} (h : n < 32) :
    Char.ofNat (((hexValue '0' * 16 + hexValue '0') * 16 + hexValue (Nat.digitChar (n / 16))) * 16 +
      hexValue (Nat.digitChar (n % 16))) = Char.ofNat n := by
  have hall : ∀ n < 32, Char.ofNat (((hexValue '0' * 16 + hexValue '0') * 16 + hexValue (Nat.digitChar (n / 16))) * 16 +
      hexValue (Nat.digitChar (n % 16))) = Char.ofNat n := by decide +kernel
  exact hall n h

theorem unescape_escape (s : Text) : unescape (escape s) = s := by
  induction s with
  | nil => rfl
  | cons c s ih =>
    rw [escape_cons]
    rcases escapeChar_forms c with ⟨heq, -, hback, -⟩ | ⟨-, x, hx, heq, hxc⟩ | ⟨hsmall, heq⟩
    · have hstep : unescape (c :: escape s) = c :: unescape (escape s) := by
        rw [unescape]
        · exact fun _ _ _ _ _ hc _ => hback hc
        · exact fun _ _ hc _ => hback hc
      rw [heq, singleton_append, hstep, ih]
    · have hstep : unescape ('\\' :: x :: escape s) = unescapeChar x :: unescape (escape s) := by
        simp only [mem_cons, not_mem_nil, or_false] at hx
        rcases hx with rfl | rfl | rfl | rfl | rfl | rfl | rfl <;> rfl
      rw [heq, cons_append, singleton_append, hstep, hxc, ih]
    · rw [heq]
      simp only [cons_append, nil_append, unescape]
      rw [unescape_code hsmall, Char.ofNat_toNat, ih]

/-- `JSON.parse` on strings and `null`; any other value is left as its text. -/
def decode (s : Text) : JsonValue :=
  match (skipBlank s).rdropWhile isBlank with
  | '"' :: inside => .value (unescape inside.dropLast)
  | text => if text = "null".toList then .null else .value text

theorem decode_quote (s : Text) : decode (quote s) = .value s := by
  have hskip : (skipBlank (quote s)).rdropWhile isBlank = '"' :: (escape s ++ ['"']) := by
    exact rdropWhile_concat_neg _ ('"' :: escape s) '"' (by decide)
  rw [decode, hskip]
  show JsonValue.value (unescape (escape s ++ ['"']).dropLast) = .value s
  rw [dropLast_concat, unescape_escape]

theorem isJson_quote (s : Text) : isJson (quote s) = true := by
  have hvalue : ∀ fuel, value (fuel + 1) (skipBlank (quote s)) = some [] := fun fuel => string_escape s []
  rw [isJson, hvalue]
  rfl

/-- A `JSON.parse` as the parameter asks for it. -/
def jsonParse : JsonParse where
  parse s := if isJson s then some (decode s) else none
  isSome_parse s := by cases isJson s <;> rfl
  parse_quote s := by rw [isJson_quote, if_pos rfl, decode_quote]

/-! ## Reading one condition -/

theorem literal_append (word : String) (rest : Text) : literal word (word.toList ++ rest) = some rest := by
  rw [literal, if_pos (List.isPrefixOf_iff_prefix.mpr (prefix_append ..)), ← String.length_toList, drop_left]

def differs (s t : Text) : Bool := (s.zip t).any fun pair => pair.1 != pair.2

theorem not_prefix_of_differs {t : Text} (h : differs s t = true) (rest : Text) : ¬s <+: t ++ rest := by
  induction s generalizing t with
  | nil => cases h
  | cons c s ih =>
    cases t with
    | nil => cases h
    | cons d t =>
      intro hstart
      rw [cons_append, cons_prefix_cons] at hstart
      rcases Bool.or_eq_true_iff.mp h with hc | hmore
      · exact bne_iff_ne.mp hc hstart.1
      · exact ih hmore hstart.2

variable {path timezone : Text}

theorem readCall_call (fn : String) (hplain : Plain path) (hne : path ≠ []) (rest : Text) :
    readCall fn (call fn (quote path) ++ rest) = some (path, rest) := by
  have htext : call fn (quote path) ++ rest = (fn ++ "(\"").toList ++ (path ++ '"' :: ')' :: rest) := by
    simp only [call, quote, escape_of_plain hplain, String.toList_append, append_assoc, cons_append,
      nil_append]
    rfl
  have hinside : ∀ c ∈ path, decide (c ≠ '"') = true := fun c hc => decide_eq_true (hplain c hc).1
  rw [htext, readCall, literal_append, Option.bind_some, takeWhile_append_of_pos hinside,
    dropWhile_append_of_pos hinside, takeWhile_cons_of_neg (by decide), append_nil, if_neg hne]
  rfl

variable {mode : TimeMode} {rangeStart rangeEnd : Text} {front : Text}

theorem readCall_other {fn : String} (h : differs (fn ++ "(\"").toList front = true) (rest : Text) :
    readCall fn (front ++ rest) = none := by
  rw [readCall, literal, if_neg, Option.bind_none]
  rw [List.isPrefixOf_iff_prefix]
  exact not_prefix_of_differs h rest

theorem readCall_call_other {fn other : String} (h : differs (fn ++ "(\"").toList (other ++ "(").toList = true)
    (arg rest : Text) : readCall fn (call other arg ++ rest) = none := by
  rw [call, List.append_assoc, List.append_assoc]
  exact readCall_other h _

variable (fn : TimeFunc) (json : JsonParse) (source : Source)

theorem findSome_readCall {α : Type} (hplain : Plain timezone) (hne : timezone ≠ [])
    (rest : Text) (k : TimeFunc → Text × Text → Option α) :
    TimeFunc.all.findSome? (fun f => (readCall f.name (call fn.name (quote timezone) ++ rest)).bind (k f)) =
      k fn (timezone, rest) := by
  have hself := readCall_call fn.name hplain hne rest
  have hother : ∀ f : TimeFunc, f ≠ fn → readCall f.name (call fn.name (quote timezone) ++ rest) = none := by
    intro f hf
    refine readCall_call_other ?_ _ _
    cases f <;> cases fn <;> first | rfl | exact absurd rfl hf
  have hstep : ∀ f : TimeFunc, (readCall f.name (call fn.name (quote timezone) ++ rest)).bind (k f) =
      if f = fn then k fn (timezone, rest) else none := by
    intro f
    split
    · rename_i hf
      rw [hf, hself, Option.bind_some]
    · rename_i hf
      rw [hother f hf, Option.bind_none]
  rw [funext hstep]
  cases k fn (timezone, rest) <;> cases fn <;> rfl

def RequestCondition.clean : RequestCondition → RequestCondition
  | .time timeFunc timezone mode value rangeStart rangeEnd =>
      if mode = .range then .time timeFunc timezone mode [] rangeStart rangeEnd
      else .time timeFunc timezone mode value [] []
  | .field source path mode value => .field source path mode (if mode = .isPresent then [] else value)
  | .compare path op value => .compare path op value

def RequestCondition.Readable : RequestCondition → Prop
  | .time _ timezone mode value rangeStart rangeEnd => timezone ≠ [] ∧ Plain timezone ∧
      if mode = .range then isNumericLiteral rangeStart = true ∧ isNumericLiteral rangeEnd = true
      else isNumericLiteral value = true
  | .field _ path mode value => path ≠ [] ∧ Plain path ∧ trim path = path ∧
      (mode ≠ .isPresent → trim value = value) ∧ (mode = .eq → '\u2028' ∉ value ∧ '\u2029' ∉ value)
  | .compare path _ value => path ≠ [] ∧ Plain path ∧ trim path = path ∧ isNumericLiteral value = true

theorem takeWhile_number {v rest : Text} (h : isNumberText v = true) (hrest : ∀ c ∈ rest.head?, isNumberChar c = false) :
    (v ++ rest).takeWhile isNumberChar = v ∧ (v ++ rest).dropWhile isNumberChar = rest := by
  have hv := (isNumberText_iff.mp h).2
  rw [takeWhile_append_of_pos hv, dropWhile_append_of_pos hv]
  cases rest with
  | nil => exact ⟨append_nil v, rfl⟩
  | cons c rest =>
    have hc : ¬isNumberChar c = true := by
      rw [hrest c rfl]
      exact Bool.false_ne_true
    rw [takeWhile_cons_of_neg hc, dropWhile_cons_of_neg hc, append_nil]
    exact ⟨rfl, rfl⟩

def rangeText (fn : TimeFunc) (timezone rangeStart rangeEnd : Text) : Text :=
  call fn.name (quote timezone) ++ " >= ".toList ++ rangeStart ++ " || ".toList ++ call fn.name (quote timezone) ++
    " < ".toList ++ rangeEnd

theorem parseTimeRange_rangeText (hplain : Plain timezone)
    (hne : timezone ≠ []) (hstart : isNumericLiteral rangeStart = true) (hend : isNumericLiteral rangeEnd = true) :
    parseTimeRange (rangeText fn timezone rangeStart rangeEnd) = some (.time fn timezone .range [] rangeStart rangeEnd) := by
  have hsecond : (" || ".toList ++ call fn.name (quote timezone) ++ " < ".toList) =
      (" || " ++ fn.name ++ "(\"" ++ String.ofList timezone ++ "\") < ").toList := by
    simp only [call, quote, escape_of_plain hplain, String.toList_append, String.toList_ofList, append_assoc,
      cons_append, nil_append]
    rfl
  have htext : rangeText fn timezone rangeStart rangeEnd = call fn.name (quote timezone) ++ (" >= ".toList ++ (rangeStart ++
      ((" || " ++ fn.name ++ "(\"" ++ String.ofList timezone ++ "\") < ").toList ++ rangeEnd))) := by
    rw [← hsecond, rangeText]
    simp only [append_assoc]
  have hnumber := isNumberText_of_isNumericLiteral hstart
  have hnext : ∀ c ∈ ((" || " ++ fn.name ++ "(\"" ++ String.ofList timezone ++ "\") < ").toList ++ rangeEnd).head?,
      isNumberChar c = false := by
    intro c hc
    rw [← hsecond] at hc
    cases hc
    rfl
  obtain ⟨htake, hdrop⟩ := takeWhile_number hnumber hnext
  rw [htext, parseTimeRange, findSome_readCall fn hplain hne]
  dsimp only
  rw [literal_append, Option.bind_some, htake, hdrop, if_neg (isNumberText_iff.mp hnumber).1, literal_append,
    Option.bind_some, if_pos (isNumberText_of_isNumericLiteral hend)]

variable {value : Text}

theorem parseTimeRange_comparison (hplain : Plain timezone) (hne : timezone ≠ []) (hvalue : isNumericLiteral value = true) :
    parseTimeRange (call fn.name (quote timezone) ++ ((timeOp mode).toList ++ value)) = none := by
  have hnumber := isNumberText_of_isNumericLiteral hvalue
  obtain ⟨htake, hdrop⟩ := @takeWhile_number value [] hnumber (fun c hc => nomatch hc)
  rw [append_nil] at htake hdrop
  rw [parseTimeRange, findSome_readCall fn hplain hne]
  dsimp only
  cases mode with
  | gte =>
    rw [timeOp, literal_append, Option.bind_some, htake, hdrop, if_neg (isNumberText_iff.mp hnumber).1, literal, if_neg,
      Option.bind_none]
    rw [List.isPrefixOf_iff_prefix, String.toList_append, String.toList_append, String.toList_append,
      String.toList_append]
    exact fun hnil => nomatch hnil
  | eq => rfl
  | lt => rfl
  | range => rfl

theorem parseTimeComparison_comparison (hmode : mode ≠ .range)
    (hplain : Plain timezone) (hne : timezone ≠ []) (hvalue : isNumericLiteral value = true) :
    parseTimeComparison (call fn.name (quote timezone) ++ ((timeOp mode).toList ++ value)) =
      some (.time fn timezone mode value [] []) := by
  have hnumber := isNumberText_of_isNumericLiteral hvalue
  rw [parseTimeComparison, findSome_readCall fn hplain hne]
  cases mode with
  | range => exact absurd rfl hmode
  | eq | gte | lt => simp only [findSome?, timeOp, literal_append, Option.bind_some, hnumber]; rfl

theorem inParens_call (arg rest : Text) : inParens (call fn.name arg ++ rest) = none := by
  cases fn <;> rfl

theorem tryParseTimeCondition_other (rest : Text)
    (h : (TimeFunc.all.all fun fn => differs (fn.name ++ "(\"").toList front) = true)
    (hparens : inParens (front ++ rest) = none) : tryParseTimeCondition (front ++ rest) = none := by
  have hcall : ∀ fn ∈ TimeFunc.all, readCall fn.name (front ++ rest) = none := fun fn hfn =>
    readCall_other (List.all_eq_true.mp h fn hfn) rest
  have hrange : parseTimeRange (front ++ rest) = none := by
    rw [parseTimeRange, List.findSome?_eq_none_iff]
    intro fn hfn
    rw [hcall fn hfn, Option.bind_none]
  have hcomparison : parseTimeComparison (front ++ rest) = none := by
    rw [parseTimeComparison, List.findSome?_eq_none_iff]
    intro fn hfn
    rw [hcall fn hfn, Option.bind_none]
  rw [tryParseTimeCondition, hrange, hparens, hcomparison]
  rfl

theorem tryParseTimeCondition_source (arg rest : Text) : tryParseTimeCondition (call source.name arg ++ rest) = none := by
  rw [call, append_assoc, append_assoc]
  cases source with
  | param => exact tryParseTimeCondition_other _ (by decide) rfl
  | header => exact tryParseTimeCondition_other _ (by decide) rfl

theorem readCall_source {source other : Source} (hne : other ≠ source) (arg rest : Text) :
    readCall other.name (call source.name arg ++ rest) = none := by
  refine readCall_call_other ?_ arg rest
  cases source <;> cases other <;> first | rfl | exact absurd rfl hne

theorem parsePresence_call (hplain : Plain path) (hne : path ≠ []) (fin rest : Text) :
    parsePresence source fin (call source.name (quote path) ++ rest) =
      if rest = fin then some (.field source path .isPresent []) else none := by
  rw [parsePresence, readCall_call _ hplain hne, Option.bind_some]

theorem parsePresence_other {source other : Source} (hne : other ≠ source) (fin arg rest : Text) :
    parsePresence other fin (call source.name arg ++ rest) = none := by
  rw [parsePresence, readCall_source hne, Option.bind_none]

theorem parseHas_source (source other : Source) (arg rest : Text) :
    parseHas other (call source.name arg ++ rest) = none := by
  cases source <;> rfl

theorem paramGuard_call {path rest : Text} (hplain : Plain path) (hne : path ≠ []) :
    paramGuard (call "param" (quote path) ++ (" != nil && ".toList ++ rest)) = some (path, rest) := by
  rw [paramGuard, readCall_call _ hplain hne, Option.bind_some]
  rfl

theorem tryParseRequestCondition_equals {raw : Text} (hplain : Plain path)
    (hne : path ≠ []) : tryParseRequestCondition json (call source.name (quote path) ++ (" == ".toList ++ raw)) =
      some (if raw = [] ∨ raw.any isLineTerminator then none
        else (parseExprLiteral json raw).map fun value => .field source path .eq value) := by
  have hpresence : ∀ other fin, fin = " != \"\"".toList ∨ fin = " != nil".toList →
      parsePresence other fin (call source.name (quote path) ++ (" == ".toList ++ raw)) = none := by
    intro other fin hfin
    by_cases hother : other = source
    · rw [hother, parsePresence_call source hplain hne, if_neg]
      rcases hfin with rfl | rfl <;> exact fun heq => nomatch heq
    · exact parsePresence_other hother ..
  have hguard : paramGuard (call source.name (quote path) ++ (" == ".toList ++ raw)) = none := by
    cases source with
    | param =>
      exact (congrArg (Option.bind · _) (readCall_call "param" hplain hne _)).trans rfl
    | header => rfl
  have hequals : parseEquals json (call source.name (quote path) ++ (" == ".toList ++ raw)) =
      if raw = [] ∨ raw.any isLineTerminator then none
        else (parseExprLiteral json raw).map fun value => .field source path .eq value := by
    have hself : ∀ k : Text × Text → Option RequestCondition, (readCall source.name (call source.name (quote path) ++
        (" == ".toList ++ raw))).bind k = k (path, " == ".toList ++ raw) := fun k => by
      rw [readCall_call _ hplain hne, Option.bind_some]
    rw [parseEquals]
    cases source with
    | param =>
      rw [findSome?_cons, hself, literal_append, Option.bind_some, findSome?_cons]
      cases hvalue : (if raw = [] ∨ raw.any isLineTerminator = true then none
        else (parseExprLiteral json raw).map fun value => RequestCondition.field .param path .eq value) <;> rfl
    | header =>
      rw [findSome?_cons, findSome?_cons, hself, literal_append, Option.bind_some]
      cases hvalue : (if raw = [] ∨ raw.any isLineTerminator = true then none
        else (parseExprLiteral json raw).map fun value => RequestCondition.field .header path .eq value) <;> rfl
  have hcomparison : parseComparison (call source.name (quote path) ++ (" == ".toList ++ raw)) = none := by
    rw [parseComparison, hguard, Option.bind_none]
  have hparamHas : parseParamHas (call source.name (quote path) ++ (" == ".toList ++ raw)) = none := by
    rw [parseParamHas, hguard, Option.bind_none]
  rw [tryParseRequestCondition, tryParseTimeCondition_source, hpresence .header _ (.inl rfl), hpresence .param _ (.inr rfl),
    parseHas_source, hparamHas, hcomparison, hequals]
  rfl

theorem solid_quote (s : Text) : Solid (quote s) :=
  ⟨⟨'"', escape s ++ ['"'], rfl, by decide⟩, ⟨'"' :: escape s, '"', rfl, by decide⟩⟩

theorem not_isLineTerminator_escape (hline : '\u2028' ∉ s) (hparagraph : '\u2029' ∉ s) :
    ∀ x ∈ escape s, isLineTerminator x = false := by
  intro x hx
  obtain ⟨c, hc, hxc⟩ := mem_flatMap.mp hx
  rcases escapeChar_cases c with ⟨heq, -, -, hlarge⟩ | ⟨-, y, more, heq, hy, hmore⟩
  · rw [heq, mem_singleton] at hxc
    subst hxc
    refine Bool.eq_false_iff.mpr fun hterminator => ?_
    have hmem : x ∈ ['\n', '\r', '\u2028', '\u2029'] := of_decide_eq_true hterminator
    simp only [mem_cons, not_mem_nil, or_false] at hmem
    rcases hmem with rfl | rfl | rfl | rfl
    · exact absurd hlarge (by decide)
    · exact absurd hlarge (by decide)
    · exact hline hc
    · exact hparagraph hc
  · have hall : ('\\' :: ['"', '\\', 'b', 'f', 'n', 'r', 't', 'u'] ++ hexDigits).all (fun x => !isLineTerminator x) = true := by
      decide
    refine (Bool.not_eq_true' _).mp (all_eq_true.mp hall x ?_)
    rw [heq, mem_cons, mem_cons] at hxc
    rcases hxc with rfl | rfl | hxc
    · exact mem_cons_self
    · exact mem_append_left _ (mem_cons_of_mem _ hy)
    · exact mem_append_right _ (hmore x hxc)

theorem isNumericLiteral_quote (s : Text) : isNumericLiteral (quote s) = false := rfl

theorem parseExprLiteral_quote (s : Text) : parseExprLiteral json (quote s) = some s := by
  rw [parseExprLiteral, (solid_quote s).trim_eq, json.parse_quote, isNumericLiteral_quote]
  rw [if_neg, if_neg Bool.false_ne_true]
  rintro (heq | heq) <;> cases heq

theorem solid_word (h : value = "true".toList ∨ value = "false".toList) : Solid value := by
  rcases h with rfl | rfl
  · exact ⟨⟨'t', "rue".toList, rfl, by decide⟩, ⟨"tru".toList, 'e', rfl, by decide⟩⟩
  · exact ⟨⟨'f', "alse".toList, rfl, by decide⟩, ⟨"fals".toList, 'e', rfl, by decide⟩⟩

theorem literal_cases {value : Text} (htrim : trim value = value) {P : Text → Prop}
    (hword : value = "true".toList ∨ value = "false".toList → P value)
    (hnumber : ¬(value = "true".toList ∨ value = "false".toList) → isNumericLiteral value = true → P value)
    (hstring : P (quote value)) : P (buildExprLiteral .eq value) := by
  rw [buildExprLiteral, if_neg (by decide), htrim]
  split
  · rename_i hvalue
    exact hword hvalue
  · rename_i hvalue
    split
    · rename_i hnumeric
      exact hnumber hvalue hnumeric
    · exact hstring

theorem solid_literal (htrim : trim value = value) : Solid (buildExprLiteral .eq value) :=
  literal_cases htrim solid_word (fun _ hnumeric => solid_of_isNumericLiteral hnumeric) (solid_quote value)

theorem not_isLineTerminator_literal (htrim : trim value = value) (hline : '\u2028' ∉ value)
    (hparagraph : '\u2029' ∉ value) : (buildExprLiteral .eq value).any isLineTerminator = false := by
  refine @literal_cases value htrim (fun text => text.any isLineTerminator = false) ?_ ?_ ?_
  · rintro (rfl | rfl) <;> rfl
  · intro _ hnumeric
    refine Bool.eq_false_iff.mpr fun hany => ?_
    obtain ⟨c, hc, hterminator⟩ := any_eq_true.mp hany
    have hnumber := (isNumberText_iff.mp (isNumberText_of_isNumericLiteral hnumeric)).2 c hc
    have hlist : ['\n', '\r', '\u2028', '\u2029'].all (fun x => !isNumberChar x) = true := by decide
    have hnot := all_eq_true.mp hlist c (of_decide_eq_true hterminator)
    rw [hnumber] at hnot
    cases hnot
  · have hinside : (escape value).any isLineTerminator = false :=
      any_eq_false.mpr fun x hx => by
        rw [not_isLineTerminator_escape hline hparagraph x hx]
        exact Bool.false_ne_true
    rw [quote, any_append, any_cons, hinside]
    rfl

theorem parseExprLiteral_literal (htrim : trim value = value) :
    parseExprLiteral json (buildExprLiteral .eq value) = some value := by
  refine @literal_cases value htrim (fun text => parseExprLiteral json text = some value) ?_ ?_
    (parseExprLiteral_quote json value)
  · intro hword
    rw [parseExprLiteral, htrim, if_pos hword]
  · intro hword hnumeric
    rw [parseExprLiteral, htrim, if_neg hword, if_pos hnumeric]

theorem hasExpr_eq (sourceExpr : Text) (htrim : trim value = value) :
    hasExpr sourceExpr value = "has(".toList ++ (sourceExpr ++ (", ".toList ++ (quote value ++ [')']))) := by
  have hliteral : buildExprLiteral .contains value = quote (trim value) := if_pos rfl
  unfold hasExpr
  rw [hliteral, htrim]
  simp only [append_assoc]

theorem parseHas_hasExpr (hplain : Plain path) (hne : path ≠ []) (htrim : trim value = value) :
    parseHas source (hasExpr (call source.name (quote path)) value) = some (path, quote value) := by
  rw [hasExpr_eq _ htrim, parseHas, literal_append, Option.bind_some, readCall_call _ hplain hne, Option.bind_some, literal_append,
    Option.bind_some, literalArgument_quote]
  rfl

theorem tryParseRequestCondition_guarded (hplain : Plain path) (hne : path ≠ []) :
    tryParseRequestCondition json (call "param" (quote path) ++ (" != nil && ".toList ++ rest)) =
      match (parseHas .param rest).filter fun found => found.1 = path with
      | some (path, text) => parseContained json .param path text
      | none => some (((readCall "param" rest).bind fun found =>
          if found.1 ≠ path then none
          else CompareOp.all.findSome? fun op => (literal (" " ++ op.symbol ++ " ") found.2).bind fun value =>
            if isNumberText value then some (.compare path op value) else none).or (parseEquals json
              (call "param" (quote path) ++ (" != nil && ".toList ++ rest)))) := by
  have hguard := @paramGuard_call path rest hplain hne
  have htime := tryParseTimeCondition_source .param (quote path) (" != nil && ".toList ++ rest)
  have hheader := @parsePresence_other .param .header (by decide) " != \"\"".toList (quote path)
    (" != nil && ".toList ++ rest)
  have hparam := parsePresence_call .param hplain hne " != nil".toList (" != nil && ".toList ++ rest)
  have hhas := parseHas_source .param .header (quote path) (" != nil && ".toList ++ rest)
  rw [Source.name] at htime hheader hparam hhas
  have hparamHas : parseParamHas (call "param" (quote path) ++ (" != nil && ".toList ++ rest)) =
      (parseHas .param rest).filter fun found => found.1 = path := by
    rw [parseParamHas, hguard, Option.bind_some]
  have hcomparison : parseComparison (call "param" (quote path) ++ (" != nil && ".toList ++ rest)) =
      (readCall "param" rest).bind fun found =>
          if found.1 ≠ path then none
          else CompareOp.all.findSome? fun op => (literal (" " ++ op.symbol ++ " ") found.2).bind fun value =>
            if isNumberText value then some (.compare path op value) else none := by
    rw [parseComparison, hguard, Option.bind_some]
  rw [tryParseRequestCondition, hparam, hparamHas, hcomparison]
  rfl

/-! ## What is printed -/

theorem build_range (value : Text) (hstart : isNumericLiteral rangeStart = true) (hend : isNumericLiteral rangeEnd = true) :
    buildRequestConditionExpr (.time fn timezone .range value rangeStart rangeEnd) =
      rangeText fn timezone rangeStart rangeEnd := by
  rw [buildRequestConditionExpr, buildTimeConditionExpr, (solid_of_isNumericLiteral hstart).trim_eq,
    (solid_of_isNumericLiteral hend).trim_eq, hstart, hend]
  rfl

theorem build_comparison (hmode : mode ≠ .range) (rangeStart rangeEnd : Text) (hvalue : isNumericLiteral value = true) :
    buildRequestConditionExpr (.time fn timezone mode value rangeStart rangeEnd) =
      call fn.name (quote timezone) ++ ((timeOp mode).toList ++ value) := by
  rw [buildRequestConditionExpr, buildTimeConditionExpr, if_neg hmode, (solid_of_isNumericLiteral hvalue).trim_eq, hvalue,
    ← append_assoc]
  rfl

theorem build_field (mode : Mode) (value : Text) (hne : path ≠ []) (htrim : trim path = path) :
    buildRequestConditionExpr (.field source path mode value) =
      match mode, source with
      | .isPresent, .header => call "header" (quote path) ++ " != \"\"".toList
      | .isPresent, .param => call "param" (quote path) ++ " != nil".toList
      | .contains, .header => hasExpr (call "header" (quote path)) value
      | .contains, .param => call "param" (quote path) ++ (" != nil && ".toList ++ hasExpr (call "param" (quote path)) value)
      | .eq, source => call source.name (quote path) ++ (" == ".toList ++ buildExprLiteral .eq value) := by
  cases mode <;> cases source <;>
    simp only [buildRequestConditionExpr, htrim, if_neg hne, Source.name, append_assoc]

theorem build_compare (op : CompareOp) (hne : path ≠ []) (htrim : trim path = path)
    (hvalue : isNumericLiteral value = true) :
    buildRequestConditionExpr (.compare path op value) = call "param" (quote path) ++ (" != nil && ".toList ++
      (call "param" (quote path) ++ ((" " ++ op.symbol ++ " ").toList ++ value))) := by
  rw [buildRequestConditionExpr, htrim, (solid_of_isNumericLiteral hvalue).trim_eq, if_neg hne, hvalue]
  simp only [append_assoc]
  rfl

theorem tryParseRequestCondition_build {condition : RequestCondition} (h : condition.Readable) :
    tryParseRequestCondition json (buildRequestConditionExpr condition) = some (some condition.clean) := by
  cases condition with
  | time fn timezone mode value rangeStart rangeEnd =>
    obtain ⟨hne, hplain, hnumbers⟩ := h
    by_cases hmode : mode = .range
    · subst hmode
      have hread := parseTimeRange_rangeText fn hplain hne hnumbers.1 hnumbers.2
      rw [build_range fn value hnumbers.1 hnumbers.2, tryParseRequestCondition, tryParseTimeCondition, hread]
      rfl
    · rw [if_neg hmode] at hnumbers
      have hread := parseTimeComparison_comparison fn hmode hplain hne hnumbers
      rw [build_comparison fn hmode _ _ hnumbers, tryParseRequestCondition, tryParseTimeCondition,
        parseTimeRange_comparison fn hplain hne hnumbers, inParens_call, hread, RequestCondition.clean, if_neg hmode]
      rfl
  | field source path mode value =>
    obtain ⟨hne, hplain, htrim, hvalue, hline⟩ := h
    rw [build_field source mode value hne htrim]
    cases mode with
    | eq =>
      have hvalue := hvalue (by decide)
      rw [tryParseRequestCondition_equals json source hplain hne,
        not_isLineTerminator_literal hvalue (hline rfl).1 (hline rfl).2, parseExprLiteral_literal json hvalue, if_neg]
      · rfl
      · rintro (hnil | hfalse)
        · exact (solid_literal hvalue).ne_nil hnil
        · cases hfalse
    | isPresent =>
      cases source with
      | header =>
        have htime := tryParseTimeCondition_source .header (quote path) " != \"\"".toList
        have hread := parsePresence_call .header hplain hne " != \"\"".toList " != \"\"".toList
        rw [Source.name] at htime hread
        rw [tryParseRequestCondition, hread]
        rfl
      | param =>
        have htime := tryParseTimeCondition_source .param (quote path) " != nil".toList
        have hheader := @parsePresence_other .param .header (by decide) " != \"\"".toList (quote path) " != nil".toList
        have hread := parsePresence_call .param hplain hne " != nil".toList " != nil".toList
        rw [Source.name] at htime hread hheader
        rw [tryParseRequestCondition, hread]
        rfl
    | contains =>
      have hhas := parseHas_hasExpr source hplain hne (hvalue (by decide))
      cases source with
      | header =>
        have htime : tryParseTimeCondition (hasExpr (call "header" (quote path)) value) = none := by
          unfold hasExpr
          rw [append_assoc, append_assoc, append_assoc]
          exact tryParseTimeCondition_other _ (by decide) rfl
        rw [Source.name] at hhas
        rw [tryParseRequestCondition, htime, hhas]
        dsimp only
        rw [parseContained, json.parse_quote]
        rfl
      | param =>
        rw [Source.name] at hhas
        rw [tryParseRequestCondition_guarded json hplain hne, hhas, Option.filter_some, if_pos (decide_eq_true rfl)]
        dsimp only
        rw [parseContained, json.parse_quote]
        rfl
  | compare path op value =>
    obtain ⟨hne, hplain, htrim, hvalue⟩ := h
    have hnumber := isNumberText_of_isNumericLiteral hvalue
    have hhas := parseHas_source .param .param (quote path) ((" " ++ op.symbol ++ " ").toList ++ value)
    rw [Source.name] at hhas
    have hop : (CompareOp.all.findSome? fun op' => (literal (" " ++ op'.symbol ++ " ")
        ((" " ++ op.symbol ++ " ").toList ++ value)).bind fun value =>
          if isNumberText value then some (RequestCondition.compare path op' value) else none) =
        some (.compare path op value) := by
      cases op <;> simp only [CompareOp.all, findSome?, CompareOp.symbol, literal_append, Option.bind_some, hnumber] <;> rfl
    rw [build_compare op hne htrim hvalue, tryParseRequestCondition_guarded json hplain hne, hhas, readCall_call _ hplain hne, Option.bind_some]
    rw [if_neg (not_not_intro rfl), hop]
    rfl

end HotAI.RuleEditor
