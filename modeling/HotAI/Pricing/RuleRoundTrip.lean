import HotAI.Pricing.RuleConditions

/-! # Request rules through the editor

Conditions are joined by `" && "`, rules by `" * "`, and the reader cuts at these signs, counting every parenthesis. A list
of rules survives if its conditions are readable and no sign is met where the joining signs are not. -/
namespace HotAI.RuleEditor
open HotAI.Lib JsonText List RequestRuleGroup
open HotAI.BillingExpr (Text trim splitTopLevelMultiply splitTopLevelAnd isNumberChar inParens isNumericLiteral stripEnd
  passOver Separate Solid Sign Starts Stops Apart passOver_append passOver_plain splitTopLevel_intercalate solid_intercalate isEdge times depthAfter)

/-! ## The depth behind a printed condition -/

/-- Behind `fn("path")`. -/
def callDepth (sep : Text) (depth : ℤ) (path : Text) : Option ℤ := (passOver sep (depth + 1) path).map (· - 1)

/-- Behind `" != nil && "`. -/
def guardDepth (sep : Text) (depth : ℤ) : Option ℤ := if sep = andSign ∧ depth = 0 then none else some depth

/-- The depth behind a condition, `none` if one of its strings or its own `" && "` has the sign at depth zero. -/
def RequestCondition.passOver (sep : Text) (depth : ℤ) : RequestCondition → Option ℤ
  | .time _ timezone mode _ _ _ =>
      if mode = .range then (callDepth sep depth timezone).bind fun depth => callDepth sep depth timezone
      else callDepth sep depth timezone
  | .field source path mode value => match mode, source with
      | .isPresent, _ => callDepth sep depth path
      | .contains, .header => ((callDepth sep (depth + 1) path).bind fun depth => BillingExpr.passOver sep depth value).map
          (· - 1)
      | .contains, .param => ((callDepth sep depth path).bind (guardDepth sep)).bind fun depth =>
          ((callDepth sep (depth + 1) path).bind fun depth => BillingExpr.passOver sep depth value).map (· - 1)
      | .eq, _ => (callDepth sep depth path).bind fun depth => BillingExpr.passOver sep depth value
  | .compare path _ _ => ((callDepth sep depth path).bind (guardDepth sep)).bind fun depth => callDepth sep depth path

def IsSign (sep : Text) : Prop := sep = andSign ∨ sep = times

theorem sign_of_all {more : Text} (h : ((' ' :: more).all fun c => decide (c ∈ [' ', '&', '*', '|'])) = true) :
    Sign (' ' :: more) :=
  ⟨⟨more, rfl⟩, fun c hc => of_decide_eq_true (all_eq_true.mp h c hc)⟩

theorem sign_orSign : Sign orSign := sign_of_all (by decide)

variable {sep s : Text}

theorem IsSign.sign (h : IsSign sep) : Sign sep := by
  rcases h with rfl | rfl <;> exact sign_of_all (by decide)

theorem isPrefixOf_escape (hsep : ∀ c ∈ sep, c ∈ [' ', '&', '*', '|']) (s : Text) : sep <+: escape s ↔ sep <+: s := by
  induction sep generalizing s with
  | nil => exact iff_of_true nil_prefix nil_prefix
  | cons x sep ih =>
    have hx := hsep x mem_cons_self
    cases s with
    | nil => rfl
    | cons c s =>
      rw [escape_cons]
      rcases escapeChar_cases c with ⟨heq, -⟩ | ⟨hc, y, more, heq, -⟩
      · rw [heq, singleton_append, cons_prefix_cons, cons_prefix_cons,
          ih (fun c hc => hsep c (mem_cons_of_mem _ hc))]
      · rw [heq, cons_append, cons_prefix_cons, cons_prefix_cons]
        refine iff_of_false (fun hboth => ?_) (fun hboth => ?_)
        · rw [hboth.1] at hx
          exact absurd hx (by decide)
        · rw [hboth.1] at hx
          simp only [mem_cons, not_mem_nil, or_false] at hx
          rcases hx with rfl | rfl | rfl | rfl <;> exact absurd hc (by decide)

theorem escaped_quiet {y : Char} {more : Text} (hy : y ∈ ['"', '\\', 'b', 'f', 'n', 'r', 't', 'u'])
    (hmore : ∀ x ∈ more, x ∈ hexDigits) :
    ∀ x ∈ '\\' :: y :: more, isEdge x = true ∧ x ≠ '(' ∧ x ≠ ')' ∧ x ≠ ' ' := by
  have hall : ('\\' :: ['"', '\\', 'b', 'f', 'n', 'r', 't', 'u'] ++ hexDigits).all
      (fun x => isEdge x ∧ x ≠ '(' ∧ x ≠ ')' ∧ x ≠ ' ') = true := by decide
  intro x hx
  refine of_decide_eq_true (all_eq_true.mp hall x ?_)
  rw [mem_cons, mem_cons] at hx
  rcases hx with rfl | rfl | hx
  · exact mem_cons_self
  · exact mem_append_left _ (mem_cons_of_mem _ hy)
  · exact mem_append_right _ (hmore x hx)

theorem passOver_escape (hsep : Sign sep) (depth : ℤ) (s : Text) : passOver sep depth (escape s) = passOver sep depth s := by
  induction s generalizing depth with
  | nil => rfl
  | cons c s ih =>
    have hstart : sep.isPrefixOf (escape (c :: s)) = sep.isPrefixOf (c :: s) := by
      rw [Bool.eq_iff_iff, isPrefixOf_iff_prefix, isPrefixOf_iff_prefix, isPrefixOf_escape hsep.chars]
    rw [escape_cons] at hstart ⊢
    rcases escapeChar_cases c with ⟨heq, -⟩ | ⟨hc, y, more, heq, hy, hmore⟩
    · rw [heq, singleton_append] at hstart ⊢
      rw [BillingExpr.passOver, BillingExpr.passOver, hstart, ih]
    · have hquiet := escaped_quiet hy hmore
      have hstops : Stops ('\\' :: y :: more) :=
        ⟨_, _, (dropLast_append_getLast (cons_ne_nil '\\' (y :: more))).symm, (hquiet _ (getLast_mem _)).1⟩
      have hchar : c ≠ ' ' ∧ c ≠ '(' ∧ c ≠ ')' := by
        refine ⟨?_, ?_, ?_⟩ <;> rintro rfl <;> exact absurd hc (by decide)
      have hout : passOver sep depth ('\\' :: y :: more) = some depth :=
        passOver_plain (fun x hx z hz => hsep.head hz ▸ (hquiet x hx).2.2.2) hsep.ne_nil
          (fun x hx => ⟨(hquiet x hx).2.1, (hquiet x hx).2.2.1⟩) depth
      have hin : passOver sep depth (c :: s) = passOver sep depth s := by
        have hcut : ¬(depthAfter depth c = 0 ∧ sep.isPrefixOf (c :: s) = true) := by
          rintro ⟨-, hcut⟩
          obtain ⟨more, rfl⟩ := hsep.shape
          rw [List.isPrefixOf_iff_prefix, cons_prefix_cons] at hcut
          exact hchar.1 hcut.1.symm
        rw [BillingExpr.passOver, if_neg hcut, depthAfter, if_neg hchar.2.1, if_neg hchar.2.2]
      rw [heq, passOver_append (hsep.apart_of_stops hstops), hout, Option.bind_some, ih, hin]

theorem starts_quote (s rest : Text) : Starts (quote s ++ rest) :=
  ⟨'"', escape s ++ ['"'] ++ rest, rfl, by decide⟩

theorem starts_append (h : Solid s) (rest : Text) : Starts (s ++ rest) := by
  obtain ⟨c, more, rfl, hc⟩ := h.starts
  exact ⟨c, more ++ rest, rfl, hc⟩

theorem quote_append (s rest : Text) : quote s ++ rest = ['"'] ++ (escape s ++ (['"'] ++ rest)) := by
  rw [quote, cons_append, cons_append, append_assoc]
  rfl

theorem starts_mark (rest : Text) : Starts (['"'] ++ rest) := ⟨'"', rest, rfl, by decide⟩

theorem stops_mark : Stops ['"'] := ⟨[], '"', rfl, by decide⟩

theorem passOver_quote (hsep : Sign sep) (depth : ℤ) (s rest : Text) :
    passOver sep depth (quote s ++ rest) = (passOver sep depth s).bind fun depth => passOver sep depth rest := by
  have hone : ∀ depth, passOver sep depth ['"'] = some depth :=
    passOver_plain (fun x hx z hz => hsep.head hz ▸ mem_singleton.mp hx ▸ by decide) hsep.ne_nil
      (fun x hx => mem_singleton.mp hx ▸ by decide)
  rw [quote_append, passOver_append (hsep.apart_of_stops stops_mark), hone, Option.bind_some,
    passOver_append (hsep.apart_of_starts (starts_mark rest)), passOver_escape hsep]
  congr 1
  funext depth
  rw [passOver_append (hsep.apart_of_stops stops_mark), hone, Option.bind_some]

def IsWord (fn : String) : Prop := ∀ c ∈ fn.toList, c ≠ ' ' ∧ c ≠ '(' ∧ c ≠ ')'

variable {fn : String} {value : Text}

theorem isWord_of_all (h : (fn.toList.all fun c => c ≠ ' ' ∧ c ≠ '(' ∧ c ≠ ')') = true) : IsWord fn :=
  fun c hc => of_decide_eq_true (all_eq_true.mp h c hc)

theorem TimeFunc.isWord (fn : TimeFunc) : IsWord fn.name := by
  cases fn <;> exact isWord_of_all (by decide)

variable (source : Source)

theorem Source.isWord : IsWord source.name := by
  cases source <;> exact isWord_of_all (by decide)

theorem passOver_cons (hsep : Sign sep) {c : Char} (hc : c ≠ ' ') (depth : ℤ) (rest : Text) :
    passOver sep depth (c :: rest) = passOver sep (depthAfter depth c) rest := by
  rw [BillingExpr.passOver, if_neg]
  rintro ⟨-, hcut⟩
  obtain ⟨more, rfl⟩ := hsep.shape
  rw [List.isPrefixOf_iff_prefix, cons_prefix_cons] at hcut
  exact hc hcut.1.symm

theorem passOver_open (hsep : Sign sep) (hfn : IsWord fn) (depth : ℤ) (rest : Text) :
    passOver sep depth ((fn ++ "(").toList ++ rest) = passOver sep (depth + 1) rest := by
  have hstarts : Starts ('(' :: rest) := ⟨'(', rest, rfl, by decide⟩
  have hname : passOver sep depth fn.toList = some depth :=
    passOver_plain (fun c hc x hx => hsep.head hx ▸ (hfn c hc).1) hsep.ne_nil (fun c hc => (hfn c hc).2) depth
  have htext : (fn ++ "(").toList ++ rest = fn.toList ++ ('(' :: rest) := by
    rw [String.toList_append, List.append_assoc]
    rfl
  rw [htext, passOver_append (hsep.apart_of_starts hstarts), hname, Option.bind_some, passOver_cons hsep (by decide)]
  rfl

theorem passOver_close (hsep : Sign sep) (depth : ℤ) (rest : Text) :
    passOver sep depth (')' :: rest) = passOver sep (depth - 1) rest := passOver_cons hsep (by decide) depth rest

theorem passOver_call (hsep : Sign sep) (hfn : IsWord fn) (depth : ℤ) (s rest : Text) :
    passOver sep depth (call fn (quote s) ++ rest) = (callDepth sep depth s).bind fun depth => passOver sep depth rest := by
  rw [call, append_assoc, append_assoc, passOver_open hsep hfn, passOver_quote hsep, callDepth]
  cases passOver sep (depth + 1) s with
  | none => rfl
  | some depth => exact passOver_close hsep depth rest

theorem passOver_number (hsep : Sign sep) (h : isNumericLiteral value = true) (depth : ℤ) (rest : Text) :
    passOver sep depth (value ++ rest) = passOver sep depth rest := by
  have hchars : ∀ c ∈ value, c ∉ ['&', '*', '|', '(', ')', ' ', '"'] := fun c hc =>
    (isNumberChar_quiet ((isNumberText_iff.mp (isNumberText_of_isNumericLiteral h)).2 c hc)).2
  have hvalue : passOver sep depth value = some depth := by
    refine passOver_plain (fun c hc x hx => ?_) hsep.ne_nil (fun c hc => ⟨?_, ?_⟩) depth
    · rw [hsep.head hx]
      rintro rfl
      exact hchars _ hc (by decide)
    · rintro rfl
      exact hchars _ hc (by decide)
    · rintro rfl
      exact hchars _ hc (by decide)
  rw [passOver_append (hsep.apart_of_stops (solid_of_isNumericLiteral h).stops), hvalue, Option.bind_some]

def operators : List String := [" == ", " >= ", " < ", " > ", " <= ", " || ", ", ", " != \"\"", " != nil"]

theorem passOver_op {sep rest : Text} (hsep : IsSign sep) {op : String} (hop : op ∈ operators)
    (hrest : rest = [] ∨ Starts rest) (depth : ℤ) :
    passOver sep depth (op.toList ++ rest) = passOver sep depth rest := by
  have hconst : passOver sep depth op.toList = some depth := by
    simp only [operators, mem_cons, not_mem_nil, or_false] at hop
    rcases hsep with rfl | rfl <;> rcases hop with rfl | rfl | rfl | rfl | rfl | rfl | rfl | rfl | rfl <;>
      simp [BillingExpr.passOver, depthAfter, andSign, times]
  rcases hrest with rfl | hrest
  · rw [append_nil, hconst]
    rfl
  · rw [passOver_append (hsep.sign.apart_of_starts hrest), hconst, Option.bind_some]

variable {conditions : List RequestCondition} {rest : Text}

theorem passOver_guard (hsep : IsSign sep) (hrest : Starts rest)
    (depth : ℤ) : passOver sep depth (" != nil && ".toList ++ rest) =
      (guardDepth sep depth).bind fun depth => passOver sep depth rest := by
  have hconst : passOver sep depth " != nil && ".toList = guardDepth sep depth := by
    rcases hsep with rfl | rfl
    · by_cases hdepth : depth = 0 <;> simp [BillingExpr.passOver, depthAfter, andSign, guardDepth, hdepth]
    · simp [BillingExpr.passOver, depthAfter, andSign, times, guardDepth]
  rw [passOver_append (hsep.sign.apart_of_starts hrest), hconst]

theorem passOver_op_number (hsep : IsSign sep) {op : String} (hop : op ∈ operators)
    (hvalue : isNumericLiteral value = true) (rest : Text) (depth : ℤ) :
    passOver sep depth (op.toList ++ (value ++ rest)) = passOver sep depth rest := by
  rw [passOver_op hsep hop (.inr (starts_append (solid_of_isNumericLiteral hvalue) _)), passOver_number hsep.sign hvalue]

theorem starts_time (fn : TimeFunc) (arg rest : Text) : Starts (call fn.name arg ++ rest) := by
  cases fn <;> exact ⟨_, _, rfl, by decide⟩

theorem starts_source (arg rest : Text) : Starts (call source.name arg ++ rest) := by
  cases source <;> exact ⟨_, _, rfl, by decide⟩

theorem starts_hasExpr (sourceExpr value : Text) : Starts (hasExpr sourceExpr value) :=
  ⟨_, _, rfl, by decide⟩

theorem passOver_hasExpr {sep path value : Text} (hsep : IsSign sep) (source : Source) (htrim : trim value = value)
    (depth : ℤ) : passOver sep depth (hasExpr (call source.name (quote path)) value) =
      ((callDepth sep (depth + 1) path).bind fun depth => passOver sep depth value).map (· - 1) := by
  have htext : hasExpr (call source.name (quote path)) value =
      ("has" ++ "(").toList ++ (call source.name (quote path) ++ (", ".toList ++ (quote value ++ [')']))) := hasExpr_eq _ htrim
  have hstep : ∀ depth, passOver sep depth (", ".toList ++ (quote value ++ [')'])) =
      (passOver sep depth value).map (· - 1) := by
    intro depth
    rw [passOver_op hsep (by decide) (.inr (starts_quote ..)), passOver_quote hsep.sign]
    cases passOver sep depth value with
    | none => rfl
    | some depth => exact passOver_close hsep.sign depth []
  have hhas : IsWord "has" := isWord_of_all (by decide)
  rw [htext, passOver_open hsep.sign hhas, passOver_call hsep.sign source.isWord, funext hstep]
  cases callDepth sep (depth + 1) path <;> rfl

theorem passOver_literal (hsep : IsSign sep) (htrim : trim value = value) (depth : ℤ) :
    passOver sep depth (buildExprLiteral .eq value) = passOver sep depth value := by
  refine @literal_cases value htrim (fun text => passOver sep depth text = passOver sep depth value) (fun _ => rfl)
    (fun _ _ => rfl) ?_
  have hquote := passOver_quote hsep.sign depth value []
  rw [append_nil] at hquote
  rw [hquote]
  exact Option.bind_fun_some _

variable {condition : RequestCondition}

theorem passOver_build (hsep : IsSign sep) (h : condition.Readable) (depth : ℤ) :
    passOver sep depth (buildRequestConditionExpr condition) = condition.passOver sep depth := by
  cases condition with
  | time fn timezone mode value rangeStart rangeEnd =>
    obtain ⟨-, -, hnumbers⟩ := h
    by_cases hmode : mode = .range
    · subst hmode
      have hor : " || " ∈ operators := by decide
      have hsecond : ∀ depth, passOver sep depth (" >= ".toList ++ (rangeStart ++ (" || ".toList ++
          (call fn.name (quote timezone) ++ (" < ".toList ++ (rangeEnd ++ [])))))) = callDepth sep depth timezone := by
        intro depth
        rw [passOver_op_number hsep (by decide) hnumbers.1, passOver_op hsep hor (.inr (starts_time ..)),
          passOver_call hsep.sign fn.isWord]
        cases callDepth sep depth timezone with
        | none => rfl
        | some depth => exact passOver_op_number hsep (by decide) hnumbers.2 [] depth
      have htext : rangeText fn timezone rangeStart rangeEnd = call fn.name (quote timezone) ++ (" >= ".toList ++
          (rangeStart ++ (" || ".toList ++ (call fn.name (quote timezone) ++ (" < ".toList ++ (rangeEnd ++ [])))))) := by
        simp only [rangeText, append_assoc, append_nil]
      rw [build_range fn value hnumbers.1 hnumbers.2, htext, passOver_call hsep.sign fn.isWord, funext hsecond]
      rfl
    · rw [if_neg hmode] at hnumbers
      have hop : timeOp mode ∈ operators := by cases mode <;> decide
      rw [build_comparison fn hmode _ _ hnumbers, passOver_call hsep.sign fn.isWord, RequestCondition.passOver, if_neg hmode,
        ← append_nil value, funext (passOver_op_number hsep hop hnumbers [])]
      cases callDepth sep depth timezone <;> rfl
  | field source path mode value =>
    obtain ⟨hne, -, htrim, hvalue, -⟩ := h
    rw [build_field source mode value hne htrim]
    cases mode with
    | eq =>
      have hvalue := hvalue (by decide)
      have hliteral : ∀ depth, passOver sep depth (" == ".toList ++ buildExprLiteral .eq value) =
          passOver sep depth value := fun depth => by
        rw [passOver_op hsep (by decide) (.inr (solid_literal hvalue).starts), passOver_literal hsep hvalue]
      rw [passOver_call hsep.sign source.isWord, funext hliteral]
      rfl
    | isPresent =>
      have hop : ∀ op ∈ operators, ∀ depth, passOver sep depth op.toList = some depth := by
        intro op hop depth
        have hread := @passOver_op sep [] hsep op hop (.inl rfl) depth
        rw [append_nil] at hread
        exact hread
      cases source with
      | header =>
        refine (passOver_call hsep.sign Source.header.isWord ..).trans ?_
        rw [funext (hop " != \"\"" (by decide))]
        exact Option.bind_fun_some _
      | param =>
        refine (passOver_call hsep.sign Source.param.isWord ..).trans ?_
        rw [funext (hop " != nil" (by decide))]
        exact Option.bind_fun_some _
    | contains =>
      have hhas := @passOver_hasExpr sep path value hsep source (hvalue (by decide))
      cases source with
      | header => exact hhas depth
      | param =>
        simp only [Source.name] at hhas
        refine (passOver_call hsep.sign Source.param.isWord ..).trans ?_
        rw [funext (passOver_guard hsep (starts_hasExpr ..)), funext hhas, ← Option.bind_assoc]
        rfl
  | compare path op value =>
    obtain ⟨hne, -, htrim, hvalue⟩ := h
    have hop : " " ++ op.symbol ++ " " ∈ operators := by cases op <;> decide
    have hparam : IsWord "param" := Source.param.isWord
    have hsecond : ∀ depth, passOver sep depth (call "param" (quote path) ++ ((" " ++ op.symbol ++ " ").toList ++ value)) =
        callDepth sep depth path := by
      intro depth
      rw [passOver_call hsep.sign hparam, ← append_nil value, funext (passOver_op_number hsep hop hvalue [])]
      exact Option.bind_fun_some _
    have hstarts : Starts (call "param" (quote path) ++ ((" " ++ op.symbol ++ " ").toList ++ value)) := starts_source .param _ _
    rw [build_compare op hne htrim hvalue, passOver_call hsep.sign hparam, funext (passOver_guard hsep hstarts), funext hsecond, ← Option.bind_assoc]
    rfl

theorem stops_append {t : Text} (h : Stops t) (s : Text) : Stops (s ++ t) := by
  obtain ⟨front, c, rfl, hc⟩ := h
  exact ⟨s ++ front, c, (append_assoc ..).symm, hc⟩

theorem solid_build (h : condition.Readable) : Solid (buildRequestConditionExpr condition) := by
  cases condition with
  | time fn timezone mode value rangeStart rangeEnd =>
    obtain ⟨-, -, hnumbers⟩ := h
    by_cases hmode : mode = .range
    · subst hmode
      rw [build_range fn value hnumbers.1 hnumbers.2, rangeText]
      refine ⟨?_, stops_append (solid_of_isNumericLiteral hnumbers.2).stops _⟩
      simp only [append_assoc]
      exact starts_time ..
    · rw [if_neg hmode] at hnumbers
      rw [build_comparison fn hmode _ _ hnumbers]
      exact ⟨starts_time .., stops_append (stops_append (solid_of_isNumericLiteral hnumbers).stops _) _⟩
  | field source path mode value =>
    obtain ⟨hne, -, htrim, hvalue, -⟩ := h
    rw [build_field source mode value hne htrim]
    cases mode with
    | eq => exact ⟨starts_source .., stops_append (stops_append (solid_literal (hvalue (by decide))).stops _) _⟩
    | isPresent =>
      cases source with
      | header => exact ⟨starts_source .header .., stops_append ⟨" != \"".toList, '"', rfl, by decide⟩ _⟩
      | param => exact ⟨starts_source .param .., stops_append ⟨" != ni".toList, 'l', rfl, by decide⟩ _⟩
    | contains =>
      have hlast : ∀ sourceExpr, Stops (hasExpr sourceExpr value) :=
        fun _ => ⟨_, ')', rfl, by decide⟩
      cases source with
      | header => exact ⟨starts_hasExpr .., hlast _⟩
      | param => exact ⟨starts_source .param .., stops_append (stops_append (hlast _) _) _⟩
  | compare path op value =>
    obtain ⟨hne, -, htrim, hvalue⟩ := h
    rw [build_compare op hne htrim hvalue]
    exact ⟨starts_source .param .., stops_append (stops_append (stops_append (stops_append
      (solid_of_isNumericLiteral hvalue).stops _) _) _) _⟩

/-! ## Conditions with `" || "` -/

def RequestCondition.isRange : RequestCondition → Bool
  | .time _ _ mode _ _ _ => mode = .range
  | _ => false

def RequestCondition.strings : RequestCondition → List Text
  | .time _ timezone _ _ _ _ => [timezone]
  | .field _ path mode value => if mode = .isPresent then [path] else [path, value]
  | .compare path _ _ => [path]

theorem not_infix_append {t : Text} (h : Apart sep s t) (hs : ¬sep <:+: s) (ht : ¬sep <:+: t) : ¬sep <:+: s ++ t := by
  induction s with
  | nil => exact ht
  | cons c s ih =>
    rw [infix_cons_iff, not_or] at hs
    have hstart := h.isPrefixOf_append
    rw [Bool.eq_iff_iff, isPrefixOf_iff_prefix, isPrefixOf_iff_prefix] at hstart
    rw [cons_append, infix_cons_iff, not_or, ← cons_append, hstart]
    exact ⟨hs.1, ih h.tail hs.2⟩

def NoOr (s : Text) : Prop := ¬orSign <:+: s

instance (s : Text) : Decidable (NoOr s) := inferInstanceAs (Decidable (¬orSign <:+: s))

theorem noOr_of_not_space (h : ' ' ∉ s) : NoOr s := fun hinside => h (hinside.subset (by decide))

theorem noOr_escape (h : NoOr s) : NoOr (escape s) := by
  induction s with
  | nil => exact h
  | cons c s ih =>
    rw [NoOr, infix_cons_iff, not_or] at h
    rw [escape_cons]
    rcases escapeChar_cases c with ⟨heq, -⟩ | ⟨-, y, more, heq, hy, hmore⟩
    · have hstart := (isPrefixOf_escape sign_orSign.chars (c :: s)).not.mpr h.1
      rw [escape_cons, heq] at hstart
      rw [heq, singleton_append, NoOr, infix_cons_iff, not_or]
      exact ⟨hstart, ih h.2⟩
    · have hquiet := escaped_quiet hy hmore
      rw [heq]
      refine not_infix_append (sign_orSign.apart_of_stops ?_) (noOr_of_not_space fun hspace => ?_) (ih h.2)
      · exact ⟨_, _, (dropLast_append_getLast (cons_ne_nil '\\' (y :: more))).symm,
          (hquiet _ (getLast_mem _)).1⟩
      · exact (hquiet _ hspace).2.2.2 rfl

theorem noOr_quote {s rest : Text} (hs : NoOr s) (hrest : NoOr rest) : NoOr (quote s ++ rest) := by
  have hone : NoOr ['"'] := noOr_of_not_space (by decide)
  rw [quote_append]
  refine not_infix_append (sign_orSign.apart_of_stops stops_mark) hone ?_
  refine not_infix_append (sign_orSign.apart_of_starts (starts_mark rest)) (noOr_escape hs) ?_
  exact not_infix_append (sign_orSign.apart_of_stops stops_mark) hone hrest

theorem noOr_call (hfn : IsWord fn) (hs : NoOr s) (hrest : NoOr rest) : NoOr (call fn (quote s) ++ rest) := by
  rw [call, append_assoc, append_assoc]
  have hword : ' ' ∉ (fn ++ "(").toList := by
    rw [String.toList_append, mem_append, not_or]
    exact ⟨fun hspace => (hfn _ hspace).1 rfl, by decide⟩
  have hclose : NoOr ([')'] ++ rest) :=
    not_infix_append (sign_orSign.apart_of_stops ⟨[], ')', rfl, by decide⟩) (noOr_of_not_space (by decide)) hrest
  exact not_infix_append (sign_orSign.apart_of_starts (starts_quote ..)) (noOr_of_not_space hword) (noOr_quote hs hclose)

theorem noOr_op {op : String} (hop : op ∈ [" == ", " >= ", " < ", " > ", " <= ", ", ", " != nil && "])
    (hstarts : Starts rest) (hrest : NoOr rest) : NoOr (op.toList ++ rest) := by
  refine not_infix_append (sign_orSign.apart_of_starts hstarts) ?_ hrest
  simp only [mem_cons, not_mem_nil, or_false] at hop
  rcases hop with rfl | rfl | rfl | rfl | rfl | rfl | rfl <;> decide

theorem noOr_number (h : isNumericLiteral value = true) : NoOr value := by
  refine noOr_of_not_space fun hspace => ?_
  exact (isNumberChar_quiet ((isNumberText_iff.mp (isNumberText_of_isNumericLiteral h)).2 _ hspace)).2 (by decide)

theorem noOr_hasExpr {path : Text} (htrim : trim value = value) (hpath : NoOr path)
    (hvalue : NoOr value) : NoOr (hasExpr (call source.name (quote path)) value) := by
  have hvalue : NoOr (", ".toList ++ (quote value ++ [')'])) :=
    noOr_op (by decide) (starts_quote ..) (noOr_quote hvalue (noOr_of_not_space (by decide)))
  rw [hasExpr_eq _ htrim]
  exact not_infix_append (sign_orSign.apart_of_starts (starts_source ..)) (noOr_of_not_space (by decide))
    (noOr_call source.isWord hpath hvalue)

theorem noOr_build (h : condition.Readable) (hrange : condition.isRange = false)
    (hstrings : ∀ s ∈ condition.strings, NoOr s) : NoOr (buildRequestConditionExpr condition) := by
  cases condition with
  | time fn timezone mode value rangeStart rangeEnd =>
    obtain ⟨-, -, hnumbers⟩ := h
    have hmode : mode ≠ .range := of_decide_eq_false hrange
    rw [if_neg hmode] at hnumbers
    have hop : timeOp mode ∈ [" == ", " >= ", " < ", " > ", " <= ", ", ", " != nil && "] := by cases mode <;> decide
    rw [build_comparison fn hmode _ _ hnumbers]
    exact noOr_call fn.isWord (hstrings _ mem_cons_self)
      (noOr_op hop (solid_of_isNumericLiteral hnumbers).starts (noOr_number hnumbers))
  | field source path mode value =>
    obtain ⟨hne, -, htrim, hvalue, -⟩ := h
    rw [build_field source mode value hne htrim]
    have hpath : NoOr path := hstrings path (by rw [RequestCondition.strings]; split <;> exact mem_cons_self)
    cases mode with
    | isPresent =>
      cases source with
      | header => exact noOr_call Source.header.isWord hpath (by decide)
      | param => exact noOr_call Source.param.isWord hpath (by decide)
    | eq =>
      have hvalueOr : NoOr value := hstrings value (mem_cons_of_mem _ mem_cons_self)
      have hliteral : NoOr (buildExprLiteral .eq value) := by
        refine literal_cases (hvalue (by decide)) (fun _ => hvalueOr) (fun _ _ => hvalueOr) ?_
        have hquote := @noOr_quote value [] hvalueOr (by decide)
        rw [append_nil] at hquote
        exact hquote
      exact noOr_call source.isWord hpath (noOr_op (by decide) (solid_literal (hvalue (by decide))).starts hliteral)
    | contains =>
      have hvalueOr : NoOr value := hstrings value (mem_cons_of_mem _ mem_cons_self)
      have hhas := noOr_hasExpr source (hvalue (by decide)) hpath hvalueOr
      cases source with
      | header => exact hhas
      | param => exact noOr_call Source.param.isWord hpath (noOr_op (by decide) (starts_hasExpr ..) hhas)
  | compare path op value =>
    obtain ⟨hne, -, htrim, hvalue⟩ := h
    have hpath : NoOr path := hstrings path mem_cons_self
    have hop : " " ++ op.symbol ++ " " ∈ [" == ", " >= ", " < ", " > ", " <= ", ", ", " != nil && "] := by
      cases op <;> decide
    have hsecond := noOr_call Source.param.isWord hpath
      (noOr_op hop (solid_of_isNumericLiteral hvalue).starts (noOr_number hvalue))
    rw [build_compare op hne htrim hvalue]
    exact noOr_call Source.param.isWord hpath (noOr_op (by decide) (starts_source .param ..) hsecond)

/-! ## One rule -/

def RequestRuleGroup.wraps (group : RequestRuleGroup) (condition : RequestCondition) : Bool :=
  group.conditions.length ≠ 1 && condition.isRange

def RequestRuleGroup.conditionDepth (group : RequestRuleGroup) (sep : Text) (depth : ℤ) (condition : RequestCondition) :
    Option ℤ :=
  if group.wraps condition then (condition.passOver sep (depth + 1)).map (· - 1) else condition.passOver sep depth

def RequestRuleGroup.passOver (depth : ℤ) (group : RequestRuleGroup) : Option ℤ :=
  (group.conditions.foldlM (group.conditionDepth times) (depth + 1)).map (· - 1)

/-- The conditions of a rule come apart at the signs between them and nowhere else. -/
structure RequestRuleGroup.Kept (group : RequestRuleGroup) : Prop where
  readable : ∀ condition ∈ group.conditions, condition.Readable
  noOr : group.conditions.length ≠ 1 → ∀ condition ∈ group.conditions,
    condition.isRange = false → ∀ s ∈ condition.strings, NoOr s
  separate : Separate (group.conditionDepth andSign) group.conditions

def RequestRuleGroup.printed (group : RequestRuleGroup) (condition : RequestCondition) : Text :=
  if group.wraps condition then paren (buildRequestConditionExpr condition) else buildRequestConditionExpr condition

theorem orSign_range (h : condition.Readable) (hrange : condition.isRange = true) :
    orSign <:+: buildRequestConditionExpr condition := by
  cases condition with
  | time fn timezone mode value rangeStart rangeEnd =>
    have hmode : mode = .range := of_decide_eq_true hrange
    subst hmode
    obtain ⟨-, -, hnumbers⟩ := h
    rw [build_range fn value hnumbers.1 hnumbers.2]
    refine ⟨call fn.name (quote timezone) ++ " >= ".toList ++ rangeStart,
      call fn.name (quote timezone) ++ " < ".toList ++ rangeEnd, ?_⟩
    simp only [rangeText, append_assoc]
    rfl
  | field => cases hrange
  | compare => cases hrange

variable {group : RequestRuleGroup}

theorem combined_build (h : group.Kept) : combined (group.conditions.map buildRequestConditionExpr) =
      andSign.intercalate (group.conditions.map group.printed) := by
  by_cases hone : group.conditions.length = 1
  · obtain ⟨condition, hcondition⟩ := length_eq_one_iff.mp hone
    have hprinted : group.printed condition = buildRequestConditionExpr condition := by
      rw [printed, wraps, hone]
      rfl
    rw [hcondition, map_singleton, map_singleton, hprinted, intercalate_singleton]
    rfl
  · have hlength : (group.conditions.map buildRequestConditionExpr).length ≠ 1 := by rwa [length_map]
    rw [combined, map_map]
    · congr 1
      refine map_congr_left fun condition hcondition => ?_
      have hreadable := h.readable condition hcondition
      rw [Function.comp_apply, printed, wraps, decide_eq_true hone, Bool.true_and]
      cases hrange : condition.isRange with
      | true => rw [if_pos (orSign_range hreadable hrange), if_pos rfl]
      | false =>
        rw [if_neg (noOr_build hreadable hrange (h.noOr hone condition hcondition hrange)), if_neg Bool.false_ne_true]
    · intro e he
      exact hlength (congrArg length he)

theorem passOver_paren (hsep : Sign sep) {e : Text} (hsolid : Solid e) (depth : ℤ) :
    passOver sep depth (paren e) = (passOver sep (depth + 1) e).map (· - 1) := by
  have hword : IsWord "" := isWord_of_all (by decide)
  have hopen : passOver sep depth (paren e) = passOver sep (depth + 1) (e ++ [')']) := passOver_open hsep hword depth _
  rw [hopen, passOver_append (hsep.apart_of_stops hsolid.stops)]
  cases passOver sep (depth + 1) e with
  | none => rfl
  | some depth => exact passOver_close hsep depth []

theorem passOver_printed {sep : Text} (hsep : IsSign sep) {group : RequestRuleGroup} {condition : RequestCondition}
    (h : condition.Readable) (depth : ℤ) :
    passOver sep depth (group.printed condition) = group.conditionDepth sep depth condition := by
  rw [printed, conditionDepth]
  split
  · rw [passOver_paren hsep.sign (solid_build h), passOver_build hsep h]
  · rw [passOver_build hsep h]

theorem solid_printed (h : condition.Readable) : Solid (group.printed condition) := by
  rw [printed]
  split
  · exact ⟨⟨'(', _, rfl, by decide⟩, ⟨'(' :: buildRequestConditionExpr condition, ')', rfl, by decide⟩⟩
  · exact solid_build h

theorem tryParse_printed (json : JsonParse) (h : condition.Readable) :
    tryParseRequestCondition json (group.printed condition) = some (some condition.clean) := by
  rw [printed]
  split
  · rename_i hwraps
    have hrange := (Bool.and_eq_true_iff.mp hwraps).2
    cases condition with
    | time fn timezone mode value rangeStart rangeEnd =>
      have hmode : mode = .range := of_decide_eq_true hrange
      subst hmode
      obtain ⟨hne, hplain, hnumbers⟩ := h
      have hinside : ∀ e, inParens (paren e) = some e := fun e => by
        rw [paren, cons_append, inParens, getLast?_concat, if_pos rfl, dropLast_concat]
      rw [build_range fn value hnumbers.1 hnumbers.2, tryParseRequestCondition, tryParseTimeCondition, hinside,
        Option.bind_some, parseTimeRange_rangeText fn hplain hne hnumbers.1 hnumbers.2]
      rfl
    | field => cases hrange
    | compare => cases hrange
  · exact tryParseRequestCondition_build json h

theorem readEach_map {α β : Type} {read : Text → Option (Option β)} {f : α → Text} {g : α → β} {items : List α}
    (h : ∀ a ∈ items, read (f a) = some (some (g a))) : readEach read (items.map f) = some (some (items.map g)) := by
  induction items with
  | nil => rfl
  | cons a items ih =>
    rw [map_cons, readEach, h a mem_cons_self, ih fun b hb => h b (mem_cons_of_mem _ hb)]
    rfl

theorem stripEnd_append (fin body : Text) : stripEnd fin (body ++ fin) = some body := by
  rw [stripEnd, if_pos (isSuffixOf_iff_suffix.mpr (suffix_append ..)), length_append, Nat.add_sub_cancel,
    take_left]

theorem ruleParts_factor {condition multiplier : Text} (hmultiplier : isNumericLiteral multiplier = true)
    (hne : condition ≠ []) :
    ruleParts ('(' :: condition ++ (" ? ".toList ++ multiplier ++ " : 1)".toList)) = some (condition, multiplier) := by
  obtain ⟨hmne, hchars⟩ := isNumberText_iff.mp (isNumberText_of_isNumericLiteral hmultiplier)
  have hreverse : (condition ++ " ? ".toList ++ multiplier).reverse =
      multiplier.reverse ++ ' ' :: '?' :: ' ' :: condition.reverse := by
    simp only [reverse_append, append_assoc]
    rfl
  have hchars : ∀ c ∈ multiplier.reverse, isNumberChar c = true := fun c hc => hchars c (mem_reverse.mp hc)
  have htake : (condition ++ " ? ".toList ++ multiplier).rtakeWhile isNumberChar = multiplier := by
    rw [rtakeWhile, hreverse, takeWhile_append_of_pos hchars, takeWhile_cons_of_neg (by decide),
      append_nil, reverse_reverse]
  have hdrop : (condition ++ " ? ".toList ++ multiplier).rdropWhile isNumberChar = condition ++ " ? ".toList := by
    rw [rdropWhile, hreverse, dropWhile_append_of_pos hchars, dropWhile_cons_of_neg (by decide)]
    simp only [reverse_cons, reverse_reverse, append_assoc]
    rfl
  have htext : '(' :: condition ++ (" ? ".toList ++ multiplier ++ " : 1)".toList) =
      '(' :: ((condition ++ " ? ".toList ++ multiplier) ++ " : 1)".toList) := by
    simp only [cons_append, append_assoc]
  rw [htext, ruleParts, stripEnd_append, Option.bind_some, htake, hdrop, if_neg hmne, stripEnd_append, Option.filter_some,
    if_pos (decide_eq_true hne)]
  rfl

structure RequestRuleGroup.Normal (group : RequestRuleGroup) : Prop where
  conditions_ne : group.conditions ≠ []
  multiplier : isNumericLiteral group.multiplier = true

theorem buildRuleGroupFactor_eq (hnormal : group.Normal) (h : group.Kept) :
    buildRuleGroupFactor group = '(' :: andSign.intercalate (group.conditions.map group.printed) ++
      (" ? ".toList ++ group.multiplier ++ " : 1)".toList) := by
  have hall : (group.conditions.map buildRequestConditionExpr).filter (· ≠ []) =
      group.conditions.map buildRequestConditionExpr := by
    refine filter_eq_self.mpr fun e he => ?_
    obtain ⟨condition, hcondition, rfl⟩ := mem_map.mp he
    exact decide_eq_true (solid_build (h.readable condition hcondition)).ne_nil
  rw [buildRuleGroupFactor, hall, (solid_of_isNumericLiteral hnormal.multiplier).trim_eq, hnormal.multiplier,
    if_neg (by decide), if_neg (fun hnil => hnormal.conditions_ne (map_eq_nil_iff.mp hnil)), combined_build h]

def RequestRuleGroup.clean (group : RequestRuleGroup) : RequestRuleGroup :=
  { group with conditions := group.conditions.map RequestCondition.clean }

theorem solid_conditions (h : group.Kept)
    (hsub : ∀ condition ∈ conditions, condition ∈ group.conditions) : ∀ s ∈ conditions.map group.printed, Solid s := by
  intro s hs
  obtain ⟨condition, hcondition, rfl⟩ := mem_map.mp hs
  exact solid_printed (h.readable condition (hsub condition hcondition))

theorem tryParse_factor (json : JsonParse) (hnormal : group.Normal) (h : group.Kept) :
    tryParseRuleGroupFactor json (buildRuleGroupFactor group) = some (some group.clean) := by
  have hsolid := solid_conditions h fun _ hcondition => hcondition
  have hne : group.conditions.map group.printed ≠ [] := fun hnil => hnormal.conditions_ne (map_eq_nil_iff.mp hnil)
  have hand : IsSign andSign := .inl rfl
  have hseparate : Separate (passOver andSign) (group.conditions.map group.printed) :=
    h.separate.of_eq fun condition hcondition => passOver_printed hand (h.readable condition hcondition) 0
  have hsplit : splitTopLevelAnd (andSign.intercalate (group.conditions.map group.printed)) =
      group.conditions.map group.printed := splitTopLevel_intercalate hand.sign hseparate hsolid hne
  have hread : readEach (fun s => tryParseRequestCondition json (trim s)) (group.conditions.map group.printed) =
      some (some (group.conditions.map RequestCondition.clean)) := by
    refine readEach_map fun condition hcondition => ?_
    have hreadable := h.readable condition hcondition
    rw [(solid_printed hreadable).trim_eq, tryParse_printed json hreadable]
  have hclean : group.conditions.map RequestCondition.clean ≠ [] := fun hnil =>
    hnormal.conditions_ne (map_eq_nil_iff.mp hnil)
  rw [buildRuleGroupFactor_eq hnormal h, tryParseRuleGroupFactor, ruleParts_factor hnormal.multiplier
    (solid_intercalate hne hsolid).ne_nil]
  dsimp only
  rw [hsplit, hread, Option.map_some, Option.bind_some, if_neg hclean]
  rfl

/-! ## All rules -/

theorem passOver_joined (h : group.Kept) (depth : ℤ) (hsub : ∀ condition ∈ conditions, condition ∈ group.conditions) :
    passOver times depth (andSign.intercalate (conditions.map group.printed)) =
      conditions.foldlM (group.conditionDepth times) depth := by
  have htimes : IsSign times := .inr rfl
  induction conditions generalizing depth with
  | nil => rfl
  | cons condition more ih =>
    have hreadable := h.readable condition (hsub condition mem_cons_self)
    have hmore := fun c hc => hsub c (mem_cons_of_mem _ hc)
    have hone := @passOver_printed times htimes group condition hreadable depth
    cases more with
    | nil =>
      rw [map_singleton, intercalate_singleton, hone]
      exact (Option.bind_fun_some _).symm
    | cons next more =>
      have hstarts : Starts (andSign.intercalate ((next :: more).map group.printed)) :=
        (solid_intercalate (cons_ne_nil _ _) (solid_conditions h hmore)).starts
      have hjoint : ∀ depth, passOver times depth (andSign ++ andSign.intercalate ((next :: more).map group.printed)) =
          passOver times depth (andSign.intercalate ((next :: more).map group.printed)) := by
        intro depth
        have hsign : passOver times depth andSign = some depth := by
          simp [BillingExpr.passOver, depthAfter, andSign, times]
        rw [passOver_append (htimes.sign.apart_of_starts hstarts), hsign, Option.bind_some]
      rw [map_cons, map_cons, intercalate_cons_cons, append_assoc,
        passOver_append (htimes.sign.apart_of_stops (solid_printed hreadable).stops), ← map_cons, funext hjoint]
      congr 1
      funext depth
      exact ih depth hmore

theorem passOver_factor (hnormal : group.Normal) (h : group.Kept) (depth : ℤ) :
    passOver times depth (buildRuleGroupFactor group) = group.passOver depth := by
  have htimes : IsSign times := .inr rfl
  have hword : IsWord "" := isWord_of_all (by decide)
  have hne : group.conditions.map group.printed ≠ [] := fun hnil => hnormal.conditions_ne (map_eq_nil_iff.mp hnil)
  have hsolid := @solid_intercalate andSign _ hne (solid_conditions h fun _ hcondition => hcondition)
  have hjoined := fun depth => passOver_joined h depth fun _ hcondition => hcondition
  have hmultiplier : ∃ c rest, group.multiplier ++ " : 1)".toList = c :: rest ∧ isEdge c = true :=
    starts_append (solid_of_isNumericLiteral hnormal.multiplier) _
  have htail : ∀ depth, passOver times depth (" ? ".toList ++ (group.multiplier ++ " : 1)".toList)) = some (depth - 1) := by
    intro depth
    have hquestion : passOver times depth " ? ".toList = some depth := by
      simp [BillingExpr.passOver, depthAfter, times]
    rw [passOver_append (htimes.sign.apart_of_starts hmultiplier), hquestion, Option.bind_some,
      passOver_number htimes.sign hnormal.multiplier]
    simp [BillingExpr.passOver, depthAfter, times]
  rw [buildRuleGroupFactor_eq hnormal h, append_assoc]
  refine (passOver_open htimes.sign hword depth (andSign.intercalate (group.conditions.map group.printed) ++ _)).trans ?_
  rw [passOver_append (htimes.sign.apart_of_stops hsolid.stops), hjoined, funext htail, RequestRuleGroup.passOver]
  cases group.conditions.foldlM (group.conditionDepth times) (depth + 1) <;> rfl

theorem solid_factor (hnormal : group.Normal) (h : group.Kept) : Solid (buildRuleGroupFactor group) := by
  rw [buildRuleGroupFactor_eq hnormal h]
  exact ⟨⟨'(', _, rfl, by decide⟩, stops_append (stops_append ⟨" : 1".toList, ')', rfl, by decide⟩ _) _⟩

theorem build_clean (condition : RequestCondition) :
    buildRequestConditionExpr condition.clean = buildRequestConditionExpr condition := by
  cases condition with
  | time fn timezone mode value rangeStart rangeEnd => cases mode <;> rfl
  | field source path mode value => cases mode <;> cases source <;> rfl
  | compare path op value => rfl

theorem buildRuleGroupFactor_clean (group : RequestRuleGroup) :
    buildRuleGroupFactor group.clean = buildRuleGroupFactor group := by
  have hmap : group.clean.conditions.map buildRequestConditionExpr = group.conditions.map buildRequestConditionExpr := by
    rw [clean, map_map]
    exact map_congr_left fun condition _ => build_clean condition
  rw [buildRuleGroupFactor, hmap]
  rfl

structure EditorRules where
  groups : List RequestRuleGroup
  normal : ∀ group ∈ groups, group.Normal

/-- No condition is lost and nothing is cut but at the joining signs. -/
structure EditorRules.Kept (rules : EditorRules) : Prop where
  kept : ∀ group ∈ rules.groups, group.Kept
  separate : Separate RequestRuleGroup.passOver rules.groups

/-- What the reader gives back builds the same expression and has the same conditions and multipliers. -/
def EditorRules.Survives (rules : EditorRules) (json : JsonParse) : Prop :=
  ∃ back, tryParseRequestRuleExpr json (buildRequestRuleExpr rules.groups) = some (some back) ∧
    buildRequestRuleExpr back = buildRequestRuleExpr rules.groups ∧ back = rules.groups.map RequestRuleGroup.clean

theorem buildRequestRuleExpr_clean (groups : List RequestRuleGroup) :
    buildRequestRuleExpr (groups.map RequestRuleGroup.clean) = buildRequestRuleExpr groups := by
  have hmap : (groups.map clean).map buildRuleGroupFactor = groups.map buildRuleGroupFactor := by
    rw [map_map]
    exact map_congr_left fun group _ => buildRuleGroupFactor_clean group
  rw [buildRequestRuleExpr, hmap]
  rfl

theorem EditorRules.tryParse_build (rules : EditorRules) (json : JsonParse) (h : rules.Kept) :
    tryParseRequestRuleExpr json (buildRequestRuleExpr rules.groups) =
      some (some (rules.groups.map RequestRuleGroup.clean)) := by
  have hsolid : ∀ s ∈ rules.groups.map buildRuleGroupFactor, Solid s := by
    intro s hs
    obtain ⟨group, hgroup, rfl⟩ := mem_map.mp hs
    exact solid_factor (rules.normal group hgroup) (h.kept group hgroup)
  have hall : (rules.groups.map buildRuleGroupFactor).filter (· ≠ []) = rules.groups.map buildRuleGroupFactor :=
    filter_eq_self.mpr fun s hs => decide_eq_true (hsolid s hs).ne_nil
  rw [buildRequestRuleExpr, hall, tryParseRequestRuleExpr]
  by_cases hnil : rules.groups = []
  · rw [hnil]
    rfl
  · have hne : rules.groups.map buildRuleGroupFactor ≠ [] := fun heq => hnil (map_eq_nil_iff.mp heq)
    have htimes : IsSign times := .inr rfl
    have hjoined := @solid_intercalate times _ hne hsolid
    have hseparate : Separate (passOver times) (rules.groups.map buildRuleGroupFactor) :=
      h.separate.of_eq fun group hgroup => passOver_factor (rules.normal group hgroup) (h.kept group hgroup) 0
    have hsplit : splitTopLevelMultiply (times.intercalate (rules.groups.map buildRuleGroupFactor)) =
        rules.groups.map buildRuleGroupFactor := splitTopLevel_intercalate htimes.sign hseparate hsolid hne
    rw [hjoined.trim_eq, if_neg hjoined.ne_nil, hsplit]
    exact readEach_map fun group hgroup => tryParse_factor json (rules.normal group hgroup) (h.kept group hgroup)

/-- If no cut falls inside a printed condition or group, the rules are read back as they were. -/
theorem EditorRules.survives_of_kept (rules : EditorRules) (json : JsonParse) (h : rules.Kept) : rules.Survives json :=
  ⟨rules.groups.map clean, rules.tryParse_build json h, buildRequestRuleExpr_clean _, rfl⟩

/-- Requests for more than a thousand tokens cost twice as much: the rule's own `" && "` is cut. -/
def manyTokens : EditorRules where
  groups := [⟨[.compare "max_tokens".toList .gt "1000".toList], "2".toList⟩]
  normal := by
    intro group hgroup
    rw [List.mem_singleton.mp hgroup]
    exact ⟨List.cons_ne_nil _ _, by decide +kernel⟩

theorem manyTokens_lost : ¬manyTokens.Survives jsonParse := by
  rintro ⟨back, hback, -⟩
  have hlost : tryParseRequestRuleExpr jsonParse (buildRequestRuleExpr manyTokens.groups) = some none := by decide +kernel
  cases hlost.symm.trans hback

/-- A header with signs, parentheses and quotes in its value, and a model in office hours. -/
def officeHours : EditorRules where
  groups := [⟨[.field .header "x-plan".toList .contains "a && b (\"c\" || d)".toList], "2".toList⟩,
    ⟨[.time .hour "UTC".toList .range [] "9".toList "18".toList, .field .param "model".toList .eq "gpt-4".toList], "0.5".toList⟩]
  normal := by
    intro group hgroup
    rcases List.mem_pair.mp hgroup with rfl | rfl
    · exact ⟨List.cons_ne_nil _ _, by decide +kernel⟩
    · exact ⟨List.cons_ne_nil _ _, by decide +kernel⟩

theorem officeHours_survives : officeHours.Survives jsonParse := by
  refine officeHours.survives_of_kept jsonParse ⟨?_, by decide +kernel⟩
  intro group hgroup
  rcases mem_pair.mp hgroup with rfl | rfl
  · refine ⟨?_, fun hone => absurd rfl hone, by decide +kernel⟩
    intro condition hcondition
    rw [mem_singleton.mp hcondition]
    exact ⟨cons_ne_nil _ _, by decide +kernel, by decide +kernel, fun _ => by decide +kernel,
      fun heq => by cases heq⟩
  · refine ⟨?_, ?_, by decide +kernel⟩
    · intro condition hcondition
      rcases mem_pair.mp hcondition with rfl | rfl
      · exact ⟨cons_ne_nil _ _, by decide +kernel, by decide +kernel⟩
      · exact ⟨cons_ne_nil _ _, by decide +kernel, by decide +kernel, fun _ => by decide +kernel,
          fun _ => by decide +kernel⟩
    · intro _ condition hcondition hrange
      rcases mem_pair.mp hcondition with rfl | rfl
      · cases hrange
      · intro s hs
        rcases mem_pair.mp hs with rfl | rfl <;> decide +kernel

end HotAI.RuleEditor
