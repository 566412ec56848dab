import HotAI.Pricing.ExprLanguage
import HotAI.Pricing.RuleConditions

/-! # Opening and saving a billing expression

The backend reads the expression with operator precedence, the editor cuts it at every `" * "` outside parentheses and saves
the base, in parentheses, times the rules. That costs the same if those signs are the outermost operators. -/
namespace HotAI.BillingExpr
open HotAI.Lib List

/-! ## A part is not cut again -/

/-- No occurrence of `sep` begins at depth zero. -/
def NoCut (sep : Text) : ℤ → Text → Prop
  | _, [] => True
  | depth, c :: rest =>
      ¬(depthAfter depth c = 0 ∧ sep.isPrefixOf (c :: rest) = true) ∧ NoCut sep (depthAfter depth c) rest

variable {sep s : Text} {depth : ℤ}

theorem NoCut.of_append {w : Text} (h : NoCut sep depth (s ++ w)) : NoCut sep depth s := by
  induction s generalizing depth with
  | nil => trivial
  | cons c rest ih =>
    refine ⟨fun hcut => h.1 ⟨hcut.1, ?_⟩, ih h.2⟩
    rw [List.isPrefixOf_iff_prefix] at hcut ⊢
    exact hcut.2.trans (prefix_append ..)

theorem cut_of_noCut {acc : Text} (h : NoCut sep depth s) : cut sep depth 0 acc s = [acc.reverse ++ s] := by
  induction s generalizing depth acc with
  | nil => rw [cut, append_nil]
  | cons c rest ih =>
    rw [cut, if_neg h.1, ih h.2, reverse_cons, append_assoc, singleton_append]

theorem cut_pieces (sep : Text) (depth : ℤ) (skip : ℕ) (acc s : Text) :
    ∃ first more, cut sep depth skip acc s = (acc.reverse ++ first) :: more ∧ first <+: s.drop skip ∧
      NoCut sep depth first ∧ ∀ piece ∈ more, NoCut sep 0 piece := by
  induction s generalizing depth skip acc with
  | nil =>
    refine ⟨[], [], ?_, nil_prefix, trivial, by simp⟩
    rw [append_nil]
    cases skip <;> rfl
  | cons c rest ih =>
    cases skip with
    | succ skip => exact ih depth skip acc
    | zero =>
      rw [cut]
      split
      · rename_i hcut
        obtain ⟨first, more, heq, -, hfirst, hmore⟩ := ih (depthAfter depth c) (sep.length - 1) []
        refine ⟨[], _, by rw [append_nil, heq], nil_prefix, trivial, ?_⟩
        intro piece hpiece
        rcases mem_cons.mp hpiece with rfl | hpiece
        · rw [hcut.1] at hfirst
          exact hfirst
        · exact hmore piece hpiece
      · rename_i hcut
        obtain ⟨first, more, heq, hprefix, hfirst, hmore⟩ := ih (depthAfter depth c) 0 (c :: acc)
        refine ⟨c :: first, more, ?_, (prefix_cons_inj c).mpr hprefix, ⟨?_, hfirst⟩, hmore⟩
        · rw [heq, reverse_cons, append_assoc, singleton_append]
        · rintro ⟨hdepth, hsep⟩
          rw [List.isPrefixOf_iff_prefix] at hsep
          exact hcut ⟨hdepth, isPrefixOf_iff_prefix.mpr (hsep.trans ((prefix_cons_inj c).mpr hprefix))⟩

theorem noCut_dropSpaces (h : NoCut sep depth s) : NoCut sep depth (s.dropWhile isJsSpace) := by
  induction s with
  | nil => exact h
  | cons c rest ih =>
    by_cases hc : isJsSpace c = true
    · have hdepth : depthAfter depth c = depth := by
        have hopen : c ≠ '(' := fun hc' => by subst hc'; cases hc
        have hclose : c ≠ ')' := fun hc' => by subst hc'; cases hc
        rw [depthAfter, if_neg hopen, if_neg hclose]
      rw [dropWhile_cons_of_pos hc]
      exact ih (hdepth ▸ h.2)
    · rw [dropWhile_cons_of_neg hc]
      exact h

theorem noCut_trim (h : NoCut sep depth s) : NoCut sep depth (trim s) := by
  apply NoCut.of_append (w := (s.dropWhile isJsSpace).rtakeWhile isJsSpace)
  rw [trim, trimEnds, rdropWhile_append_rtakeWhile]
  exact noCut_dropSpaces h

theorem splitTopLevel_part {part : Text} (h : part ∈ splitTopLevel sep s) : splitTopLevel sep (trim part) = [part] := by
  obtain ⟨hmem, hne⟩ := mem_filter.mp h
  obtain ⟨piece, hpiece, rfl⟩ := mem_map.mp hmem
  obtain ⟨first, more, heq, -, hfirst, hmore⟩ := cut_pieces sep 0 0 [] s
  have hnoCut : NoCut sep 0 piece := by
    rw [heq] at hpiece
    rcases mem_cons.mp hpiece with rfl | hpiece
    · exact hfirst
    · exact hmore piece hpiece
  rw [splitTopLevel, trim_trim, cut_of_noCut (noCut_trim hnoCut), reverse_nil, nil_append,
    map_singleton, trim_trim, filter_singleton, hne]
  rfl

/-! ## The shape of a request rule -/

theorem suffix_of_stripEnd {fin body : Text} (h : stripEnd fin s = some body) : s = body ++ fin := by
  unfold stripEnd at h
  split at h
  · rename_i hsuffix
    obtain ⟨front, rfl⟩ := isSuffixOf_iff_suffix.mp hsuffix
    cases h
    rw [length_append, Nat.add_sub_cancel, take_left]
  · cases h

theorem ruleParts_parens {part : Text} {found : Text × Text} (h : RuleEditor.ruleParts part = some found) :
    paren (part.drop 1).dropLast = part := by
  unfold RuleEditor.ruleParts at h
  split at h
  · rename_i rest
    obtain ⟨body, hbody, -⟩ := Option.bind_eq_some_iff.mp h
    have hrest : rest = (body ++ [' ', ':', ' ', '1']) ++ [')'] := by
      rw [suffix_of_stripEnd hbody, append_assoc]
      rfl
    rw [hrest, drop_one, tail_cons, dropLast_concat]
    rfl
  · cases h

variable {json : RuleEditor.JsonParse}

theorem rule_parens {part : Text} {found : Option (List RuleEditor.RequestRuleGroup)} (hpart : part ∈ splitTopLevelMultiply s)
    (hread : RuleEditor.tryParseRequestRuleExpr json part = some found) (hrule : found.any (· ≠ []) = true) :
    paren (part.drop 1).dropLast = part := by
  have hone : splitTopLevelMultiply (trim part) = [part] := splitTopLevel_part hpart
  rw [RuleEditor.tryParseRequestRuleExpr, hone] at hread
  split at hread
  · cases hread
    cases hrule
  · cases hparts : RuleEditor.ruleParts part with
    | some => exact ruleParts_parens hparts
    | none =>
      have hnone : RuleEditor.tryParseRuleGroupFactor json part = some none := by
        rw [RuleEditor.tryParseRuleGroupFactor, hparts]
      rw [RuleEditor.readEach, hnone] at hread
      cases hread
      cases hrule

/-! ## The base without its outer parentheses -/

theorem trim_unwrapLoop {fuel : ℕ} (h : trim s = s) : trim (unwrapLoop fuel s) = unwrapLoop fuel s := by
  induction fuel generalizing s with
  | zero => exact h
  | succ fuel ih =>
    rw [unwrapLoop]
    split
    · exact ih (trim_trim ..)
    · exact h

/-! ## Opening and saving -/

def factor (part : Text × Bool) : Text := if part.2 then (part.1.drop 1).dropLast else unwrapOuterParens part.1

def isSplit (parts : List (Text × Bool)) : Bool := ruleParts parts ≠ [] && (baseParts parts).length = 1

variable {Tree Env Cost : Type}

/-- The expression is cut at its outermost operators: each part without outer parentheses is one, the whole their product. -/
def Language.ReadAsProduct (L : Language Tree Env Cost) (expr : Text) (parts : List (Text × Bool)) : Prop :=
  ∃ t ts, List.Forall₂ L.Operand (parts.map factor) (t :: ts) ∧ L.read expr = some (ts.foldl L.mul t)

/-- There is one part only, or parts are looked at without an exception and split only where the expression is their product.
If products are rounded, at most one rule stands before the base. -/
def Language.CutAtProducts (L : Language Tree Env Cost) (json : RuleEditor.JsonParse) (expr : Text) : Prop :=
  (splitTopLevelMultiply (trim expr)).length ≤ 1 ∨
    ∃ parts, classified json (splitTopLevelMultiply (trim expr)) = some parts ∧
      (isSplit parts = true → L.ReadAsProduct expr parts ∧ (L.Exact ∨ (parts.takeWhile (·.2)).length ≤ 1))

/-- The editor saves an expression that costs the same. -/
def Language.Keeps (L : Language Tree Env Cost) (json : RuleEditor.JsonParse) (expr : Text) : Prop :=
  ∃ saved, reopened json expr = some saved ∧ ∀ env, L.cost saved env = L.cost expr env

variable {L : Language Tree Env Cost}

theorem Language.Documented.keeps_whole (hL : L.Documented) {expr : Text} {t : Tree}
    (hread : L.read expr = some t) (hwhole : splitBillingExprAndRequestRules json expr = some (trim expr, [])) :
    L.Keeps json expr := by
  have hread' := hL.read_trim hread
  refine ⟨trim expr, ?_, fun env => by rw [cost, cost, hread, hread']⟩
  have hne : trim expr ≠ [] := fun hnil => by
    rw [hnil] at hread'
    cases hL.empty.symm.trans hread'
  rw [reopened, hwhole, Option.map_some, combineBillingExpr, trim_trim, if_neg hne]
  rfl

theorem mem_classified {parts : List Text} {found : List (Text × Bool)} (h : classified json parts = some found)
    {part : Text × Bool} (hpart : part ∈ found) : part.1 ∈ parts ∧
      (RuleEditor.tryParseRequestRuleExpr json part.1).map (·.any (· ≠ [])) = some part.2 := by
  induction parts generalizing found with
  | nil =>
    cases h
    cases hpart
  | cons s parts ih =>
    rw [classified, mapM_cons] at h
    obtain ⟨first, hfirst, h⟩ := Option.bind_eq_some_iff.mp h
    obtain ⟨rest, hrest, h⟩ := Option.bind_eq_some_iff.mp h
    obtain ⟨rule, hrule, rfl⟩ := Option.map_eq_some_iff.mp hfirst
    cases h
    rcases mem_cons.mp hpart with rfl | hpart
    · exact ⟨mem_cons_self .., by rw [hrule]; rfl⟩
    · obtain ⟨hmem, hread⟩ := ih hrest hpart
      exact ⟨mem_cons_of_mem _ hmem, hread⟩

def ruleFactors (rules : List Text) : List Text := rules.map fun rule => (rule.drop 1).dropLast

/-- The rules before the base and those after it. -/
theorem exists_around {parts : List (Text × Bool)} {base : Text} (hbase : baseParts parts = [base]) :
    ∃ before after, parts.map factor = ruleFactors before ++ unwrapOuterParens base :: ruleFactors after ∧
      ruleParts parts = before ++ after ∧ (parts.takeWhile (·.2)).length = before.length := by
  obtain ⟨⟨text, rule⟩, hfilter, rfl⟩ := map_eq_singleton_iff.mp hbase
  obtain ⟨before, after, rfl, hbefore, hrule, hafter⟩ := filter_eq_cons_iff.mp hfilter
  obtain rfl : rule = false := by simpa using hrule
  have hafter : ∀ part ∈ after, part.2 = true := by simpa using filter_eq_nil_iff.mp hafter
  have hbefore : ∀ part ∈ before, part.2 = true := by simpa using hbefore
  have hfactors {parts : List (Text × Bool)} (h : ∀ part ∈ parts, part.2 = true) :
      parts.map factor = ruleFactors (parts.map Prod.fst) := by
    rw [ruleFactors, map_map]
    exact map_congr_left fun part hpart => if_pos (h part hpart)
  refine ⟨before.map Prod.fst, after.map Prod.fst, ?_, ?_, ?_⟩
  · rw [map_append, map_cons, hfactors hbefore, hfactors hafter]
    rfl
  · rw [ruleParts, filter_append, filter_cons_of_neg (by simp), filter_eq_self.mpr hbefore, filter_eq_self.mpr hafter, map_append]
  · rw [takeWhile_append_of_pos hbefore, takeWhile_cons_of_neg (by simp), append_nil, length_map]

theorem exists_trees {R : Text → Tree → Prop} {before after : List Text} {base : Text} {trees : List Tree}
    (h : List.Forall₂ R (before ++ base :: after) trees) :
    ∃ us u ws, trees = us ++ u :: ws ∧ List.Forall₂ R before us ∧ R base u ∧ List.Forall₂ R after ws := by
  induction before generalizing trees with
  | nil =>
    obtain _ | ⟨hu, hws⟩ := h
    exact ⟨[], _, _, rfl, .nil, hu, hws⟩
  | cons rule before ih =>
    obtain _ | ⟨ht, hrest⟩ := h
    obtain ⟨us, u, ws, rfl, hus, hu, hws⟩ := ih hrest
    exact ⟨_ :: us, u, ws, rfl, .cons ht hus, hu, hws⟩

theorem combineBillingExpr_product {base : Text} (htrim : trim base = base) (hbase : base ≠ []) (rule : Text)
    (rules : List Text) : combineBillingExpr base (productText (rule :: rules)) = productText (base :: rule :: rules) := by
  rw [combineBillingExpr, htrim, if_neg hbase, trim_productText, if_neg (productText_ne_nil rule rules), productText_cons,
    paren]
  simp only [cons_append, append_assoc, nil_append]

variable {rules : List Text}

theorem intercalate_rules (h : ∀ rule ∈ rules, paren (rule.drop 1).dropLast = rule) :
    times.intercalate rules = productText (ruleFactors rules) := by
  have hmap : (ruleFactors rules).map paren = rules := by
    rw [ruleFactors, map_map]
    exact (map_congr_left h).trans (map_id rules)
  rw [productText, hmap]

theorem Language.Documented.saved_cost (hL : L.Documented) {expr : Text}
    {parts : List (Text × Bool)} (hparts : classified json (splitTopLevelMultiply (trim expr)) = some parts)
    {rule base : Text} (hrules : ruleParts parts = rule :: rules) (hbase : baseParts parts = [base])
    (hsplit : splitBillingExprAndRequestRules json expr = some (unwrapOuterParens base, times.intercalate (rule :: rules)))
    {t : Tree} {ts : List Tree} (hoperands : List.Forall₂ L.Operand (parts.map factor) (t :: ts))
    (horder : L.Exact ∨ (parts.takeWhile (·.2)).length ≤ 1) :
    ∃ saved, reopened json expr = some saved ∧ ∀ env, L.cost saved env = L.eval (ts.foldl L.mul t) env := by
  obtain ⟨before, after, hfactors, haround, hbefore⟩ := exists_around hbase
  rw [hfactors] at hoperands
  rw [hbefore] at horder
  obtain ⟨us, u, ws, htrees, hus, hu, hws⟩ := exists_trees hoperands
  have hsaved : List.Forall₂ L.Operand (unwrapOuterParens base :: ruleFactors (rule :: rules)) (u :: (us ++ ws)) := by
    rw [← hrules, haround, ruleFactors, map_append]
    exact .cons hu (rel_append hus hws)
  have hparens : ∀ r ∈ rule :: rules, paren (r.drop 1).dropLast = r := by
    intro r hr
    rw [← hrules] at hr
    obtain ⟨part, hpart, rfl⟩ := mem_map.mp hr
    obtain ⟨hpart, hflag⟩ := mem_filter.mp hpart
    obtain ⟨hmem, hread⟩ := mem_classified hparts hpart
    obtain ⟨found, hfound, hany⟩ := Option.map_eq_some_iff.mp hread
    exact rule_parens hmem hfound (hany.trans hflag)
  have hne : unwrapOuterParens base ≠ [] := fun hnil => by
    have hparse := hu.1
    rw [hnil, hL.empty] at hparse
    cases hparse
  refine ⟨productText (unwrapOuterParens base :: ruleFactors (rule :: rules)), ?_, fun env => ?_⟩
  · rw [reopened, hsplit, intercalate_rules hparens]
    exact congrArg some (combineBillingExpr_product (trim_unwrapLoop (trim_trim base)) hne _ _)
  · rw [cost, hL.read_of_parse (hL.product hsaved)]
    -- the base has gone to the front, past the rules before it
    cases us with
    | nil =>
      obtain ⟨rfl, rfl⟩ := cons.inj htrees
      rfl
    | cons first us =>
      obtain ⟨rfl, rfl⟩ := cons.inj htrees
      refine (hL.eval_move t u ws (horder.imp_right fun hle => ?_) env).symm
      have hlength := hus.length_eq
      rw [ruleFactors, length_map, length_cons] at hlength
      exact eq_nil_of_length_eq_zero (by omega)

/-- Opening and saving keeps the cost for all token counts and requests if the expression is cut only at its multiplications.
-/
theorem reopened_keeps_cost {L : Language Tree Env Cost} (hL : L.Documented) {expr : Text}
    (haccepted : (L.read expr).isSome) (hcut : L.CutAtProducts json expr) : L.Keeps json expr := by
  obtain ⟨t, hread⟩ := Option.isSome_iff_exists.mp haccepted
  have hne : trim expr ≠ [] := fun hnil => by
    have hread' := hL.read_trim hread
    rw [hnil] at hread'
    cases hL.empty.symm.trans hread'
  by_cases hone : (splitTopLevelMultiply (trim expr)).length ≤ 1
  · apply hL.keeps_whole hread
    rw [splitBillingExprAndRequestRules, if_neg hne, if_pos hone]
  · obtain ⟨parts, hparts, hproduct⟩ := hcut.resolve_left hone
    generalize hsplit : splitBillingExprAndRequestRules json expr = result
    have hresult := hsplit
    rw [splitBillingExprAndRequestRules, if_neg hne, if_neg hone, hparts, Option.map_some] at hresult
    split at hresult
    · rename_i rule rules base hrules hbase
      subst hresult
      obtain ⟨⟨t, ts, hoperands, hproduct⟩, horder⟩ := hproduct (by rw [isSplit, hrules, hbase]; rfl)
      obtain ⟨saved, hsaved, hcost⟩ := hL.saved_cost hparts hrules hbase hsplit hoperands horder
      refine ⟨saved, hsaved, fun env => ?_⟩
      rw [hcost, Language.cost, hproduct, Option.bind_some]
    · subst hresult
      exact hL.keeps_whole hread hsplit

def sumOfRules : Text := "(param(\"fast\") == true ? 2 : 1) * (p + c) * (param(\"batch\") == true ? 2 : 1)".toList

theorem sumOfRules_keeps_cost : fragment.Keeps RuleEditor.jsonParse sumOfRules := by
  apply reopened_keeps_cost fragment_documented
  · decide +kernel
  · refine Or.inr ⟨[("(param(\"fast\") == true ? 2 : 1)".toList, true), ("(p + c)".toList, false),
      ("(param(\"batch\") == true ? 2 : 1)".toList, true)], by decide +kernel, fun _ => ?_⟩
    refine ⟨⟨.flag "fast".toList, [.add .prompt .completion, .flag "batch".toList], ?_, by decide +kernel⟩, .inr (by decide)⟩
    refine .cons ⟨?_, ?_⟩ (.cons ⟨?_, ?_⟩ (.cons ⟨?_, ?_⟩ .nil))
    all_goals decide +kernel

/-- The rule is meant for the completion tokens only; the saved expression applies it to the sum. -/
def lastTermRule : Text := "p + c * (param(\"fast\") == true ? 2 : 1)".toList

theorem rule_of_last_term_spreads : (fragment.read lastTermRule).isSome ∧
    ¬fragment.Keeps RuleEditor.jsonParse lastTermRule := by
  refine ⟨by decide +kernel, ?_⟩
  rintro ⟨saved, hsaved, hcost⟩
  have hreopened : reopened RuleEditor.jsonParse lastTermRule = some "(p + c) * (param(\"fast\") == true ? 2 : 1)".toList := by decide +kernel
  cases Option.some.inj (hreopened.symm.trans hsaved)
  have hbefore : fragment.cost lastTermRule ⟨1, 1, fun _ => true⟩ = some 3 := by decide +kernel
  have hafter : fragment.cost "(p + c) * (param(\"fast\") == true ? 2 : 1)".toList ⟨1, 1, fun _ => true⟩ = some 4 := by
    decide +kernel
  exact absurd (hafter.symm.trans ((hcost _).trans hbefore)) (by decide +kernel)

end HotAI.BillingExpr
