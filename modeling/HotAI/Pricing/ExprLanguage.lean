import Mathlib.Algebra.Order.Ring.Rat
import Mathlib.Data.Option.NAry
import HotAI.Lib.Lines
import HotAI.Pricing.RuleEditor

/-! # The expression language of the backend

The library that compiles and runs billing expressions is a parameter: which texts it reads, as which trees, and what a tree
costs. `Language.Documented` lists what is used of it. -/
namespace HotAI.BillingExpr
open HotAI.Lib List Option

/-! ## Trimmed texts -/

theorem trim_trim (s : Text) : trim (trim s) = trim s := trimEnds_idem ..

theorem exists_spaces (s : Text) : ∃ w w', (∀ c ∈ w, isJsSpace c = true) ∧ (∀ c ∈ w', isJsSpace c = true) ∧
    s = w ++ trim s ++ w' := by
  refine ⟨s.takeWhile isJsSpace, (s.dropWhile isJsSpace).rtakeWhile isJsSpace,
    fun c hc => mem_takeWhile_imp hc, fun c hc => mem_rtakeWhile_imp hc, ?_⟩
  rw [trim, trimEnds, append_assoc, rdropWhile_append_rtakeWhile, takeWhile_append_dropWhile]

def paren (s : Text) : Text := '(' :: s ++ [')']

variable {s : Text}

theorem trim_of_parens (hfirst : s.head? = some '(') (hlast : s.getLast? = some ')') : trim s = s := by
  apply (trimEnds_eq_self_iff isJsSpace s).mpr
  constructor
  · intro c hc
    cases hfirst.symm.trans hc
    rfl
  · intro c hc
    cases hlast.symm.trans hc
    rfl

/-! ## Products of texts in parentheses -/

def productText (factors : List Text) : Text := times.intercalate (factors.map paren)

theorem productText_cons (factor next : Text) (factors : List Text) : productText (factor :: next :: factors) =
    paren factor ++ times ++ productText (next :: factors) := intercalate_cons_cons

variable (factor : Text) (factors : List Text)

theorem getLast?_productText : (productText (factor :: factors)).getLast? = some ')' := by
  induction factors generalizing factor with
  | nil =>
    rw [productText, List.map_singleton, List.intercalate_singleton, paren, List.getLast?_concat]
  | cons next factors ih =>
    rw [productText_cons, List.getLast?_append, ih]
    rfl

theorem head?_productText : (productText (factor :: factors)).head? = some '(' := by
  rw [productText, List.map_cons, paren, List.cons_append, List.intercalate_cons_cons_left]
  rfl

theorem trim_productText : trim (productText (factor :: factors)) = productText (factor :: factors) :=
  trim_of_parens (head?_productText factor factors) (getLast?_productText factor factors)

theorem productText_ne_nil : productText (factor :: factors) ≠ [] := fun hnil => by
  have hfirst := head?_productText factor factors
  rw [hnil] at hfirst
  cases hfirst

/-! ## The language of the backend -/

/-- The texts the language reads, as which trees, a multiplication's tree, and the cost of a tree in `env`. The product of
two costs may be rounded. -/
structure Language (Tree Env Cost : Type) where
  parse : Text → Option Tree
  mul : Tree → Tree → Tree
  eval : Tree → Env → Option Cost
  multiply : Cost → Cost → Cost

namespace Language
variable {Tree Env Cost : Type} (L : Language Tree Env Cost)

def Operand (s : Text) (t : Tree) : Prop := L.parse s = some t ∧ L.parse (paren s) = some t

/-- What the editor relies on: the documented reading of white space, parentheses and products. -/
structure Documented : Prop where
  empty : L.parse [] = none
  version (s : Text) : L.parse ('v' :: '1' :: ':' :: s) = none
  spaces {w s w' : Text} {t : Tree} : (∀ c ∈ w, isJsSpace c = true) → (∀ c ∈ w', isJsSpace c = true) →
    L.parse (w ++ s ++ w') = some t → L.parse s = some t
  product {factors : List Text} {t : Tree} {ts : List Tree} : List.Forall₂ L.Operand factors (t :: ts) →
    L.parse (productText factors) = some (ts.foldl L.mul t)
  multiply_comm (x y : Cost) : L.multiply x y = L.multiply y x
  eval_mul (a b : Tree) (env : Env) : L.eval (L.mul a b) env = Option.map₂ L.multiply (L.eval a env) (L.eval b env)

def Exact : Prop := ∀ x y z, L.multiply (L.multiply x y) z = L.multiply x (L.multiply y z)

def read (expr : Text) : Option Tree := L.parse (parseExprVersion expr)

def cost (expr : Text) (env : Env) : Option Cost := (L.read expr).bind fun t => L.eval t env

/-! ## What the backend makes of the texts -/

variable {L}

theorem read_of_not_version {expr : Text} (h : ¬"v1:".toList <+: expr) : L.read expr = L.parse expr := by
  rw [read, parseExprVersion, if_neg (fun hstart => h (List.isPrefixOf_iff_prefix.mp hstart))]

variable {t : Tree}

section
variable (hL : L.Documented)
include hL

theorem Documented.read_of_parse (h : L.parse s = some t) : L.read s = some t := by
  rw [read_of_not_version, h]
  rintro ⟨body, rfl⟩
  cases (hL.version body).symm.trans h

theorem Documented.parse_trimEnd {s w : Text} (hw : ∀ c ∈ w, isJsSpace c = true)
    (h : L.parse (s ++ w) = some t) : L.parse s = some t :=
  hL.spaces (w := []) (fun _ hc => absurd hc not_mem_nil) hw h

theorem Documented.read_trim {expr : Text} (h : L.read expr = some t) : L.read (trim expr) = some t := by
  obtain ⟨w, w', hw, hw', heq⟩ := exists_spaces expr
  by_cases hversion : "v1:".toList <+: expr
  · obtain ⟨body, hbody⟩ := hversion
    have hread : L.parse body = some t := by
      rw [← hbody] at h
      exact h
    -- the text begins with a letter, so nothing is cut off its front
    have hw : w = [] := by
      cases w with
      | nil => rfl
      | cons c w =>
        have hc := hw c (mem_cons_self ..)
        cases (cons.inj (hbody.trans heq)).1
        cases hc
    rw [hw, nil_append] at heq
    rcases append_eq_append_iff.mp (hbody.trans heq) with ⟨rest, htrim, hrest⟩ | ⟨rest, hfront, hrest⟩
    · rw [htrim]
      exact hL.parse_trimEnd hw' (hrest ▸ hread)
    · -- what is cut off the end is white space, so it does not reach the colon
      rcases eq_nil_or_concat rest with rfl | ⟨init, c, rfl⟩
      · have hempty : L.parse [] = some t := hL.parse_trimEnd hw' (by rw [hrest]; exact hread)
        cases hL.empty.symm.trans hempty
      · have hcolon : c = ':' := by
          have hlast := congrArg getLast? hfront
          rw [concat_eq_append, ← append_assoc, getLast?_concat] at hlast
          exact (some.inj hlast).symm
        have hc := hw' c (by rw [hrest]; simp)
        subst hcolon
        cases hc
  · apply hL.read_of_parse
    apply hL.spaces hw hw'
    rw [← heq, ← read_of_not_version hversion]
    exact h

theorem Documented.eval_foldl (t : Tree) (ts : List Tree) (env : Env) :
    L.eval (ts.foldl L.mul t) env = (ts.map (L.eval · env)).foldl (map₂ L.multiply) (L.eval t env) := by
  induction ts generalizing t with
  | nil => rfl
  | cons u ts ih => rw [foldl_cons, ih, hL.eval_mul, map_cons, foldl_cons]

/-- A factor changes places with the one before it, and with more of them if the product is exact. -/
theorem Documented.eval_move (t u : Tree) {us : List Tree} (ws : List Tree) (h : L.Exact ∨ us = []) (env : Env) :
    L.eval ((us ++ u :: ws).foldl L.mul t) env = L.eval ((t :: us ++ ws).foldl L.mul u) env := by
  have hcomm (x y : Option Cost) : map₂ L.multiply x y = map₂ L.multiply y x := map₂_comm hL.multiply_comm
  have hfront (x y : Option Cost) : map₂ L.multiply ((us.map (L.eval · env)).foldl (map₂ L.multiply) x) y =
      (us.map (L.eval · env)).foldl (map₂ L.multiply) (map₂ L.multiply y x) := by
    rcases h with hexact | rfl
    · have : Std.Associative (map₂ L.multiply) := ⟨fun _ _ _ => map₂_assoc hexact⟩
      rw [foldl_assoc, hcomm]
    · exact hcomm x y
  rw [hL.eval_foldl, hL.eval_foldl, map_append, map_append, map_cons, map_cons, foldl_append, foldl_append, foldl_cons,
    foldl_cons, hfront]

end

end Language

/-! ## A fragment with sums, products and conditions on a flag -/

inductive Term
  | prompt
  | completion
  | text (s : Text)
  | flag (path : Text)
  | add (a b : Term)
  | mul (a b : Term)
  deriving DecidableEq

structure Request where
  p : ℚ
  c : ℚ
  param : Text → Bool

def Term.eval : Term → Request → Option ℚ
  | prompt, env => some env.p
  | completion, env => some env.c
  | text _, _ => none
  | flag path, env => some (if env.param path then 2 else 1)
  | add a b, env => Option.map₂ (· + ·) (a.eval env) (b.eval env)
  | mul a b, env => Option.map₂ (· * ·) (a.eval env) (b.eval env)

/-- A level of parentheses has its own characters and the trees of the groups in it. -/
inductive Symbol
  | char (c : Char)
  | group (t : Term)
  deriving DecidableEq

abbrev Level := List Symbol

def Level.ofText (s : Text) : Level := s.map .char

def Symbol.char? : Symbol → Option Char
  | char c => some c
  | group _ => none

def readQuoted (level : Level) : Option Term :=
  match level.mapM Symbol.char? with
  | some ('"' :: rest) => if rest.getLast? = some '"' then some (.text rest.dropLast) else none
  | _ => none

/-- `param("path") == true ? 2 : 1`. -/
def readFlag (level : Level) : Option Term :=
  match level.drop 5 with
  | .group (.text path) :: rest =>
      if level.take 5 = Level.ofText "param".toList ∧ rest = Level.ofText " == true ? 2 : 1".toList then some (.flag path)
      else none
  | _ => none

def readOperand : Level → Option Term
  | [.group t] => some t
  | [.char 'p'] => some .prompt
  | [.char 'c'] => some .completion
  | level => (readQuoted level).or (readFlag level)

/-- The operands between the signs `op`, put together from the left. -/
def readChain (op : Text) (combine : Term → Term → Term) (readPart : Level → Option Term) (level : Level) : Option Term :=
  match (splitAux (Level.ofText op) 0 [] level).mapM readPart with
  | some (t :: ts) => some (ts.foldl combine t)
  | _ => none

def readProduct (level : Level) : Option Term := readChain times .mul readOperand level

def readLevel (level : Level) : Option Term := readChain [' ', '+', ' '] .add readProduct level

/-- The text is read from the left; `stack` holds the levels that are open around `level`. -/
def scanLevels : List Level → Level → Text → Option Term
  | stack, level, [] => if stack = [] then readLevel level else none
  | stack, level, c :: rest =>
      if c = '(' then scanLevels (level :: stack) [] rest
      else if c = ')' then
        stack.head?.bind fun below => (readLevel level).bind fun t => scanLevels stack.tail (below ++ [.group t]) rest
      else scanLevels stack (level ++ [.char c]) rest

def fragment : Language Term Request ℚ where
  parse s := if trim s = s ∧ s ≠ [] ∧ ¬"v1:".toList <+: s then scanLevels [] [] s else none
  mul := .mul
  eval := Term.eval
  multiply := (· * ·)

/-! ### The fragment is read as documented -/

variable {t : Term}

theorem scanLevels_close {opened : List Level} {level : Level} (h : scanLevels opened level s = some t)
    (below : Level) (stack : List Level) (rest : Text) :
    scanLevels (opened ++ below :: stack) level (s ++ ')' :: rest) = scanLevels stack (below ++ [.group t]) rest := by
  induction s generalizing opened level with
  | nil =>
    rw [scanLevels] at h
    split at h
    · rename_i hopen
      rw [hopen, List.nil_append, List.nil_append, scanLevels]
      rw [List.head?_cons, h]
      rfl
    · cases h
  | cons c s ih =>
    rw [scanLevels] at h
    rw [List.cons_append, scanLevels]
    split at h
    · rename_i hopen
      rw [if_pos hopen]
      exact ih h
    · rename_i hopen
      rw [if_neg hopen]
      split at h
      · rename_i hclose
        rw [if_pos hclose]
        cases opened with
        | nil => cases h
        | cons last opened =>
          rw [List.head?_cons, Option.bind_some] at h
          obtain ⟨u, hu, h⟩ := Option.bind_eq_some_iff.mp h
          rw [List.cons_append, List.head?_cons, hu]
          exact ih h
      · rename_i hclose
        rw [if_neg hclose]
        exact ih h

theorem scanLevels_paren (h : scanLevels [] [] s = some t) (stack : List Level) (level : Level)
    (rest : Text) : scanLevels stack level (paren s ++ rest) = scanLevels stack (level ++ [.group t]) rest := by
  rw [paren, append_assoc, cons_append, scanLevels]
  exact scanLevels_close h level stack rest

def groups : List Term → Level
  | [] => []
  | [t] => [.group t]
  | t :: u :: ts => .group t :: Level.ofText times ++ groups (u :: ts)

theorem scanLevels_productText {factors : List Text} {ts : List Term} (hne : factors ≠ [])
    (h : List.Forall₂ (fun s t => scanLevels [] [] s = some t) factors ts) (level : Level) :
    scanLevels [] level (productText factors) = readLevel (level ++ groups ts) := by
  induction h generalizing level with
  | nil => exact absurd rfl hne
  | @cons s t factors ts hs hrest ih =>
    cases hrest with
    | nil =>
      rw [productText, map_singleton, intercalate_singleton, ← append_nil (paren s), scanLevels_paren hs]
      rfl
    | @cons s' t' factors ts hs' hrest =>
      rw [productText_cons, append_assoc, scanLevels_paren hs]
      have htimes : ∀ rest, scanLevels [] (level ++ [.group t]) (times ++ rest) =
          scanLevels [] (level ++ .group t :: Level.ofText times) rest := by
        intro rest
        simp [times, scanLevels, Level.ofText]
      rw [htimes, ih (cons_ne_nil _ _), append_assoc]
      rfl

theorem splitAux_groups (t : Term) (ts : List Term) :
    splitAux (Level.ofText times) 0 [] (groups (t :: ts)) = (t :: ts).map fun t => [.group t] := by
  induction ts generalizing t with
  | nil => rfl
  | cons u ts ih =>
    rw [map_cons, ← ih u]
    rfl

theorem splitAux_of_not_mem {α : Type} [BEq α] [LawfulBEq α] {sep : List α} {x : α} (hsep : x ∈ sep) {acc l : List α} (hl : x ∉ l) :
    splitAux sep 0 acc l = [acc.reverse ++ l] := by
  induction l generalizing acc with
  | nil => rw [splitAux, append_nil]
  | cons a l ih =>
    have hno : ¬sep.isPrefixOf (a :: l) = true := fun h => hl ((List.isPrefixOf_iff_prefix.mp h).subset hsep)
    rw [splitAux, if_neg hno, ih (fun hx => hl (mem_cons_of_mem _ hx)), reverse_cons, append_assoc,
      singleton_append]

theorem plus_not_mem_groups (ts : List Term) : .char '+' ∉ groups ts := by
  induction ts with
  | nil => exact not_mem_nil
  | cons t ts ih =>
    cases ts with
    | nil => simp [groups]
    | cons u ts => simpa [groups, Level.ofText, times] using ih

theorem mapM_readOperand (ts : List Term) : (ts.map fun t => ([.group t] : Level)).mapM readOperand = some ts := by
  induction ts with
  | nil => rfl
  | cons t ts ih =>
    rw [map_cons, mapM_cons, ih]
    rfl

theorem readLevel_groups (t : Term) (ts : List Term) : readLevel (groups (t :: ts)) = some (ts.foldl .mul t) := by
  have hproduct : readProduct (groups (t :: ts)) = some (ts.foldl .mul t) := by
    rw [readProduct, readChain, splitAux_groups, mapM_readOperand]
  have hone : splitAux (Level.ofText [' ', '+', ' ']) 0 [] (groups (t :: ts)) = [groups (t :: ts)] :=
    splitAux_of_not_mem (x := .char '+') (by simp [Level.ofText]) (plus_not_mem_groups _)
  rw [readLevel, readChain, hone, mapM_cons, hproduct]
  rfl

theorem fragment_parse (h : fragment.parse s = some t) : trim s = s ∧ scanLevels [] [] s = some t := by
  simp only [fragment] at h
  split at h
  · rename_i htext
    exact ⟨htext.1, h⟩
  · cases h

theorem fragment_documented : fragment.Documented where
  empty := rfl
  version s := if_neg fun h => h.2.2 ⟨s, rfl⟩
  spaces := by
    intro w s w' t hw hw' h
    obtain ⟨hfirst, hlast⟩ := (trimEnds_eq_self_iff isJsSpace _).mp (fragment_parse h).1
    have hw : w = [] := by
      cases w with
      | nil => rfl
      | cons c w => cases (hw c (mem_cons_self ..)).symm.trans (hfirst c rfl)
    have hw' : w' = [] := by
      rcases eq_nil_or_concat w' with rfl | ⟨init, c, rfl⟩
      · rfl
      · rw [concat_eq_append] at hw' hlast
        have hend := hlast c (by rw [← append_assoc, getLast?_concat])
        cases (hw' c (by simp)).symm.trans hend
    rw [hw, hw', append_nil] at h
    exact h
  product := by
    intro factors t ts h
    have hscan : List.Forall₂ (fun s t => scanLevels [] [] s = some t) factors (t :: ts) :=
      h.imp fun s t hs => (fragment_parse hs.1).2
    cases factors with
    | nil => cases h
    | cons s factors =>
      have htext : trim (productText (s :: factors)) = productText (s :: factors) ∧ productText (s :: factors) ≠ [] ∧
          ¬"v1:".toList <+: productText (s :: factors) := by
        refine ⟨trim_productText s factors, productText_ne_nil s factors, fun hversion => ?_⟩
        obtain ⟨body, hbody⟩ := hversion
        have hfirst := head?_productText s factors
        rw [← hbody] at hfirst
        cases hfirst
      refine (if_pos htext).trans ?_
      rw [scanLevels_productText (cons_ne_nil _ _) hscan]
      exact readLevel_groups t ts
  multiply_comm := mul_comm
  eval_mul _ _ _ := rfl

end HotAI.BillingExpr
