import HotAI.Lib.JsonText

/-! # The editor's view of a billing expression

The editor shows a billing expression as a base price and request rules `(condition ? multiplier : 1)`.
`splitBillingExprAndRequestRules` finds the two in the text, `combineBillingExpr` puts them together. Both count parentheses
and look for `" * "` outside of them. A `JSON.parse` outside a `try` makes the answer `none`. -/
namespace HotAI.BillingExpr
open HotAI.Lib JsonText

abbrev Text := List Char

/-- What `String.prototype.trim` cuts off. -/
def isJsSpace (c : Char) : Bool :=
  c ∈ ['\t', '\n', '\u000b', '\u000c', '\r', ' ', '\u00a0', '\u1680', '\u2028', '\u2029', '\u202f', '\u205f',
    '\u3000', '\ufeff'] || ('\u2000' ≤ c && c ≤ '\u200a')

def trim (s : Text) : Text := trimEnds isJsSpace s

/-! ## Cutting a text outside its parentheses -/

def depthAfter (depth : ℤ) (c : Char) : ℤ :=
  if c = '(' then depth + 1 else if c = ')' then depth - 1 else depth

/-- The pieces between the occurrences of `sep` at depth zero; `skip` characters are still to be passed over. -/
def cut (sep : Text) : ℤ → ℕ → Text → Text → List Text
  | _, _, acc, [] => [acc.reverse]
  | depth, skip + 1, acc, _ :: rest => cut sep depth skip acc rest
  | depth, 0, acc, c :: rest =>
      if depthAfter depth c = 0 ∧ sep.isPrefixOf (c :: rest) then
        acc.reverse :: cut sep (depthAfter depth c) (sep.length - 1) [] rest
      else cut sep (depthAfter depth c) 0 (c :: acc) rest

def splitTopLevel (sep s : Text) : List Text := ((cut sep 0 0 [] s).map trim).filter (· ≠ [])

def times : Text := [' ', '*', ' ']

def splitTopLevelMultiply (s : Text) : List Text := splitTopLevel times s

def splitTopLevelAnd (s : Text) : List Text := splitTopLevel [' ', '&', '&', ' '] s

/-! ## The conditions of a request rule -/

/-- The characters `[\d.eE+-]`. -/
def isNumberChar (c : Char) : Bool := c.isDigit || c ∈ ['.', 'e', 'E', '+', '-']

def isNumberText (s : Text) : Bool := s ≠ [] && s.all isNumberChar

def isLineTerminator (c : Char) : Bool := c ∈ ['\n', '\r', '\u2028', '\u2029']

/-- `fn("path")` at the front, with a path that is not empty and has no quote. -/
def readCall (fn : String) (s : Text) : Option (Text × Text) :=
  (literal (fn ++ "(\"") s).bind fun s =>
    if s.takeWhile (· ≠ '"') = [] then none
    else (literal "\")" (s.dropWhile (· ≠ '"'))).map fun rest => (s.takeWhile (· ≠ '"'), rest)

/-- A string `"(?:[^"\\]|\\.)*"` after its opening quote. -/
def stringLiteral : Reader
  | '"' :: cs => some cs
  | '\\' :: c :: cs => if isLineTerminator c then none else stringLiteral cs
  | '\\' :: [] => none
  | _ :: cs => stringLiteral cs
  | [] => none

def literalArgument : Text → Option Text
  | '"' :: cs => if stringLiteral cs = some [')'] then some ('"' :: cs.dropLast) else none
  | _ => none

def isJson (s : Text) : Bool := ((value (2 * s.length + 2) (skipBlank s)).map skipBlank) = some []

def inParens (s : Text) : Option Text :=
  match s with
  | '(' :: rest => if rest.getLast? = some ')' then some rest.dropLast else none
  | _ => none

def mantissa (s : Text) : Option Text :=
  match digits s with
  | some ('.' :: rest) => some (rest.dropWhile Char.isDigit)
  | some rest => some rest
  | none => match s with
      | '.' :: rest => digits rest
      | _ => none

def isNumericLiteral (s : Text) : Bool := (mantissa (dropSign ['-'] s)).bind exponent = some []

/-- `param("path") != nil && `, with the path and what follows. -/
def paramGuard (s : Text) : Option (Text × Text) :=
  (readCall "param" s).bind fun call => (literal " != nil && " call.2).map fun rest => (call.1, rest)

def stripEnd («end» s : Text) : Option Text :=
  if «end».isSuffixOf s then some (s.take (s.length - «end».length)) else none

end HotAI.BillingExpr
