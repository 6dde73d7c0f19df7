import DocLint.Declaration.Shape

/-!
# Source lines

A source text is a list of lines, and a line is a list of characters. Each
line has one kind, decided on its trimmed text by the first test that holds.
-/

set_option autoImplicit false

namespace DocLint

abbrev Line := List Char

inductive LineKind where
  | blank
  | docOpen
  | commentOpen
  | commentClose
  | commentInterior
  | lineComment
  | decorator
  | closeBrace
  | declaration (shape : DeclarationShape)
  | code
  deriving DecidableEq, Repr

namespace LineKind

def isTrivia : LineKind → Bool
  | blank | docOpen | commentOpen | commentClose | commentInterior | lineComment | decorator =>
    true
  | closeBrace | declaration _ | code => false

/-- Kinds that may stand between a documentation block and its declaration. -/
def isSpacer : LineKind → Bool
  | blank | decorator | lineComment => true
  | _ => false

end LineKind

namespace Line

def opensDoc (line : Line) : Bool := "/**".toList.isPrefixOf (Text.trim line)

def opensComment (line : Line) : Bool := "/*".toList.isPrefixOf (Text.trim line)

def closesComment (line : Line) : Bool := "*/".toList.isSuffixOf (Text.trimEnd line)

def kindOfTrimmed (cs : List Char) : LineKind :=
  if cs.isEmpty then .blank
  else if "/**".toList.isPrefixOf cs then .docOpen
  else if "/*".toList.isPrefixOf cs then .commentOpen
  else if "*/".toList.isPrefixOf cs || "*/".toList.isSuffixOf cs then .commentClose
  else if "*".toList.isPrefixOf cs then .commentInterior
  else if "//".toList.isPrefixOf cs then .lineComment
  else if "@".toList.isPrefixOf cs then .decorator
  else if ['}'].isPrefixOf cs then .closeBrace
  else match DeclarationShape.ofText? cs with
    | some shape => .declaration shape
    | none => .code

def kind (line : Line) : LineKind := kindOfTrimmed (Text.trim line)

end Line

end DocLint
