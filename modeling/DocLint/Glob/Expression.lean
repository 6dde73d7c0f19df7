import DocLint.Glob.Matching

/-!
# Patterns as expressions

The expression that a path pattern is written as when it cannot be used, and
how deeply its parts are nested. Expressions that are nested too deeply are
refused.
-/

set_option autoImplicit false

namespace DocLint.Glob

def specialChars : List Char :=
  ['\\', '.', '+', '*', '?', '(', ')', '|', '[', ']', '{', '}', '^', '$', '#', '&', '-', '~']

def octetText (b : UInt8) : List Char :=
  if b < 128 then
    let c := Char.ofNat b.toNat
    if specialChars.contains c then ['\\', c] else [c]
  else '\\' :: 'x' :: Nat.toDigits 16 b.toNat

def charText (c : Char) : List Char := (octets c).flatMap octetText

def rangeText (r : Char × Char) : List Char :=
  if r.1 == r.2 then charText r.1 else charText r.1 ++ '-' :: charText r.2

mutual

def tokenText : GlobToken → List Char
  | .literal c => charText c
  | .any => ['.']
  | .many => ['.', '*']
  | .anyAbove => "(?:/?|.*/)".toList
  | .anyBelow => "/.*".toList
  | .anyBetween => "(?:/|/.*/)".toList
  | .charClass negated ranges =>
    '[' :: (if negated then ['^'] else []) ++ ranges.flatMap rangeText ++ [']']
  | .alternatives branches =>
    if allVoid branches then [] else "(?:".toList ++ branchTexts branches ++ [')']

def sequenceText : List GlobToken → List Char
  | [] => []
  | t :: ts => tokenText t ++ sequenceText ts

def branchTexts : List (List GlobToken) → List Char
  | [] => []
  | b :: rest =>
    if isVoidBranch b then branchTexts rest
    else sequenceText b ++ (if allVoid rest then [] else '|' :: branchTexts rest)

end

def expression (g : Glob) : String :=
  String.ofList ("(?-u)^".toList ++
    (match g with
      | [.anyAbove] => ['.', '*']
      | _ => sequenceText g) ++ ['$'])

/-- How many parts a piece of an expression has, and how deeply they are nested. -/
structure Nested where
  parts : Nat
  depth : Nat
  deriving DecidableEq, Repr

namespace Nested

def beside (a b : Nested) : Nested := ⟨a.parts + b.parts, max a.depth b.depth⟩

def level (n : Nested) : Nat := if n.parts ≤ 1 then n.depth else n.depth + 1

end Nested

def rangeParts (r : Char × Char) : Nat :=
  if r.1 == r.2 then (octets r.1).length else (octets r.1).length + (octets r.2).length - 1

mutual

def tokenNesting : GlobToken → Nested
  | .literal c => ⟨(octets c).length, 0⟩
  | .any => ⟨1, 0⟩
  | .many => ⟨1, 1⟩
  | .anyAbove => ⟨1, 4⟩
  | .anyBelow => ⟨2, 1⟩
  | .anyBetween => ⟨1, 4⟩
  | .charClass _ ranges => ⟨1, if (ranges.map rangeParts).sum ≤ 1 then 1 else 2⟩
  | .alternatives branches =>
    if allVoid branches then ⟨0, 0⟩ else ⟨1, 1 + (branchNesting branches).level⟩

def sequenceNesting : List GlobToken → Nested
  | [] => ⟨0, 0⟩
  | t :: ts => (tokenNesting t).beside (sequenceNesting ts)

def branchNesting : List (List GlobToken) → Nested
  | [] => ⟨0, 0⟩
  | b :: rest =>
    if isVoidBranch b then branchNesting rest
    else Nested.beside ⟨1, (sequenceNesting b).level⟩ (branchNesting rest)

end

def depth (g : Glob) : Nat := 1 + (sequenceNesting g).depth

def depthLimit : Nat := 250

def isTooDeep (g : Glob) : Bool := depthLimit < g.depth

end DocLint.Glob
