import DocLint.Glob
import DocLint.Pattern

/-!
# Matching paths

A path pattern is followed on the octets of a path. Some patterns are decided
by the file name of a path, and a path without one does not match them.
-/

set_option autoImplicit false

namespace DocLint.Glob

abbrev Octets := List UInt8

def octets (c : Char) : Octets := String.utf8EncodeChar c

def slash : UInt8 := 47

def dot : UInt8 := 46

/-- The octets of a range: the last octet of its first character is joined to the first octet of
its last character. -/
def rangeHas (b : UInt8) (r : Char × Char) : Bool :=
  if r.1 == r.2 then (octets r.1).contains b
  else
    let lo := octets r.1
    let hi := octets r.2
    lo.contains b || hi.contains b || (lo.getLastD 0 ≤ b && b ≤ hi.headD 0)

def classHas (negated : Bool) (ranges : List (Char × Char)) (b : UInt8) : Bool :=
  negated != ranges.any (rangeHas b)

mutual

def isVoid : GlobToken → Bool
  | .alternatives branches => allVoid branches
  | _ => false

def isVoidBranch : List GlobToken → Bool
  | [] => true
  | t :: ts => isVoid t && isVoidBranch ts

def allVoid : List (List GlobToken) → Bool
  | [] => true
  | b :: bs => isVoidBranch b && allVoid bs

end

def anything : Pattern UInt8 := .many fun _ => true

def separator : Pattern UInt8 := .one (· == slash)

mutual

def tokenPattern : GlobToken → Pattern UInt8
  | .literal c => .anyOf [octets c]
  | .any => .one fun _ => true
  | .many => anything
  | .anyAbove => .optional (separator ||| (anything ++ separator))
  | .anyBelow => separator ++ anything
  | .anyBetween => separator ++ .optional (anything ++ separator)
  | .charClass negated ranges => .one (classHas negated ranges)
  | .alternatives branches => if allVoid branches then .empty else branchPattern branches

def sequencePattern : List GlobToken → Pattern UInt8
  | [] => .empty
  | t :: ts => tokenPattern t ++ sequencePattern ts

def branchPattern : List (List GlobToken) → Pattern UInt8
  | [] => .anyOf []
  | b :: rest =>
    if isVoidBranch b then branchPattern rest else sequencePattern b ||| branchPattern rest

end

def pattern (g : Glob) : Pattern UInt8 :=
  match g with
  | [.anyAbove] => anything
  | _ => sequencePattern g

inductive Method where
  | fixedText
  | fileName
  | extensionFirst
  | path
  deriving DecidableEq, Repr

def literalText? : List GlobToken → Option (List Char)
  | [] => some []
  | .literal c :: ts => (literalText? ts).map (c :: ·)
  | _ => none

def isText (p : List Char → Bool) (ts : List GlobToken) : Bool := (literalText? ts).any p

def isFileName (g : Glob) : Bool :=
  match g with
  | .anyAbove :: ts => isText (fun t => !t.isEmpty && !t.contains '/') ts
  | _ => false

def isStarExtension : List GlobToken → Bool
  | .many :: .literal '.' :: ts => isText (fun t => !t.contains '.' && !t.contains '/') ts
  | _ => false

def isAnyWithExtension (g : Glob) : Bool :=
  match g with
  | .anyAbove :: ts => isStarExtension ts
  | ts => isStarExtension ts

def isTextThenAny (g : Glob) : Bool :=
  match g.getLast? with
  | some .many => isText (!·.isEmpty) g.dropLast
  | some .anyBelow => isText (fun _ => true) g.dropLast
  | _ => false

def isAnyThenText (g : Glob) : Bool :=
  match g with
  | .many :: ts => isText (fun t => !t.isEmpty && t != ['/']) ts
  | .anyAbove :: .many :: ts => isText (fun t => !t.isEmpty && t != ['/']) ts
  | .anyAbove :: ts => isText (!·.isEmpty) ts
  | _ => false

def endsInExtension : List GlobToken → Bool
  | .literal c :: ts => c == '.' || (c != '/' && endsInExtension ts)
  | _ => false

def method (g : Glob) : Method :=
  if g.isFileName then .fileName
  else if isText (!·.isEmpty) g then .fixedText
  else if g.isAnyWithExtension then .fileName
  else if g.isTextThenAny || g.isAnyThenText then .fixedText
  else if endsInExtension g.reverse then .extensionFirst
  else .path

def hasFileName (path : Octets) : Bool :=
  !path.isEmpty && (path.reverse.takeWhile (· != slash)) != [dot, dot]

def matchesPath (g : Glob) (path : String) : Bool :=
  let bs := path.toList.flatMap octets
  let decided := match g.method with
    | .fileName | .extensionFirst => hasFileName bs
    | .fixedText | .path => true
  decided && g.pattern.accepts bs

end DocLint.Glob
