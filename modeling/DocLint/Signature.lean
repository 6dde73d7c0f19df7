import DocLint.Line
import DocLint.Text.Lines
import DocLint.Text.Search

/-!
# Function signatures

What the header of a function says about its name, its parameters and its
return type. A header may run over several lines.
-/

set_option autoImplicit false

namespace DocLint

structure Signature where
  name : Option (List Char)
  params : List (List Char)
  returnType : Option (List Char)
  deriving DecidableEq, Repr

namespace Signature

def isConstructor (s : Signature) : Bool := s.name == some "constructor".toList

def valuelessTypes : List String := ["void", "Promise<void>", "never", "undefined"]

def isValueType (ty : List Char) : Bool :=
  let compact := ty.filter fun c => !Text.isBlank c
  !compact.isEmpty && !valuelessTypes.any fun t => t.toList == compact

def returnsValue (s : Signature) : Bool :=
  match s.returnType with
  | some ty => isValueType ty
  | none => false

def afterKeyword? (keyword : String) (cs : List Char) : Option (List Char) :=
  match Text.strip? keyword.toList cs with
  | some (c :: rest) => if Text.isBlank c then some (Text.trimStart rest) else none
  | _ => none

def variableName? (header : List Char) : Option (List Char) :=
  let cs := (afterKeyword? "export" header).getD header
  match ["const", "let", "var"].findSome? fun k => afterKeyword? k cs with
  | some rest => (Text.name? rest).map (·.1)
  | none => none

/-- What may stand between a name and its parameter list: nothing, or type parameters that end
right before the parenthesis. -/
def opensParams (cs : List Char) : Bool :=
  match Text.trimStart cs with
  | '(' :: _ => true
  | '<' :: rest =>
    match Text.cutAt '(' rest with
    | some (inner, _) => ['>'].isSuffixOf (Text.trimEnd inner)
    | none => false
  | _ => false

def calleeAt? (cs : List Char) : Option (List Char) :=
  match Text.name? cs with
  | some (name, rest) => if opensParams rest then some name else none
  | none => none

def arrowParam? (cs : List Char) : Option (List Char) :=
  match Text.name? cs with
  | some (name, rest) =>
    if ['=', '>'].isPrefixOf (Text.trimStart rest) then some name else none
  | none => none

def soleParamAt? : List Char → Option (List Char)
  | '=' :: rest =>
    let cs := Text.trimStart rest
    match (afterKeyword? "async" cs).bind arrowParam? with
    | some name => some name
    | none => arrowParam? cs
  | _ => none

/-- The text up to the parenthesis that closes the one before it, and the text behind. When
nothing closes it, all of the text is inside. -/
def cutParams : Nat → List Char → List Char × List Char
  | _, [] => ([], [])
  | depth, c :: cs =>
    if c == '(' then
      let (inner, rest) := cutParams (depth + 1) cs
      (c :: inner, rest)
    else if c == ')' then
      match depth with
      | 0 => ([], cs)
      | d + 1 =>
        let (inner, rest) := cutParams d cs
        (c :: inner, rest)
    else
      let (inner, rest) := cutParams depth cs
      (c :: inner, rest)

def depthStep (prev c : Char) : Int :=
  if c == '(' || c == '[' || c == '{' || c == '<' then 1
  else if c == '>' && prev == '=' then 0
  else if c == ')' || c == ']' || c == '}' || c == '>' then -1
  else 0

/-- Splits at the commas outside of all brackets; `current` holds the piece so far, its last
character first. -/
def splitCommas (depth : Int) (prev : Char) (current : List Char) :
    List Char → List (List Char)
  | [] => [current.reverse]
  | c :: cs =>
    if c == ',' && depth == 0 then current.reverse :: splitCommas depth c [] cs
    else splitCommas (depth + depthStep prev c) c (c :: current) cs

def paramModifiers : List String := ["public", "private", "protected", "readonly", "override"]

def dropModifiers : Nat → List Char → List Char
  | 0, cs => cs
  | fuel + 1, cs =>
    match paramModifiers.findSome? fun m => afterKeyword? m cs with
    | some rest => dropModifiers fuel rest
    | none => cs

def dropEllipses : List Char → List Char
  | '.' :: '.' :: '.' :: rest => dropEllipses rest
  | cs => cs

def paramName? (param : List Char) : Option (List Char) :=
  let cs := Text.trim param
  match Text.name? (dropEllipses (dropModifiers cs.length cs)) with
  | some (name, _) => if name == "this".toList then none else some name
  | none => none

def splitParams (list : List Char) : List (List Char) :=
  (splitCommas 0 ' ' [] list).filterMap paramName?

/-- The text of a return type up to the body, an arrow or a semicolon outside of all brackets;
`collected` holds the text so far, its last character first. -/
def returnText (depth : Int) (prev : Char) (collected : List Char) : List Char → List Char
  | [] => collected.reverse
  | c :: cs =>
    if depth == 0 && c == '{' && !Text.allBlank collected then collected.reverse
    else if depth == 0 && c == '>' && prev == '=' then collected.tail.reverse
    else if depth == 0 && c == ';' then collected.reverse
    else returnText (depth + depthStep prev c) c (c :: collected) cs

def returnType? (rest : List Char) : Option (List Char) :=
  match Text.trimStart rest with
  | ':' :: note =>
    let ty := Text.trim (returnText 0 ' ' [] note)
    if ty.isEmpty then none else some ty
  | _ => none

def nameOf? (header : List Char) : Option (List Char) :=
  match variableName? header with
  | some name => some name
  | none => Text.firstAt calleeAt? header

def ofHeader (header : List Char) : Signature :=
  match Text.cutAt '(' header with
  | none => ⟨nameOf? header, (Text.firstAt soleParamAt? header).toList, none⟩
  | some (_, tail) =>
    let (inner, rest) := cutParams 0 tail
    ⟨nameOf? header, splitParams inner, returnType? rest⟩

def maxLines : Nat := 20

def parenDepth (depth : Int) (line : Line) : Int :=
  line.foldl (fun d c => if c == '(' then d + 1 else if c == ')' then d - 1 else d) depth

/-- The lines of a header, each trimmed and followed by a blank, until its parentheses close. -/
def headerText (depth : Int) (seen : Bool) : List Line → List Char
  | [] => []
  | line :: rest =>
    let depth' := parenDepth depth line
    let seen' := seen || line.contains '('
    Text.trim line ++ ' ' :: (if !seen' || depth' ≤ 0 then [] else headerText depth' seen' rest)

def ofLines (lines : List Line) (index : Nat) : Signature :=
  ofHeader (Text.trim (headerText 0 false ((lines.drop index).take maxLines)))

end Signature

end DocLint
