import DocLint.Declaration
import DocLint.Pattern
import DocLint.Text.Blank
import DocLint.Text.Word

/-!
# The shape of a declaring line

Declarations are recognised by one ordered table of line patterns: class-like
lines, then functions, then properties. The first pattern that opens the line
decides the kind. A line that begins with a statement keyword declares nothing.
-/

set_option autoImplicit false

namespace DocLint.DeclarationShape

open Pattern

def words (ws : List String) : Pattern Char := anyOf (ws.map String.toList)

def text (s : String) : Pattern Char := words [s]

def wordEnd : Pattern Char := ahead fun c => !c.any Text.isWordChar

def isNot (c : Char) : Char → Bool := fun d => d != c

def blanks : Pattern Char := many Text.isBlank

def gap : Pattern Char := one Text.isBlank ++ blanks

def keyword (s : String) : Pattern Char := text s ++ gap

def identifier : Pattern Char :=
  one (fun c => Text.isNameStart c || c == '#') ++ many Text.isNameChar

def modifier : Pattern Char :=
  words ["public", "private", "protected", "static", "readonly", "abstract", "override",
    "declare", "async", "accessor"] ++ gap

def modifiers : Pattern Char := modifier ++ repeated modifier

def binder : Pattern Char := words ["const", "let", "var"] ++ gap

def memberMark : Pattern Char := optional (one fun c => c == '?' || c == '!')

def typeNote : Pattern Char := optional (text ":" ++ one (isNot '=') ++ many (isNot '='))

def typeParams : Pattern Char := optional (text "<" ++ many (isNot '>') ++ text ">")

def accessor : Pattern Char := optional (keyword "get" ||| keyword "set" ||| (text "*" ++ blanks))

def classRule : Pattern Char :=
  optional (keyword "export" ++ optional (keyword "default")) ++ optional (keyword "declare") ++
    optional (keyword "abstract") ++ optional (keyword "const") ++
    words ["class", "interface", "enum", "namespace", "module"] ++
    (one (fun c => Text.isBlank c || c == '{') ||| atEnd)

def functionRule : Pattern Char :=
  optional (keyword "export" ++ optional (keyword "default")) ++ optional (keyword "declare") ++
    optional (keyword "async") ++ text "function" ++ wordEnd

def functionVariableRule : Pattern Char :=
  optional (keyword "export") ++ binder ++ identifier ++ blanks ++ typeNote ++ text "=" ++
    blanks ++
    ((text "async" ++ wordEnd) ||| (text "function" ++ wordEnd) |||
      (text "(" ++ many (isNot ')') ++ atEnd) ||| (many (isNot '\n') ++ text "=>"))

def functionMemberRule : Pattern Char :=
  repeated modifier ++ identifier ++ memberMark ++ blanks ++ typeNote ++ text "=" ++ blanks ++
    ((text "async" ++ wordEnd) ||| (text "function" ++ wordEnd) |||
      (text "(" ++ many (isNot ')') ++ text ")" ++ blanks ++ typeNote ++ text "=>") |||
      (identifier ++ blanks ++ text "=>"))

def modifiedMethodRule : Pattern Char :=
  modifiers ++ accessor ++ identifier ++ blanks ++ typeParams ++ blanks ++ text "("

def methodRule : Pattern Char :=
  accessor ++ identifier ++ blanks ++ typeParams ++ blanks ++ text "(" ++
    ((many (isNot ';') ++ text ")" ++ blanks ++
        optional (text ":" ++ blanks ++ one returnChar ++ many returnChar) ++ blanks ++
        optional (one fun c => c == '{' || c == ';')) |||
      many (fun c => c != ')' && c != ';')) ++
    blanks ++ atEnd
where
  returnChar (c : Char) : Bool := c != '=' && c != ';' && c != '{'

def modifiedPropertyRule : Pattern Char :=
  modifiers ++ identifier ++ memberMark ++ blanks ++
    (one (fun c => c == ':' || c == '=' || c == ';') ||| atEnd)

def variableRule : Pattern Char :=
  optional (keyword "export") ++ optional (keyword "declare") ++ binder

def memberRule : Pattern Char :=
  identifier ++ memberMark ++ blanks ++
    (text ":" ||| (text "=" ++ one fun c => c != '=' && c != '>'))

/-- The ordered rules: the first that opens a line decides its kind. -/
def rules : List (Pattern Char × DeclarationKind) :=
  [(classRule, .classLike), (functionRule, .function), (functionVariableRule, .function),
    (functionMemberRule, .function), (modifiedMethodRule, .function), (methodRule, .function),
    (modifiedPropertyRule, .property), (variableRule, .property), (memberRule, .property)]

def explicitForm : Pattern Char :=
  words ["export", "default", "declare", "abstract", "class", "interface", "enum", "namespace",
    "module", "function", "async", "public", "private", "protected", "static", "readonly",
    "override", "accessor"] ++ wordEnd

def statementWords : List String :=
  ["if", "else", "for", "while", "do", "switch", "case", "default", "catch", "try", "finally",
    "return", "throw", "new", "await", "yield", "typeof", "delete", "void", "super", "this",
    "import", "break", "continue", "with"]

def startsStatement (cs : List Char) : Bool :=
  match Text.name? cs with
  | some (word, _) => statementWords.any fun w => w.toList == word
  | none => false

def formOf (cs : List Char) : DeclarationForm :=
  if variableRule.opens cs then .binding
  else if explicitForm.opens cs then .explicit
  else .bare

def ofText? (cs : List Char) : Option DeclarationShape :=
  if startsStatement cs then none
  else (rules.find? fun rule => rule.1.opens cs).map fun rule => ⟨rule.2, formOf cs⟩

end DocLint.DeclarationShape
