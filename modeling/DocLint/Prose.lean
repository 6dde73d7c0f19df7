import DocLint.Settings
import DocLint.Text.Blank
import DocLint.Text.Lines
import DocLint.Text.Lowercase
import DocLint.Text.Search
import DocLint.Text.Word

/-!
# The prose of a documentation block

The language check reads the prose of a block: lowercase, without comment
marks, fenced code and example sections. It counts the stop words found there.
-/

set_option autoImplicit false

namespace DocLint.Prose

def dropMark : List Char → List Char
  | '/' :: '*' :: '*' :: rest => rest
  | '/' :: '*' :: rest => rest
  | '*' :: '/' :: rest => rest
  | '*' :: rest => rest
  | cs => cs

def dropBlank : List Char → List Char
  | [] => []
  | c :: cs => if Text.isBlank c then cs else c :: cs

def lineProse (line : List Char) : List Char :=
  let cs := Text.trimEnd line
  let cs := (Text.stripEnd? ['*', '/'] cs).getD cs
  dropBlank (dropMark (Text.trimStart cs))

def fence : List Char := ['\x60', '\x60', '\x60']

def afterFence? : List Char → Option (List Char)
  | [] => none
  | c :: cs => match Text.strip? fence (c :: cs) with
    | some rest => some rest
    | none => afterFence? cs

def dropFences : Nat → List Char → List Char
  | 0, cs => cs
  | _ + 1, [] => []
  | fuel + 1, c :: cs =>
    match (Text.strip? fence (c :: cs)).bind afterFence? with
    | some rest => ' ' :: dropFences fuel rest
    | none => c :: dropFences fuel cs

def exampleTag? (cs : List Char) : Option (List Char) :=
  match Text.strip? "@example".toList cs with
  | some rest => if Text.wordEnds rest then some rest else none
  | none => none

/-- Replaces each example section, from its tag up to the next at sign, by a blank. In a section
the flag is set. -/
def dropExamples : Bool → List Char → List Char
  | _, [] => []
  | inside, c :: cs =>
    if inside && c != '@' then dropExamples true cs
    else if (exampleTag? (c :: cs)).isSome then ' ' :: dropExamples true cs
    else c :: dropExamples false cs

def normalize (block : List Char) : List Char :=
  let joined := Text.lower (Text.join [' '] ((Text.lines block).map lineProse))
  dropExamples false (dropFences joined.length joined)

def stopWords (settings : LanguageSettings) : List (List Char) :=
  (settings.stopWords.map fun w => Text.lower (Text.trim w.toList)).filter fun w => !w.isEmpty

/-- Why the stop words cannot be searched for, if there are any and `prepare` refuses them. -/
def searchProblem? (prepare : List (List Char) → Except String Unit)
    (settings : LanguageSettings) : Option String :=
  if settings.enforceEnglish && !(stopWords settings).isEmpty then
    match prepare (stopWords settings) with
    | .ok () => none
    | .error reason => some reason
  else none

def boundary (prev : Option Char) (rest : List Char) : Bool :=
  let before := match prev with
    | some c => Text.isWordChar c
    | none => false
  before == Text.wordEnds rest

def standsAt (prev : Option Char) (word cs : List Char) : Bool :=
  match Text.strip? word cs with
  | some rest => boundary (word.getLast?.or prev) rest
  | none => false

/-- The first of the words that stands at the start of the text, between word boundaries. -/
def wordAt? (words : List (List Char)) (prev : Option Char) (cs : List Char) :
    Option (List Char) :=
  if boundary prev cs then words.find? fun w => standsAt prev w cs else none

/-- The words found from left to right. The next `skip` characters belong to the last word
found. -/
def scan (words : List (List Char)) : Nat → Option Char → List Char → List (List Char)
  | _, _, [] => []
  | skip + 1, _, c :: cs => scan words skip (some c) cs
  | 0, prev, c :: cs =>
    match wordAt? words prev (c :: cs) with
    | some w => w :: scan words (w.length - 1) (some c) cs
    | none => scan words 0 (some c) cs

def foundWords (settings : LanguageSettings) (block : List Char) : List (List Char) :=
  let words := stopWords settings
  let found := scan words 0 none (normalize block)
  words.filter fun w => found.contains w

def detect (settings : LanguageSettings) (block : List Char) : Option (List (List Char)) :=
  let found := foundWords settings block
  if settings.threshold ≤ found.length then some found else none

end DocLint.Prose
