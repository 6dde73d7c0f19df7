import DocLint.Json.Reader
import DocLint.Json.Record
import DocLint.Json.Writer
import DocLint.Report

/-!
# Structured summaries

The report as one JSON object. The list of skipped files is left out when it
is empty.
-/

set_option autoImplicit false

namespace DocLint

/-- A violation as it is reported; a report that is read may name any rule. -/
structure ReportedViolation where
  rule : String
  severity : String
  file : String
  line : Nat
  declaration : String
  message : String
  deriving DecidableEq, Repr

structure Summary where
  version : String
  target : String
  settings : String
  passed : Bool
  filesScanned : Nat
  declarationsChecked : Nat
  violations : List ReportedViolation
  skipped : List SkippedFile
  deriving DecidableEq, Repr

def Violation.reported (v : Violation) : ReportedViolation :=
  ⟨v.rule.id, v.severity.name, v.file, v.line, v.declaration, v.message⟩

def Summary.ofResult (c : ReportContext) (r : LintResult) : Summary :=
  { version := toolVersion, target := c.target, settings := c.settingsLabel,
    passed := !r.hasErrors, filesScanned := r.scanned, declarationsChecked := r.declarations,
    violations := r.violations.map Violation.reported, skipped := r.skipped }

def ReportedViolation.toJson (v : ReportedViolation) : Json :=
  .object [("rule", .string v.rule), ("severity", .string v.severity), ("file", .string v.file),
    ("line", .nat v.line), ("declaration", .string v.declaration), ("message", .string v.message)]

def SkippedFile.toJson (s : SkippedFile) : Json :=
  .object [("file", .string s.file), ("reason", .string s.reason)]

def Summary.toJson (s : Summary) : Json :=
  .object ([("version", .string s.version), ("target", .string s.target),
    ("config", .string s.settings), ("passed", .bool s.passed),
    ("files_scanned", .nat s.filesScanned), ("declarations_checked", .nat s.declarationsChecked),
    ("violations", .array (s.violations.map ReportedViolation.toJson))] ++
    if s.skipped.isEmpty then [] else [("skipped", .array (s.skipped.map SkippedFile.toJson))])

def summaryText (c : ReportContext) (r : LintResult) : String :=
  (Summary.ofResult c r).toJson.pretty ++ "\n"

def ReportedViolation.ofJson? (v : Json) : Option ReportedViolation := do
  let fs ← v.fields? ["rule", "severity", "file", "line", "declaration", "message"]
  let text := fun name => Json.need? fs name Json.string?
  some ⟨← text "rule", ← text "severity", ← text "file", ← Json.need? fs "line" Json.nat?,
    ← text "declaration", ← text "message"⟩

def SkippedFile.ofJson? (v : Json) : Option SkippedFile := do
  let fs ← v.fields? ["file", "reason"]
  some ⟨← Json.need? fs "file" Json.string?, ← Json.need? fs "reason" Json.string?⟩

def skippedFiles? (fs : List (String × Json)) : Option (List SkippedFile) :=
  match fs.lookup "skipped" with
  | none => some []
  | some v => Json.listOf? SkippedFile.ofJson? v

def Summary.ofJson? (v : Json) : Option Summary := do
  let fs ← v.fields? ["version", "target", "config", "passed", "files_scanned",
    "declarations_checked", "violations", "skipped"]
  let text := fun name => Json.need? fs name Json.string?
  let count := fun name => Json.need? fs name Json.nat?
  some ⟨← text "version", ← text "target", ← text "config", ← Json.need? fs "passed" Json.bool?,
    ← count "files_scanned", ← count "declarations_checked",
    ← Json.need? fs "violations" (Json.listOf? ReportedViolation.ofJson?), ← skippedFiles? fs⟩

def Summary.parse? (text : String) : Option Summary := (Json.parse? text).bind Summary.ofJson?

/-- A name of a closed set: a text, or an object whose one member has that name and no value. -/
def Json.tag? : Json → Option String
  | .string s => some s
  | .object [(name, .null)] => some name
  | _ => none

def Violation.ofJson? (v : Json) : Option Violation := do
  let fs ← v.fields? ["rule", "message", "file", "line", "declaration", "severity"]
  let text := fun name => Json.need? fs name Json.string?
  some {
    rule := ← Json.need? fs "rule" fun v => v.tag?.bind Rule.ofId?
    message := ← text "message"
    file := ← text "file"
    line := ← Json.need? fs "line" Json.nat?
    declaration := ← text "declaration"
    severity := ← Json.need? fs "severity" fun v => v.tag?.bind Severity.ofName? }

def LintResult.ofJson? (v : Json) : Option LintResult := do
  let fs ← v.fields? ["violations", "skipped", "scanned", "declarations"]
  some ⟨← Json.need? fs "violations" (Json.listOf? Violation.ofJson?), ← skippedFiles? fs,
    ← Json.need? fs "scanned" Json.nat?, ← Json.need? fs "declarations" Json.nat?⟩

end DocLint
