import DocLint.Json.Reader
import DocLint.Json.Record
import DocLint.Json.Writer
import DocLint.Report

/-!
# SARIF reports

The report in the Static Analysis Results Interchange Format: the rules that
occur, each once, and one result for each violation.
-/

set_option autoImplicit false

namespace DocLint

namespace Sarif

structure RuleEntry where
  id : String
  name : String
  short : String
  full : String
  level : String
  deriving DecidableEq, Repr

structure Location where
  uri : String
  startLine : Nat
  deriving DecidableEq, Repr

structure Entry where
  ruleId : String
  level : String
  message : String
  locations : List Location
  deriving DecidableEq, Repr

structure Run where
  name : String
  version : String
  rules : List RuleEntry
  results : List Entry
  deriving DecidableEq, Repr

end Sarif

structure Sarif where
  version : String
  schema : String
  runs : List Sarif.Run
  deriving DecidableEq, Repr

namespace Sarif

def formatVersion : String := "2.1.0"

def schemaAddress : String :=
  "https://raw.githubusercontent.com/oasis-tcs/sarif-spec/master/Schemata/sarif-schema-2.1.0.json"

def entryOfRule (r : Rule) : RuleEntry :=
  let (name, short, full) : String × String × String := match r with
    | .missingDocBlock => ("MissingDocBlock", "Declaration has no documentation block",
      "A changed class, function or property is not directly preceded by a /** ... */ " ++
      "documentation block.")
    | .malformedDocBlock => ("MalformedDocBlock", "Comment block closed without a /** opener",
      "The comment above the declaration ends with */ but no matching /** opener was found.")
    | .missingTag => ("MissingTag", "Documentation block is missing a required tag",
      "The documentation block does not contain one of the tags required for the " ++
      "declaration's kind.")
    | .undocumentedParam => ("UndocumentedParam", "Parameter is not documented with @param",
      "A parameter in the function signature is not named by any @param tag in its " ++
      "documentation block.")
    | .missingReturnTag => ("MissingReturnTag", "Function returns a value but has no @returns tag",
      "The function declares a non-void return type but its documentation block has no " ++
      "@returns tag.")
    | .nonEnglish => ("NonEnglish", "Documentation does not appear to be written in English",
      "The documentation block contains several stop words from another language.")
  ⟨r.id, name, short, full, "error"⟩

def rulesOf (vs : List Violation) : List Rule :=
  Rule.all.filter fun r => (vs.map Violation.rule).contains r

def entryOfViolation (v : Violation) : Entry :=
  ⟨v.rule.id, v.severity.name, v.message,
    [⟨String.ofList (v.file.toList.map fun c => if c == '\\' then '/' else c), max v.line 1⟩]⟩

def ofResult (r : LintResult) : Sarif :=
  ⟨formatVersion, schemaAddress,
    [⟨toolName, toolVersion, (rulesOf r.violations).map entryOfRule,
      r.violations.map entryOfViolation⟩]⟩

def messageJson (text : String) : Json := .object [("text", .string text)]

def RuleEntry.toJson (e : RuleEntry) : Json :=
  .object [("id", .string e.id), ("name", .string e.name),
    ("shortDescription", messageJson e.short), ("fullDescription", messageJson e.full),
    ("defaultConfiguration", .object [("level", .string e.level)])]

def Location.toJson (l : Location) : Json :=
  .object [("physicalLocation", .object [
    ("artifactLocation", .object [("uri", .string l.uri)]),
    ("region", .object [("startLine", .nat l.startLine)])])]

def Entry.toJson (e : Entry) : Json :=
  .object [("ruleId", .string e.ruleId), ("level", .string e.level),
    ("message", messageJson e.message), ("locations", .array (e.locations.map Location.toJson))]

def Run.toJson (r : Run) : Json :=
  .object [("tool", .object [("driver", .object [("name", .string r.name),
      ("version", .string r.version), ("rules", .array (r.rules.map RuleEntry.toJson))])]),
    ("results", .array (r.results.map Entry.toJson))]

def toJson (s : Sarif) : Json :=
  .object [("version", .string s.version), ("$schema", .string s.schema),
    ("runs", .array (s.runs.map Run.toJson))]

def single? {α : Type} (name : String) (read : Json → Option α) (v : Json) : Option α := do
  Json.need? (← v.fields? [name]) name read

def message? : Json → Option String := single? "text" Json.string?

def RuleEntry.ofJson? (v : Json) : Option RuleEntry := do
  let fs ← v.fields? ["id", "name", "shortDescription", "fullDescription", "defaultConfiguration"]
  some ⟨← Json.need? fs "id" Json.string?, ← Json.need? fs "name" Json.string?,
    ← Json.need? fs "shortDescription" message?, ← Json.need? fs "fullDescription" message?,
    ← Json.need? fs "defaultConfiguration" (single? "level" Json.string?)⟩

def physicalLocation? (v : Json) : Option Location := do
  let fs ← v.fields? ["artifactLocation", "region"]
  some ⟨← Json.need? fs "artifactLocation" (single? "uri" Json.string?),
    ← Json.need? fs "region" (single? "startLine" Json.nat?)⟩

def Location.ofJson? : Json → Option Location := single? "physicalLocation" physicalLocation?

def Entry.ofJson? (v : Json) : Option Entry := do
  let fs ← v.fields? ["ruleId", "level", "message", "locations"]
  some ⟨← Json.need? fs "ruleId" Json.string?, ← Json.need? fs "level" Json.string?,
    ← Json.need? fs "message" message?,
    ← Json.need? fs "locations" (Json.listOf? Location.ofJson?)⟩

def tool? (v : Json) : Option (String × String × List RuleEntry) := do
  let fs ← v.fields? ["name", "version", "rules"]
  some (← Json.need? fs "name" Json.string?, ← Json.need? fs "version" Json.string?,
    ← Json.need? fs "rules" (Json.listOf? RuleEntry.ofJson?))

def Run.ofJson? (v : Json) : Option Run := do
  let fs ← v.fields? ["tool", "results"]
  let (name, version, rules) ← Json.need? fs "tool" (single? "driver" tool?)
  some ⟨name, version, rules, ← Json.need? fs "results" (Json.listOf? Entry.ofJson?)⟩

def ofJson? (v : Json) : Option Sarif := do
  let fs ← v.fields? ["version", "$schema", "runs"]
  some ⟨← Json.need? fs "version" Json.string?, ← Json.need? fs "$schema" Json.string?,
    ← Json.need? fs "runs" (Json.listOf? Run.ofJson?)⟩

def parse? (text : String) : Option Sarif := (Json.parse? text).bind ofJson?

end Sarif

def sarifText (r : LintResult) : String := (Sarif.ofResult r).toJson.pretty ++ "\n"

end DocLint
