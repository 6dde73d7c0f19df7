import DocLint.Report
import DocLint.Text.Search

/-!
# Terminal reports

The report for people: violations below their file and their declaration, then
the skipped files and the verdict. Colours are on or off.
-/

set_option autoImplicit false

namespace DocLint

inductive Style where
  | title
  | dimmed
  | red
  | green
  | file
  | skipped
  deriving DecidableEq, Repr

namespace Style

def code : Style → String
  | .title => "\x1b[1;36m"
  | .dimmed => "\x1b[2m"
  | .red => "\x1b[31m"
  | .green => "\x1b[32m"
  | .file => "\x1b[1;34m"
  | .skipped => "\x1b[34m"

def reset : String := "\x1b[0m"

def restyle (style : List Char) : Nat → List Char → List Char
  | 0, cs => cs
  | _ + 1, [] => []
  | fuel + 1, c :: cs =>
    match Text.strip? reset.toList (c :: cs) with
    | some rest => reset.toList ++ style ++ restyle style fuel rest
    | none => c :: restyle style fuel cs

end Style

def styled (color : Bool) (s : Style) (text : String) : String :=
  if color then
    s.code ++ String.ofList (Style.restyle s.code.toList text.length text.toList) ++ Style.reset
  else text

namespace TerminalReport

def counted (n : Nat) (noun : String) : String :=
  toString n ++ " " ++ noun ++ (if n == 1 then "" else "s")

def padded (width : Nat) (text : String) : String :=
  text ++ String.ofList (List.replicate (width - text.length) ' ')

def heading (color : Bool) (c : ReportContext) : String :=
  "\n  " ++ styled color .title toolName ++ " v" ++ toolVersion ++ "\n\n" ++
  "  " ++ styled color .dimmed "Checking: " ++ c.target ++ "\n" ++
  "  " ++ styled color .dimmed "Config:   " ++ c.settingsLabel ++ "\n\n"

def counts (color : Bool) (r : LintResult) : String :=
  "  " ++ (if r.hasErrors then styled color .red "✗ FAIL" else styled color .green "✓ PASS") ++
  "  " ++ counted r.declarations "declaration" ++ " checked in " ++ counted r.scanned "file" ++
  (if r.hasErrors then
    "  " ++ styled color .red ("(" ++ toString r.failingDeclarations ++ " with errors)")
  else "") ++ "\n\n"

def violation (color : Bool) (before : Option (String × Nat)) (v : Violation) : String :=
  let sameFile := before.any fun b => b.1 == v.file
  let sameLine := sameFile && before.any fun b => b.2 == v.line
  (if sameFile then ""
    else (if before.isSome then "\n" else "") ++ "  " ++ styled color .file v.file ++ "\n") ++
  (if sameLine then ""
    else "    " ++ styled color .red ("error at line " ++ toString v.line ++ ":") ++ " " ++
      v.declaration ++ "\n") ++
  "      " ++ styled color .red "ERROR" ++ " " ++
  styled color .dimmed (padded 20 v.rule.id) ++ v.message ++ "\n"

def violations (color : Bool) : Option (String × Nat) → List Violation → String
  | _, [] => "\n"
  | before, v :: vs => violation color before v ++ violations color (some (v.file, v.line)) vs

def skipped (color : Bool) (files : List SkippedFile) : String :=
  "  " ++ styled color .dimmed "Skipped" ++ " (" ++ toString files.length ++ "):\n" ++
  String.join (files.map fun s =>
    "    " ++ styled color .skipped s.file ++ "  " ++ styled color .dimmed s.reason ++ "\n") ++
  "\n"

def verdict (color : Bool) (r : LintResult) : String :=
  "  " ++ styled color .dimmed ("Total errors: " ++ toString r.violations.length) ++ "  " ++
  (if r.hasErrors then styled color .red "FAILED" else styled color .green "PASSED") ++ "\n\n"

end TerminalReport

def terminalText (color : Bool) (c : ReportContext) (r : LintResult) : String :=
  TerminalReport.heading color c ++ TerminalReport.counts color r ++
  (if r.violations.isEmpty then "" else TerminalReport.violations color none r.violations) ++
  (if r.skipped.isEmpty then "" else TerminalReport.skipped color r.skipped) ++
  TerminalReport.verdict color r

end DocLint
