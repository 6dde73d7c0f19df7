import DocLint.ChangedLines
import DocLint.FileError
import DocLint.LintResult
import DocLint.Locate
import DocLint.PathText
import DocLint.Settings.Validity
import DocLint.Text.Lines
import DocLint.Validation

/-!
# The linter

Validates the declarations that own changed lines. A linter remembers every
declaration it has validated, by file and line, and validates none twice.
-/

set_option autoImplicit false

namespace DocLint

/-- The settings of a linter, with the patterns read. -/
structure LintPolicy where
  root : String
  settings : Settings
  excluded : List Glob

abbrev Validated := List (String × Nat)

inductive PolicyProblem where
  | patterns (problem : SettingsProblem)
  | wordSearch (reason : String)
  deriving DecidableEq, Repr

def PolicyProblem.message : PolicyProblem → String
  | .patterns p => p.message
  | .wordSearch reason => reason

/-- A linter for the repository at `root`; `prepare` prepares the search for stop words. -/
def LintPolicy.make (prepare : List (List Char) → Except String Unit) (root : String)
    (settings : Settings) : Except PolicyProblem LintPolicy :=
  match settings.excluded with
  | .error p => .error (.patterns p)
  | .ok globs => match Prose.searchProblem? prepare settings.language with
    | some reason => .error (.wordSearch reason)
    | none => .ok ⟨root, settings, globs⟩

namespace LintPolicy

def covers (p : LintPolicy) (file : String) : Bool :=
  p.settings.supports file && !p.excluded.any (·.matchesPath file)

def dropRepeats : List Declaration → List Declaration
  | d :: e :: rest => if d = e then dropRepeats (e :: rest) else d :: dropRepeats (e :: rest)
  | ds => ds

def inOrder (ds : List Declaration) : List Declaration :=
  dropRepeats (ds.mergeSort fun d e => d.index ≤ e.index)

def declarationText (lines : List Line) (d : Declaration) : String :=
  String.ofList (Text.trim (lines.getD d.index []))

def violations (p : LintPolicy) (file : String) (lines : List Line) (d : Declaration) :
    List Violation :=
  (p.settings.validate lines d).map fun f =>
    { rule := f.rule, message := f.message, file := file, line := d.lineNumber,
      declaration := declarationText lines d }

def lintEach (p : LintPolicy) (file : String) (lines : List Line) :
    Validated → List Declaration → LintResult × Validated
  | done, [] => (.empty, done)
  | done, d :: ds =>
    if done.contains (file, d.index) then p.lintEach file lines done ds
    else
      let (rest, done') := p.lintEach file lines ((file, d.index) :: done) ds
      (({ violations := p.violations file lines d, declarations := 1 } : LintResult).merge rest,
        done')

def lintDeclarations (p : LintPolicy) (file : String) (lines : List Line) (done : Validated)
    (ds : List Declaration) : LintResult × Validated :=
  let (r, done') := p.lintEach file lines done (inOrder ds)
  ({ r with scanned := 1 }, done')

/-- The declarations that own changed lines. A line of a documentation block belongs to the
declaration below it, any other line to the one that it is part of. -/
def owners (lines : List Line) (changed : List Nat) : List Declaration :=
  let indices := (changed.filter fun n => 1 ≤ n && n ≤ lines.length).map (· - 1)
  let (docs, code) := indices.partition (isInsideDocBlock lines)
  docs.filterMap (findDocumentedDeclaration lines) ++ code.filterMap (findDeclaration lines)

def declarations (lines : List Line) : List Declaration :=
  (List.range lines.length).filterMap (declarationAt lines)

def lintSource (p : LintPolicy) (file content : String) (changed : List Nat) (done : Validated) :
    LintResult × Validated :=
  let lines := Text.lines content.toList
  p.lintDeclarations file lines done (owners lines changed)

def lintWhole (p : LintPolicy) (file content : String) (done : Validated) :
    LintResult × Validated :=
  let lines := Text.lines content.toList
  p.lintDeclarations file lines done (declarations lines)

def lintRead (file : String) (content : Except FileError String)
    (lint : String → Validated → LintResult × Validated) (done : Validated) :
    LintResult × Validated :=
  match content with
  | .ok text => lint text done
  | .error e => ({ skipped := [⟨file, e.skipReason⟩] }, done)

/-- Lints the changed lines of each file that is covered; `read` gives the content of a file. -/
def run (p : LintPolicy) (read : String → Except FileError String) :
    List (String × List Nat) → Validated → LintResult × Validated
  | [], done => (.empty, done)
  | (file, changed) :: rest, done =>
    if p.covers file then
      let (r, done') := lintRead file (read file) (fun text => p.lintSource file text changed) done
      let (rs, done'') := p.run read rest done'
      (r.merge rs, done'')
    else p.run read rest done

def relative (p : LintPolicy) (path : String) : String :=
  let inner := (PathText.below? p.root path).getD path
  String.ofList (inner.toList.map fun c => if c == '\\' then '/' else c)

def lintFiles (p : LintPolicy) (read : String → Except FileError String) :
    List String → Validated → LintResult × Validated
  | [], done => (.empty, done)
  | file :: rest, done =>
    if p.covers file then
      let (r, done') := lintRead file (read file) (p.lintWhole file) done
      let (rs, done'') := p.lintFiles read rest done'
      (r.merge rs, done'')
    else p.lintFiles read rest done

def lintPaths (p : LintPolicy) (read : String → Except FileError String) (paths : List String)
    (done : Validated) : LintResult × Validated :=
  p.lintFiles read (paths.map p.relative) done

end LintPolicy

end DocLint
