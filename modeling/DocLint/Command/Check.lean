import DocLint.Arguments
import DocLint.Extraction
import DocLint.Linter
import DocLint.Report.Sarif
import DocLint.Report.Summary
import DocLint.Report.Terminal
import DocLint.Settings.Discovery
import DocLint.Text.Quoted
import DocLint.World

/-!
# The check command

Finds the settings, lints the changed lines or the given paths, and prints a
report. The exit code is zero when all is well, one when there are violations
and two when the check could not be carried out.
-/

set_option autoImplicit false

namespace DocLint

inductive ReportFormat where
  | terminal
  | summary
  | sarif
  deriving DecidableEq, Repr

def ReportFormat.ofName? : String → Option ReportFormat
  | "pretty" => some .terminal
  | "json" => some .summary
  | "sarif" => some .sarif
  | _ => none

def ReportFormat.render (f : ReportFormat) (color : Bool) (c : ReportContext) (r : LintResult) :
    String :=
  match f with
  | .terminal => terminalText color c r
  | .summary => summaryText c r
  | .sarif => sarifText r

inductive CheckError where
  | invalidFormat (name : String)
  | noDirectory (error : FileError)
  | load (error : LoadError)
  | invalidSettings (problem : SettingsProblem)
  | policy (problem : PolicyProblem)
  | noAccess (path : String) (error : FileError)
  | noWalk (error : WalkError)
  deriving DecidableEq, Repr

def CheckError.message : CheckError → String
  | .invalidFormat name =>
    "Error: invalid format " ++ Text.quoted name ++ ", must be 'pretty', 'json', or 'sarif'"
  | .noDirectory e => "Error: " ++ e.message
  | .load e => "Error: " ++ e.message
  | .invalidSettings p => "Error: invalid config: " ++ p.message
  | .policy p => "Error: " ++ p.message
  | .noAccess path e => "Error: cannot access path " ++ Text.quoted path ++ ": " ++ e.message
  | .noWalk e => "Error: " ++ e.message

namespace World

variable {m : Type → Type} [Monad m]

def runGit (w : World m) (directory : String) (args : List String) :
    m (Except GitError String) := do
  return (← w.git directory args).output args

def repositoryRoot (w : World m) : m (Except FileError String) := do
  match ← w.currentDirectory with
  | .error e => return .error e
  | .ok current =>
    let root := match ← w.runGit current topLevelQuery with
      | .ok output => Text.trimmed output
      | .error _ => current
    match ← w.canonical root with
    | .ok path => return .ok path
    | .error _ => return .ok root

def contents (w : World m) (root : String) :
    List String → m (List (String × Except FileError String))
  | [] => return []
  | file :: rest => do
    let content ← w.read (PathText.join root file)
    return (file, content) :: (← w.contents root rest)

def contentOf (cs : List (String × Except FileError String)) (file : String) :
    Except FileError String :=
  (cs.lookup file).getD (.error .notFound)

def filesAt (w : World m) (settings : Settings) (path : String) :
    m (Except CheckError (List String)) := do
  match ← w.canonical path with
  | .error e => return .error (.noAccess path e)
  | .ok absolute =>
    match ← w.directory? absolute with
    | none => return .ok [absolute]
    | some (.ok n) => return .ok ((n.walkFrom absolute).filter settings.supports)
    | some (.error e) => return .error (.noWalk e)

def collectFiles (w : World m) (settings : Settings) :
    List String → m (Except CheckError (List String))
  | [] => return .ok []
  | path :: rest => do
    match ← w.filesAt settings path with
    | .error e => return .error e
    | .ok found => return (← w.collectFiles settings rest).map (found ++ ·)

def lintChanges (w : World m) (p : LintPolicy) (request : DiffRequest) :
    m (Except LineOverflow (String × LintResult)) := do
  match ← p.settings.diff.extract (w.runGit p.root) request with
  | .error e => return .error e
  | .ok e =>
    let cs ← w.contents p.root ((e.changed.files.map (·.1)).filter p.covers)
    return .ok (e.target.label, (p.run (contentOf cs) e.changed.files []).1)

def lintGiven (w : World m) (p : LintPolicy) (paths : List String) :
    m (Except CheckError (String × LintResult)) := do
  match ← w.collectFiles p.settings paths with
  | .error e => return .error e
  | .ok files =>
    let cs ← w.contents p.root ((files.map p.relative).filter p.covers)
    return .ok (", ".intercalate paths, (p.lintPaths (contentOf cs) files []).1)

def checkedSettings (w : World m) (root : String) (args : CheckArguments) :
    m (Except CheckError (Settings × Option String)) := do
  match ← w.loadSettings root args.settingsPath with
  | .error e => return .error (.load e)
  | .ok (s, path) => match s.problem? with
    | some p => return .error (.invalidSettings p)
    | none =>
      let margin := args.context.getD s.diff.contextLines
      return .ok ({ s with diff := { s.diff with contextLines := margin } }, path)

def lintTarget (w : World m) (p : LintPolicy) (args : CheckArguments) :
    m (Except LineOverflow (Except CheckError (String × LintResult))) := do
  if args.paths.isEmpty then
    return (← w.lintChanges p ⟨args.base, args.staged⟩).map .ok
  else return .ok (← w.lintGiven p args.paths)

def checkWith (w : World m) (color : Bool) (args : CheckArguments) :
    m (Except LineOverflow (Except CheckError (String × LintResult))) := do
  match ReportFormat.ofName? args.format with
  | none => return .ok (.error (.invalidFormat args.format))
  | some format =>
    match ← w.repositoryRoot with
    | .error e => return .ok (.error (.noDirectory e))
    | .ok root => match ← w.checkedSettings root args with
      | .error e => return .ok (.error e)
      | .ok (settings, path) => match LintPolicy.make w.prepareSearch root settings with
        | .error p => return .ok (.error (.policy p))
        | .ok policy =>
          let label := path.map fun p => (PathText.below? root p).getD p
          return (← w.lintTarget policy args).map fun linted => linted.map fun r =>
            (format.render color ⟨r.1, label⟩ r.2, r.2)

def outcomeOfCheck : Except CheckError (String × LintResult) → Outcome
  | .error e => .refused e.message
  | .ok (report, r) => { exit := if r.hasErrors then 1 else 0, stdout := report }

def check (w : World m) (color : Bool) (args : CheckArguments) :
    m (Except LineOverflow Outcome) := do
  return (← w.checkWith color args).map outcomeOfCheck

end World

end DocLint
