import DocLint.Git
import DocLint.Patch
import DocLint.Settings

/-!
# Collecting changes

Changes are collected from the range against a base, from the index and from
the working tree. Git is any function that answers commands; a command that
fails contributes nothing.
-/

set_option autoImplicit false

namespace DocLint

inductive DiffTarget where
  | range (revisions : String)
  | stagedOnly
  deriving DecidableEq, Repr

def DiffTarget.label : DiffTarget → String
  | .range revisions => revisions
  | .stagedOnly => "staged changes"

structure Extraction where
  target : DiffTarget
  changed : ChangedLines
  deriving DecidableEq, Repr

structure DiffRequest where
  base : Option String := none
  stagedOnly : Bool := false
  deriving DecidableEq, Repr

namespace DiffSettings

variable {m : Type → Type} [Monad m]

def answer? (git : List String → m (Except GitError String)) (args : List String) :
    m (Option String) := do
  return (← git args).toOption

def trackedBranch? (s : DiffSettings) (git : List String → m (Except GitError String)) :
    m (Option String) := do
  match ← answer? git ["rev-parse", "--abbrev-ref", "HEAD"] with
  | none => return none
  | some output =>
    let branch := Text.trimmed output
    if branch.isEmpty || branch == "HEAD" then return none
    else match ← answer? git ["ls-remote", "--heads", s.remote, branch] with
      | none => return none
      | some heads =>
        if (Text.trimmed heads).isEmpty then return none
        else return some (s.remote ++ "/" ++ branch)

def firstBase? (s : DiffSettings) (git : List String → m (Except GitError String)) :
    List String → m (Option String)
  | [] => return none
  | candidate :: rest => do
    let reference := s.remote ++ "/" ++ candidate
    match ← answer? git ["rev-parse", "--verify", reference] with
    | some _ => return some reference
    | none => firstBase? s git rest

def rangeFrom (base : String) : DiffTarget := .range (base ++ "..HEAD")

def resolveTarget (s : DiffSettings) (git : List String → m (Except GitError String))
    (r : DiffRequest) : m DiffTarget := do
  match r.base with
  | some base => return rangeFrom base
  | none =>
    if r.stagedOnly then return .stagedOnly
    else match ← s.trackedBranch? git with
      | some branch => return rangeFrom branch
      | none =>
        match ← s.firstBase? git s.baseBranches with
        | some base => return rangeFrom base
        | none => return .stagedOnly

def sources (s : DiffSettings) (r : DiffRequest) (target : DiffTarget) : List (List String) :=
  (match target with
    | .range revisions => [[revisions]]
    | .stagedOnly => []) ++
  (if r.stagedOnly || s.includeStaged then [["--staged"]] else []) ++
  (if !r.stagedOnly && s.includeUnstaged then [[]] else [])

def diffCommand (s : DiffSettings) (extra : List String) : List String :=
  ["diff", "-U" ++ toString s.unified, "--no-color"] ++ extra

def addDiff (s : DiffSettings) (text : Option String) (c : ChangedLines) :
    Except LineOverflow ChangedLines :=
  match text with
  | none => .ok c
  | some text => (ChangedLines.ofDiff text s.contextLines).map c.union

def collect (s : DiffSettings) (git : List String → m (Except GitError String)) :
    ChangedLines → List (List String) → m (Except LineOverflow ChangedLines)
  | c, [] => return .ok c
  | c, extra :: rest => do
    match s.addDiff (← answer? git (s.diffCommand extra)) c with
    | .ok c' => collect s git c' rest
    | .error e => return .error e

def extract (s : DiffSettings) (git : List String → m (Except GitError String))
    (r : DiffRequest) : m (Except LineOverflow Extraction) := do
  let target ← s.resolveTarget git r
  return (← s.collect git .empty (s.sources r target)).map fun changed => ⟨target, changed⟩

end DiffSettings

end DocLint
