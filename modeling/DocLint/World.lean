import DocLint.FileTree
import DocLint.Git

/-!
# The world of a command

What a command may ask for and do: git, the files, and a search for words. The
commands work in any monad that offers these operations, so the same definitions
run on the disk and on a tree of files that is a value.
-/

set_option autoImplicit false

namespace DocLint

inductive WalkError where
  | failed (path : String) (error : FileError)
  | loop (child ancestor : String)
  deriving DecidableEq, Repr

def WalkError.message : WalkError → String
  | .failed path e => "IO error for operation on " ++ path ++ ": " ++ e.message
  | .loop child ancestor =>
    "File system loop found: " ++ child ++ " points to an ancestor " ++ ancestor

structure World (m : Type → Type) where
  currentDirectory : m (Except FileError String)
  git : String → List String → m GitOutcome
  read : String → m (Except FileError String)
  isFile : String → m Bool
  isThere : String → m Bool
  canonical : String → m (Except FileError String)
  /-- The directory at a path, with all that is in it or why it cannot be walked. -/
  directory? : String → m (Option (Except WalkError FileNode))
  makeDirectories : String → m (Except FileError Unit)
  write : String → String → m (Except FileError Unit)
  /-- Prepares a search for words. It may be refused, as when it would take too much space. -/
  prepareSearch : List (List Char) → Except String Unit

/-- What a command leaves: its exit code and what it printed. -/
structure Outcome where
  exit : Nat
  stdout : String := ""
  stderr : String := ""
  deriving DecidableEq, Repr

namespace Outcome

def refused (message : String) : Outcome := { exit := 2, stderr := message ++ "\n" }

end Outcome

namespace FileTree

def change (f : FileTree → Except FileError FileTree) : StateM FileTree (Except FileError Unit) :=
  fun t => match f t with
    | .ok t' => (.ok (), t')
    | .error e => (.error e, t)

/-- A world made of a tree of files and a git that answers by a function. Git cannot be started in
a directory that is not there, and no search is refused. -/
def world (git : List String → GitOutcome) : World (StateM FileTree) where
  currentDirectory := return (← get).currentDirectory
  git directory args := do
    match (← get).node directory with
    | .ok (.directory _) => return git args
    | .ok (.file _) => return .notStarted FileError.notDirectory.message
    | .error e => return .notStarted e.message
  read path := return (← get).read path
  isFile path := return (← get).isFile path
  isThere path := return (← get).isThere path
  canonical path := return (← get).canonical path
  directory? path := do
    match (← get).node path with
    | .ok (.directory entries) => return some (.ok (.directory entries))
    | _ => return none
  makeDirectories path := change fun t => t.makeDirectories path
  write path content := change fun t => t.write path content
  prepareSearch _ := .ok ()

end FileTree

end DocLint
