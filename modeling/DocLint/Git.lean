import DocLint.Text.Blank

/-!
# Running git

The outcome of a git command, and what counts as a failure of it.
-/

set_option autoImplicit false

namespace DocLint

/-- How a command ended. The output is missing when it is not text. -/
inductive GitOutcome where
  | notStarted (reason : String)
  | exited (status : Nat) (stdout : Option String) (stderr : String)
  deriving DecidableEq, Repr

inductive GitError where
  | spawn (reason : String)
  | failed (command : String) (status : Nat) (stderr : String)
  | notText (command : String)
  deriving DecidableEq, Repr

namespace GitError

def message : GitError → String
  | .spawn reason => "failed to run git: " ++ reason
  | .failed command status stderr =>
    "`git " ++ command ++ "` exited with exit status: " ++ toString status ++ ": " ++ stderr
  | .notText command => "`git " ++ command ++ "` produced non-UTF-8 output"

end GitError

def GitOutcome.output (args : List String) : GitOutcome → Except GitError String
  | .notStarted reason => .error (.spawn reason)
  | .exited status stdout stderr =>
    let command := " ".intercalate args
    if status != 0 then .error (.failed command status (Text.trimmed stderr))
    else match stdout with
      | some text => .ok text
      | none => .error (.notText command)

def topLevelQuery : List String := ["rev-parse", "--show-toplevel"]

end DocLint
