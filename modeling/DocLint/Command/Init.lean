import DocLint.Arguments
import DocLint.Settings.Template
import DocLint.World

/-!
# The init command

Writes a settings file with the built-in settings. A file that is there is
kept unless it is to be overwritten.
-/

set_option autoImplicit false

namespace DocLint

inductive InitError where
  | alreadyThere (path : String)
  | noDirectory (error : FileError)
  | noFile (error : FileError)
  deriving DecidableEq, Repr

def InitError.message : InitError → String
  | .alreadyThere path =>
    "Error: file already exists: " ++ path ++
      "\nUse --force to overwrite it or --output to specify a different path"
  | .noDirectory e => "Error: failed to create directory: " ++ e.message
  | .noFile e => "Error: failed to write config: " ++ e.message

def createdText (path : String) : String :=
  "Created " ++ path ++ "\n\nNext steps:\n  1. Edit " ++ path ++
    " to adjust the tag rules for your project\n" ++
    "  2. Add `docguard check` to your pre-commit or pre-push hook\n"

def neededDirectory? (path : String) : Option String :=
  (PathText.parent? path).filter fun p => !(PathText.components p).isEmpty || PathText.isAbsolute p

namespace World

variable {m : Type → Type} [Monad m]

def makeNeeded (w : World m) (path : String) : m (Except FileError Unit) :=
  match neededDirectory? path with
  | some directory => w.makeDirectories directory
  | none => return .ok ()

def initWith (w : World m) (args : InitArguments) : m (Except InitError Unit) := do
  if (← w.isThere args.output) && !args.force then return .error (.alreadyThere args.output)
  match ← w.makeNeeded args.output with
  | .error e => return .error (.noDirectory e)
  | .ok () => match ← w.write args.output settingsTemplate with
    | .error e => return .error (.noFile e)
    | .ok () => return .ok ()

def init (w : World m) (args : InitArguments) : m Outcome := do
  match ← w.initWith args with
  | .error e => return .refused e.message
  | .ok () => return { exit := 0, stdout := createdText args.output }

end World

end DocLint
