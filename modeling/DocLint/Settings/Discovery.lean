import DocLint.Settings.Documents
import DocLint.World

/-!
# Finding the settings file

The settings come from a file that is named, from the first of the usual files
in a directory, or are the built-in ones.
-/

set_option autoImplicit false

namespace DocLint

def settingsFileNames : List String := ["docguard.yaml", ".docguard.yaml", ".docguard.yml"]

inductive LoadError where
  | unreadable (path : String) (error : FileError)
  | malformed (path : String)
  deriving DecidableEq, Repr

def LoadError.message : LoadError → String
  | .unreadable path e => "parsing config " ++ path ++ ": " ++ e.message
  | .malformed path => "parsing config " ++ path ++ ": not a valid configuration"

namespace World

variable {m : Type → Type} [Monad m]

def firstFile? (w : World m) : List String → m (Option String)
  | [] => return none
  | path :: rest => do
    if ← w.isFile path then return some path else firstFile? w rest

def discover? (w : World m) (root : String) : m (Option String) :=
  w.firstFile? (settingsFileNames.map (PathText.join root))

def readSettings (w : World m) (path : String) : m (Except LoadError Settings) := do
  match ← w.read path with
  | .error e => return .error (.unreadable path e)
  | .ok text => match Settings.parse? text with
    | none => return .error (.malformed path)
    | some s => return .ok s

def loadSettings (w : World m) (root : String) (named : Option String) :
    m (Except LoadError (Settings × Option String)) := do
  let path ← match named with
    | some path => pure (some path)
    | none => w.discover? root
  match path with
  | none => return .ok ({}, none)
  | some path => return (← w.readSettings path).map fun s => (s, some path)

end World

end DocLint
