import DocLint.Command.Run

/-!
# The command line program

Reads the arguments, works on the files of the disk and prints what the
command says. It starts no other program: a git that cannot be started answers
every question, so a check without paths finds no changed lines.
-/

set_option autoImplicit false

namespace DocLint.Program

def fileError : IO.Error → FileError
  | .noFileOrDirectory .. => .notFound
  | .alreadyExists .. => .alreadyExists
  | .inappropriateType _ 20 _ => .notDirectory
  | .inappropriateType _ 21 _ => .isDirectory
  | e => .other (toString e)

def attempt {α : Type} (action : IO α) : IO (Except FileError α) := do
  try return .ok (← action)
  catch e => return .error (fileError e)

def succeeds (action : IO Bool) : IO Bool := do
  try action catch _ => return false

def readText (path : String) : IO (Except FileError String) := do
  match ← attempt (IO.FS.readBinFile path) with
  | .error e => return .error e
  | .ok octets => match String.fromUTF8? octets with
    | some text => return .ok text
    | none => return .error .notText

def walkStep {α : Type} (path : String) (action : IO α) : ExceptT WalkError IO α := do
  match ← attempt action with
  | .ok a => return a
  | .error e => throw (.failed path e)

/-- The directory at a path, with the directories in it that a walk enters; `above` are those that
it is in. Files are listed, not read. -/
partial def listing (above : List String) (path : String) : ExceptT WalkError IO FileNode := do
  let directory ← walkStep path (IO.FS.realPath path)
  if above.contains directory.toString then throw (.loop path directory.toString)
  let entries ← walkStep path directory.readDir
  let nodes ← entries.toList.filterMapM fun e => do
    match (← walkStep e.path.toString e.path.metadata).type with
    | .dir =>
      if FileNode.isPassedOver e.fileName then return none
      else return some (e.fileName, ← listing (directory.toString :: above) e.path.toString)
    | .file => return some (e.fileName, FileNode.file none)
    | _ => return none
  return .directory nodes

def startOfWalk (path : String) : IO (Except WalkError FileNode) :=
  if PathText.fileName? path == some "node_modules" then return .ok (.directory [])
  else (listing [] path).run

def world : World IO where
  currentDirectory := attempt do return (← IO.currentDir).toString
  git _ _ := return .notStarted FileError.notFound.message
  read := readText
  isFile path := succeeds do return !(← (← IO.FS.realPath path).isDir)
  isThere path := succeeds do (← IO.FS.realPath path).pathExists
  canonical path := attempt do return (← IO.FS.realPath path).toString
  directory? path := do
    if ← succeeds (do (← IO.FS.realPath path).isDir) then return some (← startOfWalk path)
    else return none
  makeDirectories path := attempt (IO.FS.createDirAll path)
  write path content := attempt (IO.FS.writeFile path content)
  prepareSearch _ := .ok ()

def usage : String := "usage: " ++ toolName ++ " [-v] check|init [options]"

def refuse : UsageError → IO UInt32
  | .displayHelp => do IO.println usage; return 0
  | .displayVersion => do IO.println (toolName ++ " " ++ toolVersion); return 0
  | _ => do IO.eprintln usage; return 2

end DocLint.Program

open DocLint in
def main (args : List String) : IO UInt32 := do
  match Invocation.parse args with
  | .error e => Program.refuse e
  | .ok i =>
    match ← Program.world.carryOut (← (← IO.getStdout).isTty) i.command with
    | .error _ => IO.eprintln "Error: line number out of range"; return 101
    | .ok o =>
      IO.print o.stdout
      IO.eprint o.stderr
      return UInt32.ofNat o.exit
