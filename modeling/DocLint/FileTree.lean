import DocLint.FileError
import DocLint.PathText

/-!
# File trees

Files and directories as a value, with the paths that lead through them. A
path is followed piece by piece: only directories are entered, and two dots
lead back up.
-/

set_option autoImplicit false

namespace DocLint

/-- A file holds a text, or octets that are not text. -/
inductive FileNode where
  | file (content : Option String)
  | directory (entries : List (String × FileNode))

namespace FileNode

def get? (n : FileNode) : List String → Option FileNode
  | [] => some n
  | name :: names =>
    match n with
    | .file _ => none
    | .directory entries => (entries.lookup name).bind fun child => child.get? names

def entries : FileNode → List (String × FileNode)
  | .file _ => []
  | .directory es => es

def setEntry (name : String) (child : FileNode) :
    List (String × FileNode) → List (String × FileNode)
  | [] => [(name, child)]
  | (n, c) :: rest => if n == name then (n, child) :: rest else (n, c) :: setEntry name child rest

def put : FileNode → List String → FileNode → FileNode
  | _, [], child => child
  | n, name :: names, child =>
    .directory (setEntry name (((n.entries.lookup name).getD (.directory [])).put names child)
      n.entries)

def remove : FileNode → List String → FileNode
  | n, [] => n
  | n, [name] => .directory (n.entries.filter fun e => e.1 != name)
  | n, name :: names =>
    match n.entries.lookup name with
    | none => n
    | some child => .directory (setEntry name (child.remove names) n.entries)

mutual

def files (path : String) : FileNode → List (String × Option String)
  | .file content => [(path, content)]
  | .directory entries => entryFiles path entries

def entryFiles (path : String) : List (String × FileNode) → List (String × Option String)
  | [] => []
  | (name, child) :: rest => files (PathText.join path name) child ++ entryFiles path rest

end

def isDirectory : FileNode → Bool
  | .file _ => false
  | .directory _ => true

/-- Directories that a walk does not enter: dependencies, and hidden ones below its start. -/
def isPassedOver (name : String) : Bool :=
  name == "node_modules" || ['.'].isPrefixOf name.toList

mutual

def walk (path : String) : FileNode → List String
  | .file _ => [path]
  | .directory entries => walkEntries path entries

def walkEntries (path : String) : List (String × FileNode) → List String
  | [] => []
  | (name, child) :: rest =>
    (if child.isDirectory && isPassedOver name then []
      else walk (PathText.join path name) child) ++ walkEntries path rest

end

def walkFrom (path : String) (n : FileNode) : List String :=
  if PathText.fileName? path == some "node_modules" then [] else walk path n

end FileNode

/-- A tree with the directory in which relative paths start. -/
structure FileTree where
  top : FileNode := .directory []
  current : List String := []

namespace FileTree

def nameLimit : Nat := 255

def pathLimit : Nat := 4095

def follow (top : FileNode) : List String → List String → Except FileError (List String)
  | here, [] => .ok here
  | here, piece :: rest =>
    match top.get? here with
    | none => .error .notFound
    | some (.file _) => .error .notDirectory
    | some (.directory entries) =>
      if piece == "" || piece == "." then follow top here rest
      else if piece == ".." then follow top here.dropLast rest
      else if nameLimit < piece.utf8ByteSize then .error .nameTooLong
      else if (entries.lookup piece).isNone then .error .notFound
      else follow top (here ++ [piece]) rest

def checkPath (path : String) : Except FileError Unit :=
  if path.toList.contains '\x00' then .error .nulInName
  else if path.isEmpty then .error .notFound
  else if pathLimit < path.utf8ByteSize then .error .nameTooLong
  else .ok ()

def start (t : FileTree) (path : String) : List String :=
  if PathText.isAbsolute path then [] else t.current

def resolve (t : FileTree) (path : String) : Except FileError (List String) :=
  match checkPath path with
  | .error e => .error e
  | .ok () => follow t.top (t.start path) (PathText.pieces path)

def node (t : FileTree) (path : String) : Except FileError FileNode :=
  match t.resolve path with
  | .error e => .error e
  | .ok names => match t.top.get? names with
    | some n => .ok n
    | none => .error .notFound

def pathOf (names : List String) : String := "/" ++ "/".intercalate names

def currentDirectory (t : FileTree) : Except FileError String :=
  match t.top.get? t.current with
  | some (.directory _) => .ok (pathOf t.current)
  | _ => .error .notFound

def canonical (t : FileTree) (path : String) : Except FileError String :=
  (t.resolve path).map pathOf

def read (t : FileTree) (path : String) : Except FileError String :=
  match t.node path with
  | .error e => .error e
  | .ok (.directory _) => .error .isDirectory
  | .ok (.file none) => .error .notText
  | .ok (.file (some text)) => .ok text

def isFile (t : FileTree) (path : String) : Bool :=
  match t.node path with
  | .ok (.file _) => true
  | _ => false

def isThere (t : FileTree) (path : String) : Bool := (t.node path).toBool

/-- The directory of a path that is to be made, and the last piece, if that is a name. -/
def parentAndName (t : FileTree) (path : String) : Except FileError (List String × Option String) :=
  match checkPath path with
  | .error e => .error e
  | .ok () =>
    let pieces := PathText.pieces path
    let name := pieces.getLastD ""
    match follow t.top (t.start path) pieces.dropLast with
    | .error e => .error e
    | .ok names => match t.top.get? names with
      | some (.directory _) =>
        if name == "" || name == "." || name == ".." then .ok (names, none)
        else if nameLimit < name.utf8ByteSize then .error .nameTooLong
        else .ok (names, some name)
      | some (.file _) => .error .notDirectory
      | none => .error .notFound

def dropSlashes (path : String) : String :=
  String.ofList (path.toList.reverse.dropWhile (· == '/')).reverse

/-- Writes a file; its directory has to be there. A path with a slash at its end names a
directory. -/
def write (t : FileTree) (path content : String) : Except FileError FileTree :=
  let bare := dropSlashes path
  if bare.isEmpty && !path.isEmpty then .error .isDirectory
  else match t.parentAndName bare with
    | .error e => .error e
    | .ok (_, none) => .error .isDirectory
    | .ok (names, some name) =>
      if bare != path then .error .isDirectory
      else match t.top.get? (names ++ [name]) with
        | some (.directory _) => .error .isDirectory
        | _ => .ok { t with top := t.top.put (names ++ [name]) (.file (some content)) }

def makeDirectory (t : FileTree) (path : String) : Except FileError FileTree :=
  let bare := dropSlashes path
  if bare.isEmpty && !path.isEmpty then .error .alreadyExists
  else match t.parentAndName bare with
    | .error e => .error e
    | .ok (_, none) => .error .alreadyExists
    | .ok (names, some name) => match t.top.get? (names ++ [name]) with
      | some _ => .error .alreadyExists
      | none => .ok { t with top := t.top.put (names ++ [name]) (.directory []) }

def isDirectory (t : FileTree) (path : String) : Bool :=
  match t.node path with
  | .ok n => n.isDirectory
  | .error _ => false

def makeAbove : Nat → FileTree → String → Except FileError FileTree
  | 0, _, _ => .error .notFound
  | fuel + 1, t, path =>
    if path.isEmpty then .ok t
    else match t.makeDirectory path with
      | .ok t' => .ok t'
      | .error e =>
        if e != .notFound then
          if t.isDirectory path then .ok t else .error e
        else match PathText.parent? path with
          | none => .error (.other "failed to create whole tree")
          | some above => match makeAbove fuel t above with
            | .error e => .error e
            | .ok t' => match t'.makeDirectory path with
              | .ok t'' => .ok t''
              | .error e => if t'.isDirectory path then .ok t' else .error e

def makeDirectories (t : FileTree) (path : String) : Except FileError FileTree :=
  makeAbove (path.length + 1) t path

end FileTree

end DocLint
