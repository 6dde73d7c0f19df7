import DocLint.Text.Search

/-!
# Path texts

Paths are texts whose components stand between slashes. Empty components and
single dots count for nothing, apart from an absolute path's first slash.
-/

set_option autoImplicit false

namespace DocLint.PathText

def isAbsolute (path : String) : Bool := ['/'].isPrefixOf path.toList

/-- The texts between slashes; `current` is what the first of them starts with, read backwards. -/
def splitSlashes (current : List Char) : List Char → List (List Char)
  | [] => [current.reverse]
  | c :: cs =>
    if c == '/' then current.reverse :: splitSlashes [] cs else splitSlashes (c :: current) cs

def pieces (path : String) : List String := (splitSlashes [] path.toList).map String.ofList

def components (path : String) : List String :=
  (pieces path).filter fun p => p != "" && p != "."

def fileName? (path : String) : Option String :=
  match (components path).getLast? with
  | some name => if name == ".." then none else some name
  | none => none

/-- What stands behind the last dot of a text, and whether anything stands before that dot. -/
def afterLastDot? (cs : List Char) : Option (Bool × List Char) :=
  let tail := cs.reverse.takeWhile (· != '.')
  if tail.length < cs.length then some (tail.length + 1 < cs.length, tail.reverse) else none

/-- The extension of a file: none for a name without a dot behind its first character. -/
def extension? (path : String) : Option String :=
  (fileName? path).bind fun name =>
    match afterLastDot? name.toList with
    | some (true, ext) => some (String.ofList ext)
    | _ => none

def join (directory path : String) : String :=
  if isAbsolute path || directory.isEmpty then path
  else if ['/'].isSuffixOf directory.toList then directory ++ path
  else directory ++ "/" ++ path

def trimLeft : Nat → List Char → List Char
  | 0, cs => cs
  | fuel + 1, cs =>
    match cs with
    | '/' :: rest => trimLeft fuel rest
    | ['.'] => []
    | '.' :: '/' :: rest => trimLeft fuel rest
    | _ => cs

def trimRight (cs : List Char) : List Char := (trimLeft cs.length cs.reverse).reverse

def dropComponents? : List String → List Char → Option (List Char)
  | [], cs => some (trimLeft cs.length cs)
  | name :: names, cs =>
    let cs := trimLeft cs.length cs
    if cs.takeWhile (· != '/') == name.toList then
      dropComponents? names (cs.dropWhile (· != '/'))
    else none

def below? (directory path : String) : Option String :=
  if directory.isEmpty then some (String.ofList (trimRight path.toList))
  else if isAbsolute directory != isAbsolute path then none
  else (dropComponents? (components directory) path.toList).map fun cs =>
    String.ofList (trimRight cs)

def parent? (path : String) : Option String :=
  if (components path).isEmpty then
    if path.isEmpty || isAbsolute path then none else some ""
  else
    let cs := trimRight path.toList
    let above := (cs.reverse.dropWhile (· != '/')).reverse
    let kept := trimRight above
    some (if kept.isEmpty && isAbsolute path then "/"
      else if kept.isEmpty && above != [] then "." else String.ofList kept)

end DocLint.PathText
