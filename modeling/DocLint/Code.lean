import DocLint.Line

/-!
# Code characters

The characters of a line that belong to code: not to a string literal, an
inline comment, or a line that is a comment as a whole. Literals and comments
are followed within one line only.
-/

set_option autoImplicit false

namespace DocLint

/-- Where a left-to-right reading of a line stands. -/
inductive Reading where
  | code
  | literal (quote : Char)
  | escaped (quote : Char)
  | comment
  deriving DecidableEq, Repr

namespace Line

def isQuote (c : Char) : Bool := c == '"' || c == '\x27' || c == '\x60'

def codeFrom : Reading → List Char → List Char
  | _, [] => []
  | .comment, '*' :: '/' :: rest => codeFrom .code rest
  | .comment, _ :: rest => codeFrom .comment rest
  | .escaped q, _ :: rest => codeFrom (.literal q) rest
  | .literal q, c :: rest =>
    if c == '\\' then codeFrom (.escaped q) rest
    else if c == q then codeFrom .code rest
    else codeFrom (.literal q) rest
  | .code, '/' :: '/' :: _ => []
  | .code, '/' :: '*' :: rest => codeFrom .comment rest
  | .code, c :: rest =>
    if isQuote c then codeFrom (.literal c) rest else c :: codeFrom .code rest

def isCommentLine (line : Line) : Bool :=
  let cs := Text.trimStart line
  "*".toList.isPrefixOf cs || "//".toList.isPrefixOf cs

def codeChars (line : Line) : List Char :=
  if line.isCommentLine then [] else codeFrom .code line

end Line

end DocLint
