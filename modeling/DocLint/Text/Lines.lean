/-!
# Lines of a text

A line ends at a line feed, and one carriage return right before that line
feed goes with it. What follows the last line feed is a line if it is not
empty.
-/

set_option autoImplicit false

namespace DocLint.Text

def dropReturn : List Char → List Char
  | [] => []
  | ['\r'] => []
  | c :: cs => c :: dropReturn cs

/-- Splits into lines; `current` holds the characters of the line so far, the last one first. -/
def splitLines : List Char → List Char → List (List Char)
  | current, [] => if current.isEmpty then [] else [current.reverse]
  | current, c :: cs =>
    if c == '\n' then dropReturn current.reverse :: splitLines [] cs
    else splitLines (c :: current) cs

def lines (cs : List Char) : List (List Char) := splitLines [] cs

def join (sep : List Char) : List (List Char) → List Char
  | [] => []
  | [t] => t
  | t :: u :: ts => t ++ sep ++ join sep (u :: ts)

end DocLint.Text
