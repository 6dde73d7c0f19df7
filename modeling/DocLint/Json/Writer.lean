import DocLint.Json

/-!
# Writing JSON

Two layouts: compact, and indented by two blanks a level. Strings escape the
double quote, the backslash and the characters below U+0020, and nothing else.
-/

set_option autoImplicit false

namespace DocLint.Json

def hexDigit (n : Nat) : Char := if n < 10 then Char.ofNat (48 + n) else Char.ofNat (87 + n)

def escapeChar (c : Char) : List Char :=
  if c == '"' then ['\\', '"']
  else if c == '\\' then ['\\', '\\']
  else if c.toNat < 32 then
    match c.toNat with
    | 8 => ['\\', 'b']
    | 9 => ['\\', 't']
    | 10 => ['\\', 'n']
    | 12 => ['\\', 'f']
    | 13 => ['\\', 'r']
    | n => ['\\', 'u', '0', '0', hexDigit (n / 16), hexDigit (n % 16)]
  else [c]

def writeString (s : String) : List Char := '"' :: s.toList.flatMap escapeChar ++ ['"']

def writeNumber : JsonNumber → List Char
  | .natural n => Nat.toDigits 10 n
  | .other text => text.toList

mutual

def writeCompact : Json → List Char
  | .null => "null".toList
  | .bool true => "true".toList
  | .bool false => "false".toList
  | .number n => writeNumber n
  | .string s => writeString s
  | .array [] => ['[', ']']
  | .array (v :: vs) => '[' :: writeCompact v ++ compactItems vs
  | .object [] => ['{', '}']
  | .object ((k, v) :: ms) => '{' :: writeString k ++ ':' :: writeCompact v ++ compactMembers ms

def compactItems : List Json → List Char
  | [] => [']']
  | v :: vs => ',' :: writeCompact v ++ compactItems vs

def compactMembers : List (String × Json) → List Char
  | [] => ['}']
  | (k, v) :: ms => ',' :: writeString k ++ ':' :: writeCompact v ++ compactMembers ms

end

def lineBreak (level : Nat) : List Char := '\n' :: List.replicate (2 * level) ' '

mutual

def writeIndented (level : Nat) : Json → List Char
  | .null => "null".toList
  | .bool true => "true".toList
  | .bool false => "false".toList
  | .number n => writeNumber n
  | .string s => writeString s
  | .array [] => ['[', ']']
  | .array (v :: vs) =>
    '[' :: lineBreak (level + 1) ++ writeIndented (level + 1) v ++ indentedItems level vs
  | .object [] => ['{', '}']
  | .object ((k, v) :: ms) =>
    '{' :: lineBreak (level + 1) ++ writeString k ++ ':' :: ' ' :: writeIndented (level + 1) v ++
      indentedMembers level ms

def indentedItems (level : Nat) : List Json → List Char
  | [] => lineBreak level ++ [']']
  | v :: vs => ',' :: lineBreak (level + 1) ++ writeIndented (level + 1) v ++
      indentedItems level vs

def indentedMembers (level : Nat) : List (String × Json) → List Char
  | [] => lineBreak level ++ ['}']
  | (k, v) :: ms =>
    ',' :: lineBreak (level + 1) ++ writeString k ++ ':' :: ' ' :: writeIndented (level + 1) v ++
      indentedMembers level ms

end

def compact (v : Json) : String := String.ofList (writeCompact v)

def pretty (v : Json) : String := String.ofList (writeIndented 0 v)

end DocLint.Json
