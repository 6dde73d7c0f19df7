import DocLint.Yaml.Scalar
import DocLint.Yaml.Token

/-!
# Anchors, tags and directives of a YAML text
-/

set_option autoImplicit false

namespace DocLint.Yaml

def anchorName? (c : Cursor) : Option (String × Cursor) :=
  let name := c.rest.takeWhile isHandleChar
  let c := c.skip name.length
  let ends (ch : Char) : Bool :=
    ch == '?' || ch == ':' || ch == ',' || ch == ']' || ch == '}' || ch == '%' || ch == '@' ||
      ch == '\x60'
  if !name.isEmpty && (c.gapAt 0 || c.nextIs ends) then some (String.ofList name, c) else none

/-- A tag handle: an exclamation mark, name characters and perhaps a second exclamation mark. -/
def tagHandle? (c : Cursor) : Option (List Char × Cursor) :=
  if c.sees 0 '!' then
    let name := (c.skip 1).rest.takeWhile isHandleChar
    let c := c.skip (1 + name.length)
    if c.sees 0 '!' then some ('!' :: name ++ ['!'], c.skip 1) else some ('!' :: name, c)
  else none

def isUriChar (verbatim : Bool) (c : Char) : Bool :=
  isHandleChar c || ";/?:@&=+$.%!~*'()".toList.contains c ||
    (verbatim && (c == ',' || c == '[' || c == ']'))

def octet? (c : Cursor) : Option (Nat × Cursor) :=
  if c.sees 0 '%' && 3 ≤ c.rest.length then
    (hexNumber? ((c.rest.drop 1).take 2)).map fun n => (n, c.skip 3)
  else none

def octetCount? (n : Nat) : Option Nat :=
  if n < 0x80 then some 1
  else if 0xC0 ≤ n && n < 0xE0 then some 2
  else if 0xE0 ≤ n && n < 0xF0 then some 3
  else if 0xF0 ≤ n && n < 0xF8 then some 4
  else none

def trailingOctets? : Nat → Nat → Cursor → Option (Nat × Cursor)
  | 0, code, c => some (code, c)
  | n + 1, code, c => do
    let (o, c) ← octet? c
    if 0x80 ≤ o && o < 0xC0 then trailingOctets? n (code * 64 + (o - 0x80)) c else none

def uriEscape? (c : Cursor) : Option (Char × Cursor) := do
  let (lead, c) ← octet? c
  let count ← octetCount? lead
  let bits := if count == 1 then lead else lead % (1 <<< (7 - count))
  let (code, c) ← trailingOctets? (count - 1) bits c
  some (Char.ofNat code, c)

def uriChars? (verbatim : Bool) : Nat → List Char → Cursor → Option (List Char × Cursor)
  | 0, text, c => some (text, c)
  | fuel + 1, text, c =>
    if c.sees 0 '%' then do
      let (ch, c) ← uriEscape? c
      uriChars? verbatim fuel (ch :: text) c
    else if c.nextIs (isUriChar verbatim) then
      uriChars? verbatim fuel (c.rest.take 1 ++ text) (c.skip 1)
    else some (text, c)

/-- A tag behind its handle. `head` is what was read as a handle and belongs to the tag; a tag
with neither is refused. -/
def tagUri? (verbatim : Bool) (head : List Char) (c : Cursor) : Option (String × Cursor) := do
  let (text, c) ← uriChars? verbatim (c.rest.length + 1) [] c
  if head.isEmpty && text.isEmpty then none
  else some (String.ofList (head.drop 1 ++ text.reverse), c)

def tagParts? (c : Cursor) : Option (String × String × Cursor) := do
  if c.sees 1 '<' then
    let (suffix, c) ← tagUri? true [] (c.skip 2)
    if c.sees 0 '>' then some ("", suffix, c.skip 1) else none
  else
    let (handle, behind) ← tagHandle? c
    if 1 < handle.length && ['!'].isSuffixOf handle then
      let (suffix, c) ← tagUri? false [] behind
      some (String.ofList handle, suffix, c)
    else
      let (suffix, c) ← tagUri? false handle behind
      if suffix.isEmpty then some ("", "!", c) else some ("!", suffix, c)

def tag? (flow : Bool) (c : Cursor) : Option (Token × Cursor) := do
  let (handle, suffix, c) ← tagParts? c
  if c.gapAt 0 || (flow && c.sees 0 ',') then some (.tag handle suffix, c) else none

def versionNumber? (c : Cursor) : Option (Nat × Cursor) :=
  let digits := c.rest.takeWhile Char.isDigit
  if digits.isEmpty || 9 < digits.length then none
  else some (digits.foldl (fun n d => 10 * n + (d.toNat - 48)) 0, c.skip digits.length)

def versionDirective? (c : Cursor) : Option (Token × Cursor) := do
  let (major, c) ← versionNumber? (c.skipWhile isBlank)
  if c.sees 0 '.' then
    let (minor, c) ← versionNumber? (c.skip 1)
    some (.versionDirective major minor, c)
  else none

def tagDirective? (c : Cursor) : Option (Token × Cursor) := do
  let (handle, c) ← tagHandle? (c.skipWhile isBlank)
  if handle != ['!'] && !(['!'].isSuffixOf handle && 1 < handle.length) then none
  else if !c.nextIs isBlank then none
  else
    let (expansion, c) ← tagUri? true [] (c.skipWhile isBlank)
    if c.gapAt 0 then some (.tagDirective (String.ofList handle) expansion, c) else none

def directive? (c : Cursor) : Option (Token × Cursor) := do
  let name := (c.skip 1).rest.takeWhile isHandleChar
  let c := c.skip (1 + name.length)
  if !c.gapAt 0 then none
  else
    let (token, c) ← match String.ofList name with
      | "YAML" => versionDirective? c
      | "TAG" => tagDirective? c
      | _ => none
    some (token, ← c.restOfLine?)

end DocLint.Yaml
