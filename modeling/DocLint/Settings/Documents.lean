import DocLint.Json.Record
import DocLint.Settings.Decoder
import DocLint.Text.Blank
import DocLint.Text.Search
import DocLint.Yaml.Node

/-!
# Settings written in JSON and in YAML

In YAML a scalar is taken as it is written where a text is expected. Flags and
numbers are plain scalars, or literal ones with the tag of their kind. A value
that is left out stands for an empty section or an empty list.
-/

set_option autoImplicit false

namespace DocLint

def Json.settingsDecoder : Decoder Json where
  fields? := Json.fields?
  list? := Json.items?
  text? := Json.string?
  flag? := Json.bool?
  natural? := Json.nat?

def Settings.ofJson? (v : Json) : Option Settings := Json.settingsDecoder.settings? v

namespace Yaml

def flagOf? (text : String) : Option Bool :=
  if ["true", "True", "TRUE"].contains text then some true
  else if ["false", "False", "FALSE"].contains text then some false
  else none

def digitsOf? (base : Nat) (cs : List Char) : Option Nat :=
  if cs.isEmpty then none
  else cs.foldl (fun n? c => do
    let d ← hexValue? c
    if d < base then some ((← n?) * base + d) else none) (some 0)

/-- A natural number: decimal without leading zeros, or with a mark for base sixteen, eight or two.
A plus sign may stand before it. -/
def naturalOf? (text : String) : Option Nat :=
  let cs := text.toList
  let cs := (Text.strip? ['+'] cs).getD cs
  match cs with
  | '0' :: 'x' :: rest => digitsOf? 16 rest
  | '0' :: 'o' :: rest => digitsOf? 8 rest
  | '0' :: 'b' :: rest => digitsOf? 2 rest
  | '0' :: _ :: _ => none
  | _ => digitsOf? 10 cs

def valueText? (kind : String) : Node → Option String
  | .scalar text .plain _ => some text
  | .scalar text .literal tag => if tag == some kind then some text else none
  | _ => none

def scalarText? : Node → Option String
  | .scalar text _ _ => some text
  | _ => none

def Document.text? (d : Document) (v : Node) : Option String := (d.follow v).bind scalarText?

def isLeftOut : Node → Bool
  | .scalar text .plain _ => text.isEmpty
  | _ => false

def Document.items? (d : Document) (v : Node) : Option (List Node) :=
  match d.follow v with
  | some (.sequence items) => some items
  | some node => if isLeftOut node then some [] else none
  | none => none

def Document.fields? (d : Document) (names : List String) (v : Node) :
    Option (List (String × Node)) :=
  match d.follow v with
  | some (.mapping entries) => do
    let named ← entries.mapM fun e => (d.text? e.1).map fun k => (k, e.2)
    let known := named.filter fun e => names.contains e.1
    if Json.hasRepeat (known.map (·.1)) then none else some known
  | some node => if isLeftOut node then some [] else none
  | none => none

def Document.settingsDecoder (d : Document) : Decoder Node where
  fields? := d.fields?
  list? := d.items?
  text? := d.text?
  flag? := fun v => ((d.follow v).bind (valueText? "tag:yaml.org,2002:bool")).bind flagOf?
  natural? := fun v => ((d.follow v).bind (valueText? "tag:yaml.org,2002:int")).bind naturalOf?

end Yaml

/-- The settings written by a text. A text of blanks stands for the built-in settings. -/
def Settings.parse? (text : String) : Option Settings :=
  if Text.allBlank text.toList then some {}
  else (Yaml.Document.parse? text).bind fun d => d.settingsDecoder.settings? d.root

end DocLint
