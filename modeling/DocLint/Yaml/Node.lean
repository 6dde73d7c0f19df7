import DocLint.Yaml.TokenStream

/-!
# YAML documents

A document is a tree of nodes. An alias is kept as the number of its anchor,
and the document lists the nodes of the anchors; a number that is given out
twice belongs to the later anchor. A stream holds at most one document.
-/

set_option autoImplicit false

namespace DocLint.Yaml

inductive Node where
  | scalar (text : String) (style : ScalarStyle) (tag : Option String)
  | sequence (items : List Node)
  | mapping (entries : List (Node × Node))
  | alias (anchor : Nat)
  deriving Repr

structure Document where
  root : Node
  anchors : List (Nat × Node)
  deriving Repr

def Document.follow (d : Document) : Node → Option Node
  | .alias anchor => d.anchors.lookup anchor
  | node => some node

def Node.empty : Node := .scalar "" .plain none

structure ReadState where
  tokens : List Token
  handles : List (String × String)
  numbers : List (String × Nat) := []
  owners : List (Nat × Nat) := []
  nodes : List (Nat × Node) := []

abbrev Read := StateT ReadState Option

namespace Read

def fail {α : Type} : Read α := fun _ => none

def peek : Read (Option Token) := do return (← get).tokens.head?

def advance : Read Unit := modify fun s => { s with tokens := s.tokens.drop 1 }

def accept (t : Token) : Read Bool := do
  if (← peek) == some t then
    advance
    return true
  else return false

def atAny (ts : List Token) : Read Bool := do
  match ← peek with
  | some t => return ts.contains t
  | none => return true

def declare (name : String) : Read Nat := do
  let s ← get
  let number := s.numbers.length
  let occurrence := s.owners.length
  set { s with
    numbers := (name, number) :: s.numbers.filter (fun n => n.1 != name)
    owners := (number, occurrence) :: s.owners }
  return occurrence

def remember (occurrence : Option Nat) (node : Node) : Read Node := do
  match occurrence with
  | some o => modify fun s => { s with nodes := (o, node) :: s.nodes }
  | none => pure ()
  return node

def anchor? : Read (Option Nat) := do
  match ← peek with
  | some (.anchor name) =>
    advance
    return some (← declare name)
  | _ => return none

def tag? : Read (Option String) := do
  match ← peek with
  | some (.tag handle suffix) =>
    advance
    if handle.isEmpty then return some suffix
    else match (← get).handles.lookup handle with
      | some expansion => return some (expansion ++ suffix)
      | none => fail
  | _ => return none

def properties : Read (Option Nat × Option String) := do
  match ← anchor? with
  | some a => return (some a, ← tag?)
  | none =>
    let t ← tag?
    if t.isSome then return (← anchor?, t) else return (none, none)

mutual

/-- Reads a node. In a block, block collections may follow; the entries of a sequence may stand at
the indentation of a mapping around it. -/
def node (fuel : Nat) (block indentless : Bool) : Read Node :=
  match fuel with
  | 0 => fail
  | fuel + 1 => do
    match ← peek with
    | some (.alias name) =>
      advance
      match (← get).numbers.lookup name with
      | some number => return .alias number
      | none => fail
    | _ =>
      let (anchor, tag) ← properties
      let next ← peek
      match next with
      | some (.scalar text style) =>
        advance
        remember anchor (.scalar text style (if tag == some "!" then none else tag))
      | some .flowSequenceStart =>
        advance
        remember anchor (.sequence (← flowItems fuel true))
      | some .flowMappingStart =>
        advance
        remember anchor (.mapping (← flowEntries fuel true))
      | _ =>
        if indentless && next == some .blockEntry then
          remember anchor (.sequence (← indentlessItems fuel))
        else if block && next == some .blockSequenceStart then
          advance
          remember anchor (.sequence (← blockItems fuel))
        else if block && next == some .blockMappingStart then
          advance
          remember anchor (.mapping (← blockEntries fuel))
        else if anchor.isSome || tag.isSome then remember anchor (.scalar "" .plain tag)
        else fail

def nodeUnless (fuel : Nat) (stops : List Token) (block indentless : Bool) : Read Node :=
  match fuel with
  | 0 => fail
  | fuel + 1 => do
    if ← atAny stops then return Node.empty else node fuel block indentless

def blockItems (fuel : Nat) : Read (List Node) :=
  match fuel with
  | 0 => fail
  | fuel + 1 => do
    if ← accept .blockEntry then
      let item ← nodeUnless fuel [.blockEntry, .blockEnd] true false
      return item :: (← blockItems fuel)
    else if ← accept .blockEnd then return []
    else fail

def indentlessItems (fuel : Nat) : Read (List Node) :=
  match fuel with
  | 0 => fail
  | fuel + 1 => do
    if ← accept .blockEntry then
      let item ← nodeUnless fuel [.blockEntry, .key, .value, .blockEnd] true false
      return item :: (← indentlessItems fuel)
    else return []

def blockEntries (fuel : Nat) : Read (List (Node × Node)) :=
  match fuel with
  | 0 => fail
  | fuel + 1 => do
    if ← accept .key then
      let key ← nodeUnless fuel [.key, .value, .blockEnd] true true
      let value ← blockValue fuel
      return (key, value) :: (← blockEntries fuel)
    else if ← accept .blockEnd then return []
    else fail

def blockValue (fuel : Nat) : Read Node :=
  match fuel with
  | 0 => fail
  | fuel + 1 => do
    if ← accept .value then nodeUnless fuel [.key, .value, .blockEnd] true true
    else return Node.empty

def flowItems (fuel : Nat) (first : Bool) : Read (List Node) :=
  match fuel with
  | 0 => fail
  | fuel + 1 => do
    if ← accept .flowSequenceEnd then return []
    else if !first && !(← accept .flowEntry) then fail
    else if ← accept .key then
      let key ← pairKey fuel
      let value ← flowValue fuel [.flowEntry, .flowSequenceEnd]
      return .mapping [(key, value)] :: (← flowItems fuel false)
    else if ← accept .flowSequenceEnd then return []
    else
      let item ← node fuel false false
      return item :: (← flowItems fuel false)

/-- The key of a mapping of one entry. A key that is left out takes the token behind it along. -/
def pairKey (fuel : Nat) : Read Node :=
  match fuel with
  | 0 => fail
  | fuel + 1 => do
    if ← atAny [.value, .flowEntry, .flowSequenceEnd] then
      advance
      return Node.empty
    else node fuel false false

def flowValue (fuel : Nat) (stops : List Token) : Read Node :=
  match fuel with
  | 0 => fail
  | fuel + 1 => do
    if ← accept .value then nodeUnless fuel stops false false else return Node.empty

def flowEntries (fuel : Nat) (first : Bool) : Read (List (Node × Node)) :=
  match fuel with
  | 0 => fail
  | fuel + 1 => do
    if ← accept .flowMappingEnd then return []
    else if !first && !(← accept .flowEntry) then fail
    else if ← accept .key then
      let key ← nodeUnless fuel [.value, .flowEntry, .flowMappingEnd] false false
      let value ← flowValue fuel [.flowEntry, .flowMappingEnd]
      return (key, value) :: (← flowEntries fuel false)
    else if ← accept .flowMappingEnd then return []
    else
      let key ← node fuel false false
      return (key, Node.empty) :: (← flowEntries fuel false)

end

def defaultHandles : List (String × String) := [("!", "!"), ("!!", "tag:yaml.org,2002:")]

def directives (versioned : Bool) (handles : List (String × String)) :
    List Token → Option (List (String × String) × List Token)
  | .versionDirective major minor :: rest =>
    if versioned || major != 1 || (minor != 1 && minor != 2) then none
    else directives true handles rest
  | .tagDirective handle expansion :: rest =>
    if handles.any fun h => h.1 == handle then none
    else directives versioned (handles ++ [(handle, expansion)]) rest
  | tokens => some (handles ++ defaultHandles, tokens)

def content (fuel : Nat) : Read Node := do
  match ← peek with
  | some (.versionDirective _ _) | some (.tagDirective _ _) => return Node.empty
  | _ =>
    nodeUnless fuel [.documentStart, .documentEnd, .streamEnd] true false

end Read

def onlyEnds (tokens : List Token) : Bool :=
  tokens.dropWhile (· == .documentEnd) == [.streamEnd]

def Document.ofTokens? (tokens : List Token) : Option Document := do
  if tokens == [.streamEnd] then some ⟨Node.empty, []⟩
  else
    let fuel := 4 * tokens.length + 8
    let (handles, rest) ← Read.directives false [] tokens
    let explicit := rest.head? == some .documentStart
    let directed := rest.length != tokens.length
    if directed && !explicit then none
    else
      let body := if explicit then Read.content fuel else Read.node fuel true false
      let start : ReadState :=
        { tokens := if explicit then rest.drop 1 else rest, handles := handles }
      let (root, s) ← body start
      if onlyEnds s.tokens then
        some ⟨root, s.owners.filterMap fun o => (s.nodes.lookup o.2).map fun n => (o.1, n)⟩
      else none

def Document.parse? (text : String) : Option Document := (tokens? text).bind Document.ofTokens?

end DocLint.Yaml
