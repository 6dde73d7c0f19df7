import DocLint.Ascending

/-!
# Text patterns

A pattern describes how a text may go on from a place. It is followed from all
places of an ascending list at once: from the places where it may start come
the places where it may end, each of them once. So a pattern is followed in
time linear in the text, however many ways there are to match it.
-/

set_option autoImplicit false

namespace DocLint

inductive Pattern (α : Type) where
  | anyOf (texts : List (List α))
  | one (p : α → Bool)
  | many (p : α → Bool)
  /-- What follows, a symbol or the end, is of a kind; nothing is passed. -/
  | ahead (p : Option α → Bool)
  | seq (a b : Pattern α)
  | either (a b : Pattern α)
  | optional (a : Pattern α)
  | repeated (a : Pattern α)

namespace Pattern

variable {α : Type}

instance : Append (Pattern α) := ⟨seq⟩

instance : OrOp (Pattern α) := ⟨either⟩

def empty : Pattern α := anyOf [[]]

def atEnd : Pattern α := ahead Option.isNone

def fits [BEq α] (text : Array α) : List α → Nat → Bool
  | [], _ => true
  | c :: cs, i => text[i]? == some c && fits text cs (i + 1)

def behindTexts [BEq α] (text : Array α) (texts : List (List α)) (places : List Nat) : List Nat :=
  texts.foldl (fun found t => mergeAscending found
    ((places.filter (fits text t)).map (· + t.length))) []

/-- The places reached from one place by symbols of a class. The way ends at the place `next`,
which is followed on its own. -/
def reach (text : Array α) (p : α → Bool) (next? : Option Nat) : Nat → Nat → List Nat
  | 0, i => [i]
  | fuel + 1, i =>
    if next? == some i then []
    else i :: if text[i]?.any p then reach text p next? fuel (i + 1) else []

def reachAll (text : Array α) (p : α → Bool) : List Nat → List Nat
  | [] => []
  | i :: rest => reach text p rest.head? (text.size + 1) i ++ reachAll text p rest

def closure (step : List Nat → List Nat) : Nat → List Nat → List Nat → List Nat
  | 0, found, _ => found
  | fuel + 1, found, fresh =>
    match (step fresh).filter fun i => !found.contains i with
    | [] => found
    | new => closure step fuel (mergeAscending found new) new

def ends [BEq α] (text : Array α) : Pattern α → List Nat → List Nat
  | anyOf texts, places => behindTexts text texts places
  | one p, places => (places.filter fun i => text[i]?.any p).map (· + 1)
  | many p, places => reachAll text p places
  | ahead p, places => places.filter fun i => p text[i]?
  | seq a b, places => ends text b (ends text a places)
  | either a b, places => mergeAscending (ends text a places) (ends text b places)
  | optional a, places => mergeAscending places (ends text a places)
  | repeated a, places => closure (fun fresh => ends text a fresh) (text.size + 1) places places

def opens [BEq α] (p : Pattern α) (text : List α) : Bool := !(p.ends text.toArray [0]).isEmpty

def accepts [BEq α] (p : Pattern α) (text : List α) : Bool :=
  (p.ends text.toArray [0]).contains text.length

end Pattern

end DocLint
