/-!
# Declarations

What carries a documentation block: a kind, the way the declaring line
announces itself, and the line it stands on.
-/

set_option autoImplicit false

namespace DocLint

/-- Kinds of declaration. Interfaces, enums and namespaces count as classes, methods and
function-valued variables as functions, fields and plain variables as properties. -/
inductive DeclarationKind where
  | classLike
  | function
  | property
  deriving DecidableEq, Repr

namespace DeclarationKind

def name : DeclarationKind → String
  | .classLike => "class"
  | .function => "function"
  | .property => "property"

def ofName? : String → Option DeclarationKind
  | "class" => some .classLike
  | "function" => some .function
  | "property" => some .property
  | _ => none

end DeclarationKind

inductive DeclarationForm where
  | explicit
  | binding
  | bare
  deriving DecidableEq, Repr

def DeclarationForm.name : DeclarationForm → String
  | .explicit => "explicit"
  | .binding => "variable"
  | .bare => "bare"

/-- What a line looks like, before its scope is considered. -/
structure DeclarationShape where
  kind : DeclarationKind
  form : DeclarationForm
  deriving DecidableEq, Repr

/-- A declaration of a source text, with the index of its line. -/
structure Declaration where
  index : Nat
  kind : DeclarationKind
  deriving DecidableEq, Repr

def Declaration.lineNumber (d : Declaration) : Nat := d.index + 1

end DocLint
