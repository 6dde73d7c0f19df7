import DocLint.Finding

/-!
# Lint results

The violations and the skipped files of a lint, with the numbers of scanned
files and of validated declarations. Results are added by `merge`.
-/

set_option autoImplicit false

namespace DocLint

inductive Severity where
  | error
  deriving DecidableEq, Repr

def Severity.name : Severity → String
  | .error => "error"

def Severity.ofName? : String → Option Severity
  | "error" => some .error
  | _ => none

structure Violation where
  rule : Rule
  message : String
  file : String
  line : Nat
  declaration : String
  severity : Severity := .error
  deriving DecidableEq, Repr

structure SkippedFile where
  file : String
  reason : String
  deriving DecidableEq, Repr

structure LintResult where
  violations : List Violation := []
  skipped : List SkippedFile := []
  scanned : Nat := 0
  declarations : Nat := 0
  deriving DecidableEq, Repr

inductive CountOverflow where
  | countOverflow
  deriving DecidableEq, Repr

namespace LintResult

def empty : LintResult := {}

def merge (a b : LintResult) : LintResult :=
  ⟨a.violations ++ b.violations, a.skipped ++ b.skipped, a.scanned + b.scanned,
    a.declarations + b.declarations⟩

def mergeCounted (a b : LintResult) : Except CountOverflow LintResult :=
  if a.scanned + b.scanned < UInt64.size && a.declarations + b.declarations < UInt64.size then
    .ok (a.merge b)
  else .error .countOverflow

def hasErrors (r : LintResult) : Bool := r.violations.any fun v => v.severity == .error

def failingDeclarations (r : LintResult) : Nat :=
  (r.violations.map fun v => (v.file, v.line)).eraseDups.length

end LintResult

end DocLint
