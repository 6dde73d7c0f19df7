import DocLint.LintResult

/-!
# Reports

What a report describes beside the result: the target of the check and the
settings in effect.
-/

set_option autoImplicit false

namespace DocLint

def toolName : String := "docguard"

def toolVersion : String := "0.1.0"

structure ReportContext where
  /-- The compared range, the staged changes, or the paths of a full check. -/
  target : String
  settingsPath : Option String := none
  deriving DecidableEq, Repr

def ReportContext.settingsLabel (c : ReportContext) : String :=
  c.settingsPath.getD "built-in defaults"

end DocLint
