import DocLint.Glob.Expression
import DocLint.PathText
import DocLint.Settings
import DocLint.Text.Blank
import DocLint.Text.Quoted

/-!
# Valid settings

The first problem of settings that cannot be used, and which files they cover.
-/

set_option autoImplicit false

namespace DocLint

inductive SettingsProblem where
  | noExtensions
  | zeroThreshold
  | invalidTag (tag : String) (kind : DeclarationKind)
  | emptyRemote
  | invalidPattern (pattern : String) (error : GlobError)
  /-- An expression that is decided by the extension first is nested too deeply. -/
  | tooDeepExpression (expression : String)
  | tooDeepPattern (index : Nat)
  deriving DecidableEq, Repr

namespace SettingsProblem

def message : SettingsProblem → String
  | .noExtensions => "extensions must not be empty"
  | .zeroThreshold => "language.threshold must be at least 1"
  | .invalidTag tag kind => "invalid tag " ++ Text.quoted tag ++ " in rules." ++ kind.name
  | .emptyRemote => "diff.remote must not be empty"
  | .invalidPattern pattern error =>
    "invalid excluded_paths pattern " ++ Text.quoted pattern ++ ": error parsing glob '" ++
      pattern ++ "': " ++ error.message
  | .tooDeepExpression expression =>
    "error parsing glob '" ++ expression ++ "': error parsing pattern 0"
  | .tooDeepPattern index => "error parsing pattern " ++ toString index

end SettingsProblem

def isTag (tag : String) : Bool :=
  match tag.toList with
  | '@' :: c :: rest => c.isAlpha && rest.all fun d => d.isAlphanum || d == '_' || d == '-'
  | _ => false

namespace Settings

def taggedKinds (s : Settings) : List (String × DeclarationKind) :=
  [DeclarationKind.classLike, .function, .property].flatMap fun kind =>
    let policy := s.rules.ofKind kind
    (policy.requiredTags ++ policy.optionalTags).map fun tag => (tag, kind)

def readPatterns : List String → Except SettingsProblem (List Glob)
  | [] => .ok []
  | p :: ps =>
    match Glob.parse p with
    | .error e => .error (.invalidPattern p e)
    | .ok g => (readPatterns ps).map (g :: ·)

/-- The first expression that cannot be used: those decided by the extension come first, the others
are numbered among themselves. -/
def depthProblem? (globs : List Glob) : Option SettingsProblem :=
  match globs.find? fun g => g.method == .extensionFirst && g.isTooDeep with
  | some g => some (.tooDeepExpression g.expression)
  | none => ((globs.filter fun g => g.method == .path).findIdx? (·.isTooDeep)).map .tooDeepPattern

def excluded (s : Settings) : Except SettingsProblem (List Glob) :=
  match readPatterns s.excludedPaths with
  | .error p => .error p
  | .ok globs => match depthProblem? globs with
    | some p => .error p
    | none => .ok globs

def problem? (s : Settings) : Option SettingsProblem :=
  if s.extensions.isEmpty then some .noExtensions
  else if s.language.enforceEnglish && s.language.threshold == 0 then some .zeroThreshold
  else match s.taggedKinds.find? fun t => !isTag t.1 with
    | some (tag, kind) => some (.invalidTag tag kind)
    | none =>
      if Text.allBlank s.diff.remote.toList then some .emptyRemote
      else match s.excluded with
        | .error p => some p
        | .ok _ => none

def supports (s : Settings) (path : String) : Bool :=
  let ext := ((PathText.extension? path).getD "").toList.map Char.toLower
  s.extensions.any fun e => (e.toList.dropWhile (· == '.')).map Char.toLower == ext

end Settings

end DocLint
