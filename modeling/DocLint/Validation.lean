import DocLint.DocBlock
import DocLint.Finding
import DocLint.Prose
import DocLint.Signature

/-!
# Validation of one declaration

The block above a declaration is checked for the required tags of its kind,
against the signature if it is a function, and for its language, in this order.
-/

set_option autoImplicit false

namespace DocLint

namespace DocBlock

def contains (b : DocBlock) (needle : String) : Bool := Text.occursIn needle.toList b.text

end DocBlock

/-- The name given by a parameter tag at the start of a text, and the length of the tag with it.
A type in braces and an opening bracket may stand before the name. -/
def paramTag? (cs : List Char) : Option (List Char × Nat) :=
  match Signature.afterKeyword? "@param" cs with
  | none => none
  | some rest =>
    let rest := match rest with
      | '{' :: inner => match Text.cutAt '}' inner with
        | some (_, behind) => Text.trimStart behind
        | none => rest
      | _ => rest
    let rest := match rest with
      | '[' :: behind => behind
      | _ => rest
    (Text.name? rest).map fun r => (r.1, cs.length - r.2.length)

/-- The names given by parameter tags, from left to right. The next `skip` characters belong to
the last tag found. -/
def documentedParams : Nat → List Char → List (List Char)
  | _, [] => []
  | skip + 1, _ :: cs => documentedParams skip cs
  | 0, c :: cs =>
    match paramTag? (c :: cs) with
    | some (name, size) => name :: documentedParams (size - 1) cs
    | none => documentedParams 0 cs

def isReturnTag (tag : String) : Bool := tag == "@returns" || tag == "@return"

namespace Settings

def missingTags (settings : Settings) (kind : DeclarationKind) (isConstructor : Bool)
    (block : DocBlock) : List Finding :=
  ((settings.rules.ofKind kind).requiredTags.filter fun tag =>
    !(isConstructor && isReturnTag tag) && !block.contains tag).map .missingTag

/-- The parameters that a block does not name, unless it lacks the required tag altogether. -/
def undocumentedParams (settings : Settings) (signature : Signature) (block : DocBlock) :
    List Finding :=
  let reported := settings.rules.function.requires "@param" && !block.contains "@param"
  if settings.checks.paramCoverage && !reported then
    let documented := documentedParams 0 block.text
    (signature.params.filter fun name => !documented.contains name).map .undocumentedParam
  else []

def missingReturn (settings : Settings) (signature : Signature) (block : DocBlock) :
    List Finding :=
  let reported := settings.rules.function.requires "@returns" && !block.contains "@returns"
  if settings.checks.returnTag && !reported && !signature.isConstructor &&
      signature.returnsValue && !block.contains "@return" then
    [.missingReturnTag (signature.returnType.getD [])]
  else []

def signatureFindings (settings : Settings) (signature : Option Signature) (block : DocBlock) :
    List Finding :=
  match signature with
  | some s => settings.undocumentedParams s block ++ settings.missingReturn s block
  | none => []

def languageFindings (settings : Settings) (block : DocBlock) : List Finding :=
  if settings.language.enforceEnglish then
    match Prose.detect settings.language block.text with
    | some words => [.nonEnglish words]
    | none => []
  else []

def validate (settings : Settings) (lines : List Line) (d : Declaration) : List Finding :=
  match findDocBlock lines d.index with
  | .missing => [.missingBlock d.kind]
  | .unopened => [.unopenedBlock d.kind]
  | .found block =>
    let signature := if d.kind = .function then some (Signature.ofLines lines d.index) else none
    let isConstructor := (signature.map Signature.isConstructor).getD false
    settings.missingTags d.kind isConstructor block ++
      settings.signatureFindings signature block ++ settings.languageFindings block

end Settings

end DocLint
