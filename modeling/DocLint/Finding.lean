import DocLint.Declaration

/-!
# Findings

What can be wrong with the documentation of one declaration. Each finding
belongs to a rule and has one message.
-/

set_option autoImplicit false

namespace DocLint

inductive Rule where
  | missingDocBlock
  | malformedDocBlock
  | missingTag
  | undocumentedParam
  | missingReturnTag
  | nonEnglish
  deriving DecidableEq, Repr

namespace Rule

def all : List Rule :=
  [.missingDocBlock, .malformedDocBlock, .missingTag, .undocumentedParam, .missingReturnTag,
    .nonEnglish]

def id : Rule → String
  | .missingDocBlock => "missing_doc_block"
  | .malformedDocBlock => "malformed_doc_block"
  | .missingTag => "missing_tag"
  | .undocumentedParam => "undocumented_param"
  | .missingReturnTag => "missing_return_tag"
  | .nonEnglish => "non_english"

def ofId? (s : String) : Option Rule := all.find? fun r => r.id == s

end Rule

inductive Finding where
  | missingBlock (kind : DeclarationKind)
  | unopenedBlock (kind : DeclarationKind)
  | missingTag (tag : String)
  | undocumentedParam (name : List Char)
  | missingReturnTag (returnType : List Char)
  | nonEnglish (words : List (List Char))
  deriving DecidableEq, Repr

namespace Finding

def rule : Finding → Rule
  | .missingBlock _ => .missingDocBlock
  | .unopenedBlock _ => .malformedDocBlock
  | .missingTag _ => .missingTag
  | .undocumentedParam _ => .undocumentedParam
  | .missingReturnTag _ => .missingReturnTag
  | .nonEnglish _ => .nonEnglish

def message : Finding → String
  | .missingBlock kind => "missing documentation block above " ++ kind.name ++ " declaration"
  | .unopenedBlock kind =>
    "comment block closed without a matching `/**` opener above " ++ kind.name ++ " declaration"
  | .missingTag tag => "missing tag " ++ tag
  | .undocumentedParam name =>
    "parameter `" ++ String.ofList name ++ "` is not documented with @param"
  | .missingReturnTag ty =>
    "function returns `" ++ String.ofList ty ++ "` but has no @returns tag"
  | .nonEnglish words =>
    "documentation appears to be non-English (matched: " ++
      ", ".intercalate (words.map String.ofList) ++
      "); documentation must be written in English"

end Finding

end DocLint
