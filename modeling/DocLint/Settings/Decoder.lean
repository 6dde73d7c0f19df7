import DocLint.Settings

/-!
# Reading settings from a document

Settings are read from any kind of document that offers sections, lists, texts,
flags and numbers. A field that is left out has its built-in value; a field
that is there has to be of the right kind.
-/

set_option autoImplicit false

namespace DocLint

/-- How values of a document are read. A section is asked for with the names of its fields, in
their order, and answers with those that are there. -/
structure Decoder (ν : Type) where
  fields? : List String → ν → Option (List (String × ν))
  list? : ν → Option (List ν)
  text? : ν → Option String
  flag? : ν → Option Bool
  natural? : ν → Option Nat

namespace Decoder

variable {ν : Type}

def field {α : Type} (fs : List (String × ν)) (name : String) (read : ν → Option α) (builtin : α) :
    Option α :=
  match fs.lookup name with
  | some v => read v
  | none => some builtin

def texts? (d : Decoder ν) (v : ν) : Option (List String) := (d.list? v).bind (·.mapM d.text?)

def below? (d : Decoder ν) (bound : Nat) (v : ν) : Option Nat :=
  (d.natural? v).bind fun n => if n < bound then some n else none

def tagPolicy? (d : Decoder ν) (v : ν) : Option TagPolicy := do
  let fs ← d.fields? ["required_tags", "optional_tags"] v
  let requiredTags ← field fs "required_tags" d.texts? []
  let optionalTags ← field fs "optional_tags" d.texts? []
  some { requiredTags, optionalTags }

def tagPolicies? (d : Decoder ν) (v : ν) : Option TagPolicies := do
  let builtin : TagPolicies := {}
  let fs ← d.fields? ["class", "function", "property"] v
  let classLike ← field fs "class" d.tagPolicy? builtin.classLike
  let function ← field fs "function" d.tagPolicy? builtin.function
  let property ← field fs "property" d.tagPolicy? builtin.property
  some { classLike, function, property }

def signatureChecks? (d : Decoder ν) (v : ν) : Option SignatureChecks := do
  let builtin : SignatureChecks := {}
  let fs ← d.fields? ["param_coverage", "return_tag"] v
  let paramCoverage ← field fs "param_coverage" d.flag? builtin.paramCoverage
  let returnTag ← field fs "return_tag" d.flag? builtin.returnTag
  some { paramCoverage, returnTag }

def language? (d : Decoder ν) (v : ν) : Option LanguageSettings := do
  let builtin : LanguageSettings := {}
  let fs ← d.fields? ["enforce_english", "threshold", "stop_words"] v
  let enforceEnglish ← field fs "enforce_english" d.flag? builtin.enforceEnglish
  let threshold ← field fs "threshold" (d.below? UInt64.size) builtin.threshold
  let stopWords ← field fs "stop_words" d.texts? builtin.stopWords
  some { enforceEnglish, threshold, stopWords }

def diff? (d : Decoder ν) (v : ν) : Option DiffSettings := do
  let builtin : DiffSettings := {}
  let fs ← d.fields? ["remote", "base_branches", "unified", "context_lines", "include_staged",
    "include_unstaged"] v
  let remote ← field fs "remote" d.text? builtin.remote
  let baseBranches ← field fs "base_branches" d.texts? builtin.baseBranches
  let unified ← field fs "unified" (d.below? UInt32.size) builtin.unified
  let contextLines ← field fs "context_lines" (d.below? UInt64.size) builtin.contextLines
  let includeStaged ← field fs "include_staged" d.flag? builtin.includeStaged
  let includeUnstaged ← field fs "include_unstaged" d.flag? builtin.includeUnstaged
  some { remote, baseBranches, unified, contextLines, includeStaged, includeUnstaged }

def settings? (d : Decoder ν) (v : ν) : Option Settings := do
  let builtin : Settings := {}
  let fs ← d.fields? ["version", "extensions", "excluded_paths", "rules", "checks", "language",
    "diff"] v
  let version ← field fs "version" d.text? builtin.version
  let extensions ← field fs "extensions" d.texts? builtin.extensions
  let excludedPaths ← field fs "excluded_paths" d.texts? builtin.excludedPaths
  let rules ← field fs "rules" d.tagPolicies? builtin.rules
  let checks ← field fs "checks" d.signatureChecks? builtin.checks
  let language ← field fs "language" d.language? builtin.language
  let diff ← field fs "diff" d.diff? builtin.diff
  some { version, extensions, excludedPaths, rules, checks, language, diff }

end Decoder

end DocLint
