import DocLint.Proofs.Records
import DocLint.Settings.Documents

/-!
# Settings that are given in part

A document may give any of the settings and leave out the others, at each level.
What it gives is taken over and what it leaves out has its built-in value, with
one exception: the tags of a kind of declaration that has a section of its own.
-/

set_option autoImplicit false

namespace DocLint

structure PartialTagPolicy where
  requiredTags : Option (List String) := none
  optionalTags : Option (List String) := none
  deriving DecidableEq

structure PartialTagPolicies where
  classLike : Option PartialTagPolicy := none
  function : Option PartialTagPolicy := none
  property : Option PartialTagPolicy := none
  deriving DecidableEq

structure PartialSignatureChecks where
  paramCoverage : Option Bool := none
  returnTag : Option Bool := none
  deriving DecidableEq

structure PartialLanguageSettings where
  enforceEnglish : Option Bool := none
  threshold : Option Nat := none
  stopWords : Option (List String) := none
  deriving DecidableEq

structure PartialDiffSettings where
  remote : Option String := none
  baseBranches : Option (List String) := none
  unified : Option Nat := none
  contextLines : Option Nat := none
  includeStaged : Option Bool := none
  includeUnstaged : Option Bool := none
  deriving DecidableEq

/-- What a document gives of the settings, level by level. -/
structure PartialSettings where
  version : Option String := none
  extensions : Option (List String) := none
  excludedPaths : Option (List String) := none
  rules : Option PartialTagPolicies := none
  checks : Option PartialSignatureChecks := none
  language : Option PartialLanguageSettings := none
  diff : Option PartialDiffSettings := none
  deriving DecidableEq

def PartialTagPolicy.fill (p : PartialTagPolicy) (base : TagPolicy) : TagPolicy :=
  ⟨p.requiredTags.getD base.requiredTags, p.optionalTags.getD base.optionalTags⟩

def PartialTagPolicies.fill (p : PartialTagPolicies) (base : TagPolicies) : TagPolicies :=
  ⟨p.classLike.elim base.classLike (·.fill base.classLike),
    p.function.elim base.function (·.fill base.function),
    p.property.elim base.property (·.fill base.property)⟩

def PartialSignatureChecks.fill (p : PartialSignatureChecks) (base : SignatureChecks) :
    SignatureChecks :=
  ⟨p.paramCoverage.getD base.paramCoverage, p.returnTag.getD base.returnTag⟩

def PartialLanguageSettings.fill (p : PartialLanguageSettings) (base : LanguageSettings) :
    LanguageSettings :=
  ⟨p.enforceEnglish.getD base.enforceEnglish, p.threshold.getD base.threshold,
    p.stopWords.getD base.stopWords⟩

def PartialDiffSettings.fill (p : PartialDiffSettings) (base : DiffSettings) : DiffSettings :=
  ⟨p.remote.getD base.remote, p.baseBranches.getD base.baseBranches,
    p.unified.getD base.unified, p.contextLines.getD base.contextLines,
    p.includeStaged.getD base.includeStaged, p.includeUnstaged.getD base.includeUnstaged⟩

/-- The settings with the given fields, and those of `base` where a field is left out. -/
def PartialSettings.fill (p : PartialSettings) (base : Settings) : Settings :=
  ⟨p.version.getD base.version, p.extensions.getD base.extensions,
    p.excludedPaths.getD base.excludedPaths, p.rules.elim base.rules (·.fill base.rules),
    p.checks.elim base.checks (·.fill base.checks),
    p.language.elim base.language (·.fill base.language),
    p.diff.elim base.diff (·.fill base.diff)⟩

def PartialTagPolicies.read (p : PartialTagPolicies) (base : TagPolicies) : TagPolicies :=
  ⟨p.classLike.elim base.classLike (·.fill {}), p.function.elim base.function (·.fill {}),
    p.property.elim base.property (·.fill {})⟩

def PartialSettings.read (p : PartialSettings) (base : Settings) : Settings :=
  { p.fill base with rules := p.rules.elim base.rules (·.read base.rules) }

/-- How a section gives one of its fields: by no entry, or by an entry with that name whose node
writes the value. -/
def GivesField {ν α : Type} (es : List (String × ν)) (name : String) (writes : ν → α → Prop) :
    Option α → Prop
  | none => ∀ e ∈ es, e.1 ≠ name
  | some x => ∃ e ∈ es, e.1 = name ∧ writes e.2 x

instance {ν α : Type} (es : List (String × ν)) (name : String) (writes : ν → α → Prop)
    [∀ v x, Decidable (writes v x)] (part : Option α) :
    Decidable (GivesField es name writes part) :=
  match part with
  | none => inferInstanceAs (Decidable (∀ e ∈ es, e.1 ≠ name))
  | some x => inferInstanceAs (Decidable (∃ e ∈ es, e.1 = name ∧ writes e.2 x))

def known {ν : Type} (names : List String) (es : List (String × ν)) : List (String × ν) :=
  es.filter fun e => names.contains e.1

def NamedOnce {ν : Type} (names : List String) (es : List (String × ν)) : Prop :=
  ((known names es).map Prod.fst).Nodup

instance {ν : Type} (names : List String) (es : List (String × ν)) :
    Decidable (NamedOnce names es) :=
  inferInstanceAs (Decidable ((known names es).map Prod.fst).Nodup)

namespace Yaml.Document

variable (d : Document)

/-- The entries of a section, by name. A value that is left out has none. -/
def entries? (v : Node) : Option (List (String × Node)) :=
  match d.follow v with
  | some (.mapping entries) => entries.mapM fun e => (d.text? e.1).map fun k => (k, e.2)
  | some node => if isLeftOut node then some [] else none
  | none => none

def WritesText (v : Node) (x : String) : Prop := d.text? v = some x

def WritesTexts (v : Node) (xs : List String) : Prop := d.settingsDecoder.texts? v = some xs

def WritesFlag (v : Node) (b : Bool) : Prop := d.settingsDecoder.flag? v = some b

def WritesBelow (bound : Nat) (v : Node) (n : Nat) : Prop :=
  d.settingsDecoder.natural? v = some n ∧ n < bound

instance (v : Node) (x : String) : Decidable (d.WritesText v x) :=
  inferInstanceAs (Decidable (d.text? v = some x))

instance (v : Node) (xs : List String) : Decidable (d.WritesTexts v xs) :=
  inferInstanceAs (Decidable (d.settingsDecoder.texts? v = some xs))

instance (v : Node) (b : Bool) : Decidable (d.WritesFlag v b) :=
  inferInstanceAs (Decidable (d.settingsDecoder.flag? v = some b))

instance (bound : Nat) (v : Node) (n : Nat) : Decidable (d.WritesBelow bound v n) :=
  inferInstanceAs (Decidable (d.settingsDecoder.natural? v = some n ∧ n < bound))

def GivesTagPolicy (v : Node) (p : PartialTagPolicy) : Prop :=
  ∃ es ∈ d.entries? v, NamedOnce ["required_tags", "optional_tags"] es ∧
    GivesField es "required_tags" d.WritesTexts p.requiredTags ∧
    GivesField es "optional_tags" d.WritesTexts p.optionalTags

instance (v : Node) (p : PartialTagPolicy) : Decidable (d.GivesTagPolicy v p) :=
  inferInstanceAs (Decidable (∃ es ∈ d.entries? v, _))

def GivesTagPolicies (v : Node) (p : PartialTagPolicies) : Prop :=
  ∃ es ∈ d.entries? v, NamedOnce ["class", "function", "property"] es ∧
    GivesField es "class" d.GivesTagPolicy p.classLike ∧
    GivesField es "function" d.GivesTagPolicy p.function ∧
    GivesField es "property" d.GivesTagPolicy p.property

instance (v : Node) (p : PartialTagPolicies) : Decidable (d.GivesTagPolicies v p) :=
  inferInstanceAs (Decidable (∃ es ∈ d.entries? v, _))

def GivesSignatureChecks (v : Node) (p : PartialSignatureChecks) : Prop :=
  ∃ es ∈ d.entries? v, NamedOnce ["param_coverage", "return_tag"] es ∧
    GivesField es "param_coverage" d.WritesFlag p.paramCoverage ∧
    GivesField es "return_tag" d.WritesFlag p.returnTag

instance (v : Node) (p : PartialSignatureChecks) : Decidable (d.GivesSignatureChecks v p) :=
  inferInstanceAs (Decidable (∃ es ∈ d.entries? v, _))

def GivesLanguage (v : Node) (p : PartialLanguageSettings) : Prop :=
  ∃ es ∈ d.entries? v, NamedOnce ["enforce_english", "threshold", "stop_words"] es ∧
    GivesField es "enforce_english" d.WritesFlag p.enforceEnglish ∧
    GivesField es "threshold" (d.WritesBelow UInt64.size) p.threshold ∧
    GivesField es "stop_words" d.WritesTexts p.stopWords

instance (v : Node) (p : PartialLanguageSettings) : Decidable (d.GivesLanguage v p) :=
  inferInstanceAs (Decidable (∃ es ∈ d.entries? v, _))

def GivesDiff (v : Node) (p : PartialDiffSettings) : Prop :=
  ∃ es ∈ d.entries? v, NamedOnce ["remote", "base_branches", "unified", "context_lines",
      "include_staged", "include_unstaged"] es ∧
    GivesField es "remote" d.WritesText p.remote ∧
    GivesField es "base_branches" d.WritesTexts p.baseBranches ∧
    GivesField es "unified" (d.WritesBelow UInt32.size) p.unified ∧
    GivesField es "context_lines" (d.WritesBelow UInt64.size) p.contextLines ∧
    GivesField es "include_staged" d.WritesFlag p.includeStaged ∧
    GivesField es "include_unstaged" d.WritesFlag p.includeUnstaged

instance (v : Node) (p : PartialDiffSettings) : Decidable (d.GivesDiff v p) :=
  inferInstanceAs (Decidable (∃ es ∈ d.entries? v, _))

def GivesSettings (v : Node) (p : PartialSettings) : Prop :=
  ∃ es ∈ d.entries? v, NamedOnce ["version", "extensions", "excluded_paths", "rules", "checks",
      "language", "diff"] es ∧
    GivesField es "version" d.WritesText p.version ∧
    GivesField es "extensions" d.WritesTexts p.extensions ∧
    GivesField es "excluded_paths" d.WritesTexts p.excludedPaths ∧
    GivesField es "rules" d.GivesTagPolicies p.rules ∧
    GivesField es "checks" d.GivesSignatureChecks p.checks ∧
    GivesField es "language" d.GivesLanguage p.language ∧
    GivesField es "diff" d.GivesDiff p.diff

instance (v : Node) (p : PartialSettings) : Decidable (d.GivesSettings v p) :=
  inferInstanceAs (Decidable (∃ es ∈ d.entries? v, _))

end Yaml.Document

/-- What a text gives of the settings. A text of blanks gives nothing. -/
def PartialSettings.WrittenBy (p : PartialSettings) (text : String) : Prop :=
  if Text.allBlank text.toList then p = {}
  else ∃ d ∈ Yaml.Document.parse? text, d.GivesSettings d.root p

instance (p : PartialSettings) (text : String) : Decidable (p.WrittenBy text) :=
  inferInstanceAs (Decidable (if Text.allBlank text.toList then p = {}
    else ∃ d ∈ Yaml.Document.parse? text, d.GivesSettings d.root p))

theorem field_of_gives {ν α β : Type} {names : List String} {es : List (String × ν)}
    {writes : ν → α → Prop} {part : Option α} (name : String) (hname : names.contains name = true)
    (hes : NamedOnce names es) (h : GivesField es name writes part) (read : ν → Option β)
    (value : α → β) (builtin : β) (hread : ∀ v x, writes v x → read v = some (value x)) :
    Decoder.field (known names es) name read builtin = some (part.elim builtin value) := by
  cases part with
  | none =>
    have hnone : (known names es).lookup name = none :=
      lookup_eq_none _ name fun e he => h e (List.mem_filter.mp he).1
    rw [Decoder.field, hnone]
    rfl
  | some x =>
    obtain ⟨⟨k, v⟩, he, rfl, hv⟩ := h
    have hsome : (known names es).lookup k = some v :=
      lookup_of_mem _ k v hes (List.mem_filter.mpr ⟨he, hname⟩)
    rw [Decoder.field, hsome]
    exact hread v x hv

theorem value_of_gives {ν α : Type} {names : List String} {es : List (String × ν)}
    {writes : ν → α → Prop} {part : Option α} (name : String) (hname : names.contains name = true)
    (hes : NamedOnce names es) (h : GivesField es name writes part) (read : ν → Option α)
    (builtin : α) (hread : ∀ v x, writes v x → read v = some x) :
    Decoder.field (known names es) name read builtin = some (part.getD builtin) := by
  rw [field_of_gives name hname hes h read id builtin hread]
  cases part <;> rfl

namespace Yaml.Document

variable (d : Document)

theorem fields?_of_entries (names : List String) (v : Node) (es : List (String × Node))
    (h : es ∈ d.entries? v) (hes : NamedOnce names es) :
    d.settingsDecoder.fields? names v = some (known names es) := by
  have honce : Json.hasRepeat ((known names es).map Prod.fst) = false :=
    (Json.hasRepeat_eq_false_iff _).mpr hes
  change d.fields? names v = some (known names es)
  rw [entries?] at h
  rw [fields?]
  cases hfollow : d.follow v with
  | none =>
    rw [hfollow] at h
    contradiction
  | some node =>
    have leftOut : es ∈ (if isLeftOut node then some [] else none) →
        (if isLeftOut node then some [] else none) = some (known names es) := by
      intro hleft
      split at hleft
      · obtain rfl : [] = es := Option.some.inj hleft
        rename_i hnode
        exact if_pos hnode
      · contradiction
    rw [hfollow] at h
    cases node with
    | mapping entries => exact bind_eq_some h (if_neg (by simpa [known] using honce))
    | _ => exact leftOut h

theorem below?_of_writes (bound : Nat) (v : Node) (n : Nat) (h : d.WritesBelow bound v n) :
    d.settingsDecoder.below? bound v = some n :=
  bind_eq_some h.1 (if_pos h.2)

theorem tagPolicy?_of_gives (v : Node) (p : PartialTagPolicy) (h : d.GivesTagPolicy v p) :
    d.settingsDecoder.tagPolicy? v = some (p.fill {}) := by
  obtain ⟨es, hes, honce, hrequired, hoptional⟩ := h
  have hfields := d.fields?_of_entries _ v es hes honce
  have hrequired' := value_of_gives "required_tags" (by decide +kernel) honce hrequired
    d.settingsDecoder.texts? [] fun _ _ h => h
  have hoptional' := value_of_gives "optional_tags" (by decide +kernel) honce hoptional
    d.settingsDecoder.texts? [] fun _ _ h => h
  exact bind_eq_some hfields (bind_eq_some hrequired' (bind_eq_some hoptional' rfl))

theorem tagPolicies?_of_gives (v : Node) (p : PartialTagPolicies) (h : d.GivesTagPolicies v p) :
    d.settingsDecoder.tagPolicies? v = some (p.read {}) := by
  obtain ⟨es, hes, honce, hclass, hfunction, hproperty⟩ := h
  have hfields := d.fields?_of_entries _ v es hes honce
  have hclass' := field_of_gives "class" (by decide +kernel) honce hclass
    d.settingsDecoder.tagPolicy? (·.fill {}) ({} : TagPolicies).classLike d.tagPolicy?_of_gives
  have hfunction' := field_of_gives "function" (by decide +kernel) honce hfunction
    d.settingsDecoder.tagPolicy? (·.fill {}) ({} : TagPolicies).function d.tagPolicy?_of_gives
  have hproperty' := field_of_gives "property" (by decide +kernel) honce hproperty
    d.settingsDecoder.tagPolicy? (·.fill {}) ({} : TagPolicies).property d.tagPolicy?_of_gives
  exact bind_eq_some hfields (bind_eq_some hclass' (bind_eq_some hfunction'
    (bind_eq_some hproperty' rfl)))

theorem signatureChecks?_of_gives (v : Node) (p : PartialSignatureChecks)
    (h : d.GivesSignatureChecks v p) :
    d.settingsDecoder.signatureChecks? v = some (p.fill {}) := by
  obtain ⟨es, hes, honce, hcoverage, hreturn⟩ := h
  have hfields := d.fields?_of_entries _ v es hes honce
  have hcoverage' := value_of_gives "param_coverage" (by decide +kernel) honce hcoverage
    d.settingsDecoder.flag? ({} : SignatureChecks).paramCoverage fun _ _ h => h
  have hreturn' := value_of_gives "return_tag" (by decide +kernel) honce hreturn
    d.settingsDecoder.flag? ({} : SignatureChecks).returnTag fun _ _ h => h
  exact bind_eq_some hfields (bind_eq_some hcoverage' (bind_eq_some hreturn' rfl))

theorem language?_of_gives (v : Node) (p : PartialLanguageSettings) (h : d.GivesLanguage v p) :
    d.settingsDecoder.language? v = some (p.fill {}) := by
  obtain ⟨es, hes, honce, henglish, hthreshold, hwords⟩ := h
  have hfields := d.fields?_of_entries _ v es hes honce
  have henglish' := value_of_gives "enforce_english" (by decide +kernel) honce henglish
    d.settingsDecoder.flag? ({} : LanguageSettings).enforceEnglish fun _ _ h => h
  have hthreshold' := value_of_gives "threshold" (by decide +kernel) honce hthreshold
    (d.settingsDecoder.below? UInt64.size) ({} : LanguageSettings).threshold
    (d.below?_of_writes UInt64.size)
  have hwords' := value_of_gives "stop_words" (by decide +kernel) honce hwords
    d.settingsDecoder.texts? ({} : LanguageSettings).stopWords fun _ _ h => h
  exact bind_eq_some hfields (bind_eq_some henglish' (bind_eq_some hthreshold'
    (bind_eq_some hwords' rfl)))

theorem diff?_of_gives (v : Node) (p : PartialDiffSettings) (h : d.GivesDiff v p) :
    d.settingsDecoder.diff? v = some (p.fill {}) := by
  obtain ⟨es, hes, honce, hremote, hbranches, hunified, hcontext, hstaged, hunstaged⟩ := h
  have hfields := d.fields?_of_entries _ v es hes honce
  have hremote' := value_of_gives "remote" (by decide +kernel) honce hremote
    d.settingsDecoder.text? ({} : DiffSettings).remote fun _ _ h => h
  have hbranches' := value_of_gives "base_branches" (by decide +kernel) honce hbranches
    d.settingsDecoder.texts? ({} : DiffSettings).baseBranches fun _ _ h => h
  have hunified' := value_of_gives "unified" (by decide +kernel) honce hunified
    (d.settingsDecoder.below? UInt32.size) ({} : DiffSettings).unified
    (d.below?_of_writes UInt32.size)
  have hcontext' := value_of_gives "context_lines" (by decide +kernel) honce hcontext
    (d.settingsDecoder.below? UInt64.size) ({} : DiffSettings).contextLines
    (d.below?_of_writes UInt64.size)
  have hstaged' := value_of_gives "include_staged" (by decide +kernel) honce hstaged
    d.settingsDecoder.flag? ({} : DiffSettings).includeStaged fun _ _ h => h
  have hunstaged' := value_of_gives "include_unstaged" (by decide +kernel) honce hunstaged
    d.settingsDecoder.flag? ({} : DiffSettings).includeUnstaged fun _ _ h => h
  exact bind_eq_some hfields (bind_eq_some hremote' (bind_eq_some hbranches'
    (bind_eq_some hunified' (bind_eq_some hcontext' (bind_eq_some hstaged'
      (bind_eq_some hunstaged' rfl))))))

theorem settings?_of_gives (v : Node) (p : PartialSettings) (h : d.GivesSettings v p) :
    d.settingsDecoder.settings? v = some (p.read {}) := by
  obtain ⟨es, hes, honce, hversion, hextensions, hexcluded, hrules, hchecks, hlanguage, hdiff⟩ := h
  have hfields := d.fields?_of_entries _ v es hes honce
  have hversion' := value_of_gives "version" (by decide +kernel) honce hversion
    d.settingsDecoder.text? ({} : Settings).version fun _ _ h => h
  have hextensions' := value_of_gives "extensions" (by decide +kernel) honce hextensions
    d.settingsDecoder.texts? ({} : Settings).extensions fun _ _ h => h
  have hexcluded' := value_of_gives "excluded_paths" (by decide +kernel) honce hexcluded
    d.settingsDecoder.texts? ({} : Settings).excludedPaths fun _ _ h => h
  have hrules' := field_of_gives "rules" (by decide +kernel) honce hrules
    d.settingsDecoder.tagPolicies? (·.read {}) ({} : Settings).rules d.tagPolicies?_of_gives
  have hchecks' := field_of_gives "checks" (by decide +kernel) honce hchecks
    d.settingsDecoder.signatureChecks? (·.fill {}) ({} : Settings).checks
    d.signatureChecks?_of_gives
  have hlanguage' := field_of_gives "language" (by decide +kernel) honce hlanguage
    d.settingsDecoder.language? (·.fill {}) ({} : Settings).language d.language?_of_gives
  have hdiff' := field_of_gives "diff" (by decide +kernel) honce hdiff
    d.settingsDecoder.diff? (·.fill {}) ({} : Settings).diff d.diff?_of_gives
  exact bind_eq_some hfields (bind_eq_some hversion' (bind_eq_some hextensions'
    (bind_eq_some hexcluded' (bind_eq_some hrules' (bind_eq_some hchecks'
      (bind_eq_some hlanguage' (bind_eq_some hdiff' rfl)))))))

end Yaml.Document

def PartialTagPolicy.Whole (p : PartialTagPolicy) : Prop :=
  p.requiredTags ≠ none ∧ p.optionalTags ≠ none

def PartialTagPolicies.ofKind (p : PartialTagPolicies) : DeclarationKind → Option PartialTagPolicy
  | .classLike => p.classLike
  | .function => p.function
  | .property => p.property

/-- A kind of declaration that has a section of its own has both lists of tags in it. -/
def PartialSettings.PoliciesWhole (p : PartialSettings) : Prop :=
  ∀ rules ∈ p.rules, ∀ kind, ∀ policy ∈ rules.ofKind kind, policy.Whole

theorem getD_nil_eq_iff {α : Type} (part : Option (List α)) (base : List α) (h : base ≠ []) :
    part.getD [] = part.getD base ↔ part ≠ none := by
  cases part with
  | none => simpa using h.symm
  | some xs => simp

theorem PartialTagPolicy.fill_empty_eq_iff (p : PartialTagPolicy) (base : TagPolicy)
    (hrequired : base.requiredTags ≠ []) (hoptional : base.optionalTags ≠ []) :
    p.fill {} = p.fill base ↔ p.Whole := by
  rw [fill, fill, TagPolicy.mk.injEq, getD_nil_eq_iff _ _ hrequired,
    getD_nil_eq_iff _ _ hoptional, Whole]

theorem elim_fill_eq_iff (part : Option PartialTagPolicy) (base : TagPolicy)
    (hrequired : base.requiredTags ≠ []) (hoptional : base.optionalTags ≠ []) :
    part.elim base (·.fill {}) = part.elim base (·.fill base) ↔ ∀ policy ∈ part, policy.Whole := by
  cases part with
  | none => simp
  | some p => simpa using p.fill_empty_eq_iff base hrequired hoptional

theorem PartialTagPolicies.read_eq_fill_iff (p : PartialTagPolicies) :
    p.read {} = p.fill {} ↔ ∀ kind, ∀ policy ∈ p.ofKind kind, policy.Whole := by
  have hkinds : (∀ kind, ∀ policy ∈ p.ofKind kind, policy.Whole) ↔
      (∀ policy ∈ p.classLike, policy.Whole) ∧ (∀ policy ∈ p.function, policy.Whole) ∧
        ∀ policy ∈ p.property, policy.Whole := by
    constructor
    · intro h
      exact ⟨h .classLike, h .function, h .property⟩
    · rintro ⟨hclass, hfunction, hproperty⟩ kind
      cases kind with
      | classLike => exact hclass
      | function => exact hfunction
      | property => exact hproperty
  rw [read, fill, TagPolicies.mk.injEq, hkinds, elim_fill_eq_iff _ _ (by decide) (by decide),
    elim_fill_eq_iff _ _ (by decide) (by decide), elim_fill_eq_iff _ _ (by decide) (by decide)]

theorem PartialSettings.read_eq_fill_iff (p : PartialSettings) :
    p.read {} = p.fill {} ↔ p.PoliciesWhole := by
  have hrules : p.read {} = p.fill {} ↔
      p.rules.elim ({} : TagPolicies) (·.read {}) = p.rules.elim {} (·.fill {}) := by
    constructor
    · exact congrArg Settings.rules
    · intro h
      rw [read, fill, h]
  rw [hrules, PoliciesWhole]
  cases p.rules with
  | none => simp
  | some rules => simpa using rules.read_eq_fill_iff

namespace Settings

/-- A text that gives settings in part is always read. A field that it leaves out has its built-in
value, except for the tags of a kind of declaration that has a section of its own: it has none but
those of the section. So all fields fall back to their built-in values exactly if each such section
gives both lists of tags. -/
theorem partial_text_fills_iff (text : String) (p : PartialSettings) (h : p.WrittenBy text) :
    parse? text = some (p.read {}) ∧ (parse? text = some (p.fill {}) ↔ p.PoliciesWhole) := by
  have hread : parse? text = some (p.read {}) := by
    unfold PartialSettings.WrittenBy at h
    unfold parse?
    split at h
    · rename_i hblank
      rw [if_pos hblank, h]
      rfl
    · rename_i hblank
      obtain ⟨d, hd, hgives⟩ := h
      rw [if_neg hblank]
      exact bind_eq_some hd (d.settings?_of_gives d.root p hgives)
  refine ⟨hread, ?_⟩
  rw [hread, Option.some.injEq, p.read_eq_fill_iff]

theorem threshold_and_function_tags_given :
    let text := "rules:\n  function:\n    required_tags: ['@param']\n    optional_tags: []\n" ++
      "language:\n  threshold: 3\n"
    let p : PartialSettings :=
      { rules := some { function := some ⟨some ["@param"], some []⟩ },
        language := some { threshold := some 3 } }
    p.WrittenBy text ∧ p.PoliciesWhole ∧ parse? text = some (p.fill {}) := by
  intro text p
  have hp : p.WrittenBy text := by decide +kernel
  have hwhole : p.PoliciesWhole := by
    rintro rules ⟨⟩ kind policy hpolicy
    cases kind with
    | classLike => exact absurd hpolicy (by simp [PartialTagPolicies.ofKind])
    | property => exact absurd hpolicy (by simp [PartialTagPolicies.ofKind])
    | function =>
      obtain rfl : _ = policy := Option.some.inj hpolicy
      exact ⟨by simp, by simp⟩
  exact ⟨hp, hwhole, (partial_text_fills_iff text p hp).2.mpr hwhole⟩

/-- The section of classes gives its optional tags only, and no tag is required of a class any
more. -/
theorem class_tags_not_filled :
    let text := "rules:\n  class:\n    optional_tags: ['@since']\n"
    let p : PartialSettings :=
      { rules := some { classLike := some { optionalTags := some ["@since"] } } }
    p.WrittenBy text ∧ parse? text ≠ some (p.fill {}) ∧
      (p.fill {}).rules.classLike.requiredTags = ["@description"] ∧
      (parse? text).map (·.rules.classLike.requiredTags) = some [] := by
  decide +kernel

end Settings

end DocLint
