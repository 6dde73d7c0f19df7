import DocLint.Validation

/-!
# When a declaration passes

A declaration has no findings exactly if it has a documentation block and the
block meets each of the conditions below. The reports on parameters and on the
return value are left out where the missing tag is reported already, so they
are left out only of declarations that fail.
-/

set_option autoImplicit false

namespace DocLint

theorem Text.occursIn_iff (needle text : List Char) :
    Text.occursIn needle text = true ↔ needle <:+: text := by
  induction text with
  | nil => simp [Text.occursIn]
  | cons c cs ih =>
    rw [Text.occursIn, Bool.or_eq_true, ih, List.isPrefixOf_iff_prefix, List.infix_cons_iff]

namespace DocBlock

def Mentions (b : DocBlock) (text : String) : Prop := text.toList <:+: b.text

theorem contains_iff (b : DocBlock) (text : String) :
    b.contains text = true ↔ b.Mentions text :=
  Text.occursIn_iff text.toList b.text

end DocBlock

def IsConstructor (lines : List Line) (d : Declaration) : Prop :=
  d.kind = .function ∧ (Signature.ofLines lines d.index).name = some "constructor".toList

/-- What the block of a declaration has to say under the given settings. -/
structure Documents (settings : Settings) (lines : List Line) (d : Declaration) (b : DocBlock) :
    Prop where
  tags : ∀ tag ∈ (settings.rules.ofKind d.kind).requiredTags,
    b.Mentions tag ∨ (IsConstructor lines d ∧ (tag = "@returns" ∨ tag = "@return"))
  params : d.kind = .function → settings.checks.paramCoverage = true →
    ∀ name ∈ (Signature.ofLines lines d.index).params, name ∈ documentedParams 0 b.text
  returns : d.kind = .function → settings.checks.returnTag = true → ¬ IsConstructor lines d →
    ∀ ty, (Signature.ofLines lines d.index).returnType = some ty →
      Signature.isValueType ty = true → b.Mentions "@return"
  english : settings.language.enforceEnglish = true →
    (Prose.foundWords settings.language b.text).length < settings.language.threshold

theorem isReturnTag_iff (tag : String) :
    isReturnTag tag = true ↔ tag = "@returns" ∨ tag = "@return" := by
  simp [isReturnTag]

theorem Signature.isConstructor_iff (s : Signature) :
    s.isConstructor = true ↔ s.name = some "constructor".toList := by
  simp [Signature.isConstructor]

theorem Signature.returnsValue_iff (s : Signature) :
    s.returnsValue = true ↔ ∃ ty, s.returnType = some ty ∧ Signature.isValueType ty = true := by
  rw [Signature.returnsValue]
  cases s.returnType <;> simp

namespace Settings

theorem missingTags_eq_nil_iff (settings : Settings) (kind : DeclarationKind)
    (isConstructor : Bool) (b : DocBlock) :
    settings.missingTags kind isConstructor b = [] ↔
      ∀ tag ∈ (settings.rules.ofKind kind).requiredTags,
        b.Mentions tag ∨ (isConstructor = true ∧ (tag = "@returns" ∨ tag = "@return")) := by
  simp only [missingTags, List.map_eq_nil_iff, List.filter_eq_nil_iff, Bool.and_eq_true,
    Bool.not_eq_true', not_and, Bool.not_eq_false, ← isReturnTag_iff, ← DocBlock.contains_iff]
  apply forall₂_congr
  intro tag _
  cases isConstructor <;> cases isReturnTag tag <;> simp

/-- Without a parameter tag the report on parameters is left out only if the tag is required, and
then the tag is reported. -/
theorem undocumentedParams_eq_nil_iff (settings : Settings) (s : Signature) (b : DocBlock)
    (htag : settings.rules.function.requires "@param" = true → b.Mentions "@param") :
    settings.undocumentedParams s b = [] ↔
      (settings.checks.paramCoverage = true →
        ∀ name ∈ s.params, name ∈ documentedParams 0 b.text) := by
  have hreported : (settings.rules.function.requires "@param" && !b.contains "@param") = false := by
    cases hr : settings.rules.function.requires "@param" with
    | false => rfl
    | true => simp [(b.contains_iff "@param").mpr (htag hr)]
  rw [undocumentedParams, hreported]
  cases settings.checks.paramCoverage <;> simp

theorem missingReturn_eq_nil_iff (settings : Settings) (s : Signature) (b : DocBlock)
    (htag : settings.rules.function.requires "@returns" = true →
      s.isConstructor = true ∨ b.Mentions "@returns") :
    settings.missingReturn s b = [] ↔
      (settings.checks.returnTag = true → s.isConstructor = false → s.returnsValue = true →
        b.Mentions "@return") := by
  have hreported : s.isConstructor = false →
      (settings.rules.function.requires "@returns" && !b.contains "@returns") = false := by
    intro hc
    cases hr : settings.rules.function.requires "@returns" with
    | false => rfl
    | true =>
      have hm := (htag hr).resolve_left (by simp [hc])
      simp [(b.contains_iff "@returns").mpr hm]
  rw [missingReturn, ← DocBlock.contains_iff]
  cases hc : s.isConstructor with
  | true => simp
  | false =>
    rw [hreported hc]
    cases settings.checks.returnTag <;> cases s.returnsValue <;> cases b.contains "@return" <;> simp

theorem languageFindings_eq_nil_iff (settings : Settings) (b : DocBlock) :
    settings.languageFindings b = [] ↔
      (settings.language.enforceEnglish = true →
        (Prose.foundWords settings.language b.text).length < settings.language.threshold) := by
  rw [languageFindings]
  cases settings.language.enforceEnglish with
  | false => simp
  | true =>
    simp only [if_true, Prose.detect, true_implies]
    by_cases h : settings.language.threshold ≤ (Prose.foundWords settings.language b.text).length
    · simp [h]
    · have hlt := Nat.lt_of_not_le h
      simp [h, hlt]

theorem mentions_of_required (settings : Settings) (isConstructor : Bool) (b : DocBlock)
    (tag : String) (hnone : settings.missingTags .function isConstructor b = [])
    (hr : settings.rules.function.requires tag = true) :
    b.Mentions tag ∨ (isConstructor = true ∧ (tag = "@returns" ∨ tag = "@return")) :=
  (settings.missingTags_eq_nil_iff .function isConstructor b).mp hnone tag
    (List.contains_iff_mem.mp hr)

theorem signatureFindings_eq_nil_iff (settings : Settings) (s : Signature) (b : DocBlock)
    (hnone : settings.missingTags .function s.isConstructor b = []) :
    settings.signatureFindings (some s) b = [] ↔
      (settings.checks.paramCoverage = true →
        ∀ name ∈ s.params, name ∈ documentedParams 0 b.text) ∧
      (settings.checks.returnTag = true → s.isConstructor = false → s.returnsValue = true →
        b.Mentions "@return") := by
  have hparam : settings.rules.function.requires "@param" = true → b.Mentions "@param" := by
    intro hr
    rcases settings.mentions_of_required s.isConstructor b "@param" hnone hr with hm | ⟨-, htag⟩
    · exact hm
    · exact absurd htag (by decide)
  have hreturn : settings.rules.function.requires "@returns" = true →
      s.isConstructor = true ∨ b.Mentions "@returns" := by
    intro hr
    rcases settings.mentions_of_required s.isConstructor b "@returns" hnone hr with hm | ⟨hc, -⟩
    · exact Or.inr hm
    · exact Or.inl hc
  rw [signatureFindings, List.append_eq_nil_iff, settings.undocumentedParams_eq_nil_iff s b hparam,
    settings.missingReturn_eq_nil_iff s b hreturn]

theorem validate_function (settings : Settings) (lines : List Line) (d : Declaration)
    (b : DocBlock) (hb : findDocBlock lines d.index = .found b) (hk : d.kind = .function) :
    settings.validate lines d =
      settings.missingTags .function (Signature.ofLines lines d.index).isConstructor b ++
        settings.signatureFindings (some (Signature.ofLines lines d.index)) b ++
        settings.languageFindings b := by
  simp [validate, hb, hk]

theorem validate_other (settings : Settings) (lines : List Line) (d : Declaration)
    (b : DocBlock) (hb : findDocBlock lines d.index = .found b) (hk : d.kind ≠ .function) :
    settings.validate lines d =
      settings.missingTags d.kind false b ++ settings.languageFindings b := by
  simp [validate, hb, hk, signatureFindings]

theorem function_passes_iff (settings : Settings) (lines : List Line) (d : Declaration)
    (b : DocBlock) (hb : findDocBlock lines d.index = .found b) (hk : d.kind = .function) :
    settings.validate lines d = [] ↔ Documents settings lines d b := by
  have hcon : (Signature.ofLines lines d.index).isConstructor = true ↔ IsConstructor lines d := by
    rw [Signature.isConstructor_iff, IsConstructor, and_iff_right hk]
  have hnot : (Signature.ofLines lines d.index).isConstructor = false ↔
      ¬ IsConstructor lines d := by
    rw [← hcon, Bool.not_eq_true]
  rw [settings.validate_function lines d b hb hk, List.append_eq_nil_iff,
    List.append_eq_nil_iff]
  constructor
  · rintro ⟨⟨htags, hsig⟩, hlang⟩
    obtain ⟨hparams, hreturns⟩ := (settings.signatureFindings_eq_nil_iff _ b htags).mp hsig
    rw [missingTags_eq_nil_iff, hcon, ← hk] at htags
    rw [languageFindings_eq_nil_iff] at hlang
    refine ⟨htags, fun _ => hparams, ?_, hlang⟩
    intro _ hon hc ty hty hvalue
    exact hreturns hon (hnot.mpr hc) ((Signature.returnsValue_iff _).mpr ⟨ty, hty, hvalue⟩)
  · intro h
    have htags : settings.missingTags .function
        (Signature.ofLines lines d.index).isConstructor b = [] := by
      rw [missingTags_eq_nil_iff, hcon, ← hk]
      exact h.tags
    refine ⟨⟨htags, ?_⟩, (settings.languageFindings_eq_nil_iff b).mpr h.english⟩
    rw [settings.signatureFindings_eq_nil_iff _ b htags]
    refine ⟨h.params hk, ?_⟩
    intro hon hc hvalue
    obtain ⟨ty, hty, hv⟩ := (Signature.returnsValue_iff _).mp hvalue
    exact h.returns hk hon (hnot.mp hc) ty hty hv

theorem other_passes_iff (settings : Settings) (lines : List Line) (d : Declaration)
    (b : DocBlock) (hb : findDocBlock lines d.index = .found b) (hk : d.kind ≠ .function) :
    settings.validate lines d = [] ↔ Documents settings lines d b := by
  have hcon : ¬ IsConstructor lines d := fun h => hk h.1
  rw [settings.validate_other lines d b hb hk, List.append_eq_nil_iff, missingTags_eq_nil_iff,
    languageFindings_eq_nil_iff]
  constructor
  · rintro ⟨htags, hlang⟩
    refine ⟨?_, fun hf => absurd hf hk, fun hf => absurd hf hk, hlang⟩
    intro tag htag
    exact Or.inl ((htags tag htag).resolve_right (by simp))
  · intro h
    refine ⟨?_, h.english⟩
    intro tag htag
    exact Or.inl ((h.tags tag htag).resolve_right (fun hc => hcon hc.1))

/-- Findings on a block: missing tags, then parameters, then at most one on the return value and at
most one on the language. -/
def BlockFindings (fs : List Finding) : Prop :=
  ∃ (tags : List String) (params : List (List Char)) (value : Option (List Char))
    (words : Option (List (List Char))),
    fs = tags.map .missingTag ++ params.map .undocumentedParam ++
      value.toList.map .missingReturnTag ++ words.toList.map .nonEnglish

theorem missingTags_shape (settings : Settings) (kind : DeclarationKind) (isConstructor : Bool)
    (b : DocBlock) :
    ∃ tags : List String, settings.missingTags kind isConstructor b = tags.map .missingTag :=
  ⟨_, rfl⟩

theorem undocumentedParams_shape (settings : Settings) (s : Signature) (b : DocBlock) :
    ∃ params : List (List Char),
      settings.undocumentedParams s b = params.map .undocumentedParam := by
  rw [undocumentedParams]
  split
  · exact ⟨_, rfl⟩
  · exact ⟨[], rfl⟩

theorem missingReturn_shape (settings : Settings) (s : Signature) (b : DocBlock) :
    ∃ value : Option (List Char),
      settings.missingReturn s b = value.toList.map .missingReturnTag := by
  rw [missingReturn]
  split
  · exact ⟨some _, rfl⟩
  · exact ⟨none, rfl⟩

theorem languageFindings_shape (settings : Settings) (b : DocBlock) :
    ∃ words : Option (List (List Char)),
      settings.languageFindings b = words.toList.map .nonEnglish := by
  rw [languageFindings]
  split
  · cases Prose.detect settings.language b.text with
    | some words => exact ⟨some words, rfl⟩
    | none => exact ⟨none, rfl⟩
  · exact ⟨none, rfl⟩

theorem blockFindings_of_found (settings : Settings) (lines : List Line) (d : Declaration)
    (b : DocBlock) (hb : findDocBlock lines d.index = .found b) :
    BlockFindings (settings.validate lines d) := by
  obtain ⟨words, hwords⟩ := settings.languageFindings_shape b
  by_cases hk : d.kind = .function
  · obtain ⟨tags, htags⟩ := settings.missingTags_shape .function
      (Signature.ofLines lines d.index).isConstructor b
    obtain ⟨params, hparams⟩ :=
      settings.undocumentedParams_shape (Signature.ofLines lines d.index) b
    obtain ⟨value, hvalue⟩ := settings.missingReturn_shape (Signature.ofLines lines d.index) b
    refine ⟨tags, params, value, words, ?_⟩
    rw [settings.validate_function lines d b hb hk, signatureFindings, htags, hparams, hvalue,
      hwords, ← List.append_assoc]
  · obtain ⟨tags, htags⟩ := settings.missingTags_shape d.kind false b
    refine ⟨tags, [], none, words, ?_⟩
    rw [settings.validate_other lines d b hb hk, htags, hwords]
    simp

/-- A declaration has no findings if and only if it has a block that says all it has to say. In
any case the findings are that there is no block, that the block is not opened, or findings on the
block in their order. -/
theorem passes_iff_documented (settings : Settings) (lines : List Line) (d : Declaration) :
    (settings.validate lines d = [] ↔
      ∃ b, findDocBlock lines d.index = .found b ∧ Documents settings lines d b) ∧
    (settings.validate lines d = [.missingBlock d.kind] ∨
      settings.validate lines d = [.unopenedBlock d.kind] ∨
      BlockFindings (settings.validate lines d)) := by
  cases hb : findDocBlock lines d.index with
  | missing =>
    have hv : settings.validate lines d = [.missingBlock d.kind] := by simp [validate, hb]
    exact ⟨by simp [hv], Or.inl hv⟩
  | unopened =>
    have hv : settings.validate lines d = [.unopenedBlock d.kind] := by simp [validate, hb]
    exact ⟨by simp [hv], Or.inr (Or.inl hv)⟩
  | found b =>
    have hpass : settings.validate lines d = [] ↔ Documents settings lines d b := by
      by_cases hk : d.kind = .function
      · exact settings.function_passes_iff lines d b hb hk
      · exact settings.other_passes_iff lines d b hb hk
    refine ⟨?_, Or.inr (Or.inr (settings.blockFindings_of_found lines d b hb))⟩
    simp [hpass]

end Settings

end DocLint
