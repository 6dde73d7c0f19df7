import DocLint.Proofs.PassCondition

/-!
# Problems that are reported twice

A missing parameter tag is reported once: either as a required tag or by the
names of the parameters. A missing return tag is reported twice if its short
spelling is the one that is required, and in no other case.
-/

set_option autoImplicit false

namespace DocLint

theorem DocBlock.mentions_return (b : DocBlock) (h : b.Mentions "@returns") :
    b.Mentions "@return" := by
  have hshort : "@return".toList <:+: "@returns".toList := ⟨[], "s".toList, by decide⟩
  exact hshort.trans h

namespace Settings

theorem mem_missingTags_iff (settings : Settings) (kind : DeclarationKind) (isConstructor : Bool)
    (b : DocBlock) (tag : String) :
    .missingTag tag ∈ settings.missingTags kind isConstructor b ↔
      tag ∈ (settings.rules.ofKind kind).requiredTags ∧ ¬ b.Mentions tag ∧
        ¬ (isConstructor = true ∧ (tag = "@returns" ∨ tag = "@return")) := by
  rw [← isReturnTag_iff, ← DocBlock.contains_iff, missingTags]
  cases isConstructor <;> simp [and_comm]

theorem mem_undocumentedParams_iff (settings : Settings) (s : Signature) (b : DocBlock)
    (name : List Char) :
    .undocumentedParam name ∈ settings.undocumentedParams s b ↔
      settings.checks.paramCoverage = true ∧ name ∈ s.params ∧
        name ∉ documentedParams 0 b.text ∧
        ("@param" ∈ settings.rules.function.requiredTags → b.Mentions "@param") := by
  rw [← DocBlock.contains_iff, undocumentedParams, TagPolicy.requires]
  by_cases hon : settings.checks.paramCoverage = true
  · by_cases htag : "@param" ∈ settings.rules.function.requiredTags
    · cases b.contains "@param" <;> simp [hon, htag]
    · simp [hon, htag]
  · simp [hon]

theorem mem_missingReturn_iff (settings : Settings) (s : Signature) (b : DocBlock)
    (ty : List Char) :
    .missingReturnTag ty ∈ settings.missingReturn s b ↔
      settings.checks.returnTag = true ∧ "@returns" ∉ settings.rules.function.requiredTags ∧
        s.isConstructor = false ∧ s.returnType = some ty ∧ Signature.isValueType ty = true ∧
        ¬ b.Mentions "@return" := by
  cases htype : s.returnType with
  | none => simp [missingReturn, Signature.returnsValue, htype]
  | some ty' =>
    by_cases hshort : b.Mentions "@return"
    · have hcontains := (b.contains_iff "@return").mpr hshort
      simp [missingReturn, hcontains, hshort]
    · have hlong : ¬ b.Mentions "@returns" := fun h => hshort (b.mentions_return h)
      have hneither : b.contains "@return" = false ∧ b.contains "@returns" = false := by
        rw [← Bool.not_eq_true, ← Bool.not_eq_true, b.contains_iff, b.contains_iff]
        exact ⟨hshort, hlong⟩
      by_cases hty : ty = ty'
      · simp [missingReturn, TagPolicy.requires, Signature.returnsValue, htype, hneither, hshort,
          hty, and_assoc]
      · simp [missingReturn, htype, hty, Ne.symm hty]

/-- The findings of a check stand in no other check, so each kind of finding can be looked up in
its own. -/
theorem mem_function_findings_iff (settings : Settings) (lines : List Line) (d : Declaration)
    (b : DocBlock) (hb : findDocBlock lines d.index = .found b) (hk : d.kind = .function) :
    (∀ tag, .missingTag tag ∈ settings.validate lines d ↔
      .missingTag tag ∈ settings.missingTags .function
        (Signature.ofLines lines d.index).isConstructor b) ∧
    (∀ name, .undocumentedParam name ∈ settings.validate lines d ↔
      .undocumentedParam name ∈ settings.undocumentedParams (Signature.ofLines lines d.index) b) ∧
    ∀ ty, .missingReturnTag ty ∈ settings.validate lines d ↔
      .missingReturnTag ty ∈ settings.missingReturn (Signature.ofLines lines d.index) b := by
  obtain ⟨tags, htags⟩ := settings.missingTags_shape .function
    (Signature.ofLines lines d.index).isConstructor b
  obtain ⟨params, hparams⟩ :=
    settings.undocumentedParams_shape (Signature.ofLines lines d.index) b
  obtain ⟨value, hvalue⟩ := settings.missingReturn_shape (Signature.ofLines lines d.index) b
  obtain ⟨words, hwords⟩ := settings.languageFindings_shape b
  rw [settings.validate_function lines d b hb hk, signatureFindings, htags, hparams, hvalue,
    hwords]
  simp

theorem function_of_signature_finding (settings : Settings) (lines : List Line)
    (d : Declaration) (f : Finding) (hf : f ∈ settings.validate lines d)
    (hrule : f.rule = .undocumentedParam ∨ f.rule = .missingReturnTag) :
    d.kind = .function ∧ ∃ b, findDocBlock lines d.index = .found b := by
  cases hb : findDocBlock lines d.index with
  | missing =>
    have hv : settings.validate lines d = [.missingBlock d.kind] := by simp [validate, hb]
    rw [hv, List.mem_singleton] at hf
    simp [hf, Finding.rule] at hrule
  | unopened =>
    have hv : settings.validate lines d = [.unopenedBlock d.kind] := by simp [validate, hb]
    rw [hv, List.mem_singleton] at hf
    simp [hf, Finding.rule] at hrule
  | found b =>
    by_cases hk : d.kind = .function
    · exact ⟨hk, b, rfl⟩
    · obtain ⟨tags, htags⟩ := settings.missingTags_shape d.kind false b
      obtain ⟨words, hwords⟩ := settings.languageFindings_shape b
      rw [settings.validate_other lines d b hb hk, htags, hwords, List.mem_append, List.mem_map,
        List.mem_map] at hf
      rcases hf with ⟨tag, -, rfl⟩ | ⟨found, -, rfl⟩
      · simp [Finding.rule] at hrule
      · simp [Finding.rule] at hrule

/-- The short spelling of the return tag is required and the long one is not, and the block of a
function that returns a value has neither. -/
structure ShortTagMissing (settings : Settings) (lines : List Line) (d : Declaration) : Prop where
  function : d.kind = .function
  checked : settings.checks.returnTag = true
  short : "@return" ∈ settings.rules.function.requiredTags
  long : "@returns" ∉ settings.rules.function.requiredTags
  method : ¬ IsConstructor lines d
  value : ∃ ty, (Signature.ofLines lines d.index).returnType = some ty ∧
    Signature.isValueType ty = true
  block : ∃ b, findDocBlock lines d.index = .found b ∧ ¬ b.Mentions "@return"

theorem param_reported_once (settings : Settings) (lines : List Line) (d : Declaration)
    (name : List Char) (htag : .missingTag "@param" ∈ settings.validate lines d) :
    .undocumentedParam name ∉ settings.validate lines d := by
  intro hname
  obtain ⟨hk, b, hb⟩ := settings.function_of_signature_finding lines d _ hname (Or.inl rfl)
  obtain ⟨htags, hparams, -⟩ := settings.mem_function_findings_iff lines d b hb hk
  rw [htags, mem_missingTags_iff] at htag
  rw [hparams, mem_undocumentedParams_iff] at hname
  exact htag.2.1 (hname.2.2.2 htag.1)

theorem return_reported_twice (settings : Settings) (lines : List Line) (d : Declaration)
    (h : ShortTagMissing settings lines d) :
    .missingTag "@return" ∈ settings.validate lines d ∧
      ∃ ty, .missingReturnTag ty ∈ settings.validate lines d := by
  obtain ⟨b, hb, hmentions⟩ := h.block
  obtain ⟨ty, htype, hvalue⟩ := h.value
  have hcon : (Signature.ofLines lines d.index).isConstructor = false := by
    rw [← Bool.not_eq_true, Signature.isConstructor_iff]
    exact fun hname => h.method ⟨h.function, hname⟩
  obtain ⟨htags, -, hreturns⟩ := settings.mem_function_findings_iff lines d b hb h.function
  constructor
  · rw [htags, mem_missingTags_iff]
    exact ⟨h.short, hmentions, by simp [hcon]⟩
  · refine ⟨ty, ?_⟩
    rw [hreturns, mem_missingReturn_iff]
    exact ⟨h.checked, h.long, hcon, htype, hvalue, hmentions⟩

theorem shortTagMissing_of_reported (settings : Settings) (lines : List Line) (d : Declaration)
    (tag : String) (ty : List Char) (hreturn : tag = "@returns" ∨ tag = "@return")
    (htag : .missingTag tag ∈ settings.validate lines d)
    (htype : .missingReturnTag ty ∈ settings.validate lines d) :
    ShortTagMissing settings lines d := by
  obtain ⟨hk, b, hb⟩ := settings.function_of_signature_finding lines d _ htype (Or.inr rfl)
  obtain ⟨htags, -, hreturns⟩ := settings.mem_function_findings_iff lines d b hb hk
  rw [htags, mem_missingTags_iff] at htag
  rw [hreturns, mem_missingReturn_iff] at htype
  obtain ⟨hon, hlong, hcon, hty, hvalue, hmentions⟩ := htype
  have hshort : tag = "@return" := by
    rcases hreturn with rfl | rfl
    · exact absurd htag.1 hlong
    · rfl
  have hmethod : ¬ IsConstructor lines d := by
    intro h
    rw [(Signature.isConstructor_iff _).mpr h.2] at hcon
    cases hcon
  exact ⟨hk, hon, hshort ▸ htag.1, hlong, hmethod, ⟨ty, hty, hvalue⟩, b, hb, hmentions⟩

/-- A missing parameter tag is never reported together with a parameter that has none. A missing
return tag is reported both as a required tag and by the return type if and only if its short
spelling is required, without the long one, and is missing. -/
theorem reported_twice_iff (settings : Settings) (lines : List Line) (d : Declaration) :
    ¬ (.missingTag "@param" ∈ settings.validate lines d ∧
      ∃ name, .undocumentedParam name ∈ settings.validate lines d) ∧
    (((∃ tag, (tag = "@returns" ∨ tag = "@return") ∧
        .missingTag tag ∈ settings.validate lines d) ∧
      ∃ ty, .missingReturnTag ty ∈ settings.validate lines d) ↔
      ShortTagMissing settings lines d) := by
  refine ⟨?_, ?_, ?_⟩
  · intro ⟨htag, name, hname⟩
    exact settings.param_reported_once lines d name htag hname
  · intro ⟨⟨tag, hreturn, htag⟩, ty, htype⟩
    exact settings.shortTagMissing_of_reported lines d tag ty hreturn htag htype
  · intro h
    obtain ⟨htag, hvalue⟩ := settings.return_reported_twice lines d h
    exact ⟨⟨"@return", Or.inr rfl, htag⟩, hvalue⟩

def shortReturnSettings : Settings :=
  { rules := { function := ⟨["@param", "@return"], []⟩ }, language := { enforceEnglish := false } }

def undescribedResult : List Line :=
  ["/**".toList, " * Finds a user.".toList, " * @param id - key".toList, " */".toList,
    "find(id: string): User \x7b".toList]

/-- One missing tag gives two findings. -/
theorem short_return_tag_reported_twice :
    shortReturnSettings.validate undescribedResult ⟨4, .function⟩ =
      [.missingTag "@return", .missingReturnTag "User".toList] := by
  decide +kernel

end Settings

end DocLint
