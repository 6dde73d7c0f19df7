import DocLint.Proofs.Blocks
import DocLint.Proofs.PassCondition
import DocLint.Proofs.WrittenSignature

/-!
# Complete tags

The findings on a function whose documentation is written line by line, below
nothing but its description and its tags: the tags that are left out, and the
parameters that no tag names.
-/

set_option autoImplicit false

namespace DocLint

theorem lineAt_append (before lines : List Line) (i : Nat) :
    lineAt (before ++ lines) (before.length + i) = lineAt lines i := by
  rw [lineAt, List.getD_eq_getElem?_getD, List.getElem?_append_right (Nat.le_add_right _ _),
    Nat.add_sub_cancel_left, ← List.getD_eq_getElem?_getD, ← lineAt]

theorem lineAt_block (inner rest : List Line) (closer : Line) (i : Nat) (hi : i ≤ inner.length) :
    (i < inner.length ∧ lineAt (inner ++ closer :: rest) i ∈ inner) ∨
      (i = inner.length ∧ lineAt (inner ++ closer :: rest) i = closer) := by
  rcases Nat.lt_or_eq_of_le hi with hlt | rfl
  · left
    refine ⟨hlt, ?_⟩
    rw [lineAt, List.getD_eq_getElem?_getD, List.getElem?_append_left hlt]
    simp [hlt]
  · right
    refine ⟨rfl, ?_⟩
    simp [lineAt]

theorem findDocBlock_lines (before inner rest : List Line) (opener closer : Line)
    (hdoc : opener.opensDoc = true) (hopener : opener.closesComment = false)
    (hinner : ∀ line ∈ inner, line.opensComment = false ∧ line.closesComment = false)
    (hclose : closer.closesComment = true) (hcloser : closer.opensComment = false) :
    findDocBlock (before ++ (opener :: (inner ++ closer :: rest)))
      (before.length + (inner.length + 2)) =
      .found ⟨before.length, before.length + (inner.length + 1),
        Text.join ['\n'] (opener :: (inner ++ [closer]))⟩ := by
  have hlines : before ++ (opener :: (inner ++ closer :: rest)) =
      before ++ (opener :: (inner ++ [closer])) ++ rest := by simp
  have hat (i : Nat) : lineAt (before ++ (opener :: (inner ++ closer :: rest)))
      (before.length + (i + 1)) = lineAt (inner ++ closer :: rest) i := by
    rw [lineAt_append]
    rfl
  have hfirst : lineAt (before ++ (opener :: (inner ++ closer :: rest))) before.length = opener :=
    lineAt_append before _ 0
  rw [findDocBlock_eq_found_iff _ _ _ (by simp)]
  refine ⟨⟨⟨by simp, ?_, ?_, ?_⟩, ?_⟩, standsAbove_self _ _, ?_⟩
  · rw [hfirst, hdoc]
  · intro k hk hle
    dsimp only at hk hle
    obtain ⟨i, rfl⟩ := Nat.exists_eq_add_of_lt hk
    rw [Nat.add_assoc, hat]
    rcases lineAt_block inner rest closer i (by omega) with ⟨-, hmem⟩ | ⟨-, hlast⟩
    · exact (hinner _ hmem).1
    · rw [hlast, hcloser]
  · intro k hk hlt
    dsimp only at hk hlt
    rcases Nat.lt_or_eq_of_le hk with hk | rfl
    · obtain ⟨i, rfl⟩ := Nat.exists_eq_add_of_lt hk
      rw [Nat.add_assoc, hat]
      rcases lineAt_block inner rest closer i (by omega) with ⟨-, hmem⟩ | ⟨heq, -⟩
      · exact (hinner _ hmem).2
      · omega
    · rw [hfirst, hopener]
  · rcases lineAt_block inner rest closer inner.length (Nat.le_refl _) with ⟨hlt, -⟩ | ⟨-, hlast⟩
    · omega
    · rw [hat, hlast, hclose]
  · have hlength : before.length + (inner.length + 1) + 1 =
        (before ++ (opener :: (inner ++ [closer]))).length := by simp [Nat.add_assoc]
    rw [linesBetween, hlines, hlength, List.take_left, List.drop_left]

theorem Line.infix_of_closesComment (line : Line) (h : line.closesComment = true) :
    "*/".toList <:+: line := by
  have hprefix : Text.trimEnd line <+: line := by
    rw [Text.trimEnd, ← List.reverse_suffix, List.reverse_reverse]
    exact List.dropWhile_suffix _
  rw [Line.closesComment, List.isSuffixOf_iff_suffix] at h
  exact h.isInfix.trans hprefix.isInfix

theorem infix_append_of_not_mem (c : Char) (cs a b : List Char) (h : c ∉ a) :
    (c :: cs) <:+: a ++ b ↔ (c :: cs) <:+: b := by
  induction a with
  | nil => rfl
  | cons d a ih =>
    rw [List.mem_cons, not_or] at h
    rw [List.cons_append, List.infix_cons_iff, ih h.2]
    simp [List.cons_prefix_cons, h.1]

/-- Behind a plain text stand lines with a tag each, and a plain text again. -/
def taggedText (plain : List Char) (tags : List (List Char)) (tail : List Char) : List Char :=
  plain ++ tags.flatMap ("\n * @".toList ++ ·) ++ tail

theorem taggedText_cons (plain tag tail : List Char) (tags : List (List Char)) :
    taggedText plain (tag :: tags) tail =
      plain ++ "\n * ".toList ++ '@' :: taggedText tag tags tail := by
  simp [taggedText]

theorem taggedText_nil (plain tail : List Char) : taggedText plain [] tail = plain ++ tail := by
  simp [taggedText]

theorem taggedText_append (a plain tail : List Char) (tags : List (List Char)) :
    taggedText (a ++ plain) tags tail = a ++ taggedText plain tags tail := by
  simp [taggedText]

theorem infix_taggedText_iff (word plain tail : List Char) (tags : List (List Char))
    (hplain : '@' ∉ plain) (htail : '@' ∉ tail)
    (htags : ∀ tag ∈ tags, '@' ∉ tag ∧ word.length ≤ tag.length) :
    ('@' :: word) <:+: taggedText plain tags tail ↔ ∃ tag ∈ tags, word <+: tag := by
  induction tags generalizing plain with
  | nil =>
    have hnone : '@' ∉ plain ++ tail := by simp [hplain, htail]
    have hnot : ¬ ('@' :: word) <:+: plain ++ tail := fun h =>
      hnone (h.subset List.mem_cons_self)
    simpa [taggedText] using hnot
  | cons tag tags ih =>
    obtain ⟨htag, hlength⟩ := htags tag List.mem_cons_self
    have hfirst : word <+: taggedText tag tags tail ↔ word <+: tag := by
      constructor
      · intro h
        refine List.prefix_of_prefix_length_le h ?_ hlength
        rw [taggedText, List.append_assoc]
        exact List.prefix_append _ _
      · intro h
        rw [taggedText, List.append_assoc]
        exact h.trans (List.prefix_append _ _)
    rw [taggedText_cons, infix_append_of_not_mem '@' word _ _ (by simp [hplain]),
      List.infix_cons_iff, List.cons_prefix_cons,
      ih tag htag fun t ht => htags t (List.mem_cons_of_mem tag ht), hfirst]
    simp

theorem paramTag?_of_ne (c : Char) (cs : List Char) (h : c ≠ '@') : paramTag? (c :: cs) = none := by
  have hstrip : Signature.afterKeyword? "@param" (c :: cs) = none := by
    simp [Signature.afterKeyword?, Text.strip?, Ne.symm h]
  rw [paramTag?, hstrip]

theorem documentedParams_append (a b : List Char) (h : '@' ∉ a) :
    documentedParams 0 (a ++ b) = documentedParams 0 b := by
  induction a with
  | nil => rfl
  | cons c a ih =>
    rw [List.mem_cons, not_or] at h
    rw [List.cons_append, documentedParams, paramTag?_of_ne c _ (Ne.symm h.1)]
    exact ih h.2

theorem documentedParams_skip (a b : List Char) :
    documentedParams a.length (a ++ b) = documentedParams 0 b := by
  induction a with
  | nil => rfl
  | cons c a ih => exact ih

theorem paramTag?_param (name rest : List Char) (h : Text.isName name = true) :
    paramTag? ('@' :: ("param ".toList ++ name ++ ' ' :: rest)) = some (name, name.length + 7) := by
  have hname : Text.name? (name ++ ' ' :: rest) = some (name, ' ' :: rest) :=
    Text.name?_isName name (' ' :: rest) h rfl
  cases name with
  | nil => simp [Text.isName] at h
  | cons c cs =>
    have hblank : Text.isBlank c = false :=
      Text.not_blank_of_nameChar c (Text.nameChar_of_isName _ h c List.mem_cons_self)
    have hbrace : c ≠ '{' := Text.ne_of_isName c '{' cs h (by decide)
    have hbracket : c ≠ '[' := Text.ne_of_isName c '[' cs h (by decide)
    have hkeyword : Signature.afterKeyword? "@param"
        ('@' :: ("param ".toList ++ (c :: cs) ++ ' ' :: rest)) =
          some (c :: (cs ++ ' ' :: rest)) := by
      have hself := Signature.afterKeyword?_self "@param" (c :: (cs ++ ' ' :: rest))
      rw [Text.trimStart_eq_self (c :: (cs ++ ' ' :: rest)) hblank] at hself
      simpa using hself
    rw [List.cons_append] at hname
    rw [paramTag?, hkeyword]
    simp [hbrace, hbracket, hname]
    omega

theorem documentedParams_param (name rest : List Char) (h : Text.isName name = true) :
    documentedParams 0 ('@' :: ("param ".toList ++ name ++ ' ' :: rest)) =
      name :: documentedParams 0 (' ' :: rest) := by
  have hlength : name.length + 7 - 1 = ("param ".toList ++ name).length := by
    simp
  rw [documentedParams, paramTag?_param name rest h]
  dsimp only
  rw [hlength, documentedParams_skip]

theorem documentedParams_returns (rest : List Char) :
    documentedParams 0 ('@' :: ("returns ".toList ++ rest)) = documentedParams 0 rest := by
  have htag : paramTag? ('@' :: ("returns ".toList ++ rest)) = none := by
    simp [paramTag?, Signature.afterKeyword?, Text.strip?]
  rw [documentedParams, htag]
  exact documentedParams_append "returns ".toList rest (by decide)

/-- A text that neither has a tag nor ends a comment. -/
structure FreeText where
  text : List Char
  noTag : '@' ∉ text
  noEnd : ¬ "*/".toList <:+: text

structure ParamDoc where
  name : List Char
  free : FreeText
  named : Text.isName name = true

/-- The documentation of a function, where that of the result may be left out. -/
structure FunctionDoc where
  description : FreeText
  params : List ParamDoc
  returns : Option FreeText

namespace FunctionDoc

def paramLine (d : ParamDoc) : Line :=
  " * @param ".toList ++ d.name ++ " - ".toList ++ d.free.text

def returnLine (t : FreeText) : Line := " * @returns ".toList ++ t.text

def lines (d : FunctionDoc) : List Line :=
  "/**".toList :: (" * ".toList ++ d.description.text) :: d.params.map paramLine ++
    d.returns.toList.map returnLine ++ [" */".toList]

def paramTag (d : ParamDoc) : List Char := "param ".toList ++ d.name ++ " - ".toList ++ d.free.text

def returnTag (t : FreeText) : List Char := "returns ".toList ++ t.text

def tags (d : FunctionDoc) : List (List Char) :=
  d.params.map paramTag ++ d.returns.toList.map returnTag

def inner (d : FunctionDoc) : List Line :=
  (" * ".toList ++ d.description.text) :: d.tags.map (" * @".toList ++ ·)

theorem paramLine_eq (d : ParamDoc) : paramLine d = " * @".toList ++ paramTag d := by
  have hsplit : " * @param ".toList = " * @".toList ++ "param ".toList := by decide
  show " * @param ".toList ++ d.name ++ " - ".toList ++ d.free.text =
    " * @".toList ++ ("param ".toList ++ d.name ++ " - ".toList ++ d.free.text)
  rw [hsplit]
  simp only [List.append_assoc]

theorem returnLine_eq (t : FreeText) : returnLine t = " * @".toList ++ returnTag t := by
  have hsplit : " * @returns ".toList = " * @".toList ++ "returns ".toList := by decide
  show " * @returns ".toList ++ t.text = " * @".toList ++ ("returns ".toList ++ t.text)
  rw [hsplit, List.append_assoc]

theorem lines_eq (d : FunctionDoc) : d.lines = "/**".toList :: (d.inner ++ [" */".toList]) := by
  rw [lines, inner, tags, List.map_append, List.map_map, List.map_map,
    List.map_congr_left fun p _ => paramLine_eq p, List.map_congr_left fun t _ => returnLine_eq t]
  simp only [List.cons_append, List.append_assoc, Function.comp_def]

theorem starLine (content : List Char) (h : ¬ "*/".toList <:+: content) :
    Line.opensComment (" * ".toList ++ content) = false ∧
      Line.closesComment (" * ".toList ++ content) = false := by
  constructor
  · have hstart : Text.trimStart (" * ".toList ++ content) = '*' :: ' ' :: content := rfl
    have hstar : Text.isBlank '*' = false := rfl
    have htrim : Text.trim (" * ".toList ++ content) = '*' :: Text.trimEnd (' ' :: content) := by
      rw [Text.trim, hstart, Text.trimEnd_cons]
      simp [hstar]
    rw [Line.opensComment, htrim]
    rfl
  · rw [← Bool.not_eq_true]
    intro hclose
    have hinfix : ['*', '/'] <:+: ' ' :: '*' :: ' ' :: content :=
      Line.infix_of_closesComment _ hclose
    exact h (by simpa [List.infix_cons_iff, List.cons_prefix_cons] using hinfix)

theorem tag_shape (d : FunctionDoc) (tag : List Char) (h : tag ∈ d.tags) :
    ∃ (head : List Char) (t : FreeText), tag = head ++ t.text ∧ '@' ∉ head ∧ '*' ∉ head ∧
      7 ≤ head.length := by
  rw [tags, List.mem_append, List.mem_map, List.mem_map] at h
  rcases h with ⟨p, -, rfl⟩ | ⟨t, -, rfl⟩
  · refine ⟨"param ".toList ++ p.name ++ " - ".toList, p.free, rfl, ?_, ?_, by simp⟩
    · simp [Text.not_mem_of_isName p.name '@' p.named (by decide)]
    · simp [Text.not_mem_of_isName p.name '*' p.named (by decide)]
  · exact ⟨"returns ".toList, t, rfl, by decide, by decide, by decide⟩

theorem inner_lines (d : FunctionDoc) (line : Line) (h : line ∈ d.inner) :
    line.opensComment = false ∧ line.closesComment = false := by
  rw [inner, List.mem_cons, List.mem_map] at h
  rcases h with rfl | ⟨tag, htag, rfl⟩
  · exact starLine _ d.description.noEnd
  · obtain ⟨head, t, rfl, -, hstar, -⟩ := d.tag_shape tag htag
    apply starLine ('@' :: (head ++ t.text))
    rw [← List.cons_append]
    intro hend
    exact t.noEnd ((infix_append_of_not_mem '*' ['/'] _ t.text (by simp [hstar])).mp hend)

theorem text_eq (d : FunctionDoc) :
    Text.join ['\n'] d.lines =
      taggedText ("/**\n * ".toList ++ d.description.text) d.tags "\n */".toList := by
  rw [lines_eq, Text.join_cons, inner]
  simp [taggedText, List.flatMap_map]

theorem infix_text_iff (d : FunctionDoc) (word : List Char) (h : word.length ≤ 7) :
    ('@' :: word) <:+: Text.join ['\n'] d.lines ↔ ∃ tag ∈ d.tags, word <+: tag := by
  rw [text_eq]
  apply infix_taggedText_iff
  · simp [d.description.noTag]
  · decide
  · intro tag htag
    obtain ⟨head, t, rfl, hat, -, hlength⟩ := d.tag_shape tag htag
    refine ⟨by simp [hat, t.noTag], ?_⟩
    rw [List.length_append]
    omega

theorem documentedParams_plain (plain : List Char) (h : '@' ∉ plain) :
    documentedParams 0 plain = [] := by
  have happend := documentedParams_append plain [] h
  rw [List.append_nil] at happend
  exact happend

theorem documentedParams_tags (ps : List ParamDoc) (t : Option FreeText) (plain tail : List Char)
    (hplain : '@' ∉ plain) (htail : '@' ∉ tail) :
    documentedParams 0 (taggedText plain (ps.map paramTag ++ t.toList.map returnTag) tail) =
      ps.map ParamDoc.name := by
  induction ps generalizing plain with
  | nil =>
    cases t with
    | none =>
      apply documentedParams_plain
      show '@' ∉ taggedText plain [] tail
      simp [taggedText_nil, hplain, htail]
    | some t =>
      have htext : taggedText (returnTag t) [] tail = "returns ".toList ++ (t.text ++ tail) := by
        show taggedText ("returns ".toList ++ t.text) [] tail = _
        rw [taggedText_append, taggedText_nil]
      show documentedParams 0 (taggedText plain [returnTag t] tail) = []
      rw [taggedText_cons, documentedParams_append _ _ (by simp [hplain]), htext,
        documentedParams_returns]
      apply documentedParams_plain
      simp [t.noTag, htail]
  | cons p ps ih =>
    have htext (rest : List (List Char)) : taggedText (paramTag p) rest tail =
        "param ".toList ++ p.name ++ ' ' :: taggedText ("- ".toList ++ p.free.text) rest tail := by
      show taggedText ("param ".toList ++ p.name ++ " - ".toList ++ p.free.text) rest tail = _
      rw [List.append_assoc, taggedText_append]
      rfl
    have hrest := ih (" - ".toList ++ p.free.text) (by simp [p.free.noTag])
    rw [List.map_cons, List.cons_append, taggedText_cons,
      documentedParams_append _ _ (by simp [hplain]), htext, documentedParams_param _ _ p.named]
    exact congrArg (p.name :: ·) hrest

theorem documentedParams_text (d : FunctionDoc) :
    documentedParams 0 (Text.join ['\n'] d.lines) = d.params.map ParamDoc.name := by
  rw [text_eq, tags]
  apply documentedParams_tags
  · simp [d.description.noTag]
  · decide

theorem prefix_paramTag (p : ParamDoc) :
    "param".toList <+: paramTag p ∧ ¬ "returns".toList <+: paramTag p := by
  have htag : paramTag p =
      "param".toList ++ ' ' :: (p.name ++ (" - ".toList ++ p.free.text)) := by
    show "param ".toList ++ p.name ++ " - ".toList ++ p.free.text = _
    rw [List.append_assoc, List.append_assoc]
    rfl
  rw [htag]
  exact ⟨List.prefix_append _ _, fun h => absurd (List.cons_prefix_cons.mp h).1 (by decide)⟩

theorem prefix_returnTag (t : FreeText) :
    "returns".toList <+: returnTag t ∧ ¬ "param".toList <+: returnTag t := by
  have htag : returnTag t = "returns".toList ++ ' ' :: t.text := rfl
  rw [htag]
  exact ⟨List.prefix_append _ _, fun h => absurd (List.cons_prefix_cons.mp h).1 (by decide)⟩

theorem mentions_param_iff (d : FunctionDoc) :
    "@param".toList <:+: Text.join ['\n'] d.lines ↔ d.params ≠ [] := by
  rw [show "@param".toList = '@' :: "param".toList from rfl, d.infix_text_iff _ (by decide), tags]
  simp only [List.mem_append, List.mem_map]
  constructor
  · rintro ⟨tag, ⟨p, hp, -⟩ | ⟨t, -, rfl⟩, htag⟩
    · exact List.ne_nil_of_mem hp
    · exact ((prefix_returnTag t).2 htag).elim
  · intro hne
    obtain ⟨p, ps, hps⟩ := List.exists_cons_of_ne_nil hne
    exact ⟨paramTag p, Or.inl ⟨p, by simp [hps], rfl⟩, (prefix_paramTag p).1⟩

theorem mentions_returns_iff (d : FunctionDoc) :
    "@returns".toList <:+: Text.join ['\n'] d.lines ↔ d.returns ≠ none := by
  rw [show "@returns".toList = '@' :: "returns".toList from rfl, d.infix_text_iff _ (by decide),
    tags]
  simp only [List.mem_append, List.mem_map, Option.mem_toList]
  constructor
  · rintro ⟨tag, ⟨p, -, rfl⟩ | ⟨t, ht, -⟩, htag⟩
    · exact ((prefix_paramTag p).2 htag).elim
    · simp [Option.mem_def.mp ht]
  · intro hne
    obtain ⟨t, ht⟩ := Option.ne_none_iff_exists'.mp hne
    exact ⟨returnTag t, Or.inr ⟨t, ht, rfl⟩, (prefix_returnTag t).1⟩

theorem findDocBlock_above (d : FunctionDoc) (before rest : List Line) :
    findDocBlock (before ++ d.lines ++ rest) (before ++ d.lines).length =
      .found ⟨before.length, before.length + (d.inner.length + 1), Text.join ['\n'] d.lines⟩ := by
  have hlines : before ++ d.lines ++ rest =
      before ++ ("/**".toList :: (d.inner ++ " */".toList :: rest)) := by
    simp [lines_eq]
  have hlength : (before ++ d.lines).length = before.length + (d.inner.length + 2) := by
    simp [lines_eq]
  rw [hlines, hlength, findDocBlock_lines before d.inner rest _ _ (by decide) (by decide)
    d.inner_lines (by decide) (by decide), ← lines_eq]

end FunctionDoc

namespace Settings

section Required

variable (s : Settings) (hrequired : s.rules.function.requiredTags = ["@param", "@returns"])

include hrequired

theorem missingTags_of_required (b : DocBlock) :
    s.missingTags .function false b =
      (if b.contains "@param" then [] else [.missingTag "@param"]) ++
        (if b.contains "@returns" then [] else [.missingTag "@returns"]) := by
  have hkind : (s.rules.ofKind .function).requiredTags = ["@param", "@returns"] := hrequired
  rw [missingTags, hkind]
  cases hp : b.contains "@param" <;> cases hr : b.contains "@returns" <;> simp [hp, hr]

theorem undocumentedParams_of_required (hon : s.checks.paramCoverage = true) (sig : Signature)
    (b : DocBlock) :
    s.undocumentedParams sig b =
      if b.contains "@param" then
        (sig.params.filter fun name => !(documentedParams 0 b.text).contains name).map
          .undocumentedParam
      else [] := by
  have hrequires : s.rules.function.requires "@param" = true := by
    rw [TagPolicy.requires, hrequired]
    decide
  rw [undocumentedParams, hrequires, hon]
  cases b.contains "@param" <;> rfl

theorem missingReturn_of_required (sig : Signature) (b : DocBlock) :
    s.missingReturn sig b = [] := by
  have hrequires : s.rules.function.requires "@returns" = true := by
    rw [TagPolicy.requires, hrequired]
    decide
  rw [missingReturn, hrequires]
  cases hreturns : b.contains "@returns" with
  | false => simp
  | true =>
    have hreturn : b.contains "@return" = true := by
      rw [DocBlock.contains_iff] at hreturns ⊢
      exact List.IsInfix.trans ⟨[], ['s'], rfl⟩ hreturns
    simp [hreturn]

end Required

/-- A function whose tags are required and whose parameters are checked lacks exactly the tags that
its documentation leaves out and the parameters that it does not name. Nothing is said about
parameters where none is documented, since the tag is missing then, and nothing about the return
type, whether or not it is checked. -/
theorem findings_of_written_function (s : Settings)
    (hrequired : s.rules.function.requiredTags = ["@param", "@returns"])
    (hparams : s.checks.paramCoverage = true) (henglish : s.language.enforceEnglish = false)
    (h : FunctionHeader) (d : FunctionDoc) (before after : List Line) :
    s.validate (before ++ d.lines ++ h.text :: after)
        ⟨before.length + d.lines.length, .function⟩ =
      (if d.params = [] then [.missingTag "@param"] else []) ++
      (if d.returns = none then [.missingTag "@returns"] else []) ++
      (if d.params = [] then []
        else ((h.params.map TypedParam.name).filter fun name =>
          name ∉ d.params.map ParamDoc.name).map .undocumentedParam) := by
  have hblock := d.findDocBlock_above before (h.text :: after)
  have hsignature := h.ofLines_text (before ++ d.lines) after
  generalize hb : (⟨before.length, before.length + (d.inner.length + 1),
    Text.join ['\n'] d.lines⟩ : DocBlock) = b at hblock
  have htext : b.text = Text.join ['\n'] d.lines := by rw [← hb]
  have hparam : b.contains "@param" = decide (d.params ≠ []) := by
    rw [Bool.eq_iff_iff, b.contains_iff, DocBlock.Mentions, htext, d.mentions_param_iff]
    simp
  have hreturns : b.contains "@returns" = decide (d.returns ≠ none) := by
    rw [Bool.eq_iff_iff, b.contains_iff, DocBlock.Mentions, htext, d.mentions_returns_iff]
    simp
  have hname : Signature.isConstructor
      ⟨some h.name, h.params.map TypedParam.name, Signature.returnType? h.behind⟩ = false := by
    simpa [Signature.isConstructor] using h.notConstructor
  have hfilter : (fun name => !(d.params.map ParamDoc.name).contains name) =
      fun name => decide (name ∉ d.params.map ParamDoc.name) := by
    funext name
    rw [List.contains_eq_mem, decide_not]
  rw [← List.length_append, s.validate_function _ _ b hblock rfl, hsignature, hname,
    s.missingTags_of_required hrequired, signatureFindings,
    s.undocumentedParams_of_required hrequired hparams, s.missingReturn_of_required hrequired,
    languageFindings, henglish, htext, d.documentedParams_text, hparam, hreturns,
    hfilter]
  by_cases hp : d.params = [] <;> by_cases hr : d.returns = none <;> simp [hp, hr]

/-- A header with nested types, the first of them with a comma inside. -/
def saveHeader : FunctionHeader where
  name := "save".toList
  params :=
    [⟨"a".toList, "Map".toList ++ '<' :: ("string, number".toList ++ '>' :: []),
      by decide, by decide,
      (Nested.of_no_brackets [','] _ (by decide)).append (.group [','] _ [] '<' '>' (by decide)
        (by decide) (Nested.of_no_brackets [] _ (by decide)) (by decide) (.nil [',']))⟩,
    ⟨"ab".toList,
      '(' :: ("x: number".toList ++ ')' :: (" ".toList ++ '=' :: '>' :: " void".toList)),
      by decide, by decide, .group [','] _ _ '(' ')' (by decide) (by decide)
        (Nested.of_no_brackets [] _ (by decide)) (by decide)
        ((Nested.of_no_brackets [','] _ (by decide)).append (.arrow [','] _ (by decide) (by decide)
          (Nested.of_no_brackets [','] _ (by decide))))⟩]
  result := "string".toList
  named := by decide
  notConstructor := by decide
  nested := Nested.of_no_brackets [] _ (by decide)

def saveDoc : FunctionDoc where
  description := ⟨"Saves.".toList, by decide,
    fun h => absurd (h.subset List.mem_cons_self) (by decide)⟩
  params := [⟨"a".toList, ⟨"what".toList, by decide,
    fun h => absurd (h.subset List.mem_cons_self) (by decide)⟩, by decide⟩]
  returns := none

theorem second_param_not_documented :
    let s : Settings := { language := { enforceEnglish := false } }
    s.validate (["/**", " * Saves.", " * @param a - what", " */",
        "save(a: Map<string, number>, ab: (x: number) => void): string \x7b"].map String.toList)
        ⟨4, .function⟩ =
      [.missingTag "@returns", .undocumentedParam "ab".toList] := by
  intro s
  have hlines : ["/**", " * Saves.", " * @param a - what", " */",
      "save(a: Map<string, number>, ab: (x: number) => void): string \x7b"].map String.toList =
      [] ++ saveDoc.lines ++ saveHeader.text :: [] := by decide +kernel
  have hindex : 4 = ([] : List Line).length + saveDoc.lines.length := by decide +kernel
  rw [hlines, hindex, s.findings_of_written_function rfl rfl rfl saveHeader saveDoc [] []]
  decide +kernel

/-- A name starts with an ASCII letter, an underscore or a dollar sign. So a parameter with an
accent in front is no parameter of the signature, and of a function with an accent in front of its
name only the rest is read, which may be the name of a constructor. -/
theorem accented_names_not_read :
    let s : Settings := { language := { enforceEnglish := false } }
    s.validate (["/**", " * Greets a person.", " * @param name - who is greeted",
        " * @returns the greeting", " */",
        "greet(name: string, été: string): string \x7b"].map String.toList) ⟨5, .function⟩ ≠
      [.undocumentedParam "été".toList] ∧
    s.validate (["/**", " * Greets a person.", " * @param name - who is greeted", " */",
        "éconstructor(name: string): string \x7b"].map String.toList) ⟨4, .function⟩ ≠
      [.missingTag "@returns"] := by
  decide +kernel

end Settings

end DocLint
