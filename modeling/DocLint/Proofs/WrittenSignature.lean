import DocLint.Proofs.HeaderParts

/-!
# Signatures read back

A header that gives each parameter a type and the function a return type has
the signature it was written from, whatever nested texts the types are.
-/

set_option autoImplicit false

namespace DocLint

/-- A parameter with its type, as a header gives them. -/
structure TypedParam where
  name : List Char
  type : List Char
  named : Text.isName name = true
  notReceiver : name ≠ "this".toList
  nested : Nested [','] type

structure FunctionHeader where
  name : List Char
  params : List TypedParam
  result : List Char
  named : Text.isName name = true
  notConstructor : name ≠ "constructor".toList
  nested : Nested [] result

def TypedParam.text (p : TypedParam) : List Char := p.name ++ ": ".toList ++ p.type

def FunctionHeader.text (h : FunctionHeader) : Line :=
  h.name ++ "(".toList ++ Text.join ", ".toList (h.params.map TypedParam.text) ++ "): ".toList ++
    h.result ++ [' ', '{']

namespace TypedParam

variable (p : TypedParam)

theorem nested_text : Nested [','] p.text :=
  ((Nested.of_isName [','] p.name p.named (by decide)).append
    (Nested.of_no_brackets [','] ": ".toList (by decide))).append p.nested

theorem paramName?_text : Signature.paramName? p.text = some p.name := by
  have htext : p.text = p.name ++ ':' :: (' ' :: p.type) := by simp [text]
  have hchars := Text.nameChar_of_isName p.name p.named
  have hstart (rest : List Char) := Text.head?_isName p.name (':' :: rest) p.named
  have hnone : ∀ m ∈ Signature.paramModifiers, ∀ rest,
      Signature.afterKeyword? m (p.name ++ ':' :: rest) = none := fun m hm rest =>
    Signature.afterKeyword?_name m p.name rest ':' hchars (by decide)
      ((by decide : ∀ m ∈ Signature.paramModifiers, ':' ∉ m.toList) m hm)
  have hthis : (p.name == "this".toList) = false := beq_eq_false_iff_ne.mpr p.notReceiver
  rw [Signature.paramName?, htext, Text.trim_behind _ _ ':' (Text.head?_not_blank _ (hstart _)) rfl,
    Signature.dropModifiers_none _ _ fun m hm => hnone m hm _,
    Signature.dropEllipses_stop _ (Text.head?_ne '.' _ (hstart _) rfl),
    Text.name?_isName _ _ p.named rfl]
  dsimp only
  rw [hthis]
  rfl

end TypedParam

theorem Signature.splitParams_typed (params : List TypedParam) :
    splitParams (Text.join ", ".toList (params.map TypedParam.text)) =
      params.map TypedParam.name := by
  rw [splitParams_join _ (by simpa using fun p _ => TypedParam.nested_text p)]
  induction params with
  | nil => rfl
  | cons p ps ih => rw [List.map_cons, List.filterMap_cons, p.paramName?_text, ih]; rfl

namespace FunctionHeader

variable (h : FunctionHeader)

def inner : List Char := Text.join ", ".toList (h.params.map TypedParam.text)

theorem nested_inner : Nested [] h.inner :=
  .join _ (by simpa using fun p _ => TypedParam.nested_text p)

def behind : List Char := ": ".toList ++ h.result ++ [' ', '{']

theorem text_eq : h.text = h.name ++ '(' :: (h.inner ++ ')' :: h.behind) := by
  simp [text, inner, behind]

theorem ofHeader_text :
    Signature.ofHeader h.text =
      ⟨some h.name, h.params.map TypedParam.name, Signature.returnType? h.behind⟩ := by
  have hparts := Signature.ofHeader_spaced [] h.name h.inner h.behind (by simp) (by simp) h.named
    h.nested_inner
  rw [text_eq]
  rw [inner, Signature.splitParams_typed, ← inner] at hparts
  exact hparts

theorem trim_text : Text.trim h.text = h.text := by
  have htext : h.text = (h.name ++ '(' :: (h.inner ++ ')' :: (": ".toList ++ h.result ++ [' ']))) ++
      ['{'] := by
    simp [text_eq, behind]
  have hstart := Text.head?_isName h.name ('(' :: (h.inner ++ ')' :: h.behind)) h.named
  rw [← text_eq] at hstart
  rw [htext]
  exact Text.trim_concat _ '{' (htext ▸ Text.head?_not_blank _ hstart) rfl

theorem parenDepth_text : Signature.parenDepth 0 h.text = 0 := by
  have hnested : Nested [] (h.name ++ '(' :: (h.inner ++ ')' :: (": ".toList ++ h.result))) :=
    (Nested.of_isName [] h.name h.named rfl).append
      (.group [] h.inner _ '(' ')' (by decide) List.not_mem_nil h.nested_inner (by simp)
        ((Nested.of_no_brackets [] ": ".toList (by decide)).append h.nested))
  have htext : h.text =
      h.name ++ '(' :: (h.inner ++ ')' :: (": ".toList ++ h.result)) ++ [' ', '{'] := by
    simp [text_eq, behind]
  rw [htext, Signature.parenDepth_append, Signature.parenDepth_nested [] _ hnested]
  rfl

theorem ofLines_text (before after : List Line) :
    Signature.ofLines (before ++ h.text :: after) before.length =
      ⟨some h.name, h.params.map TypedParam.name, Signature.returnType? h.behind⟩ := by
  have hlines : ((before ++ h.text :: after).drop before.length).take Signature.maxLines =
      h.text :: after.take 19 := by
    rw [List.drop_left]
    rfl
  have hopen : h.text.contains '(' = true := by simp [text_eq]
  rw [Signature.ofLines, hlines, Signature.headerText, h.parenDepth_text, hopen, h.trim_text]
  simp only [Bool.or_true, Bool.not_true, Int.le_refl, decide_true, if_true]
  rw [Text.trim_append_blank, h.trim_text, ofHeader_text]

end FunctionHeader

end DocLint
