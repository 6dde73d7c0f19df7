import DocLint.Proofs.LineShapes

/-!
# Rules on a text with a comment behind it

What a rule says of a text with a line comment behind it, against what it says of
the text alone. A mark that a rule asks for stands either in the text or in the
comment, since the comment starts with blanks and slashes; rules whose first part
reads no slash find it in the text.
-/

set_option autoImplicit false

namespace DocLint

open Pattern

/-- A line comment and the blanks before it, of which there is at least one. -/
structure LineComment where
  blank : Char
  blanks : List Char
  text : List Char
  isBlank_blank : Text.isBlank blank = true
  isBlank_blanks : ∀ c ∈ blanks, Text.isBlank c = true

namespace LineComment

def start (k : LineComment) : List Char := k.blank :: (k.blanks ++ ['/', '/'])

def chars (k : LineComment) : List Char := k.start ++ k.text

theorem chars_eq (k : LineComment) : k.chars = k.blank :: (k.blanks ++ ['/', '/'] ++ k.text) := rfl

theorem blank_or_slash (k : LineComment) (c : Char) (h : c ∈ k.start) :
    Text.isBlank c = true ∨ c = '/' := by
  rcases List.mem_cons.mp h with rfl | h
  · exact Or.inl k.isBlank_blank
  · rcases List.mem_append.mp h with h | h
    · exact Or.inl (k.isBlank_blanks c h)
    · right
      simpa using h

theorem not_wordChar_blank (k : LineComment) : Text.isWordChar k.blank = false := by
  have h := Text.not_nameChar_of_blank k.blank k.isBlank_blank
  rw [Text.isNameChar, Bool.or_eq_false_iff] at h
  exact h.1

def IsMark (mark : List Char) : Prop :=
  mark ≠ [] ∧ ∀ c ∈ mark, Text.isBlank c = false ∧ c ≠ '/'

theorem isMark_singleton (c : Char) (hblank : Text.isBlank c = false) (hslash : c ≠ '/') :
    IsMark [c] := by
  refine ⟨by simp, ?_⟩
  intro d hd
  rw [List.mem_singleton.mp hd]
  exact ⟨hblank, hslash⟩

theorem locate (k : LineComment) (t before mark after : List Char) (hmark : IsMark mark)
    (h : t ++ k.chars = before ++ (mark ++ after)) :
    (∃ left, t = before ++ (mark ++ left) ∧ after = left ++ k.chars) ∨
      ∃ left, k.text = left ++ (mark ++ after) ∧ before = t ++ (k.start ++ left) := by
  obtain ⟨m, ms, rfl⟩ := List.exists_cons_of_ne_nil hmark.1
  rcases List.append_eq_append_iff.mp h with ⟨z, rfl, hz⟩ | ⟨z, rfl, hz⟩
  · rcases List.append_eq_append_iff.mp hz with ⟨y, rfl, hy⟩ | ⟨y, hstart, hy⟩
    · exact Or.inr ⟨y, hy, rfl⟩
    · cases y with
      | nil => exact Or.inr ⟨[], hy.symm, by simpa using hstart.symm⟩
      | cons c y =>
        obtain rfl : m = c := (List.cons.inj hy).1
        have hm := hmark.2 m List.mem_cons_self
        rcases k.blank_or_slash m (by simp [hstart]) with hblank | hslash
        · rw [hm.1] at hblank
          contradiction
        · exact absurd hslash hm.2
  · rcases List.append_eq_append_iff.mp hz with ⟨y, rfl, hy⟩ | ⟨y, hend, hy⟩
    · exact Or.inl ⟨y, rfl, hy⟩
    · cases y with
      | nil => exact Or.inl ⟨[], by simpa using hend.symm, hy.symm⟩
      | cons c y =>
        obtain rfl : k.blank = c := (List.cons.inj hy).1
        have hm := hmark.2 k.blank (by simp [hend])
        rw [k.isBlank_blank] at hm
        exact absurd hm.1 (by decide)

theorem reads_iff (k : LineComment) (p : Pattern Char) (passage rest : List Char)
    (h : EndsLike k.blank p) : Reads p passage (rest ++ k.chars) ↔ Reads p passage rest :=
  reads_behind_iff k.blank p passage rest _ h

theorem opens_of (k : LineComment) (p : Pattern Char) (t : List Char) (h : EndsLike k.blank p)
    (hopens : p.opens t = true) : p.opens (t ++ k.chars) = true :=
  opens_behind k.blank p t _ h hopens

/-- The passages of a pattern end with a character that is not blank. -/
def EndsSolid (p : Pattern Char) : Prop :=
  ∀ passage rest, Reads p passage rest → passage.getLast?.any (fun c => !Text.isBlank c) = true

theorem endsSolid_words (ws : List String)
    (h : (ws.all fun w => w.toList.getLast?.any fun c => !Text.isBlank c) = true) :
    EndsSolid (DeclarationShape.words ws) := by
  intro passage rest hreads
  obtain ⟨w, hw, rfl⟩ := (DeclarationShape.reads_words ws passage rest).mp hreads
  exact List.all_eq_true.mp h w hw

theorem endsSolid_one (p : Char → Bool) (h : ∀ c, p c = true → Text.isBlank c = false) :
    EndsSolid (one p) := by
  rintro _ _ ⟨c, rfl, hc⟩
  simp [h c hc]

theorem endsSolid_append (a b : Pattern Char) (h : EndsSolid b) : EndsSolid (a ++ b) := by
  rintro _ rest ⟨x, y, rfl, -, hb⟩
  have hlast := h y rest hb
  rw [List.getLast?_append]
  cases hy : y.getLast? with
  | none => simp [hy] at hlast
  | some c => simpa [hy] using hlast

/-- The pattern reads no slash, and it ends behind a character that is not blank. -/
structure Solid (k : LineComment) (p : Pattern Char) : Prop where
  noSlash : p.avoids '/' = true
  endsSolid : EndsSolid p
  endsLike : EndsLike k.blank p

theorem solid_one (k : LineComment) (lead : Pattern Char) (p : Char → Bool)
    (hslash : (lead ++ one p).avoids '/' = true) (hp : ∀ c, p c = true → Text.isBlank c = false)
    (hlike : EndsLike k.blank lead) : k.Solid (lead ++ one p) :=
  ⟨hslash, endsSolid_append _ _ (endsSolid_one p hp), hlike, trivial⟩

theorem Solid.within {k : LineComment} {p : Pattern Char} (h : k.Solid p) (t x left : List Char)
    (htext : t ++ k.chars = x ++ left) (hreads : Reads p x left) :
    ∃ left', t = x ++ left' ∧ left = left' ++ k.chars ∧ Reads p x left' := by
  have hlast := h.endsSolid x left hreads
  cases hx : x.getLast? with
  | none => simp [hx] at hlast
  | some c =>
    rw [hx, Option.any_some, Bool.not_eq_true'] at hlast
    obtain ⟨front, rfl⟩ := List.getLast?_eq_some_iff.mp hx
    have hslash := not_mem_of_avoids '/' p _ left h.noSlash hreads
    have hmark : IsMark [c] := isMark_singleton c hlast (by rintro rfl; simp at hslash)
    rw [List.append_assoc] at htext
    rcases k.locate t front [c] left hmark htext with ⟨left', ht, rfl⟩ | ⟨left', -, rfl⟩
    · refine ⟨left', by rw [ht, List.append_assoc], rfl, ?_⟩
      exact (k.reads_iff p _ left' h.endsLike).mp hreads
    · simp [start] at hslash

theorem Solid.opens_append_iff {k : LineComment} {p : Pattern Char} (h : k.Solid p)
    (b : Pattern Char) (t : List Char) :
    (p ++ b).opens (t ++ k.chars) = true ↔
      ∃ x left, t = x ++ left ∧ Reads p x left ∧ b.opens (left ++ k.chars) = true := by
  rw [Pattern.opens_append_iff]
  constructor
  · rintro ⟨x, left, htext, hreads, hopens⟩
    obtain ⟨left', rfl, rfl, hreads'⟩ := h.within t x left htext hreads
    exact ⟨x, left', rfl, hreads', hopens⟩
  · rintro ⟨x, left, rfl, hreads, hopens⟩
    refine ⟨x, left ++ k.chars, by rw [List.append_assoc], ?_, hopens⟩
    exact (k.reads_iff p x left h.endsLike).mpr hreads

theorem Solid.opens_eq {k : LineComment} {p : Pattern Char} (h : k.Solid p) (t : List Char) :
    p.opens (t ++ k.chars) = p.opens t := by
  rw [Bool.eq_iff_iff]
  constructor
  · intro hopens
    obtain ⟨x, left, htext, hreads⟩ := (opens_iff p _).mp hopens
    obtain ⟨left', rfl, -, hreads'⟩ := h.within t x left htext hreads
    exact (opens_iff p _).mpr ⟨x, left', rfl, hreads'⟩
  · exact k.opens_of p t h.endsLike

theorem Solid.opens_append_eq {k : LineComment} {p : Pattern Char} (h : k.Solid p)
    (b : Pattern Char) (t : List Char)
    (hb : ∀ left, b.opens (left ++ k.chars) = b.opens left) :
    (p ++ b).opens (t ++ k.chars) = (p ++ b).opens t := by
  rw [Bool.eq_iff_iff, h.opens_append_iff, Pattern.opens_append_iff]
  simp only [hb]

end LineComment

namespace DeclarationShape

open LineComment

variable (k : LineComment) (t : List Char)

theorem endsLike_wordEnd : EndsLike k.blank wordEnd := by
  show (!(none : Option Char).any Text.isWordChar) = !(some k.blank).any Text.isWordChar
  rw [Option.any_some, k.not_wordChar_blank]
  rfl

theorem wordEnd_commented : wordEnd.opens (t ++ k.chars) = wordEnd.opens t := by
  rw [wordEnd, opens_ahead, opens_ahead]
  cases t with
  | nil => exact (endsLike_wordEnd k).symm
  | cons c t => rfl

theorem functionRule_commented : functionRule.opens (t ++ k.chars) = functionRule.opens t := by
  apply Solid.opens_append_eq _ wordEnd t (wordEnd_commented k)
  refine ⟨by decide, endsSolid_append _ _ (endsSolid_words _ (by decide)), ?_⟩
  simp [EndsLike, keyword, gap, blanks, text, words]

theorem explicitForm_commented : explicitForm.opens (t ++ k.chars) = explicitForm.opens t := by
  apply Solid.opens_append_eq _ wordEnd t (wordEnd_commented k)
  exact ⟨by decide, endsSolid_words _ (by decide), trivial⟩

theorem classRule_commented : classRule.opens (t ++ k.chars) = classRule.opens t := by
  apply Solid.opens_append_eq
  · refine ⟨by decide, endsSolid_append _ _ (endsSolid_words _ (by decide)), ?_⟩
    simp [EndsLike, keyword, gap, blanks, text, words]
  · intro left
    rw [opens_or, opens_or, atEnd, opens_one, opens_one, opens_ahead, opens_ahead]
    cases left with
    | nil => simp [k.chars_eq, k.isBlank_blank]
    | cons c left => rfl

def bindingHead : Pattern Char :=
  optional (keyword "export") ++ optional (keyword "declare") ++ words ["const", "let", "var"]

theorem solid_bindingHead : k.Solid bindingHead := by
  refine ⟨by decide, endsSolid_append _ _ (endsSolid_words _ (by decide)), ?_⟩
  simp [bindingHead, EndsLike, keyword, gap, blanks, text, words]

theorem variableRule_opens : variableRule.opens t = (bindingHead ++ gap).opens t :=
  opens_eq_of_parts rfl t

theorem gap_opens : gap.opens t = t.head?.any Text.isBlank := by
  rw [Bool.eq_iff_iff, opens_iff]
  simp only [reads_gap]
  cases t with
  | nil => simp
  | cons c t =>
    constructor
    · rintro ⟨_ | ⟨d, passage⟩, rest, htext, hne, hblank⟩
      · contradiction
      · obtain rfl : c = d := (List.cons.inj htext).1
        exact hblank c List.mem_cons_self
    · intro hc
      exact ⟨[c], t, rfl, by simp, by simpa using hc⟩

theorem variableRule_commented : variableRule.opens (t ++ k.chars) =
    (variableRule.opens t || (bindingHead ++ atEnd).opens t) := by
  rw [Bool.eq_iff_iff, Bool.or_eq_true, variableRule_opens, variableRule_opens,
    (solid_bindingHead k).opens_append_iff, opens_append_iff, opens_append_iff]
  simp only [gap_opens, atEnd, opens_ahead]
  constructor
  · rintro ⟨x, left, rfl, hreads, hgap⟩
    cases left with
    | nil => exact Or.inr ⟨x, [], rfl, hreads, rfl⟩
    | cons c left => exact Or.inl ⟨x, c :: left, rfl, hreads, hgap⟩
  · rintro (⟨x, left, rfl, hreads, hgap⟩ | ⟨x, left, rfl, hreads, hend⟩)
    · cases left with
      | nil => contradiction
      | cons c left => exact ⟨x, c :: left, rfl, hreads, hgap⟩
    · cases left with
      | nil => exact ⟨x, [], rfl, hreads, k.isBlank_blank⟩
      | cons c left => contradiction

end DeclarationShape

end DocLint
