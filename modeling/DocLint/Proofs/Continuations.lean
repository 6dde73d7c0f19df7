import DocLint.Proofs.CommentedText

/-!
# Readings that run into a comment

A pattern may be read in a text, or from the text on through the blanks and slashes of a
comment and into what the comment says. A continuation is one such way: what the text must be
like, and what the comment must be like. The ways of a pattern follow from those of its parts.
-/

set_option autoImplicit false

namespace DocLint

open Pattern

/-- What a text and the comment behind it must be like for one way of reading on. -/
structure Continuation where
  text : Pattern Char
  comment : Pattern Char

namespace Continuation

def opens (r : Continuation) (t comment : List Char) : Bool :=
  r.text.opens t && r.comment.opens comment

def behind (a : Pattern Char) (r : Continuation) : Continuation := ⟨a ++ r.text, r.comment⟩

def within (p : Pattern Char) : Continuation := ⟨p, Pattern.empty⟩

theorem opens_within (p : Pattern Char) (t comment : List Char) :
    (within p).opens t comment = p.opens t := by
  have hempty : (Pattern.empty : Pattern Char).opens comment = true :=
    (opens_iff _ _).mpr ⟨[], comment, rfl, List.mem_singleton.mpr rfl⟩
  rw [opens, within, hempty, Bool.and_true]

theorem any_behind_iff (a : Pattern Char) (ways : List Continuation) (t comment : List Char) :
    (ways.map (behind a)).any (·.opens t comment) = true ↔
      ∃ x left, t = x ++ left ∧ Reads a x left ∧ ways.any (·.opens left comment) = true := by
  simp only [List.any_map, List.any_eq_true, Function.comp, opens, behind, Bool.and_eq_true,
    opens_append_iff]
  constructor
  · rintro ⟨r, hr, ⟨x, left, rfl, hx, htext⟩, hcomment⟩
    exact ⟨x, left, rfl, hx, r, hr, htext, hcomment⟩
  · rintro ⟨x, left, rfl, hx, r, hr, htext, hcomment⟩
    exact ⟨r, hr, ⟨x, left, rfl, hx, htext⟩, hcomment⟩

def parts (r : Continuation) : List (Pattern Char) × List (Pattern Char) :=
  (r.text.parts, r.comment.parts)

theorem any_eq_of_parts {ways ways' : List Continuation} (h : ways.map parts = ways'.map parts)
    (t comment : List Char) : ways.any (·.opens t comment) = ways'.any (·.opens t comment) := by
  induction ways generalizing ways' with
  | nil =>
    cases ways' with
    | nil => rfl
    | cons r' ways' => cases h
  | cons r ways ih =>
    cases ways' with
    | nil => cases h
    | cons r' ways' =>
      obtain ⟨hparts, hways⟩ := List.cons.inj h
      obtain ⟨htext, hcomment⟩ := Prod.mk.inj hparts
      rw [List.any_cons, List.any_cons, ih hways, opens, opens, opens_eq_of_parts htext,
        opens_eq_of_parts hcomment]

theorem any_behind_optional (a : Pattern Char) (ways : List Continuation)
    (t comment : List Char) :
    (ways.map (behind (optional a))).any (·.opens t comment) =
      (ways.any (·.opens t comment) || (ways.map (behind a)).any (·.opens t comment)) := by
  rw [Bool.eq_iff_iff, Bool.or_eq_true, any_behind_iff, any_behind_iff]
  constructor
  · rintro ⟨x, left, rfl, rfl | hx, hways⟩
    · exact Or.inl hways
    · exact Or.inr ⟨x, left, rfl, hx, hways⟩
  · rintro (hways | ⟨x, left, rfl, hx, hways⟩)
    · exact ⟨[], t, rfl, Or.inl rfl, hways⟩
    · exact ⟨x, left, rfl, Or.inr hx, hways⟩

end Continuation

namespace Pattern

theorem opens_optional_append (a b : Pattern Char) (t : List Char) :
    (optional a ++ b).opens t = (b.opens t || (a ++ b).opens t) := by
  rw [Bool.eq_iff_iff, Bool.or_eq_true, opens_append_iff, opens_append_iff]
  constructor
  · rintro ⟨x, left, rfl, rfl | hx, hleft⟩
    · exact Or.inl hleft
    · exact Or.inr ⟨x, left, rfl, hx, hleft⟩
  · rintro (hb | ⟨x, left, rfl, hx, hleft⟩)
    · exact ⟨[], t, rfl, Or.inl rfl, hb⟩
    · exact ⟨x, left, rfl, Or.inr hx, hleft⟩

theorem opens_or_append (a b c : Pattern Char) (t : List Char) :
    ((a ||| b) ++ c).opens t = ((a ++ c).opens t || (b ++ c).opens t) := by
  rw [Bool.eq_iff_iff, Bool.or_eq_true, opens_append_iff, opens_append_iff, opens_append_iff]
  simp only [reads_or, and_or_left, or_and_right, exists_or]

theorem opens_append_atEnd_iff (a : Pattern Char) (t : List Char) :
    (a ++ atEnd).opens t = true ↔ Reads a t [] := by
  rw [opens_append_iff]
  constructor
  · rintro ⟨x, left, rfl, hx, hend⟩
    obtain ⟨_, rest, rfl, hreads⟩ := (opens_iff _ _).mp hend
    obtain ⟨rfl, rfl⟩ := (reads_atEnd _ _).mp hreads
    simpa using hx
  · intro h
    exact ⟨t, [], by simp, h, (opens_iff _ _).mpr ⟨[], [], rfl, (reads_atEnd _ _).mpr ⟨rfl, rfl⟩⟩⟩

end Pattern

namespace LineComment

open DeclarationShape

variable (k : LineComment)

theorem cut (t x rest : List Char) (h : t ++ k.chars = x ++ rest) :
    (∃ left, t = x ++ left ∧ rest = left ++ k.chars) ∨
      (∃ w more, (∀ c ∈ w, Text.isBlank c = true) ∧ rest = w ++ '/' :: more) ∨
      ∃ front, x = t ++ (k.start ++ front) ∧ k.text = front ++ rest := by
  rcases List.append_eq_append_iff.mp h with ⟨z, rfl, hz⟩ | ⟨z, rfl, hz⟩
  · rcases List.append_eq_append_iff.mp hz with ⟨front, rfl, htext⟩ | ⟨y, hstart, rfl⟩
    · exact Or.inr (Or.inr ⟨front, rfl, htext⟩)
    · have hblank : ∀ c ∈ k.blank :: k.blanks, Text.isBlank c = true :=
        List.forall_mem_cons.mpr ⟨k.isBlank_blank, k.isBlank_blanks⟩
      have hsplit : (k.blank :: k.blanks) ++ ['/', '/'] = z ++ y := hstart
      rcases List.append_eq_append_iff.mp hsplit with ⟨u, -, hu⟩ | ⟨u, hu, rfl⟩
      · cases y with
        | nil => exact Or.inr (Or.inr ⟨[], by simp [hstart], rfl⟩)
        | cons c y =>
          have hslash : c ∈ ['/', '/'] := by simp [hu]
          obtain rfl : c = '/' := by simpa using hslash
          exact Or.inr (Or.inl ⟨[], y ++ k.text, by simp, rfl⟩)
      · refine Or.inr (Or.inl ⟨u, '/' :: k.text, ?_, by simp⟩)
        intro c hc
        exact hblank c (by simp [hu, hc])
  · exact Or.inl ⟨z, rfl, hz⟩

/-- The ways in which the pattern opens a text with the comment behind it. -/
def Splits (p : Pattern Char) (ways : List Continuation) : Prop :=
  ∀ t, p.opens (t ++ k.chars) = ways.any (·.opens t k.text)

def Misses (p : Pattern Char) : Prop :=
  ∀ w rest, (∀ c ∈ w, Text.isBlank c = true) → p.opens (w ++ '/' :: rest) = false

/-- The pattern reads over the blanks and slashes, if the text before and the comment allow it. -/
def Bridges (m before after : Pattern Char) : Prop :=
  ∀ left front rest,
    Reads m (left ++ (k.start ++ front)) rest ↔ Reads before left [] ∧ Reads after front rest

variable {k}

theorem Solid.splits {p : Pattern Char} (h : k.Solid p) : k.Splits p [.within p] := by
  intro t
  simp [Continuation.opens_within, h.opens_eq]

theorem splits_wordEnd : k.Splits wordEnd [.within wordEnd] := by
  intro t
  simp [Continuation.opens_within, wordEnd_commented]

theorem splits_atEnd : k.Splits atEnd [] := by
  intro t
  rw [atEnd, opens_ahead]
  cases t <;> rfl

theorem Splits.regroup {p q : Pattern Char} {ways ways' : List Continuation}
    (h : k.Splits p ways) (hparts : q.parts = p.parts)
    (hways : ways'.map Continuation.parts = ways.map Continuation.parts) : k.Splits q ways' := by
  intro t
  rw [opens_eq_of_parts hparts, Continuation.any_eq_of_parts hways, h]

theorem Splits.append_iff {b : Pattern Char} {ways : List Continuation} (h : k.Splits b ways)
    (a : Pattern Char) (hlike : EndsLike k.blank a) (hb : Misses b) (t : List Char) :
    (a ++ b).opens (t ++ k.chars) = true ↔
      (∃ front rest, k.text = front ++ rest ∧ Reads a (t ++ (k.start ++ front)) rest ∧
        b.opens rest = true) ∨
      (ways.map (Continuation.behind a)).any (·.opens t k.text) = true := by
  rw [Pattern.opens_append_iff, Continuation.any_behind_iff]
  constructor
  · rintro ⟨x, rest, htext, hx, hrest⟩
    rcases k.cut t x rest htext with ⟨left, rfl, rfl⟩ | ⟨w, more, hw, rfl⟩ | ⟨front, rfl, hcomment⟩
    · exact Or.inr
        ⟨x, left, rfl, (k.reads_iff a x left hlike).mp hx, (h left).symm.trans hrest⟩
    · rw [hb w more hw] at hrest
      exact absurd hrest Bool.false_ne_true
    · exact Or.inl ⟨front, rest, hcomment, hx, hrest⟩
  · rintro (⟨front, rest, hcomment, hx, hrest⟩ | ⟨x, left, rfl, hx, hways⟩)
    · exact ⟨t ++ (k.start ++ front), rest, by simp [chars, hcomment], hx, hrest⟩
    · exact ⟨x, left ++ k.chars, by simp, (k.reads_iff a x left hlike).mpr hx,
        (h left).trans hways⟩

theorem Splits.behind {b : Pattern Char} {ways : List Continuation} (h : k.Splits b ways)
    (a : Pattern Char) (hslash : a.avoids '/' = true) (hlike : EndsLike k.blank a)
    (hb : Misses b) : k.Splits (a ++ b) (ways.map (.behind a)) := by
  intro t
  rw [Bool.eq_iff_iff, h.append_iff a hlike hb t]
  apply or_iff_right
  rintro ⟨front, rest, -, hx, -⟩
  have hnone := not_mem_of_avoids '/' a _ rest hslash hx
  simp [start] at hnone

theorem Splits.solid {b : Pattern Char} {ways : List Continuation} (h : k.Splits b ways)
    {a : Pattern Char} (ha : k.Solid a) : k.Splits (a ++ b) (ways.map (.behind a)) := by
  intro t
  rw [Bool.eq_iff_iff, ha.opens_append_iff, Continuation.any_behind_iff]
  simp only [h _]

theorem Splits.bridge {b m before after : Pattern Char} {ways : List Continuation}
    (h : k.Splits b ways) (hm : k.Bridges m before after) (hlike : EndsLike k.blank m)
    (hb : Misses b) :
    k.Splits (m ++ b) (⟨before ++ atEnd, after ++ b⟩ :: ways.map (.behind m)) := by
  intro t
  rw [Bool.eq_iff_iff, h.append_iff m hlike hb t, List.any_cons, Bool.or_eq_true,
    Continuation.opens, Bool.and_eq_true, opens_append_atEnd_iff, Pattern.opens_append_iff]
  apply or_congr_left
  constructor
  · rintro ⟨front, rest, hcomment, hx, hrest⟩
    obtain ⟨hbefore, hafter⟩ := (hm t front rest).mp hx
    exact ⟨hbefore, front, rest, hcomment, hafter, hrest⟩
  · rintro ⟨hbefore, front, rest, hcomment, hafter, hrest⟩
    exact ⟨front, rest, hcomment, (hm t front rest).mpr ⟨hbefore, hafter⟩, hrest⟩

theorem Splits.append_or {a b c : Pattern Char} {ways ways' : List Continuation}
    (hb : k.Splits (a ++ b) ways) (hc : k.Splits (a ++ c) ways') :
    k.Splits (a ++ (b ||| c)) (ways ++ ways') := by
  intro t
  rw [opens_append_or, hb, hc, List.any_append]

theorem Splits.or_append {a b c : Pattern Char} {ways ways' : List Continuation}
    (ha : k.Splits (a ++ c) ways) (hb : k.Splits (b ++ c) ways') :
    k.Splits ((a ||| b) ++ c) (ways ++ ways') := by
  intro t
  rw [opens_or_append, ha, hb, List.any_append]

theorem Splits.optional {a b : Pattern Char} {r : Continuation} {ways : List Continuation}
    (hb : k.Splits b ways) (hab : k.Splits (a ++ b) (r :: ways.map (.behind a))) :
    k.Splits (optional a ++ b) (r :: ways.map (.behind (Pattern.optional a))) := by
  intro t
  rw [opens_optional_append, hb, hab, List.any_cons, List.any_cons,
    Continuation.any_behind_optional]
  exact Bool.or_left_comm _ _ _

theorem misses_words (ws : List String)
    (h : (ws.all fun w => w.toList.head?.any fun c => !Text.isBlank c && c != '/') = true) :
    Misses (words ws) := by
  intro w rest hw
  rw [← Bool.not_eq_true, opens_iff]
  rintro ⟨_, left, htext, hword⟩
  obtain ⟨word, hmem, rfl⟩ := (reads_words ws _ _).mp hword
  have hhead := List.all_eq_true.mp h word hmem
  cases hchars : word.toList with
  | nil => simp [hchars] at hhead
  | cons c cs =>
    rw [hchars] at htext hhead
    have hc : Text.isBlank c = false ∧ c ≠ '/' := by simpa using hhead
    cases w with
    | nil => exact hc.2 (List.cons.inj htext).1.symm
    | cons d w =>
      have hd := hw d List.mem_cons_self
      rw [(List.cons.inj htext).1, hc.1] at hd
      exact Bool.false_ne_true hd

theorem misses_one (p : Char → Bool)
    (h : ∀ c, p c = true → Text.isBlank c = false ∧ c ≠ '/') : Misses (one p) := by
  intro w rest hw
  rw [← Bool.not_eq_true, opens_one]
  cases w with
  | nil => exact fun hslash => (h '/' hslash).2 rfl
  | cons d w =>
    intro hd
    exact Bool.false_ne_true ((h d hd).1.symm.trans (hw d List.mem_cons_self))

theorem Misses.append {a : Pattern Char} (h : Misses a) (b : Pattern Char) : Misses (a ++ b) := by
  intro w rest hw
  rw [← Bool.not_eq_true]
  intro hopens
  exact Bool.false_ne_true ((h w rest hw).symm.trans (opens_left a b _ hopens))

theorem Misses.regroup {p q : Pattern Char} (h : Misses p) (hparts : q.parts = p.parts) :
    Misses q := by
  intro w rest hw
  rw [opens_eq_of_parts hparts, h w rest hw]

theorem misses_atEnd : Misses atEnd := by
  intro w rest _
  rw [atEnd, opens_ahead]
  cases w <;> rfl

theorem Misses.blanks {b : Pattern Char} (h : Misses b) :
    Misses (DeclarationShape.blanks ++ b) := by
  intro w rest hw
  rw [← Bool.not_eq_true, Pattern.opens_append_iff]
  rintro ⟨x, left, htext, hx, hleft⟩
  rcases List.append_eq_append_iff.mp htext with ⟨z, rfl, hz⟩ | ⟨z, rfl, rfl⟩
  · cases z with
    | nil =>
      rw [← show '/' :: rest = left from hz] at hleft
      exact Bool.false_ne_true ((h [] rest (by simp)).symm.trans hleft)
    | cons c z =>
      obtain rfl : '/' = c := (List.cons.inj hz).1
      exact absurd (hx '/' (by simp)) (by decide)
  · rw [h z rest fun c hc => hw c (List.mem_append_right x hc)] at hleft
    exact Bool.false_ne_true hleft

theorem Misses.optional {a b : Pattern Char} (hb : Misses b) (hab : Misses (a ++ b)) :
    Misses (optional a ++ b) := by
  intro w rest hw
  rw [opens_optional_append, hb w rest hw, hab w rest hw]
  rfl

theorem bridges_many (p : Char → Bool) (h : ∀ c ∈ k.start, p c = true) :
    k.Bridges (many p) (many p) (many p) := by
  intro left front rest
  show (∀ c ∈ left ++ (k.start ++ front), p c = true) ↔ _
  simp only [List.forall_mem_append]
  exact ⟨fun hall => ⟨hall.1, hall.2.2⟩, fun hall => ⟨hall.1, h, hall.2⟩⟩

theorem bridges_some (p : Char → Bool) (h : ∀ c ∈ k.start, p c = true) :
    k.Bridges (one p ++ many p) (many p) (many p) := by
  intro left front rest
  rw [← bridges_many p h left front rest]
  constructor
  · rintro ⟨_, y, hpassage, ⟨c, rfl, hc⟩, hy⟩
    rw [hpassage]
    exact List.forall_mem_cons.mpr ⟨hc, hy⟩
  · intro hall
    cases hpassage : left ++ (k.start ++ front) with
    | nil => simp [start] at hpassage
    | cons c cs =>
      rw [hpassage] at hall
      have hall := List.forall_mem_cons.mp hall
      exact ⟨[c], cs, rfl, ⟨c, rfl, hall.1⟩, hall.2⟩

theorem bridges_blanks_some (p : Char → Bool) (h : ∀ c ∈ k.start, p c = true)
    (hblank : ∀ c, Text.isBlank c = true → p c = true) :
    k.Bridges (DeclarationShape.blanks ++ one p ++ many p) (many p) (many p) := by
  intro left front rest
  rw [← bridges_some p h left front rest, ← reads_assoc]
  constructor
  · rintro ⟨w, _, hpassage, hw, _, y, rfl, ⟨c, rfl, hc⟩, hy⟩
    rw [hpassage]
    cases w with
    | nil => exact ⟨[c], y, rfl, ⟨c, rfl, hc⟩, hy⟩
    | cons d w =>
      have hw := List.forall_mem_cons.mp hw
      refine ⟨[d], w ++ ([c] ++ y), rfl, ⟨d, rfl, hblank d hw.1⟩, ?_⟩
      show ∀ e ∈ w ++ (c :: y), p e = true
      rw [List.forall_mem_append, List.forall_mem_cons]
      exact ⟨fun e he => hblank e (hw.2 e he), hc, hy⟩
  · intro hsome
    exact ⟨[], _, rfl, by simp [Reads, DeclarationShape.blanks], hsome⟩

theorem bridges_blanks_many (p : Char → Bool) (h : ∀ c ∈ k.start, p c = true) :
    k.Bridges (DeclarationShape.blanks ++ many p) (DeclarationShape.blanks ++ many p) (many p) := by
  intro left front rest
  constructor
  · rintro ⟨x, y, hpassage, hx, hy⟩
    rcases List.append_eq_append_iff.mp hpassage with ⟨z, rfl, hz⟩ | ⟨z, rfl, rfl⟩
    · refine ⟨⟨left, [], by simp, fun c hc => hx c (by simp [hc]), by simp [Reads]⟩, ?_⟩
      rcases List.append_eq_append_iff.mp hz with ⟨u, rfl, -⟩ | ⟨u, -, rfl⟩
      · exact absurd (hx '/' (by simp [start])) (by decide)
      · exact fun c hc => hy c (by simp [hc])
    · exact ⟨⟨x, z, rfl, hx, fun c hc => hy c (by simp [hc])⟩, fun c hc => hy c (by simp [hc])⟩
  · rintro ⟨⟨x, y, rfl, hx, hy⟩, hfront⟩
    refine ⟨x, y ++ (k.start ++ front), by simp, hx, ?_⟩
    show ∀ c ∈ y ++ (k.start ++ front), p c = true
    simp only [List.forall_mem_append]
    exact ⟨hy, h, hfront⟩

end LineComment

end DocLint
