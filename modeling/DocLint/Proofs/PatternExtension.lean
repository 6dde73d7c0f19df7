import DocLint.Proofs.PatternReading

/-!
# Patterns on a text that goes on

A pattern that opens a text opens a longer text too, unless it looks ahead and
tells the end of the text from what follows there. A pattern may also be known to
read no passage with a given symbol in it. Sequences and alternatives of patterns
obey the usual laws.
-/

set_option autoImplicit false

namespace DocLint.Pattern

variable {α : Type}

theorem reads_append (a b : Pattern α) (passage rest : List α) :
    Reads (a ++ b) passage rest ↔
      ∃ x y, passage = x ++ y ∧ Reads a x (y ++ rest) ∧ Reads b y rest := Iff.rfl

theorem reads_or (a b : Pattern α) (passage rest : List α) :
    Reads (a ||| b) passage rest ↔ Reads a passage rest ∨ Reads b passage rest := Iff.rfl

theorem reads_atEnd (passage rest : List α) :
    Reads atEnd passage rest ↔ passage = [] ∧ rest = [] := by
  show _ ∧ rest.head?.isNone = true ↔ _
  rw [Option.isNone_iff_eq_none, List.head?_eq_none_iff]

theorem reads_assoc (a b c : Pattern α) (passage rest : List α) :
    Reads (a ++ (b ++ c)) passage rest ↔ Reads (a ++ b ++ c) passage rest := by
  constructor
  · rintro ⟨x, _, rfl, ha, y, z, rfl, hb, hc⟩
    rw [List.append_assoc] at ha
    exact ⟨x ++ y, z, by rw [List.append_assoc], ⟨x, y, rfl, ha, hb⟩, hc⟩
  · rintro ⟨_, z, rfl, ⟨x, y, rfl, ha, hb⟩, hc⟩
    rw [← List.append_assoc] at ha
    exact ⟨x, y ++ z, by rw [List.append_assoc], ha, y, z, rfl, hb, hc⟩

def parts : Pattern α → List (Pattern α)
  | seq a b => parts a ++ parts b
  | p => [p]

@[simp] theorem parts_append (a b : Pattern α) : (a ++ b).parts = a.parts ++ b.parts := rfl

def sequence : List (Pattern α) → Pattern α
  | [] => empty
  | p :: ps => p ++ sequence ps

theorem reads_sequence_append (ps qs : List (Pattern α)) (passage rest : List α) :
    Reads (sequence (ps ++ qs)) passage rest ↔
      Reads (sequence ps ++ sequence qs) passage rest := by
  induction ps generalizing passage rest with
  | nil =>
    constructor
    · intro h
      exact ⟨[], passage, rfl, List.mem_singleton.mpr rfl, h⟩
    · rintro ⟨x, y, rfl, hx, hy⟩
      rw [List.mem_singleton.mp hx]
      exact hy
  | cons p ps ih =>
    show Reads (p ++ sequence (ps ++ qs)) passage rest ↔ Reads (p ++ sequence ps ++ _) passage rest
    rw [← reads_assoc, reads_append, reads_append]
    simp only [ih]

theorem reads_sequence_parts (p : Pattern α) (passage rest : List α) :
    Reads (sequence p.parts) passage rest ↔ Reads p passage rest := by
  have hsingle (q : Pattern α) (passage rest : List α) :
      Reads (sequence [q]) passage rest ↔ Reads q passage rest := by
    constructor
    · rintro ⟨x, y, rfl, hx, hy⟩
      rw [List.mem_singleton.mp hy, List.nil_append] at hx
      rw [List.mem_singleton.mp hy, List.append_nil]
      exact hx
    · intro h
      exact ⟨passage, [], by simp, h, List.mem_singleton.mpr rfl⟩
  induction p generalizing passage rest with
  | seq a b iha ihb =>
    show Reads (sequence (a.parts ++ b.parts)) passage rest ↔ Reads (a ++ b) passage rest
    rw [reads_sequence_append, reads_append, reads_append]
    simp only [iha, ihb]
  | anyOf _ => exact hsingle _ _ _
  | one _ => exact hsingle _ _ _
  | many _ => exact hsingle _ _ _
  | ahead _ => exact hsingle _ _ _
  | either _ _ _ _ => exact hsingle _ _ _
  | optional _ _ => exact hsingle _ _ _
  | repeated _ _ => exact hsingle _ _ _

section Opens

variable [BEq α] [LawfulBEq α]

theorem opens_eq_of_parts {p q : Pattern α} (h : p.parts = q.parts) (text : List α) :
    p.opens text = q.opens text := by
  rw [Bool.eq_iff_iff, opens_iff, opens_iff]
  simp only [← reads_sequence_parts p, ← reads_sequence_parts q, h]

theorem opens_or (a b : Pattern α) (text : List α) :
    (a ||| b).opens text = (a.opens text || b.opens text) := by
  rw [Bool.eq_iff_iff, Bool.or_eq_true, opens_iff, opens_iff, opens_iff]
  simp only [reads_or, and_or_left, exists_or]

theorem opens_append_or (a b c : Pattern α) (text : List α) :
    (a ++ (b ||| c)).opens text = ((a ++ b).opens text || (a ++ c).opens text) := by
  rw [Bool.eq_iff_iff, Bool.or_eq_true, opens_iff, opens_iff, opens_iff]
  simp only [reads_append, reads_or, and_or_left, exists_or]

theorem opens_append_iff (a b : Pattern α) (text : List α) :
    (a ++ b).opens text = true ↔
      ∃ x left, text = x ++ left ∧ Reads a x left ∧ b.opens left = true := by
  rw [opens_iff]
  constructor
  · rintro ⟨_, rest, rfl, x, y, rfl, ha, hb⟩
    exact ⟨x, y ++ rest, by rw [List.append_assoc], ha, (opens_iff b _).mpr ⟨y, rest, rfl, hb⟩⟩
  · rintro ⟨x, left, rfl, ha, hopens⟩
    obtain ⟨y, rest, rfl, hb⟩ := (opens_iff b left).mp hopens
    exact ⟨x ++ y, rest, by rw [List.append_assoc], x, y, rfl, ha, hb⟩

theorem opens_left (a b : Pattern α) (text : List α) (h : (a ++ b).opens text = true) :
    a.opens text = true := by
  obtain ⟨x, left, rfl, ha, -⟩ := (opens_append_iff a b text).mp h
  exact (opens_iff a _).mpr ⟨x, left, rfl, ha⟩

theorem opens_ahead (p : Option α → Bool) (text : List α) :
    (ahead p).opens text = p text.head? := by
  rw [Bool.eq_iff_iff, opens_iff]
  constructor
  · rintro ⟨_, rest, rfl, rfl, hp⟩
    exact hp
  · intro hp
    exact ⟨[], text, rfl, rfl, hp⟩

theorem opens_one (p : α → Bool) (text : List α) : (one p).opens text = text.head?.any p := by
  rw [Bool.eq_iff_iff, opens_iff]
  constructor
  · rintro ⟨_, rest, rfl, c, rfl, hc⟩
    exact hc
  · intro hp
    cases text with
    | nil => contradiction
    | cons c rest => exact ⟨[c], rest, rfl, c, rfl, hp⟩

theorem exists_mem_of_opens_one (a : Pattern α) (p : α → Bool) (text : List α)
    (h : (a ++ one p).opens text = true) : ∃ c ∈ text, p c = true := by
  obtain ⟨_, rest, rfl, x, _, rfl, -, c, rfl, hc⟩ := (opens_iff _ text).mp h
  exact ⟨c, by simp, hc⟩

end Opens

/-- Where the pattern looks ahead, the end of the text counts as the symbol. -/
def EndsLike (d : α) : Pattern α → Prop
  | ahead p => p none = p (some d)
  | seq a b | either a b => EndsLike d a ∧ EndsLike d b
  | optional a | repeated a => EndsLike d a
  | anyOf _ | one _ | many _ => True

@[simp] theorem endsLike_append (d : α) (a b : Pattern α) :
    EndsLike d (a ++ b) ↔ EndsLike d a ∧ EndsLike d b := Iff.rfl

@[simp] theorem endsLike_or (d : α) (a b : Pattern α) :
    EndsLike d (a ||| b) ↔ EndsLike d a ∧ EndsLike d b := Iff.rfl

theorem copies_behind_iff (step : List α → List α → Prop) (behind passage rest : List α)
    (h : ∀ part after, step part (after ++ behind) ↔ step part after) :
    Copies step passage (rest ++ behind) ↔ Copies step passage rest := by
  constructor
  · intro hcopies
    generalize hall : rest ++ behind = all at hcopies
    induction hcopies with
    | none all => exact Copies.none rest
    | more part parts all hpart _ ih =>
      subst hall
      rw [← List.append_assoc, h] at hpart
      exact Copies.more part parts rest hpart (ih rfl)
  · intro hcopies
    induction hcopies with
    | none rest => exact Copies.none _
    | more part parts rest hpart _ ih =>
      rw [← h, List.append_assoc] at hpart
      exact Copies.more part parts _ hpart ih

theorem reads_behind_iff (d : α) (p : Pattern α) (passage rest behind : List α)
    (h : EndsLike d p) : Reads p passage (rest ++ d :: behind) ↔ Reads p passage rest := by
  induction p generalizing passage rest with
  | anyOf texts => exact Iff.rfl
  | one p => exact Iff.rfl
  | many p => exact Iff.rfl
  | ahead p =>
    apply and_congr_right
    intro _
    cases rest with
    | nil =>
      show p (some d) = true ↔ p none = true
      rw [show p none = p (some d) from h]
    | cons c rest => exact Iff.rfl
  | seq a b iha ihb =>
    apply exists_congr
    intro x
    apply exists_congr
    intro y
    rw [← List.append_assoc, iha x (y ++ rest) h.1, ihb y rest h.2]
  | either a b iha ihb => exact or_congr (iha passage rest h.1) (ihb passage rest h.2)
  | optional a iha => exact or_congr Iff.rfl (iha passage rest h)
  | repeated a iha => exact copies_behind_iff _ _ _ _ fun part after => iha part after h

theorem opens_behind [BEq α] [LawfulBEq α] (d : α) (p : Pattern α) (text behind : List α)
    (h : EndsLike d p) (hopens : p.opens text = true) : p.opens (text ++ d :: behind) = true := by
  obtain ⟨passage, rest, rfl, hreads⟩ := (opens_iff p text).mp hopens
  exact (opens_iff p _).mpr ⟨passage, rest ++ d :: behind, by rw [List.append_assoc],
    (reads_behind_iff d p passage rest behind h).mpr hreads⟩

def avoids [BEq α] (c : α) : Pattern α → Bool
  | anyOf texts => texts.all fun t => !t.contains c
  | one p | many p => !p c
  | ahead _ => true
  | seq a b | either a b => avoids c a && avoids c b
  | optional a | repeated a => avoids c a

theorem not_mem_of_avoids [BEq α] [LawfulBEq α] (c : α) (p : Pattern α) (passage rest : List α)
    (h : p.avoids c = true) (hreads : Reads p passage rest) : c ∉ passage := by
  induction p generalizing passage rest with
  | anyOf texts =>
    have hnot := List.all_eq_true.mp h passage hreads
    simpa using hnot
  | one p =>
    obtain ⟨d, rfl, hd⟩ := hreads
    have hc : p c = false := by simpa [avoids] using h
    rw [List.mem_singleton]
    rintro rfl
    simp [hc] at hd
  | many p =>
    intro hmem
    have hc : p c = false := by simpa [avoids] using h
    have hyes := hreads c hmem
    simp [hc] at hyes
  | ahead p =>
    rw [hreads.1]
    exact List.not_mem_nil
  | seq a b iha ihb =>
    rw [avoids, Bool.and_eq_true] at h
    obtain ⟨x, y, rfl, ha, hb⟩ := hreads
    rw [List.mem_append, not_or]
    exact ⟨iha x _ h.1 ha, ihb y rest h.2 hb⟩
  | either a b iha ihb =>
    rw [avoids, Bool.and_eq_true] at h
    rcases hreads with ha | hb
    · exact iha passage rest h.1 ha
    · exact ihb passage rest h.2 hb
  | optional a iha =>
    rcases hreads with rfl | ha
    · exact List.not_mem_nil
    · exact iha passage rest h ha
  | repeated a iha =>
    induction hreads with
    | none rest => exact List.not_mem_nil
    | more part parts rest hpart _ ih =>
      rw [List.mem_append, not_or]
      exact ⟨iha part _ h hpart, ih⟩

end DocLint.Pattern
