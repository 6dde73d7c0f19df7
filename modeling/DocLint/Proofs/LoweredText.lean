import DocLint.Text.Lines
import DocLint.Text.Lowercase

/-!
# Lowercase text in parts

Whether a capital sigma ends a word is decided by the letters around it, up to
the next character that is neither cased nor case-ignorable. A blank is such a
character, so texts that are joined by blanks can be lowercased one by one. No
other character becomes one of the small ASCII marks.
-/

set_option autoImplicit false

namespace DocLint.Text

def isDivider (c : Char) : Bool := !isCased c && !isCaseIgnorable c

theorem isDivider_blank : isDivider ' ' = true := by decide

theorem meetsCased_divider (front back : List Char) (d : Char) (hd : isDivider d = true) :
    meetsCased (front ++ d :: back) = meetsCased front := by
  rw [isDivider, Bool.and_eq_true, Bool.not_eq_true', Bool.not_eq_true'] at hd
  induction front with
  | nil => simp [meetsCased, hd.1, hd.2]
  | cons c front ih =>
    unfold meetsCased at ih ⊢
    by_cases hc : isCaseIgnorable c = true
    · simpa [hc] using ih
    · simp [hc]

theorem ne_capitalSigma_of_divider (d : Char) (hd : isDivider d = true) : d ≠ capitalSigma := by
  rintro rfl
  revert hd
  decide

theorem lowerFrom_append_divider (before front back : List Char) (d : Char)
    (hd : isDivider d = true) :
    lowerFrom before (front ++ d :: back) =
      lowerFrom before front ++ lowerFrom (front.reverse ++ before) (d :: back) := by
  induction front generalizing before with
  | nil => rfl
  | cons c front ih =>
    rw [List.cons_append, lowerFrom, lowerFrom, meetsCased_divider front back d hd, ih]
    simp

theorem lowerFrom_behind_divider (near far text : List Char) (d : Char) (hd : isDivider d = true) :
    lowerFrom (near ++ d :: far) text = lowerFrom near text := by
  induction text generalizing near with
  | nil => rfl
  | cons c text ih =>
    have hstep := ih (c :: near)
    rw [List.cons_append] at hstep
    rw [lowerFrom, lowerFrom, meetsCased_divider near far d hd, hstep]

theorem lower_divider (front back : List Char) (d : Char) (hd : isDivider d = true) :
    lower (front ++ d :: back) = lower front ++ lowerChar d ++ lower back := by
  have hsigma : (d == capitalSigma) = false :=
    beq_eq_false_iff_ne.mpr (ne_capitalSigma_of_divider d hd)
  have hback : lowerFrom (d :: front.reverse) back = lowerFrom [] back :=
    lowerFrom_behind_divider [] front.reverse back d hd
  rw [lower, lowerFrom_append_divider [] front back d hd, List.append_nil, lowerFrom, hsigma, hback,
    ← List.append_assoc]
  rfl

theorem lower_join (texts : List (List Char)) :
    lower (join [' '] texts) = join [' '] (texts.map lower) := by
  fun_induction join [' '] texts with
  | case1 => rfl
  | case2 text => rfl
  | case3 text next texts ih =>
    rw [List.append_assoc, List.singleton_append, lower_divider text _ ' ' isDivider_blank, ih]
    rfl

/-- The small letters of each run lie above the ASCII marks and are code points of characters. -/
def CaseRun.isPlaced (r : CaseRun) : Bool :=
  96 < (r.first : Int) + r.shift && ((r.last : Int) + r.shift < 0xD800 ||
    (0xDFFF < (r.first : Int) + r.shift && (r.last : Int) + r.shift < 0x110000))

theorem caseRuns_placed : caseRuns.all CaseRun.isPlaced = true := by decide

theorem lt_toNat_of_isPlaced (r : CaseRun) (n : Nat) (hplaced : r.isPlaced = true)
    (hholds : r.holds n = true) : 96 < (Char.ofNat ((n : Int) + r.shift).toNat).toNat := by
  simp only [CaseRun.isPlaced, Bool.and_eq_true, Bool.or_eq_true, decide_eq_true_eq] at hplaced
  simp only [CaseRun.holds, Bool.and_eq_true, decide_eq_true_eq] at hholds
  have hvalid : ((n : Int) + r.shift).toNat.isValidChar := by
    unfold Nat.isValidChar
    omega
  rw [Char.ofNat, dif_pos hvalid]
  show 96 < ((n : Int) + r.shift).toNat
  omega

theorem toLower_mark : ∀ n < 128, (Char.ofNat n).toLower.toNat ≤ 96 →
    (Char.ofNat n).toLower = Char.ofNat n := by
  decide

theorem mem_lowerChar (c d : Char) (hc : c.toNat ≤ 96) (h : c ∈ lowerChar d) : c = d := by
  unfold lowerChar at h
  by_cases hascii : d.toNat < 128
  · have hmark := toLower_mark d.toNat hascii
    rw [Char.ofNat_toNat] at hmark
    simp only [hascii, if_true, List.mem_singleton] at h
    rw [h] at hc ⊢
    exact hmark hc
  · simp only [hascii, if_false] at h
    by_cases hdotted : (d.toNat == 0x130) = true
    · simp only [hdotted, if_true, List.mem_cons, List.not_mem_nil, or_false] at h
      rcases h with rfl | rfl
      · exact absurd hc (by decide)
      · exact absurd hc (by decide)
    · simp only [hdotted, Bool.false_eq_true, if_false] at h
      cases hrun : caseRuns.find? (·.holds d.toNat) with
      | none =>
        rw [hrun] at h
        exact List.mem_singleton.mp h
      | some r =>
        rw [hrun] at h
        have hplaced := List.all_eq_true.mp caseRuns_placed r (List.mem_of_find?_eq_some hrun)
        have hholds := List.find?_some hrun
        have hlt := lt_toNat_of_isPlaced r d.toNat hplaced hholds
        rw [← List.mem_singleton.mp h] at hlt
        omega

theorem mem_lowerFrom (c : Char) (before text : List Char) (hc : c.toNat ≤ 96)
    (h : c ∈ lowerFrom before text) : c ∈ text := by
  induction text generalizing before with
  | nil => exact h
  | cons d text ih =>
    rw [lowerFrom, List.mem_append] at h
    rcases h with hhere | hrest
    · by_cases hsigma : (d == capitalSigma) = true
      · have hlarge : 96 < (Char.ofNat 0x3C2).toNat ∧ 96 < (Char.ofNat 0x3C3).toNat := by
          decide
        simp only [hsigma, if_true] at hhere
        split at hhere
        all_goals
          rw [List.mem_singleton.mp hhere] at hc
          omega
      · simp only [hsigma, Bool.false_eq_true, if_false] at hhere
        rw [mem_lowerChar c d hc hhere]
        exact List.mem_cons_self
    · exact List.mem_cons_of_mem d (ih (d :: before) hrest)

theorem mem_lower (c : Char) (text : List Char) (hc : c.toNat ≤ 96) (h : c ∈ lower text) :
    c ∈ text :=
  mem_lowerFrom c [] text hc h

end DocLint.Text
