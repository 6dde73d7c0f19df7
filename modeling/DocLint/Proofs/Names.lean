import DocLint.Proofs.LineKinds
import DocLint.Proofs.TextLines
import DocLint.Signature

/-!
# Names in a text

A name has no blank in it, so it is read back from any text in which something
other than a name character follows it, and no keyword is read off its start.
-/

set_option autoImplicit false

namespace DocLint

namespace Text

def blankCodes : List Nat :=
  [9, 10, 11, 12, 13, 32, 0x85, 0xA0, 0x1680, 0x2000, 0x2001, 0x2002, 0x2003, 0x2004, 0x2005,
    0x2006, 0x2007, 0x2008, 0x2009, 0x200A, 0x2028, 0x2029, 0x202F, 0x205F, 0x3000]

theorem toNat_mem_blankCodes (c : Char) (h : isBlank c = true) : c.toNat ∈ blankCodes := by
  simp only [isBlank, Bool.or_eq_true, Bool.and_eq_true, decide_eq_true_eq, beq_iff_eq] at h
  simp only [blankCodes, List.mem_cons, List.not_mem_nil, or_false]
  omega

theorem not_nameChar_of_mem_blankCodes : ∀ n ∈ blankCodes, isNameChar (Char.ofNat n) = false := by
  decide +kernel

theorem not_nameChar_of_blank (c : Char) (h : isBlank c = true) : isNameChar c = false := by
  have hn := not_nameChar_of_mem_blankCodes c.toNat (toNat_mem_blankCodes c h)
  rwa [Char.ofNat_toNat] at hn

theorem not_blank_of_nameChar (c : Char) (h : isNameChar c = true) : isBlank c = false := by
  rw [← Bool.not_eq_true]
  intro hb
  rw [not_nameChar_of_blank c hb] at h
  contradiction

theorem toNat_lt_of_isAlpha (c : Char) (h : c.isAlpha = true) : c.toNat < 128 := by
  have hcases : (c.isUpper || c.isLower) = true := h
  rw [Bool.or_eq_true] at hcases
  show c.val.toNat < 128
  rcases hcases with hupper | hlower
  · have hrange : c.val ≥ 'A'.val ∧ c.val ≤ 'Z'.val := of_decide_eq_true hupper
    exact Nat.lt_of_le_of_lt (UInt32.le_iff_toNat_le.mp hrange.2) (by decide)
  · have hrange : (decide (c.val ≥ 'a'.val) && decide (c.val ≤ 'z'.val)) = true := hlower
    rw [Bool.and_eq_true, decide_eq_true_eq, decide_eq_true_eq] at hrange
    exact Nat.lt_of_le_of_lt (UInt32.le_iff_toNat_le.mp hrange.2) (by decide)

theorem nameChar_of_nameStart (c : Char) (h : isNameStart c = true) : isNameChar c = true := by
  rw [isNameStart, Bool.or_eq_true, Bool.or_eq_true, beq_iff_eq, beq_iff_eq] at h
  rcases h with (halpha | rfl) | rfl
  · have hascii := toNat_lt_of_isAlpha c halpha
    simp [isNameChar, isWordChar, hascii, Char.isAlphanum, halpha]
  · decide
  · decide

def isName : List Char → Bool
  | [] => false
  | c :: cs => isNameStart c && cs.all isNameChar

theorem ne_of_isName (c d : Char) (cs : List Char) (h : isName (c :: cs) = true)
    (hd : isNameStart d = false) : c ≠ d := by
  rintro rfl
  simp [isName, hd] at h

theorem nameChar_of_isName (name : List Char) (h : isName name = true) :
    ∀ c ∈ name, isNameChar c = true := by
  cases name with
  | nil => simp
  | cons c cs =>
    rw [isName, Bool.and_eq_true, List.all_eq_true] at h
    simp only [List.forall_mem_cons]
    exact ⟨nameChar_of_nameStart c h.1, h.2⟩

theorem not_mem_of_isName (name : List Char) (c : Char) (h : isName name = true)
    (hc : isNameChar c = false) : c ∉ name := by
  intro hmem
  rw [nameChar_of_isName name h c hmem] at hc
  contradiction

theorem takeWhile_word (word rest : List Char) (hword : ∀ c ∈ word, isNameChar c = true)
    (hrest : rest.head?.any isNameChar = false) :
    (word ++ rest).takeWhile isNameChar = word ∧ (word ++ rest).dropWhile isNameChar = rest := by
  rw [List.takeWhile_append_of_pos hword, List.dropWhile_append_of_pos hword]
  cases rest with
  | nil => simp
  | cons c rest =>
    have hc : isNameChar c = false := hrest
    simp [hc]

theorem name?_word (c : Char) (word rest : List Char) (hword : ∀ d ∈ word, isNameChar d = true)
    (hrest : rest.head?.any isNameChar = false) :
    name? (c :: word ++ rest) = if isNameStart c then some (c :: word, rest) else none := by
  have hsplit := takeWhile_word word rest hword hrest
  rw [List.cons_append, name?, hsplit.1, hsplit.2]

theorem name?_isName (name rest : List Char) (h : isName name = true)
    (hrest : rest.head?.any isNameChar = false) : name? (name ++ rest) = some (name, rest) := by
  cases name with
  | nil => simp [isName] at h
  | cons c name =>
    rw [isName, Bool.and_eq_true, List.all_eq_true] at h
    rw [name?_word c name rest h.2 hrest, if_pos h.1]

/-- What is left of a name and a character behind it, once a text without that character is taken
off, does not start with a blank. -/
theorem strip?_not_blank (text name rest left : List Char) (c : Char)
    (hname : ∀ d ∈ name, isNameChar d = true) (hc : isBlank c = false) (hct : c ∉ text)
    (h : strip? text (name ++ c :: rest) = some left) :
    ∃ d left', left = d :: left' ∧ isBlank d = false := by
  induction text generalizing name with
  | nil =>
    obtain rfl : name ++ c :: rest = left := Option.some.inj h
    cases name with
    | nil => exact ⟨c, rest, rfl, hc⟩
    | cons d name =>
      exact ⟨d, name ++ c :: rest, rfl, not_blank_of_nameChar d (hname d List.mem_cons_self)⟩
  | cons t text ih =>
    rw [List.mem_cons, not_or] at hct
    cases name with
    | nil =>
      have hne : (t == c) = false := beq_eq_false_iff_ne.mpr (Ne.symm hct.1)
      simp [strip?, hne] at h
    | cons d name =>
      rw [List.cons_append, strip?] at h
      split at h
      · exact ih name (fun e he => hname e (List.mem_cons_of_mem d he)) hct.2 h
      · contradiction

end Text

namespace Signature

theorem afterKeyword?_name (keyword : String) (name rest : List Char) (c : Char)
    (hname : ∀ d ∈ name, Text.isNameChar d = true) (hc : Text.isBlank c = false)
    (hck : c ∉ keyword.toList) : afterKeyword? keyword (name ++ c :: rest) = none := by
  rw [afterKeyword?]
  cases h : Text.strip? keyword.toList (name ++ c :: rest) with
  | none => rfl
  | some left =>
    obtain ⟨d, left', rfl, hd⟩ := Text.strip?_not_blank _ name rest left c hname hc hck h
    simp [hd]

theorem afterKeyword?_word (keyword : String) (word rest : List Char)
    (hkeyword : Text.isName keyword.toList = true)
    (hword : ∀ c ∈ word, Text.isNameChar c = true)
    (hrest : rest.head?.any Text.isNameChar = false) (hne : keyword.toList ≠ word) :
    afterKeyword? keyword (word ++ rest) = none := by
  rw [afterKeyword?]
  cases h : Text.strip? keyword.toList (word ++ rest) with
  | none => rfl
  | some left =>
    rw [Text.strip?_eq_some_iff] at h
    cases left with
    | nil => rfl
    | cons c left =>
      by_cases hblank : Text.isBlank c = true
      · have hfirst := (Text.takeWhile_word keyword.toList (c :: left)
          (Text.nameChar_of_isName _ hkeyword) (Text.not_nameChar_of_blank c hblank)).1
        rw [← h, (Text.takeWhile_word word rest hword hrest).1] at hfirst
        exact absurd hfirst.symm hne
      · simp [hblank]

theorem afterKeyword?_self (keyword : String) (rest : List Char) :
    afterKeyword? keyword (keyword.toList ++ ' ' :: rest) = some (Text.trimStart rest) := by
  rw [afterKeyword?, Text.strip?_append]
  rfl

theorem findSome?_afterKeyword? (keywords : List String) (keyword : String) (rest : List Char)
    (hnames : ∀ k ∈ keywords, Text.isName k.toList = true) (hmem : keyword ∈ keywords) :
    (keywords.findSome? fun k => afterKeyword? k (keyword.toList ++ ' ' :: rest)) =
      some (Text.trimStart rest) := by
  induction keywords with
  | nil => contradiction
  | cons k keywords ih =>
    by_cases hk : k = keyword
    · simp [hk, afterKeyword?_self]
    · have hne : k.toList ≠ keyword.toList := fun heq => hk (String.toList_inj.mp heq)
      have hnone := afterKeyword?_word k keyword.toList (' ' :: rest) (hnames k List.mem_cons_self)
        (Text.nameChar_of_isName _ (hnames keyword hmem)) rfl hne
      have hmem' : keyword ∈ keywords := (List.mem_cons.mp hmem).resolve_left (Ne.symm hk)
      rw [List.findSome?_cons, hnone]
      exact ih (fun l hl => hnames l (List.mem_cons_of_mem k hl)) hmem'

end Signature

end DocLint
