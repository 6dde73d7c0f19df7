import DocLint.Proofs.BraceMatching

/-!
# Pairs of braces

Read from left to right, a closing brace is paired with the innermost opening
brace that waits before it. The upward search from a line finds the partner of
the last closing brace of that line whose partner is not on the line itself.
-/

set_option autoImplicit false

namespace DocLint

/-- The places of the opening braces that wait for a partner, innermost first. -/
def waiting (bs : List (Nat × Brace)) : List Nat :=
  (bs.zipIdx.map fun e => (e.2, e.1.2)).foldl openStep []

/-- The place of the opening brace that is paired with the closing brace at place `j`. -/
def partner? (bs : List (Nat × Brace)) (j : Nat) : Option Nat :=
  match bs[j]? with
  | some (_, .closing) => (waiting (bs.take j)).head?
  | _ => none

/-- The brace at place `j` closes and stands on the line, and its partner does not. -/
def Unpaired (bs : List (Nat × Brace)) (line j : Nat) : Prop :=
  bs[j]? = some (line, .closing) ∧ ∀ i, partner? bs j = some i → ∀ b, bs[i]? ≠ some (line, b)

def LastUnpaired (bs : List (Nat × Brace)) (line j : Nat) : Prop :=
  Unpaired bs line j ∧ ∀ k, j < k → ¬ Unpaired bs line k

def closingCount (bs : List (Nat × Brace)) : Nat := (bs.map Prod.snd).count .closing

theorem closingCount_append (as bs : List (Nat × Brace)) :
    closingCount (as ++ bs) = closingCount as + closingCount bs := by
  simp [closingCount]

theorem closingCount_opening (l : Nat) (bs : List (Nat × Brace)) :
    closingCount ((l, .opening) :: bs) = closingCount bs := by
  simp [closingCount]

theorem closingCount_closing (l : Nat) (bs : List (Nat × Brace)) :
    closingCount ((l, .closing) :: bs) = closingCount bs + 1 := by
  simp [closingCount]

theorem closingCount_on (l : Nat) (bs : List Brace) :
    closingCount (bs.map (Prod.mk l)) = bs.count .closing := by
  simp [closingCount, Function.comp_def]

theorem LastUnpaired.unique {bs : List (Nat × Brace)} {line j k : Nat}
    (hj : LastUnpaired bs line j) (hk : LastUnpaired bs line k) : j = k := by
  rcases Nat.lt_trichotomy j k with h | h | h
  · exact absurd hk.1 (hj.2 k h)
  · exact h
  · exact absurd hj.1 (hk.2 j h)

theorem waiting_opening (bs : List (Nat × Brace)) (l : Nat) :
    waiting (bs ++ [(l, .opening)]) = bs.length :: waiting bs := by
  simp [waiting, List.zipIdx_append, openStep]

theorem waiting_closing (bs : List (Nat × Brace)) (l : Nat) :
    waiting (bs ++ [(l, .closing)]) = (waiting bs).tail := by
  simp [waiting, List.zipIdx_append, openStep]

theorem leftover_opening (bs : List (Nat × Brace)) (l : Nat) :
    leftover (bs ++ [(l, .opening)]) = ⟨(leftover bs).closings, l :: (leftover bs).openings⟩ :=
  leftover_concat bs (l, .opening)

theorem leftover_closing_free (bs : List (Nat × Brace)) (l : Nat)
    (h : (leftover bs).openings = []) :
    leftover (bs ++ [(l, .closing)]) = ⟨(leftover bs).closings + 1, []⟩ := by
  rw [leftover_concat]
  simp [Leftover.step, h]

theorem leftover_closing_paired (bs : List (Nat × Brace)) (l : Nat)
    (h : (leftover bs).openings ≠ []) :
    leftover (bs ++ [(l, .closing)]) = ⟨(leftover bs).closings, (leftover bs).openings.tail⟩ := by
  rw [leftover_concat]
  obtain ⟨first, rest, hopen⟩ := List.exists_cons_of_ne_nil h
  simp [Leftover.step, hopen]

theorem length_waiting (bs : List (Nat × Brace)) :
    (waiting bs).length = (leftover bs).openings.length := by
  induction bs using List.reverseRecOn with
  | nil => rfl
  | append_singleton bs b ih =>
    obtain ⟨l, brace⟩ := b
    cases brace with
    | opening => simp [waiting_opening, leftover_opening, ih]
    | closing =>
      rw [waiting_closing, List.length_tail, ih]
      by_cases h : (leftover bs).openings = []
      · simp [leftover_closing_free bs l h, h]
      · simp [leftover_closing_paired bs l h]

theorem waiting_eq_nil_iff (bs : List (Nat × Brace)) :
    waiting bs = [] ↔ (leftover bs).openings = [] := by
  rw [← List.length_eq_zero_iff, length_waiting, List.length_eq_zero_iff]

/-- What waits behind two sequences: the second sequence adds its own, and its closing braces take
partners from the first. -/
theorem waiting_append (as bs : List (Nat × Brace)) :
    waiting (as ++ bs) =
      (waiting bs).map (· + as.length) ++ (waiting as).drop (leftover bs).closings := by
  induction bs using List.reverseRecOn with
  | nil => simp [waiting, leftover]
  | append_singleton bs b ih =>
    obtain ⟨l, brace⟩ := b
    rw [← List.append_assoc]
    cases brace with
    | opening =>
      rw [waiting_opening, waiting_opening, leftover_opening, ih]
      simp [Nat.add_comm]
    | closing =>
      rw [waiting_closing, waiting_closing, ih]
      by_cases h : (leftover bs).openings = []
      · have hnil := (waiting_eq_nil_iff bs).mpr h
        simp [leftover_closing_free bs l h, hnil, List.tail_drop]
      · have hne : (waiting bs).map (· + as.length) ≠ [] := by
          simpa [waiting_eq_nil_iff] using h
        rw [leftover_closing_paired bs l h, List.tail_append_of_ne_nil hne, List.map_tail]

theorem opening_of_mem_waiting (bs : List (Nat × Brace)) (i : Nat) (h : i ∈ waiting bs) :
    ∃ l, bs[i]? = some (l, .opening) := by
  induction bs using List.reverseRecOn with
  | nil => simp [waiting] at h
  | append_singleton bs b ih =>
    have keep : i ∈ waiting bs → ∃ l, (bs ++ [b])[i]? = some (l, .opening) := by
      intro hi
      obtain ⟨l, hl⟩ := ih hi
      exact ⟨l, by rw [List.getElem?_append_left (List.getElem?_eq_some_iff.mp hl).1, hl]⟩
    obtain ⟨l, brace⟩ := b
    cases brace with
    | opening =>
      rw [waiting_opening] at h
      rcases List.mem_cons.mp h with rfl | h
      · exact ⟨l, by simp⟩
      · exact keep h
    | closing =>
      rw [waiting_closing] at h
      exact keep (List.mem_of_mem_tail h)

/-- An opening brace waits with `k` others inside it, and nothing behind it closes what was open
before. -/
theorem getElem?_waiting_iff (bs : List (Nat × Brace)) (k i : Nat) :
    (waiting bs)[k]? = some i ↔
      ∃ above l inside, bs = above ++ (l, .opening) :: inside ∧ above.length = i ∧
        (leftover inside).closings = 0 ∧ (leftover inside).openings.length = k := by
  constructor
  · intro h
    induction bs using List.reverseRecOn generalizing k with
    | nil => simp [waiting] at h
    | append_singleton bs b ih =>
      obtain ⟨l, brace⟩ := b
      cases brace with
      | opening =>
        rw [waiting_opening] at h
        cases k with
        | zero =>
          obtain rfl : bs.length = i := by simpa using h
          exact ⟨bs, l, [], by simp, rfl, rfl, rfl⟩
        | succ k =>
          obtain ⟨above, l', inside, rfl, hi, hc, ho⟩ := ih k (by simpa using h)
          refine ⟨above, l', inside ++ [(l, .opening)], by simp, hi, ?_⟩
          simp [leftover_opening, hc, ho]
      | closing =>
        rw [waiting_closing, List.getElem?_tail] at h
        obtain ⟨above, l', inside, rfl, hi, hc, ho⟩ := ih (k + 1) h
        have hne : (leftover inside).openings ≠ [] := by
          rw [← List.length_pos_iff]
          omega
        refine ⟨above, l', inside ++ [(l, .closing)], by simp, hi, ?_⟩
        simp [leftover_closing_paired inside l hne, hc, ho]
  · rintro ⟨above, l, inside, rfl, rfl, hc, rfl⟩
    rw [← List.singleton_append, ← List.append_assoc, waiting_append, hc, List.drop_zero,
      waiting_opening, ← length_waiting]
    simp

section Line

variable (as bs : List (Nat × Brace)) (line : Nat)

theorem partner?_split (front back : List (Nat × Brace)) (l : Nat) :
    partner? (as ++ (front ++ (l, .closing) :: back)) (as.length + front.length) =
      ((waiting front).map (· + as.length) ++
        (waiting as).drop (leftover front).closings).head? := by
  have hat : (as ++ (front ++ (l, .closing) :: back))[as.length + front.length]? =
      some (l, .closing) := by simp
  have htake : (as ++ (front ++ (l, .closing) :: back)).take (as.length + front.length) =
      as ++ front := by
    rw [← List.append_assoc, ← List.length_append, List.take_left]
  rw [partner?, hat, htake, waiting_append]

/-- A closing brace of the line is paired on it exactly if an opening brace of the line waits
before it. -/
theorem unpaired_iff (has : ∀ b ∈ as, b.1 ≠ line) (hbs : ∀ b ∈ bs, b.1 = line) (j : Nat) :
    Unpaired (as ++ bs) line j ↔
      ∃ front back, bs = front ++ (line, .closing) :: back ∧ j = as.length + front.length ∧
        (leftover front).openings = [] := by
  constructor
  · rintro ⟨hat, hfree⟩
    have hge : as.length ≤ j := by
      by_contra hlt
      rw [List.getElem?_append_left (by omega)] at hat
      exact has _ (List.mem_of_getElem? hat) rfl
    rw [List.getElem?_append_right hge] at hat
    obtain ⟨hlt, hget⟩ := List.getElem?_eq_some_iff.mp hat
    have hsplit : bs = bs.take (j - as.length) ++
        (line, .closing) :: bs.drop (j - as.length + 1) := by
      rw [← hget, ← List.drop_eq_getElem_cons hlt, List.take_append_drop]
    have hj : j = as.length + (bs.take (j - as.length)).length := by
      rw [List.length_take]
      omega
    generalize bs.take (j - as.length) = front at hsplit hj
    generalize bs.drop (j - as.length + 1) = back at hsplit
    refine ⟨front, back, hsplit, hj, ?_⟩
    by_contra hopen
    have hne : waiting front ≠ [] := fun hnil => hopen ((waiting_eq_nil_iff front).mp hnil)
    obtain ⟨i, rest, hw⟩ := List.exists_cons_of_ne_nil hne
    obtain ⟨l, hl⟩ := opening_of_mem_waiting front i (hw ▸ List.mem_cons_self)
    -- the partner is the innermost opening brace of the line
    have hpartner : partner? (as ++ bs) j = some (i + as.length) := by
      rw [hsplit, hj, partner?_split, hw]
      rfl
    have hbrace : bs[i]? = some (l, .opening) := by
      rw [hsplit, List.getElem?_append_left (List.getElem?_eq_some_iff.mp hl).1, hl]
    apply hfree _ hpartner .opening
    rw [List.getElem?_append_right (by omega), Nat.add_sub_cancel, hbrace,
      show l = line from hbs _ (List.mem_of_getElem? hbrace)]
  · rintro ⟨front, back, rfl, rfl, hopen⟩
    have hnil := (waiting_eq_nil_iff front).mpr hopen
    refine ⟨by simp, ?_⟩
    intro i hi b hb
    rw [partner?_split, hnil, List.map_nil, List.nil_append] at hi
    have hmem : i ∈ waiting as := List.mem_of_mem_drop (List.mem_of_mem_head? hi)
    obtain ⟨l, hl⟩ := opening_of_mem_waiting as i hmem
    rw [List.getElem?_append_left (List.getElem?_eq_some_iff.mp hl).1] at hb
    exact has _ (List.mem_of_getElem? hb) rfl

theorem closings_of_split (front back : List (Nat × Brace)) (l : Nat)
    (h : (leftover front).openings = []) :
    (leftover (front ++ (l, .closing) :: back)).closings =
      (leftover front).closings + 1 + (leftover back).closings := by
  rw [← List.singleton_append, ← List.append_assoc, leftover_closings_append,
    leftover_closing_free front l h]
  simp

theorem exists_last_split (h : (leftover bs).closings ≠ 0) :
    ∃ front l back, bs = front ++ (l, .closing) :: back ∧ (leftover front).openings = [] ∧
      (leftover back).closings = 0 := by
  induction bs using List.reverseRecOn with
  | nil => exact absurd rfl h
  | append_singleton bs b ih =>
    obtain ⟨l, brace⟩ := b
    have extend (hne : (leftover bs).closings ≠ 0)
        (hsame : (leftover (bs ++ [(l, brace)])).closings = (leftover bs).closings) :
        ∃ front l' back, bs ++ [(l, brace)] = front ++ (l', .closing) :: back ∧
          (leftover front).openings = [] ∧ (leftover back).closings = 0 := by
      obtain ⟨front, l', back, rfl, hopen, hback⟩ := ih hne
      refine ⟨front, l', back ++ [(l, brace)], by simp, hopen, ?_⟩
      rw [List.append_assoc, List.cons_append, closings_of_split front _ l' hopen,
        closings_of_split front _ l' hopen] at hsame
      omega
    cases brace with
    | opening =>
      rw [leftover_opening] at h
      exact extend h (by rw [leftover_opening])
    | closing =>
      by_cases hopen : (leftover bs).openings = []
      · exact ⟨bs, l, [], by simp, hopen, rfl⟩
      · rw [leftover_closing_paired bs l hopen] at h
        exact extend h (by rw [leftover_closing_paired bs l hopen])

/-- The last closing brace of a line that is not paired on it takes its partner from above: as
many opening braces wait inside that one as other closing braces of the line are not paired. -/
theorem exists_lastUnpaired (has : ∀ b ∈ as, b.1 ≠ line) (hbs : ∀ b ∈ bs, b.1 = line)
    (h : (leftover bs).closings ≠ 0) :
    ∃ j, LastUnpaired (as ++ bs) line j ∧
      partner? (as ++ bs) j = (waiting as)[(leftover bs).closings - 1]? := by
  obtain ⟨front, l, back, hsplit, hopen, hback⟩ := exists_last_split bs h
  obtain rfl : l = line := hbs (l, .closing) (by simp [hsplit])
  have hcount := closings_of_split front back l hopen
  rw [← hsplit, hback] at hcount
  refine ⟨as.length + front.length, ⟨?_, ?_⟩, ?_⟩
  · exact (unpaired_iff as bs l has hbs _).mpr ⟨front, back, hsplit, rfl, hopen⟩
  · intro k hk hun
    obtain ⟨front', back', hsplit', rfl, hopen'⟩ := (unpaired_iff as bs l has hbs k).mp hun
    obtain ⟨mid, rfl⟩ : front <+: front' :=
      List.prefix_of_prefix_length_le ⟨_, hsplit.symm⟩ ⟨_, hsplit'.symm⟩ (by omega)
    rw [hsplit, List.append_assoc, List.append_cancel_left_eq] at hsplit'
    cases mid with
    | nil => simp at hk
    | cons b mid =>
      rw [List.cons_append, List.cons.injEq] at hsplit'
      obtain ⟨rfl, rfl⟩ := hsplit'
      rw [← List.singleton_append, ← List.append_assoc, leftover_openings_append,
        List.append_eq_nil_iff] at hopen'
      have := closings_of_split mid back' l hopen'.1
      omega
  · have hnil := (waiting_eq_nil_iff front).mpr hopen
    rw [hsplit, partner?_split, hnil, List.map_nil, List.nil_append, List.head?_drop, ← hsplit,
      hcount]
    simp

theorem not_unpaired (has : ∀ b ∈ as, b.1 ≠ line) (hbs : ∀ b ∈ bs, b.1 = line)
    (h : (leftover bs).closings = 0) (j : Nat) : ¬ Unpaired (as ++ bs) line j := by
  intro hun
  obtain ⟨front, back, rfl, -, hopen⟩ := (unpaired_iff as bs line has hbs j).mp hun
  rw [closings_of_split front back line hopen] at h
  omega

end Line

namespace BraceStack

/-- The stack has met `n` closing braces, and each of them is matched or waits. -/
structure Met (s : BraceStack) (n : Nat) : Prop where
  closed : s.closed = n
  settled : s.opened + s.depth = n

theorem met_empty : empty.Met 0 := ⟨rfl, rfl⟩

theorem Met.close {s : BraceStack} {n : Nat} (h : s.Met n) (line : Nat) :
    (s.close line).Met (n + 1) := by
  refine ⟨congrArg (· + 1) h.closed, ?_⟩
  rw [depth_close, ← h.settled]
  rfl

theorem Met.takeOpen {s : BraceStack} {n : Nat} (h : s.Met n) : s.takeOpen.2.Met n := by
  obtain ⟨pending, opened, closed⟩ := s
  cases pending with
  | nil => exact h
  | cons first rest =>
    refine ⟨h.closed, ?_⟩
    rw [← h.settled]
    simp only [BraceStack.takeOpen, depth, List.length_cons]
    omega

theorem Met.readLine {s : BraceStack} {n : Nat} (h : s.Met n) (line : Nat) (bs : List Brace) :
    (s.readLine line bs).Met (n + bs.count .closing) := by
  induction bs generalizing s n with
  | nil => exact h
  | cons b bs ih =>
    cases b with
    | opening => simpa [BraceStack.readLine] using ih h.takeOpen
    | closing =>
      have hstep := ih (h.close line)
      rw [Nat.add_right_comm] at hstep
      simpa [BraceStack.readLine, Nat.add_assoc] using hstep

/-- The search stops at the opening brace that leaves room for all closing braces but one, and by
then it has matched all that it met. -/
theorem findOpener_of_split (s : BraceStack) (n : Nat) (hs : s.Met n)
    (above inside : List (Nat × Brace)) (l : Nat) (hc : (leftover inside).closings = 0)
    (ho : (leftover inside).openings.length + 1 = s.depth) :
    s.findOpener (above ++ (l, .opening) :: inside).reverse =
      some ⟨l, n + closingCount inside, n + closingCount inside⟩ := by
  induction inside using List.reverseRecOn generalizing s n with
  | nil =>
    obtain ⟨pending, opened, closed⟩ := s
    obtain ⟨first, rfl⟩ : ∃ first, pending = [first] := List.length_eq_one_iff.mp ho.symm
    obtain ⟨rfl, hsettled⟩ := hs
    simp only [depth, List.length_singleton] at hsettled
    simp [findOpener, takeOpen, isEmpty, closingCount, hsettled]
  | append_singleton inside b ih =>
    obtain ⟨line, brace⟩ := b
    rw [← List.cons_append, ← List.append_assoc, List.reverse_append, List.reverse_singleton,
      List.singleton_append]
    cases brace with
    | closing =>
      have hne : (leftover inside).openings ≠ [] := by
        intro hnil
        rw [leftover_closing_free inside line hnil] at hc
        exact absurd hc (Nat.succ_ne_zero _)
      rw [leftover_closing_paired inside line hne] at hc ho
      have hlen := List.length_pos_iff.mpr hne
      rw [List.length_tail] at ho
      rw [findOpener, ih (s.close line) (n + 1) (hs.close line) hc (by rw [depth_close]; omega)]
      rw [closingCount_append, closingCount_closing, Nat.add_right_comm]
      rfl
    | opening =>
      rw [leftover_opening] at hc ho
      have htake := hs.takeOpen
      obtain ⟨pending, opened, closed⟩ := s
      cases pending with
      | nil => exact absurd ho (Nat.succ_ne_zero _)
      | cons first rest =>
        have hrest : (leftover inside).openings.length + 1 = rest.length := Nat.succ.inj ho
        have hempty : rest.isEmpty = false := by
          rw [List.isEmpty_eq_false_iff, ← List.length_pos_iff]
          omega
        simp only [findOpener, takeOpen, isEmpty, hempty, Bool.false_eq_true, if_false]
        rw [ih ⟨rest, opened + 1, closed⟩ n htake hc hrest, closingCount_append,
          closingCount_opening]
        rfl

end BraceStack

section Search

variable (lines : List Line) (c : Nat)

theorem matchClose_of_split (above inside : List (Nat × Brace)) (l : Nat)
    (hb : bracesBefore lines c = above ++ (l, .opening) :: inside)
    (hc : (leftover inside).closings = 0)
    (ho : (leftover inside).openings.length + 1 = (leftover (bracesOn lines c)).closings) :
    matchClose lines c = some ⟨l, closingCount (inside ++ bracesOn lines c),
      closingCount (inside ++ bracesOn lines c)⟩ := by
  have hlt : c < lines.length := by
    by_contra hge
    rw [bracesOn, lineAt_of_ge lines c (Nat.le_of_not_lt hge)] at ho
    exact absurd ho (Nat.succ_ne_zero _)
  have hdepth := BraceStack.depth_readLine BraceStack.empty c (lineAt lines c).braces
  have hzero : BraceStack.empty.depth = 0 := rfl
  rw [hzero, Nat.zero_sub, Nat.add_zero] at hdepth
  change _ = (leftover (bracesOn lines c)).closings at hdepth
  have hmet := BraceStack.met_empty.readLine c (lineAt lines c).braces.reverse
  have hne : (BraceStack.empty.readLine c (lineAt lines c).braces.reverse).isEmpty = false := by
    rw [BraceStack.isEmpty, List.isEmpty_eq_false_iff, ← List.length_pos_iff]
    exact Nat.lt_of_lt_of_eq (by omega) hdepth.symm
  have hfind := BraceStack.findOpener_of_split _ _ hmet above inside l hc (ho.trans hdepth.symm)
  rw [matchClose, lineAt_of_lt lines c hlt]
  simp only [hne, Bool.false_eq_true, if_false]
  rw [hb, hfind, closingCount_append, bracesOn, closingCount_on, List.count_reverse,
    Nat.zero_add, Nat.add_comm]

theorem matchClose_eq_some_iff (m : BraceMatch) :
    matchClose lines c = some m ↔
      ∃ above inside, bracesBefore lines c = above ++ (m.openLine, .opening) :: inside ∧
        (leftover inside).closings = 0 ∧
        (leftover inside).openings.length + 1 = (leftover (bracesOn lines c)).closings ∧
        m.opened = closingCount (inside ++ bracesOn lines c) ∧
        m.closed = closingCount (inside ++ bracesOn lines c) := by
  constructor
  · intro h
    obtain ⟨above, inside, hb, hc, ho⟩ := matchClose_split lines c m h
    have hfound := matchClose_of_split lines c above inside m.openLine hb hc ho
    have hm := Option.some.inj (h.symm.trans hfound)
    exact ⟨above, inside, hb, hc, ho, congrArg BraceMatch.opened hm, congrArg BraceMatch.closed hm⟩
  · obtain ⟨l, opened, closed⟩ := m
    rintro ⟨above, inside, hb, hc, ho, rfl, rfl⟩
    exact matchClose_of_split lines c above inside l hb hc ho

theorem line_ne_of_mem_bracesBefore (b : Nat × Brace) (hb : b ∈ bracesBefore lines c) : b.1 ≠ c :=
  Nat.ne_of_lt (line_of_mem_bracesBefore lines c b hb)

theorem line_of_mem_bracesOn (b : Nat × Brace) (hb : b ∈ bracesOn lines c) : b.1 = c := by
  obtain ⟨brace, -, rfl⟩ := List.mem_map.mp hb
  rfl

theorem lastUnpaired_or_matchClose_eq_none :
    (∃ j, LastUnpaired (bracesBefore lines (c + 1)) c j) ∨
      (∀ j, ¬ Unpaired (bracesBefore lines (c + 1)) c j) ∧ matchClose lines c = none := by
  have habove := line_ne_of_mem_bracesBefore lines c
  have hon := line_of_mem_bracesOn lines c
  rw [bracesBefore_succ]
  by_cases hzero : (leftover (bracesOn lines c)).closings = 0
  · refine Or.inr ⟨not_unpaired _ _ c habove hon hzero, ?_⟩
    rw [Option.eq_none_iff_forall_ne_some]
    intro m hm
    obtain ⟨above, inside, -, -, ho, -⟩ := (matchClose_eq_some_iff lines c m).mp hm
    omega
  · obtain ⟨j, hj, -⟩ := exists_lastUnpaired _ _ c habove hon hzero
    exact Or.inl ⟨j, hj⟩

variable (j : Nat) (hj : LastUnpaired (bracesBefore lines (c + 1)) c j)

include hj

theorem partner?_of_lastUnpaired :
    (leftover (bracesOn lines c)).closings ≠ 0 ∧
      partner? (bracesBefore lines (c + 1)) j =
        (waiting (bracesBefore lines c))[(leftover (bracesOn lines c)).closings - 1]? := by
  have habove := line_ne_of_mem_bracesBefore lines c
  have hon := line_of_mem_bracesOn lines c
  rw [bracesBefore_succ] at hj ⊢
  have hne : (leftover (bracesOn lines c)).closings ≠ 0 := fun hzero =>
    not_unpaired _ _ c habove hon hzero j hj.1
  obtain ⟨k, hk, hpartner⟩ := exists_lastUnpaired _ _ c habove hon hne
  exact ⟨hne, hj.unique hk ▸ hpartner⟩

theorem matchClose_eq_some_iff_partner (m : BraceMatch) :
    matchClose lines c = some m ↔
      ∃ i, partner? (bracesBefore lines (c + 1)) j = some i ∧
        (bracesBefore lines (c + 1))[i]? = some (m.openLine, .opening) ∧
        m.opened = closingCount ((bracesBefore lines (c + 1)).drop i) ∧
        m.closed = closingCount ((bracesBefore lines (c + 1)).drop i) := by
  obtain ⟨hne, hpartner⟩ := partner?_of_lastUnpaired lines c j hj
  rw [matchClose_eq_some_iff, hpartner, bracesBefore_succ]
  have hdrop : ∀ above l inside, bracesBefore lines c = above ++ (l, .opening) :: inside →
      closingCount ((bracesBefore lines c ++ bracesOn lines c).drop above.length) =
        closingCount (inside ++ bracesOn lines c) := by
    intro above l inside hb
    rw [hb, List.append_assoc, List.drop_left, List.cons_append, closingCount_opening]
  constructor
  · rintro ⟨above, inside, hb, hc, ho, hopened, hclosed⟩
    refine ⟨above.length, ?_, ?_, ?_⟩
    · exact (getElem?_waiting_iff _ _ _).mpr ⟨above, m.openLine, inside, hb, rfl, hc, by omega⟩
    · simp [hb]
    · rw [hdrop above m.openLine inside hb]
      exact ⟨hopened, hclosed⟩
  · rintro ⟨i, hi, hat, hcounts⟩
    obtain ⟨above, l, inside, hb, rfl, hc, ho⟩ := (getElem?_waiting_iff _ _ _).mp hi
    have hl : l = m.openLine := by simpa [hb] using hat
    refine ⟨above, inside, hl ▸ hb, hc, by omega, ?_⟩
    rw [← hdrop above l inside hb]
    exact hcounts

theorem matchClose_eq_none_iff_partner :
    matchClose lines c = none ↔ partner? (bracesBefore lines (c + 1)) j = none := by
  have hiff := matchClose_eq_some_iff_partner lines c j hj
  rw [Option.eq_none_iff_forall_ne_some, Option.eq_none_iff_forall_ne_some]
  constructor
  · intro h i hi
    have hmem := List.mem_of_getElem? ((partner?_of_lastUnpaired lines c j hj).2 ▸ hi)
    obtain ⟨l, hl⟩ := opening_of_mem_waiting _ i hmem
    have hat : (bracesBefore lines (c + 1))[i]? = some (l, .opening) := by
      rw [bracesBefore_succ, List.getElem?_append_left (List.getElem?_eq_some_iff.mp hl).1, hl]
    exact h ⟨l, _, _⟩ ((hiff ⟨l, _, _⟩).mpr ⟨i, hi, hat, rfl, rfl⟩)
  · intro h m hm
    obtain ⟨i, hi, -⟩ := (hiff m).mp hm
    exact h i hi

end Search

/-- The upward search from a line finds the partner that the left-to-right pairing gives to the
last closing brace of the line that is not paired on it, and nothing if there is no such brace or
it has no partner. Of the braces from that partner on it has met as many of one kind as of the
other. -/
theorem matchClose_finds_partner (lines : List Line) (c : Nat) :
    let bs := bracesBefore lines (c + 1)
    (∀ m, matchClose lines c = some m ↔
      ∃ j i, LastUnpaired bs c j ∧ partner? bs j = some i ∧
        bs[i]? = some (m.openLine, .opening) ∧
        m.opened = closingCount (bs.drop i) ∧ m.closed = closingCount (bs.drop i)) ∧
    (∀ m, matchClose lines c = some m → m.openLine < c ∧ m.opened = m.closed) ∧
    (matchClose lines c = none ↔
      (∀ j, ¬ Unpaired bs c j) ∨ ∃ j, LastUnpaired bs c j ∧ partner? bs j = none) := by
  intro bs
  rcases lastUnpaired_or_matchClose_eq_none lines c with ⟨j, hj⟩ | ⟨hun, hnone⟩
  · have hiff := matchClose_eq_some_iff_partner lines c j hj
    refine ⟨fun m => ?_, ?_, ?_⟩
    · rw [hiff]
      constructor
      · rintro ⟨i, h⟩
        exact ⟨j, i, hj, h⟩
      · rintro ⟨k, i, hk, h⟩
        exact ⟨i, hj.unique hk ▸ h⟩
    · intro m hm
      obtain ⟨i, -, -, hopened, hclosed⟩ := (hiff m).mp hm
      exact ⟨openLine_lt lines c m hm, hopened.trans hclosed.symm⟩
    · rw [matchClose_eq_none_iff_partner lines c j hj]
      constructor
      · intro h
        exact Or.inr ⟨j, hj, h⟩
      · rintro (hnot | ⟨k, hk, h⟩)
        · exact absurd hj.1 (hnot j)
        · exact hj.unique hk ▸ h
  · refine ⟨fun m => ?_, by simp [hnone], by simp [hnone, bs, hun]⟩
    rw [hnone]
    constructor
    · intro h
      contradiction
    · rintro ⟨j, i, hj, -⟩
      exact absurd hj.1 (hun j)

end DocLint
