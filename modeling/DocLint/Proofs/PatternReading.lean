import DocLint.Pattern
import DocLint.Proofs.AscendingNumbers
import Mathlib.Data.List.Perm.Subperm
import Mathlib.Logic.Relation

/-!
# What a pattern reads

A pattern reads passages of a text; what follows a passage counts only where the
pattern looks ahead. The places that a pattern leads to, from all places of an
ascending list at once, are the places behind the passages it reads there. So a
pattern opens a text exactly if it reads some beginning of it.
-/

set_option autoImplicit false

namespace DocLint.Pattern

variable {α : Type}

/-- Passages one after the other. Of each it is known what follows. -/
inductive Copies (step : List α → List α → Prop) : List α → List α → Prop
  | none (rest : List α) : Copies step [] rest
  | more (part parts rest : List α) (hpart : step part (parts ++ rest))
      (hparts : Copies step parts rest) : Copies step (part ++ parts) rest

def Reads : Pattern α → List α → List α → Prop
  | anyOf texts, passage, _ => passage ∈ texts
  | one p, passage, _ => ∃ c, passage = [c] ∧ p c = true
  | many p, passage, _ => ∀ c ∈ passage, p c = true
  | ahead p, passage, rest => passage = [] ∧ p rest.head? = true
  | seq a b, passage, rest => ∃ x y, passage = x ++ y ∧ Reads a x (y ++ rest) ∧ Reads b y rest
  | either a b, passage, rest => Reads a passage rest ∨ Reads b passage rest
  | optional a, passage, rest => passage = [] ∨ Reads a passage rest
  | repeated a, passage, rest => Copies (Reads a) passage rest

def Leads (text : Array α) (p : Pattern α) (i j : Nat) : Prop :=
  i ≤ text.size ∧ ∃ passage rest, text.toList.drop i = passage ++ rest ∧ Reads p passage rest ∧
    j = i + passage.length

def Places (text : Array α) (places : List Nat) : Prop :=
  places.Pairwise (· < ·) ∧ ∀ i ∈ places, i ≤ text.size

def Follows (text : Array α) (step : List Nat → List Nat) (r : Nat → Nat → Prop) : Prop :=
  ∀ places, Places text places →
    Places text (step places) ∧ ∀ j, j ∈ step places ↔ ∃ i ∈ places, r i j

theorem Places.nil (text : Array α) : Places text [] := ⟨List.Pairwise.nil, by simp⟩

theorem Places.filter (text : Array α) (places : List Nat) (h : Places text places)
    (p : Nat → Bool) : Places text (places.filter p) :=
  ⟨h.1.filter p, fun i hi => h.2 i (List.mem_filter.mp hi).1⟩

theorem Places.merge (text : Array α) (xs ys : List Nat) (hx : Places text xs)
    (hy : Places text ys) : Places text (mergeAscending xs ys) := by
  refine ⟨mergeAscending_pairwise xs ys hx.1 hy.1, ?_⟩
  intro i hi
  rcases (mem_mergeAscending xs ys i hy.1).mp hi with h | h
  · exact hx.2 i h
  · exact hy.2 i h

theorem Places.length_le (text : Array α) (places : List Nat) (h : Places text places) :
    places.length ≤ text.size + 1 := by
  have hnodup : places.Nodup := h.1.imp fun hlt => Nat.ne_of_lt hlt
  have hsub : places ⊆ List.range (text.size + 1) := by
    intro i hi
    have := h.2 i hi
    exact List.mem_range.mpr (by omega)
  have hle := (List.subperm_of_subset hnodup hsub).length_le
  rwa [List.length_range] at hle

theorem fits_iff [BEq α] [LawfulBEq α] (text : Array α) (t : List α) (i : Nat) :
    fits text t i = true ↔ t <+: text.toList.drop i := by
  induction t generalizing i with
  | nil => simp [fits]
  | cons c t ih =>
    rw [fits, Bool.and_eq_true, ih, beq_iff_eq]
    by_cases hi : i < text.size
    · have hdrop : text.toList.drop i = text[i] :: text.toList.drop (i + 1) :=
        List.drop_eq_getElem_cons hi
      rw [hdrop, List.cons_prefix_cons]
      simp [hi, eq_comm]
    · have hdrop : text.toList.drop i = [] := List.drop_eq_nil_of_le (by simpa using hi)
      rw [hdrop]
      simp [hi]

theorem follows_text [BEq α] [LawfulBEq α] (text : Array α) (t : List α) :
    Follows text (fun places => (places.filter (fits text t)).map (· + t.length))
      fun i j => i ≤ text.size ∧ t <+: text.toList.drop i ∧ j = i + t.length := by
  intro places h
  have hmem (j : Nat) : j ∈ (places.filter (fits text t)).map (· + t.length) ↔
      ∃ i ∈ places, i ≤ text.size ∧ t <+: text.toList.drop i ∧ j = i + t.length := by
    simp only [List.mem_map, List.mem_filter, fits_iff]
    constructor
    · rintro ⟨i, ⟨hi, hfits⟩, rfl⟩
      exact ⟨i, hi, h.2 i hi, hfits, rfl⟩
    · rintro ⟨i, hi, -, hfits, rfl⟩
      exact ⟨i, ⟨hi, hfits⟩, rfl⟩
  refine ⟨⟨?_, ?_⟩, hmem⟩
  · rw [List.pairwise_map]
    exact (h.1.filter _).imp fun hlt => Nat.add_lt_add_right hlt _
  · intro j hj
    obtain ⟨i, -, hi, hfits, rfl⟩ := (hmem j).mp hj
    have hle := hfits.length_le
    simp only [List.length_drop, Array.length_toList] at hle
    omega

theorem follows_behindTexts [BEq α] [LawfulBEq α] (text : Array α) (texts : List (List α)) :
    Follows text (behindTexts text texts)
      fun i j => i ≤ text.size ∧ ∃ t ∈ texts, t <+: text.toList.drop i ∧ j = i + t.length := by
  intro places h
  -- The fold collects the places behind the texts it has passed.
  have hfold (found : List Nat) (hfound : Places text found) :
      Places text (texts.foldl (fun found t => mergeAscending found
          ((places.filter (fits text t)).map (· + t.length))) found) ∧
        ∀ j, j ∈ texts.foldl (fun found t => mergeAscending found
            ((places.filter (fits text t)).map (· + t.length))) found ↔
          j ∈ found ∨ ∃ i ∈ places, i ≤ text.size ∧
            ∃ t ∈ texts, t <+: text.toList.drop i ∧ j = i + t.length := by
    induction texts generalizing found with
    | nil => simpa using hfound
    | cons t texts ih =>
      obtain ⟨hplaces, hmem⟩ := follows_text text t places h
      obtain ⟨hall, hmemAll⟩ := ih _ (Places.merge text found _ hfound hplaces)
      refine ⟨hall, ?_⟩
      intro j
      rw [List.foldl_cons, hmemAll, mem_mergeAscending _ _ _ hplaces.1, hmem, or_assoc]
      apply or_congr_right
      constructor
      · rintro (⟨i, hi, hle, hfits, rfl⟩ | ⟨i, hi, hle, u, hu, hfits⟩)
        · exact ⟨i, hi, hle, t, List.mem_cons_self, hfits, rfl⟩
        · exact ⟨i, hi, hle, u, List.mem_cons_of_mem t hu, hfits⟩
      · rintro ⟨i, hi, hle, u, hu, hfits⟩
        rcases List.mem_cons.mp hu with rfl | hu
        · exact Or.inl ⟨i, hi, hle, hfits⟩
        · exact Or.inr ⟨i, hi, hle, u, hu, hfits⟩
  have hall := hfold [] (Places.nil text)
  refine ⟨hall.1, ?_⟩
  intro j
  rw [behindTexts, hall.2]
  simp

def Run (text : Array α) (p : α → Bool) (i j : Nat) : Prop :=
  i ≤ j ∧ j ≤ text.size ∧ ∀ k, i ≤ k → k < j → text[k]?.any p = true

theorem run_self (text : Array α) (p : α → Bool) (i : Nat) (hi : i ≤ text.size) :
    Run text p i i := ⟨Nat.le_refl i, hi, by omega⟩

theorem run_succ_iff (text : Array α) (p : α → Bool) (i j : Nat) (hi : i ≤ text.size) :
    Run text p i j ↔ j = i ∨ text[i]?.any p = true ∧ Run text p (i + 1) j := by
  constructor
  · intro ⟨hij, hj, hall⟩
    by_cases heq : j = i
    · exact Or.inl heq
    · exact Or.inr ⟨hall i (Nat.le_refl i) (by omega), by omega, hj,
        fun k hk hkj => hall k (by omega) hkj⟩
  · rintro (rfl | ⟨hfirst, hij, hj, hall⟩)
    · exact run_self text p j hi
    · refine ⟨by omega, hj, ?_⟩
      intro k hk hkj
      rcases Nat.eq_or_lt_of_le hk with rfl | hlt
      · exact hfirst
      · exact hall k hlt hkj

theorem lt_size_of_any (text : Array α) (p : α → Bool) (i : Nat) (h : text[i]?.any p = true) :
    i < text.size := by
  by_cases hi : i < text.size
  · exact hi
  · simp [hi] at h

theorem mem_reach (text : Array α) (p : α → Bool) (next? : Option Nat) (fuel i j : Nat)
    (hi : i ≤ text.size) (hfuel : text.size < i + fuel) (hnext : ∀ n, next? = some n → i ≤ n) :
    j ∈ reach text p next? fuel i ↔ Run text p i j ∧ ∀ n, next? = some n → j < n := by
  induction fuel generalizing i with
  | zero => omega
  | succ fuel ih =>
    rw [reach]
    by_cases hstop : next? = some i
    · simp only [hstop, beq_self_eq_true, if_true, List.not_mem_nil, false_iff, not_and]
      intro hrun hlt
      have := hrun.1
      have := hlt i rfl
      omega
    · have hlater : ∀ n, next? = some n → i < n := by
        intro n hn
        have := hnext n hn
        by_cases heq : i = n
        · exact absurd (heq ▸ hn) hstop
        · omega
      rw [if_neg (by simpa using hstop), List.mem_cons, run_succ_iff text p i j hi]
      by_cases hfirst : text[i]?.any p = true
      · have hlt := lt_size_of_any text p i hfirst
        rw [if_pos hfirst, ih (i + 1) hlt (by omega) hlater]
        constructor
        · rintro (rfl | ⟨hrun, hbefore⟩)
          · exact ⟨Or.inl rfl, hlater⟩
          · exact ⟨Or.inr ⟨hfirst, hrun⟩, hbefore⟩
        · rintro ⟨rfl | ⟨-, hrun⟩, hbefore⟩
          · exact Or.inl rfl
          · exact Or.inr ⟨hrun, hbefore⟩
      · rw [if_neg hfirst]
        constructor
        · rintro (rfl | hnone)
          · exact ⟨Or.inl rfl, hlater⟩
          · contradiction
        · rintro ⟨rfl | ⟨hyes, -⟩, -⟩
          · exact Or.inl rfl
          · exact absurd hyes hfirst

theorem reach_ascending (text : Array α) (p : α → Bool) (next? : Option Nat) (fuel i : Nat) :
    (reach text p next? fuel i).Pairwise (· < ·) ∧ ∀ j ∈ reach text p next? fuel i, i ≤ j := by
  induction fuel generalizing i with
  | zero => simp [reach]
  | succ fuel ih =>
    rw [reach]
    split
    · simp
    · split
      · obtain ⟨hascending, hle⟩ := ih (i + 1)
        refine ⟨List.Pairwise.cons (fun j hj => hle j hj) hascending, ?_⟩
        intro j hj
        rcases List.mem_cons.mp hj with rfl | hj
        · exact Nat.le_refl j
        · exact Nat.le_of_succ_le (hle j hj)
      · simp

theorem run_split (text : Array α) (p : α → Bool) (i n j : Nat) (h : Run text p i j) (hin : i ≤ n)
    (hnj : n ≤ j) : Run text p n j :=
  ⟨hnj, h.2.1, fun k hk hkj => h.2.2 k (by omega) hkj⟩

theorem lt_head_iff (places : List Nat) (j : Nat) (h : places.Pairwise (· < ·)) :
    (∀ n, places.head? = some n → j < n) ↔ ∀ n ∈ places, j < n := by
  cases places with
  | nil => simp
  | cons m places =>
    rw [List.forall_mem_cons]
    constructor
    · intro hhead
      have hm := hhead m rfl
      exact ⟨hm, fun n hn => Nat.lt_trans hm (List.rel_of_pairwise_cons h hn)⟩
    · rintro ⟨hm, -⟩ n hn
      rwa [← Option.some.inj hn]

theorem follows_reachAll (text : Array α) (p : α → Bool) :
    Follows text (reachAll text p) (Run text p) := by
  intro places h
  induction places with
  | nil => simpa [reachAll] using Places.nil text
  | cons i places ih =>
    have hi : i ≤ text.size := h.2 i List.mem_cons_self
    have hrest : Places text places := ⟨h.1.of_cons, fun k hk => h.2 k (List.mem_cons_of_mem i hk)⟩
    have hlater : ∀ n ∈ places, i < n := fun n hn => List.rel_of_pairwise_cons h.1 hn
    obtain ⟨hplaces, hmem⟩ := ih hrest
    have hreach (j : Nat) : j ∈ reach text p places.head? (text.size + 1) i ↔
        Run text p i j ∧ ∀ n ∈ places, j < n := by
      rw [← lt_head_iff places j hrest.1]
      apply mem_reach text p _ _ i j hi (by omega)
      intro n hn
      exact Nat.le_of_lt ((lt_head_iff places i hrest.1).mpr hlater n hn)
    have hall (j : Nat) : j ∈ reachAll text p (i :: places) ↔
        ∃ k ∈ i :: places, Run text p k j := by
      rw [reachAll, List.mem_append, hreach, hmem]
      constructor
      · rintro (⟨hrun, -⟩ | ⟨k, hk, hrun⟩)
        · exact ⟨i, List.mem_cons_self, hrun⟩
        · exact ⟨k, List.mem_cons_of_mem i hk, hrun⟩
      · rintro ⟨k, hk, hrun⟩
        rcases List.mem_cons.mp hk with rfl | hk
        · by_cases hbefore : ∀ n ∈ places, j < n
          · exact Or.inl ⟨hrun, hbefore⟩
          · simp only [not_forall, Nat.not_lt] at hbefore
            obtain ⟨n, hn, hnj⟩ := hbefore
            exact Or.inr ⟨n, hn, run_split text p k n j hrun (Nat.le_of_lt (hlater n hn)) hnj⟩
        · exact Or.inr ⟨k, hk, hrun⟩
    refine ⟨⟨?_, ?_⟩, hall⟩
    · rw [reachAll, List.pairwise_append]
      refine ⟨(reach_ascending text p _ _ i).1, hplaces.1, ?_⟩
      intro j hj k hk
      obtain ⟨n, hn, hrun⟩ := (hmem k).mp hk
      exact Nat.lt_of_lt_of_le (((hreach j).mp hj).2 n hn) hrun.1
    · intro j hj
      obtain ⟨k, -, hrun⟩ := (hall j).mp hj
      exact hrun.2.1

/-- What is known of the places found so far: whatever a step leads to from a place that is not
fresh has been found, and there is fuel for all places that are not found yet. -/
structure Searched (text : Array α) (r : Nat → Nat → Prop) (fuel : Nat) (found fresh : List Nat) :
    Prop where
  placesFound : Places text found
  placesFresh : Places text fresh
  subset : fresh ⊆ found
  closed : ∀ i ∈ found, i ∈ fresh ∨ ∀ j, r i j → j ∈ found
  enough : found = [] ∨ text.size + 2 ≤ found.length + fuel

theorem length_lt_merge (found new : List Nat) (x : Nat) (hfound : found.Pairwise (· < ·))
    (hnew : new.Pairwise (· < ·)) (hx : x ∈ new) (hfresh : x ∉ found) :
    found.length < (mergeAscending found new).length := by
  have hnodup : (x :: found).Nodup :=
    List.nodup_cons.mpr ⟨hfresh, hfound.imp fun hlt => Nat.ne_of_lt hlt⟩
  have hsub : x :: found ⊆ mergeAscending found new := by
    intro i hi
    rw [mem_mergeAscending found new i hnew]
    rcases List.mem_cons.mp hi with rfl | hi
    · exact Or.inr hx
    · exact Or.inl hi
  exact (List.subperm_of_subset hnodup hsub).length_le

theorem Searched.step {text : Array α} {r : Nat → Nat → Prop} {fuel : Nat} {found fresh : List Nat}
    (h : Searched text r (fuel + 1) found fresh) (step : List Nat → List Nat)
    (hstep : Follows text step r) (x : Nat) (new : List Nat)
    (hnew : (step fresh).filter (fun i => !found.contains i) = x :: new) :
    Searched text r fuel (mergeAscending found (x :: new)) (x :: new) := by
  obtain ⟨hplaces, hmem⟩ := hstep fresh h.placesFresh
  have hfresh : Places text (x :: new) := by
    rw [← hnew]
    exact hplaces.filter text _ _
  have hnewMem (j : Nat) : j ∈ x :: new ↔ (∃ i ∈ fresh, r i j) ∧ j ∉ found := by
    rw [← hnew, List.mem_filter, hmem]
    simp
  have hmerge (j : Nat) : j ∈ mergeAscending found (x :: new) ↔ j ∈ found ∨ j ∈ x :: new :=
    mem_mergeAscending found _ j hfresh.1
  have hx := (hnewMem x).mp List.mem_cons_self
  refine ⟨Places.merge text _ _ h.placesFound hfresh, hfresh, ?_, ?_, Or.inr ?_⟩
  · intro j hj
    exact (hmerge j).mpr (Or.inr hj)
  · intro i hi
    rcases (hmerge i).mp hi with hi | hi
    · right
      intro j hj
      rw [hmerge]
      by_cases hjf : j ∈ found
      · exact Or.inl hjf
      · rcases h.closed i hi with hif | hclosed
        · exact Or.inr ((hnewMem j).mpr ⟨⟨i, hif, hj⟩, hjf⟩)
        · exact Or.inl (hclosed j hj)
    · exact Or.inl hi
  · have hlonger :=
      length_lt_merge found (x :: new) x h.placesFound.1 hfresh.1 List.mem_cons_self hx.2
    obtain ⟨i, hi, -⟩ := hx.1
    have hsome : found ≠ [] := List.ne_nil_of_mem (h.subset hi)
    have hfuel := h.enough.resolve_left hsome
    omega

theorem closure_spec (text : Array α) (r : Nat → Nat → Prop) (step : List Nat → List Nat)
    (hstep : Follows text step r) (fuel : Nat) (found fresh : List Nat)
    (h : Searched text r fuel found fresh) :
    Places text (closure step fuel found fresh) ∧ found ⊆ closure step fuel found fresh ∧
      (∀ j ∈ closure step fuel found fresh, ∃ i ∈ found, Relation.ReflTransGen r i j) ∧
      ∀ i ∈ closure step fuel found fresh, ∀ j, r i j → j ∈ closure step fuel found fresh := by
  induction fuel generalizing found fresh with
  | zero =>
    have hempty : found = [] := by
      rcases h.enough with hempty | hlong
      · exact hempty
      · have := h.placesFound.length_le text found
        omega
    subst hempty
    simpa [closure] using Places.nil text
  | succ fuel ih =>
    rw [closure]
    cases hnew : (step fresh).filter fun i => !found.contains i with
    | nil =>
      refine ⟨h.placesFound, fun i hi => hi, fun j hj => ⟨j, hj, Relation.ReflTransGen.refl⟩, ?_⟩
      intro i hi j hj
      rcases h.closed i hi with hif | hclosed
      · have hreached := ((hstep fresh h.placesFresh).2 j).mpr ⟨i, hif, hj⟩
        have hnone := List.filter_eq_nil_iff.mp hnew j hreached
        simpa using hnone
      · exact hclosed j hj
    | cons x new =>
      obtain ⟨hplaces, hsubset, hreached, hclosed⟩ := ih _ _ (h.step step hstep x new hnew)
      have hfresh : Places text (x :: new) := (h.step step hstep x new hnew).placesFresh
      refine ⟨hplaces, ?_, ?_, hclosed⟩
      · intro i hi
        exact hsubset ((mem_mergeAscending found _ i hfresh.1).mpr (Or.inl hi))
      · intro j hj
        obtain ⟨i, hi, hpath⟩ := hreached j hj
        rcases (mem_mergeAscending found _ i hfresh.1).mp hi with hi | hi
        · exact ⟨i, hi, hpath⟩
        · rw [← hnew, List.mem_filter, (hstep fresh h.placesFresh).2] at hi
          obtain ⟨⟨k, hk, hki⟩, -⟩ := hi
          exact ⟨k, h.subset hk, Relation.ReflTransGen.head hki hpath⟩

theorem follows_closure (text : Array α) (r : Nat → Nat → Prop) (step : List Nat → List Nat)
    (hstep : Follows text step r) :
    Follows text (fun places => closure step (text.size + 1) places places)
      (Relation.ReflTransGen r) := by
  intro places h
  have hstart : Searched text r (text.size + 1) places places := by
    refine ⟨h, h, fun i hi => hi, fun i hi => Or.inl hi, ?_⟩
    cases places with
    | nil => exact Or.inl rfl
    | cons i places =>
      right
      rw [List.length_cons]
      omega
  obtain ⟨hplaces, hsubset, hreached, hclosed⟩ := closure_spec text r step hstep _ _ _ hstart
  refine ⟨hplaces, ?_⟩
  intro j
  constructor
  · exact hreached j
  · rintro ⟨i, hi, hpath⟩
    induction hpath with
    | refl => exact hsubset hi
    | tail _ hlast ih => exact hclosed _ ih _ hlast

theorem drop_behind (text : Array α) (i : Nat) (passage rest : List α)
    (h : text.toList.drop i = passage ++ rest) : text.toList.drop (i + passage.length) = rest := by
  rw [← List.drop_drop, h, List.drop_left]

theorem le_size_behind (text : Array α) (i : Nat) (passage rest : List α) (hi : i ≤ text.size)
    (h : text.toList.drop i = passage ++ rest) : i + passage.length ≤ text.size := by
  have hlength := congrArg List.length h
  simp only [List.length_drop, Array.length_toList, List.length_append] at hlength
  omega

theorem head?_drop (text : Array α) (i : Nat) : (text.toList.drop i).head? = text[i]? := by
  rw [List.head?_drop, Array.getElem?_toList]

theorem leads_anyOf (text : Array α) (texts : List (List α)) (i j : Nat) :
    Leads text (anyOf texts) i j ↔
      i ≤ text.size ∧ ∃ t ∈ texts, t <+: text.toList.drop i ∧ j = i + t.length := by
  apply and_congr_right
  intro _
  constructor
  · rintro ⟨passage, rest, hdrop, hmem, rfl⟩
    exact ⟨passage, hmem, ⟨rest, hdrop.symm⟩, rfl⟩
  · rintro ⟨t, hmem, ⟨rest, hdrop⟩, rfl⟩
    exact ⟨t, rest, hdrop.symm, hmem, rfl⟩

theorem leads_one (text : Array α) (p : α → Bool) (i j : Nat) :
    Leads text (one p) i j ↔ text[i]?.any p = true ∧ j = i + 1 := by
  rw [← head?_drop]
  constructor
  · rintro ⟨-, _, rest, hdrop, ⟨c, rfl, hc⟩, rfl⟩
    rw [hdrop]
    exact ⟨hc, rfl⟩
  · rintro ⟨hany, rfl⟩
    have hlt := lt_size_of_any text p i (by rwa [← head?_drop])
    cases hdrop : text.toList.drop i with
    | nil => simp [hdrop] at hany
    | cons c rest =>
      rw [hdrop] at hany
      exact ⟨Nat.le_of_lt hlt, [c], rest, hdrop, ⟨c, rfl, hany⟩, rfl⟩

theorem leads_ahead (text : Array α) (p : Option α → Bool) (i j : Nat) :
    Leads text (ahead p) i j ↔ i ≤ text.size ∧ p text[i]? = true ∧ j = i := by
  rw [← head?_drop]
  apply and_congr_right
  intro _
  constructor
  · rintro ⟨_, rest, hdrop, ⟨rfl, hp⟩, rfl⟩
    rw [hdrop]
    exact ⟨hp, rfl⟩
  · rintro ⟨hp, rfl⟩
    exact ⟨[], text.toList.drop j, rfl, ⟨rfl, hp⟩, rfl⟩

theorem leads_seq (text : Array α) (a b : Pattern α) (i j : Nat) :
    Leads text (seq a b) i j ↔ ∃ k, Leads text a i k ∧ Leads text b k j := by
  constructor
  · rintro ⟨hi, _, rest, hdrop, ⟨x, y, rfl, hx, hy⟩, rfl⟩
    rw [List.append_assoc] at hdrop
    refine ⟨i + x.length, ⟨hi, x, y ++ rest, hdrop, hx, rfl⟩, le_size_behind text i x _ hi hdrop,
      y, rest, drop_behind text i x _ hdrop, hy, ?_⟩
    rw [List.length_append, Nat.add_assoc]
  · rintro ⟨_, ⟨hi, x, after, hdrop, hx, rfl⟩, -, y, rest, hdrop', hy, rfl⟩
    obtain rfl : after = y ++ rest := (drop_behind text i x after hdrop).symm.trans hdrop'
    refine ⟨hi, x ++ y, rest, by rw [hdrop, List.append_assoc], ⟨x, y, rfl, hx, hy⟩, ?_⟩
    rw [List.length_append, Nat.add_assoc]

theorem leads_either (text : Array α) (a b : Pattern α) (i j : Nat) :
    Leads text (either a b) i j ↔ Leads text a i j ∨ Leads text b i j := by
  constructor
  · rintro ⟨hi, passage, rest, hdrop, ha | hb, rfl⟩
    · exact Or.inl ⟨hi, passage, rest, hdrop, ha, rfl⟩
    · exact Or.inr ⟨hi, passage, rest, hdrop, hb, rfl⟩
  · rintro (⟨hi, passage, rest, hdrop, ha, rfl⟩ | ⟨hi, passage, rest, hdrop, hb, rfl⟩)
    · exact ⟨hi, passage, rest, hdrop, Or.inl ha, rfl⟩
    · exact ⟨hi, passage, rest, hdrop, Or.inr hb, rfl⟩

theorem leads_optional (text : Array α) (a : Pattern α) (i j : Nat) :
    Leads text (optional a) i j ↔ i ≤ text.size ∧ j = i ∨ Leads text a i j := by
  constructor
  · rintro ⟨hi, passage, rest, hdrop, rfl | ha, rfl⟩
    · exact Or.inl ⟨hi, rfl⟩
    · exact Or.inr ⟨hi, passage, rest, hdrop, ha, rfl⟩
  · rintro (⟨hi, rfl⟩ | ⟨hi, passage, rest, hdrop, ha, rfl⟩)
    · exact ⟨hi, [], text.toList.drop j, rfl, Or.inl rfl, rfl⟩
    · exact ⟨hi, passage, rest, hdrop, Or.inr ha, rfl⟩

theorem leads_many (text : Array α) (p : α → Bool) (i j : Nat) :
    Leads text (many p) i j ↔ Run text p i j := by
  constructor
  · rintro ⟨hi, passage, rest, hdrop, hall, rfl⟩
    refine ⟨Nat.le_add_right _ _, le_size_behind text i passage rest hi hdrop, ?_⟩
    intro k hik hk
    have hget : (text.toList.drop i)[k - i]? = (passage ++ rest)[k - i]? := by rw [hdrop]
    rw [List.getElem?_drop, Nat.add_sub_cancel' hik, Array.getElem?_toList,
      List.getElem?_append_left (by omega)] at hget
    rw [hget, List.getElem?_eq_getElem (by omega)]
    exact hall _ (List.getElem_mem _)
  · rintro ⟨hij, hj, hall⟩
    refine ⟨by omega, (text.toList.drop i).take (j - i), (text.toList.drop i).drop (j - i),
      (List.take_append_drop _ _).symm, ?_, ?_⟩
    · intro c hc
      obtain ⟨n, hn, rfl⟩ := List.mem_iff_getElem.mp hc
      have hlt : n < j - i := by
        simp only [List.length_take] at hn
        omega
      have hsym := hall (i + n) (by omega) (by omega)
      rw [Array.getElem?_eq_getElem (by omega)] at hsym
      simpa using hsym
    · rw [List.length_take, List.length_drop, Array.length_toList]
      omega

theorem leads_repeated (text : Array α) (a : Pattern α) (i j : Nat) (hi : i ≤ text.size) :
    Leads text (repeated a) i j ↔ Relation.ReflTransGen (Leads text a) i j := by
  constructor
  · rintro ⟨-, passage, rest, hdrop, hcopies, rfl⟩
    induction hcopies generalizing i with
    | none rest => exact Relation.ReflTransGen.refl
    | more part parts rest hpart _ ih =>
      rw [List.append_assoc] at hdrop
      have hstep : Leads text a i (i + part.length) := ⟨hi, part, _, hdrop, hpart, rfl⟩
      have htail := ih (i + part.length) (le_size_behind text i part _ hi hdrop)
        (drop_behind text i part _ hdrop)
      rw [Nat.add_assoc, ← List.length_append] at htail
      exact Relation.ReflTransGen.head hstep htail
  · intro hpath
    induction hpath using Relation.ReflTransGen.head_induction_on with
    | refl => exact ⟨hi, [], text.toList.drop j, rfl, Copies.none _, rfl⟩
    | head hstep _ ih =>
      obtain ⟨-, part, after, hdrop, hpart, rfl⟩ := hstep
      obtain ⟨-, parts, rest, hdrop', hparts, rfl⟩ :=
        ih (le_size_behind text _ part after hi hdrop)
      obtain rfl : after = parts ++ rest := (drop_behind text _ part after hdrop).symm.trans hdrop'
      refine ⟨hi, part ++ parts, rest, by rw [hdrop, List.append_assoc],
        Copies.more part parts rest hpart hparts, ?_⟩
      rw [List.length_append, Nat.add_assoc]

theorem Follows.congr {text : Array α} {step : List Nat → List Nat} {r s : Nat → Nat → Prop}
    (h : Follows text step r) (hrs : ∀ i j, i ≤ text.size → (r i j ↔ s i j)) :
    Follows text step s := by
  intro places hplaces
  obtain ⟨hstep, hmem⟩ := h places hplaces
  refine ⟨hstep, ?_⟩
  intro j
  rw [hmem]
  apply exists_congr
  intro i
  apply and_congr_right
  intro hi
  exact hrs i j (hplaces.2 i hi)

theorem follows_filter (text : Array α) (p : Nat → Bool) :
    Follows text (fun places => places.filter p) fun i j => p i = true ∧ j = i := by
  intro places h
  refine ⟨h.filter text _ p, ?_⟩
  intro j
  rw [List.mem_filter]
  constructor
  · intro ⟨hj, hp⟩
    exact ⟨j, hj, hp, rfl⟩
  · rintro ⟨i, hi, hp, rfl⟩
    exact ⟨hi, hp⟩

theorem follows_one (text : Array α) (p : α → Bool) :
    Follows text (fun places => (places.filter fun i => text[i]?.any p).map (· + 1))
      fun i j => text[i]?.any p = true ∧ j = i + 1 := by
  intro places h
  refine ⟨⟨?_, ?_⟩, ?_⟩
  · rw [List.pairwise_map]
    exact (h.1.filter _).imp fun hlt => Nat.add_lt_add_right hlt 1
  · intro j hj
    obtain ⟨i, hi, rfl⟩ := List.mem_map.mp hj
    exact lt_size_of_any text p i (List.mem_filter.mp hi).2
  · intro j
    simp only [List.mem_map, List.mem_filter]
    constructor
    · rintro ⟨i, ⟨hi, hp⟩, rfl⟩
      exact ⟨i, hi, hp, rfl⟩
    · rintro ⟨i, hi, hp, rfl⟩
      exact ⟨i, ⟨hi, hp⟩, rfl⟩

theorem follows_merge (text : Array α) (f g : List Nat → List Nat) (r s : Nat → Nat → Prop)
    (hf : Follows text f r) (hg : Follows text g s) :
    Follows text (fun places => mergeAscending (f places) (g places)) fun i j => r i j ∨ s i j := by
  intro places h
  obtain ⟨hplaces, hmem⟩ := hf places h
  obtain ⟨hplaces', hmem'⟩ := hg places h
  refine ⟨Places.merge text _ _ hplaces hplaces', ?_⟩
  intro j
  rw [mem_mergeAscending _ _ j hplaces'.1, hmem, hmem', ← exists_or]
  simp only [and_or_left]

theorem follows_comp (text : Array α) (f g : List Nat → List Nat) (r s : Nat → Nat → Prop)
    (hf : Follows text f r) (hg : Follows text g s) :
    Follows text (fun places => g (f places)) fun i j => ∃ k, r i k ∧ s k j := by
  intro places h
  obtain ⟨hplaces, hmem⟩ := hf places h
  obtain ⟨hplaces', hmem'⟩ := hg _ hplaces
  refine ⟨hplaces', ?_⟩
  intro j
  rw [hmem']
  constructor
  · rintro ⟨k, hk, hs⟩
    obtain ⟨i, hi, hr⟩ := (hmem k).mp hk
    exact ⟨i, hi, k, hr, hs⟩
  · rintro ⟨i, hi, k, hr, hs⟩
    exact ⟨k, (hmem k).mpr ⟨i, hi, hr⟩, hs⟩

theorem follows_ends [BEq α] [LawfulBEq α] (text : Array α) (p : Pattern α) :
    Follows text (ends text p) (Leads text p) := by
  induction p with
  | anyOf texts =>
    apply (follows_behindTexts text texts).congr
    intro i j _
    exact (leads_anyOf text texts i j).symm
  | one p =>
    apply (follows_one text p).congr
    intro i j _
    exact (leads_one text p i j).symm
  | many p =>
    apply (follows_reachAll text p).congr
    intro i j _
    exact (leads_many text p i j).symm
  | ahead p =>
    apply (follows_filter text fun i => p text[i]?).congr
    intro i j hi
    rw [leads_ahead]
    simp [hi]
  | seq a b iha ihb =>
    apply (follows_comp text _ _ _ _ iha ihb).congr
    intro i j _
    exact (leads_seq text a b i j).symm
  | either a b iha ihb =>
    apply (follows_merge text _ _ _ _ iha ihb).congr
    intro i j _
    exact (leads_either text a b i j).symm
  | optional a iha =>
    have hstay : Follows text (fun places => places) fun i j => i ≤ text.size ∧ j = i := by
      intro places h
      refine ⟨h, ?_⟩
      intro j
      constructor
      · intro hj
        exact ⟨j, hj, h.2 j hj, rfl⟩
      · rintro ⟨i, hi, -, rfl⟩
        exact hi
    apply (follows_merge text _ _ _ _ hstay iha).congr
    intro i j _
    exact (leads_optional text a i j).symm
  | repeated a iha =>
    apply (follows_closure text _ _ iha).congr
    intro i j hi
    exact (leads_repeated text a i j hi).symm

theorem opens_iff [BEq α] [LawfulBEq α] (p : Pattern α) (text : List α) :
    p.opens text = true ↔ ∃ passage rest, text = passage ++ rest ∧ Reads p passage rest := by
  have hstart : Places text.toArray [0] := ⟨List.pairwise_singleton _ _, by simp⟩
  have hmem := (follows_ends text.toArray p [0] hstart).2
  rw [opens, Bool.not_eq_true', List.isEmpty_eq_false_iff_exists_mem]
  simp only [hmem, List.mem_singleton, exists_eq_left, Leads, List.drop_zero]
  constructor
  · rintro ⟨j, -, passage, rest, htext, hreads, -⟩
    exact ⟨passage, rest, htext, hreads⟩
  · rintro ⟨passage, rest, htext, hreads⟩
    exact ⟨_, Nat.zero_le _, passage, rest, htext, hreads, rfl⟩

end DocLint.Pattern
