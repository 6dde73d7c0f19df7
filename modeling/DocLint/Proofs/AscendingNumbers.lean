import DocLint.Ascending

/-!
# Ascending numbers as sets

Joining two ascending lists unites them as sets and keeps the order.
-/

set_option autoImplicit false

namespace DocLint

theorem takeWhile_lt_eq_filter (ys : List Nat) (x : Nat) (h : ys.Pairwise (· < ·)) :
    ys.takeWhile (· < x) = ys.filter (· < x) := by
  induction ys with
  | nil => rfl
  | cons y ys ih =>
    by_cases hy : y < x
    · simp [hy, ih h.of_cons]
    · have hlater : ∀ z ∈ ys, ¬ z < x := by
        intro z hz
        have := List.rel_of_pairwise_cons h hz
        omega
      have hnone : ys.filter (· < x) = [] := by simpa using hlater
      simp [hy, hnone]

theorem dropWhile_le_eq_filter (ys : List Nat) (x : Nat) (h : ys.Pairwise (· < ·)) :
    ys.dropWhile (· ≤ x) = ys.filter (x < ·) := by
  induction ys with
  | nil => rfl
  | cons y ys ih =>
    by_cases hy : y ≤ x
    · simp [hy, ih h.of_cons, show ¬ x < y by omega]
    · have hlater : ∀ z ∈ ys, x < z := by
        intro z hz
        have := List.rel_of_pairwise_cons h hz
        omega
      have hall : ys.filter (x < ·) = ys := by simpa using hlater
      simp [hy, hall, show x < y by omega]

theorem mergeAscending_cons (x : Nat) (xs ys : List Nat) (h : ys.Pairwise (· < ·)) :
    mergeAscending (x :: xs) ys =
      ys.filter (· < x) ++ x :: mergeAscending xs (ys.filter (x < ·)) := by
  rw [mergeAscending, takeWhile_lt_eq_filter ys x h, dropWhile_le_eq_filter ys x h]

theorem mem_mergeAscending (xs ys : List Nat) (n : Nat) (h : ys.Pairwise (· < ·)) :
    n ∈ mergeAscending xs ys ↔ n ∈ xs ∨ n ∈ ys := by
  induction xs generalizing ys with
  | nil => simp [mergeAscending]
  | cons x xs ih =>
    rw [mergeAscending_cons x xs ys h, List.mem_append, List.mem_cons, List.mem_cons,
      ih _ (h.filter _)]
    simp only [List.mem_filter, decide_eq_true_eq]
    rcases Nat.lt_trichotomy n x with hn | hn | hn
    · simp [hn, Nat.lt_asymm hn, or_comm]
    · simp [hn]
    · simp [hn, Nat.lt_asymm hn, or_assoc]

theorem mergeAscending_pairwise (xs ys : List Nat) (hx : xs.Pairwise (· < ·))
    (hy : ys.Pairwise (· < ·)) : (mergeAscending xs ys).Pairwise (· < ·) := by
  induction xs generalizing ys with
  | nil => exact hy
  | cons x xs ih =>
    have habove : ∀ n ∈ mergeAscending xs (ys.filter (x < ·)), x < n := by
      intro n hn
      rcases (mem_mergeAscending xs _ n (hy.filter _)).mp hn with hxs | hys
      · exact List.rel_of_pairwise_cons hx hxs
      · simpa using (List.mem_filter.mp hys).2
    rw [mergeAscending_cons x xs ys hy, List.pairwise_append]
    refine ⟨hy.filter _, List.Pairwise.cons habove (ih _ hx.of_cons (hy.filter _)), ?_⟩
    intro m hm n hn
    have hmx : m < x := by simpa using (List.mem_filter.mp hm).2
    rcases List.mem_cons.mp hn with rfl | hn
    · exact hmx
    · exact Nat.lt_trans hmx (habove n hn)

end DocLint
