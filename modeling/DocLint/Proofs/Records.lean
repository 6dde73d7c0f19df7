import DocLint.Json.Record

/-!
# Records by name

A field of a record is found by its name wherever it stands, as long as no name
stands twice. An object whose members are written in this way is read field by
field.
-/

set_option autoImplicit false

namespace DocLint

theorem bind_eq_some {α β : Type} {x : Option α} {f : α → Option β} {a : α} {b : β}
    (hx : x = some a) (hf : f a = some b) : (x >>= f) = some b := by
  rw [hx]
  exact hf

theorem lookup_eq_none {ν : Type} (es : List (String × ν)) (name : String)
    (h : ∀ e ∈ es, e.1 ≠ name) : es.lookup name = none := by
  rw [List.lookup_eq_none_iff]
  intro e he
  simpa using (h e he).symm

theorem lookup_of_mem {ν : Type} (es : List (String × ν)) (name : String) (v : ν)
    (hn : (es.map Prod.fst).Nodup) (h : (name, v) ∈ es) : es.lookup name = some v := by
  induction es with
  | nil => simp at h
  | cons e es ih =>
    obtain ⟨hnew, hrest⟩ := List.nodup_cons.mp hn
    rcases List.mem_cons.mp h with rfl | h
    · simp
    · have hne : name ≠ e.1 := by
        rintro rfl
        exact hnew (List.mem_map.mpr ⟨_, h, rfl⟩)
      rw [List.lookup_cons, beq_false_of_ne hne]
      exact ih hrest h

namespace Json

theorem hasRepeat_eq_false_iff (ks : List String) : hasRepeat ks = false ↔ ks.Nodup := by
  induction ks with
  | nil => simp [hasRepeat]
  | cons k ks ih => simp [hasRepeat, ih]

/-- The value is an object with members of the given names, and with each of them once. -/
structure Written (names : List String) (v : Json) (ms : List (String × Json)) : Prop where
  object : v = .object ms
  known : ∀ m ∈ ms, m.1 ∈ names
  once : (ms.map Prod.fst).Nodup

theorem written {names : List String} {v : Json} {ms : List (String × Json)}
    (object : v = .object ms) (keys : List.Sublist (ms.map Prod.fst) names)
    (once : hasRepeat names = false) : Written names v ms where
  object := object
  known _ hm := keys.subset (List.mem_map_of_mem hm)
  once := keys.nodup ((hasRepeat_eq_false_iff names).mp once)

namespace Written

variable {names : List String} {v : Json} {ms : List (String × Json)}

theorem fields? (h : Written names v ms) : v.fields? names = some ms := by
  have hall : ms.filter (fun m => names.contains m.1) = ms := by
    rw [List.filter_eq_self]
    intro m hm
    exact List.contains_iff_mem.mpr (h.known m hm)
  have honce : hasRepeat (ms.map (·.1)) = false := (hasRepeat_eq_false_iff _).mpr h.once
  rw [h.object]
  simp only [Json.fields?, hall, honce]
  rfl

theorem need? {α : Type} (h : Written names v ms) (read : Json → Option α) {name : String}
    {field : Json} {x : α} (i : Nat) (hi : ms[i]? = some (name, field))
    (hread : read field = some x) : Json.need? ms name read = some x := by
  rw [Json.need?, lookup_of_mem ms name field h.once (List.mem_of_getElem? hi)]
  exact hread

end Written

theorem nat?_nat (n : Nat) (h : n < UInt64.size) : nat? (nat n) = some n := by
  rw [nat, nat?, if_pos h]

theorem listOf?_array {α : Type} (read : Json → Option α) (write : α → Json) (xs : List α)
    (h : ∀ x ∈ xs, read (write x) = some x) : listOf? read (.array (xs.map write)) = some xs := by
  change (xs.map write).mapM read = some xs
  induction xs with
  | nil => rfl
  | cons x xs ih =>
    rw [List.map_cons, List.mapM_cons, h x List.mem_cons_self,
      ih fun y hy => h y (List.mem_cons_of_mem x hy)]
    rfl

end Json

end DocLint
