import DocLint.Json.Reader
import DocLint.Json.Writer
import Mathlib.Data.List.TakeDrop

/-!
# Written JSON is read back

The indented layout of a value is read back as that value, whatever text stands
behind it, as long as that text does not go on with a number. Each reader is
followed through the text that the writer makes for it.
-/

set_option autoImplicit false

namespace DocLint.Json

theorem hexValue?_hexDigit (n : Nat) (h : n < 16) : hexValue? (hexDigit n) = some n := by
  revert n
  decide

theorem length_escapeChar_pos (c : Char) : 1 ≤ (escapeChar c).length := by
  unfold escapeChar
  repeat' split
  all_goals simp

theorem unicodeEscape?_hexDigits (n : Nat) (h : n < 256) (rest : List Char) :
    unicodeEscape? ('0' :: '0' :: hexDigit (n / 16) :: hexDigit (n % 16) :: rest) =
      some (Char.ofNat n, rest) := by
  have hzero : hexValue? '0' = some 0 := rfl
  have hunit : hexUnit? ('0' :: '0' :: hexDigit (n / 16) :: hexDigit (n % 16) :: rest) =
      some (n, rest) := by
    have hsum : ((0 * 16 + 0) * 16 + n / 16) * 16 + n % 16 = n := by omega
    simp only [hexUnit?, hzero, hexValue?_hexDigit (n / 16) (by omega),
      hexValue?_hexDigit (n % 16) (by omega), Option.bind_eq_bind, Option.bind_some, hsum]
  have hlow : ¬ 0xD800 ≤ n := by omega
  have hlow' : ¬ 0xDC00 ≤ n := by omega
  simp [unicodeEscape?, hunit, hlow, hlow']

theorem escapeChar_cases (c : Char) :
    (escapeChar c = [c] ∧ c ≠ '"' ∧ c ≠ '\\' ∧ ¬ c.toNat < 32) ∨
      ∃ mark, escapeChar c = '\\' :: mark ∧ ∀ rest, escape? (mark ++ rest) = some (c, rest) := by
  have hself : Char.ofNat c.toNat = c := Char.ofNat_toNat c
  unfold escapeChar
  split
  · rename_i hquote
    obtain rfl : c = '"' := by simpa using hquote
    exact Or.inr ⟨['"'], rfl, fun rest => rfl⟩
  split
  · rename_i hslash
    obtain rfl : c = '\\' := by simpa using hslash
    exact Or.inr ⟨['\\'], rfl, fun rest => rfl⟩
  split
  · rename_i hcontrol
    right
    split
    case h_6 =>
      refine ⟨_, rfl, fun rest => ?_⟩
      have hread := unicodeEscape?_hexDigits c.toNat (by omega) rest
      rw [hself] at hread
      exact hread
    all_goals
      rename_i hcode
      rw [hcode] at hself
      exact ⟨_, rfl, fun rest => by rw [← hself]; rfl⟩
  · rename_i hquote hslash hcontrol
    exact Or.inl ⟨rfl, by simpa using hquote, by simpa using hslash, hcontrol⟩

theorem stringBody?_escapeChar (fuel : Nat) (c : Char) (rest : List Char) :
    stringBody? (fuel + 1) (escapeChar c ++ rest) =
      (stringBody? fuel rest).map fun r => (c :: r.1, r.2) := by
  rcases escapeChar_cases c with ⟨hself, hquote, hslash, hcontrol⟩ | ⟨mark, hmark, hread⟩
  · rw [hself, List.singleton_append, stringBody?]
    simp only [beq_iff_eq, hquote, hslash, hcontrol, if_false]
    cases stringBody? fuel rest <;> rfl
  · rw [hmark, List.cons_append, stringBody?, hread]
    change (stringBody? fuel rest).bind (fun r => some (c :: r.1, r.2)) = _
    cases stringBody? fuel rest <;> rfl

theorem stringBody?_written (cs rest : List Char) (fuel : Nat) (h : cs.length < fuel) :
    stringBody? fuel (cs.flatMap escapeChar ++ '"' :: rest) = some (cs, rest) := by
  induction cs generalizing fuel with
  | nil =>
    obtain ⟨fuel, rfl⟩ := Nat.exists_eq_add_one_of_ne_zero (Nat.ne_of_gt h)
    rfl
  | cons c cs ih =>
    rw [List.length_cons] at h
    obtain ⟨fuel, rfl⟩ : ∃ k, fuel = k + 1 := ⟨fuel - 1, by omega⟩
    rw [List.flatMap_cons, List.append_assoc, stringBody?_escapeChar, ih fuel (by omega)]
    rfl

theorem length_le_escaped (cs : List Char) : cs.length ≤ (cs.flatMap escapeChar).length := by
  induction cs with
  | nil => exact Nat.le_refl 0
  | cons c cs ih =>
    have := length_escapeChar_pos c
    rw [List.flatMap_cons, List.length_append, List.length_cons]
    omega

theorem readString?_written (s : String) (rest : List Char) (fuel : Nat)
    (h : (writeString s).length ≤ fuel + 1) :
    readString? fuel (s.toList.flatMap escapeChar ++ '"' :: rest) = some (s, rest) := by
  have hle := length_le_escaped s.toList
  simp only [writeString, List.length_cons, List.length_append, List.length_nil] at h
  rw [readString?, stringBody?_written s.toList rest fuel (by omega)]
  simp

def isNumberChar (c : Char) : Bool := c.isDigit || c == '.' || c == 'e' || c == 'E'

def Stops (rest : List Char) : Prop := ∀ c ∈ rest.head?, isNumberChar c = false

theorem stops_cons (c : Char) (rest : List Char) (h : isNumberChar c = false) :
    Stops (c :: rest) := by
  intro d hd
  obtain rfl : c = d := by simpa using hd
  exact h

theorem toDigits_cons (n : Nat) : ∃ d ds, Nat.toDigits 10 n = d :: ds ∧ d.isDigit = true := by
  cases hn : Nat.toDigits 10 n with
  | nil => exact absurd hn Nat.toDigits_ne_nil
  | cons d ds =>
    refine ⟨d, ds, rfl, ?_⟩
    apply Nat.isDigit_of_mem_toDigits (b := 10) (n := n) (by decide) (by decide)
    rw [hn]
    exact List.mem_cons_self

theorem digits_toDigits (n : Nat) (rest : List Char) (h : Stops rest) :
    digits (Nat.toDigits 10 n ++ rest) = (Nat.toDigits 10 n, rest) := by
  have hdigits : ∀ c ∈ Nat.toDigits 10 n, c.isDigit = true :=
    fun c hc => Nat.isDigit_of_mem_toDigits (by decide) (by decide) hc
  have hstop : rest.takeWhile Char.isDigit = [] ∧ rest.dropWhile Char.isDigit = rest := by
    cases rest with
    | nil => exact ⟨rfl, rfl⟩
    | cons c cs =>
      have hc := h c rfl
      simp only [isNumberChar, Bool.or_eq_false_iff] at hc
      simp [hc]
  rw [digits, List.span_eq_takeWhile_dropWhile, List.takeWhile_append_of_pos hdigits,
    List.dropWhile_append_of_pos hdigits, hstop.1, hstop.2, List.append_nil]

theorem toDigits_head_ne_zero (n : Nat) (h : 0 < n) : (Nat.toDigits 10 n).head? ≠ some '0' := by
  have hdigit : ∀ k, k < 10 → 0 < k → [k.digitChar].head? ≠ some '0' := by decide
  induction n using Nat.strongRecOn with
  | _ n ih =>
    by_cases hlt : n < 10
    · rw [Nat.toDigits_of_lt_base hlt]
      exact hdigit n hlt h
    · have hdiv := ih (n / 10) (by omega) (by omega)
      rw [Nat.toDigits_of_base_le (by decide) (by omega), List.head?_append]
      cases hd : (Nat.toDigits 10 (n / 10)).head? with
      | none => exact absurd (List.head?_eq_none_iff.mp hd) Nat.toDigits_ne_nil
      | some c => rwa [hd] at hdiv

theorem integerPart?_toDigits (n : Nat) (rest : List Char) (h : Stops rest) :
    integerPart? (Nat.toDigits 10 n ++ rest) = some (Nat.toDigits 10 n, rest) := by
  rcases Nat.eq_zero_or_pos n with rfl | hpos
  · rfl
  · have hdigits := digits_toDigits n rest h
    have hhead := toDigits_head_ne_zero n hpos
    obtain ⟨d, ds, hn, -⟩ := toDigits_cons n
    rw [hn] at hdigits hhead ⊢
    unfold integerPart?
    split
    · rename_i heq
      obtain ⟨rfl, -⟩ := List.cons.inj heq
      exact absurd rfl hhead
    · rw [hdigits]

theorem fractionPart?_stops (rest : List Char) (h : Stops rest) :
    fractionPart? rest = some ([], rest) := by
  unfold fractionPart?
  split
  · exact absurd (h '.' rfl) (by decide)
  · rfl

theorem exponentPart?_stops (rest : List Char) (h : Stops rest) :
    exponentPart? rest = some ([], rest) := by
  cases rest with
  | nil => rfl
  | cons c cs =>
    have hc := h c rfl
    simp only [isNumberChar, Bool.or_eq_false_iff] at hc
    simp [exponentPart?, hc]

theorem readNumber?_toDigits (n : Nat) (rest : List Char) (h : Stops rest) :
    readNumber? (Nat.toDigits 10 n ++ rest) = some (.natural n, rest) := by
  have hvalue : natOfDigits (Nat.toDigits 10 n) = n := Nat.ofDigitChars_ten_toDigits
  unfold readNumber?
  split
  rename_i sign cs heq
  split at heq
  · rename_i hminus
    obtain ⟨d, ds, hn, hd⟩ := toDigits_cons n
    rw [hn] at hminus
    obtain ⟨rfl, -⟩ := List.cons.inj hminus
    exact absurd hd (by decide)
  · obtain ⟨rfl, rfl⟩ := Prod.mk.inj heq
    simp [integerPart?_toDigits n rest h, fractionPart?_stops rest h,
      exponentPart?_stops rest h, hvalue]

/-- All numbers are natural, and arrays and objects nest at most `depth` deep. -/
def Plain : Nat → Json → Prop
  | _, .null => True
  | _, .bool _ => True
  | _, .string _ => True
  | _, .number (.natural _) => True
  | _, .number (.other _) => False
  | 0, .array _ => False
  | 0, .object _ => False
  | depth + 1, .array items => ∀ v ∈ items, Plain depth v
  | depth + 1, .object members => ∀ m ∈ members, Plain depth m.2

@[simp] theorem plain_bool (depth : Nat) (b : Bool) : Plain depth (.bool b) := by
  cases depth <;> trivial

@[simp] theorem plain_string (depth : Nat) (s : String) : Plain depth (.string s) := by
  cases depth <;> trivial

@[simp] theorem plain_nat (depth n : Nat) : Plain depth (nat n) := by
  cases depth <;> trivial

@[simp] theorem plain_object (depth : Nat) (ms : List (String × Json)) :
    Plain (depth + 1) (.object ms) ↔ ∀ m ∈ ms, Plain depth m.2 := Iff.rfl

theorem plain_array {α : Type} (depth : Nat) (write : α → Json) (xs : List α)
    (h : ∀ x, Plain depth (write x)) : Plain (depth + 1) (.array (xs.map write)) := by
  intro v hv
  obtain ⟨x, -, rfl⟩ := List.mem_map.mp hv
  exact h x

theorem skipSpace_gap (gap cs : List Char) (h : ∀ c ∈ gap, isSpace c = true) :
    skipSpace (gap ++ cs) = skipSpace cs :=
  List.dropWhile_append_of_pos h

theorem isSpace_of_mem_lineBreak (level : Nat) (c : Char) (h : c ∈ lineBreak level) :
    isSpace c = true := by
  rcases List.mem_cons.mp h with rfl | h
  · rfl
  · obtain rfl := (List.mem_replicate.mp h).2
    rfl

theorem skipSpace_lineBreak (level : Nat) (cs : List Char) :
    skipSpace (lineBreak level ++ cs) = skipSpace cs :=
  skipSpace_gap _ cs (isSpace_of_mem_lineBreak level)

theorem readValue?_skip (fuel depth : Nat) (cs ds : List Char) (h : skipSpace cs = skipSpace ds) :
    readValue? fuel depth cs = readValue? fuel depth ds := by
  cases fuel with
  | zero => rfl
  | succ fuel => rw [readValue?, readValue?, h]

/-- The value is read back from its written form, with any text behind it. -/
def ReadsBack (depth : Nat) (v : Json) : Prop :=
  ∀ level fuel rest, Stops rest → (writeIndented level v).length ≤ fuel →
    readValue? fuel depth (writeIndented level v ++ rest) = some (v, rest)

theorem stops_indentedItems (level : Nat) (vs : List Json) (rest : List Char) :
    Stops (indentedItems level vs ++ rest) := by
  cases vs with
  | nil => exact stops_cons '\n' _ rfl
  | cons v vs => exact stops_cons ',' _ rfl

theorem stops_indentedMembers (level : Nat) (ms : List (String × Json)) (rest : List Char) :
    Stops (indentedMembers level ms ++ rest) := by
  cases ms with
  | nil => exact stops_cons '\n' _ rfl
  | cons m ms => exact stops_cons ',' _ rfl

theorem readItems?_written (depth level fuel : Nat) (v : Json) (vs : List Json)
    (gap rest : List Char) (hread : ∀ w ∈ v :: vs, ReadsBack depth w)
    (hgap : ∀ c ∈ gap, isSpace c = true)
    (hfuel : (writeIndented (level + 1) v).length + (indentedItems level vs).length ≤ fuel) :
    readItems? fuel depth
      (gap ++ (writeIndented (level + 1) v ++ (indentedItems level vs ++ rest))) =
        some (v :: vs, rest) := by
  induction vs generalizing v fuel gap with
  | nil =>
    have hclose : skipSpace (indentedItems level [] ++ rest) = ']' :: rest := by
      rw [indentedItems, List.append_assoc, skipSpace_lineBreak]
      rfl
    simp only [indentedItems, List.length_append, List.length_singleton] at hfuel
    obtain ⟨fuel, rfl⟩ : ∃ k, fuel = k + 1 := ⟨fuel - 1, by omega⟩
    rw [readItems?, readValue?_skip fuel depth _ _ (skipSpace_gap gap _ hgap),
      hread v List.mem_cons_self _ _ _ (stops_indentedItems level [] rest) (by omega)]
    simp only [Option.bind_eq_bind, Option.bind_some, hclose]
  | cons w vs ih =>
    have hcomma : skipSpace (indentedItems level (w :: vs) ++ rest) =
        ',' :: (lineBreak (level + 1) ++
          (writeIndented (level + 1) w ++ (indentedItems level vs ++ rest))) := by
      rw [indentedItems]
      simp only [List.cons_append, List.append_assoc]
      rfl
    simp only [indentedItems, List.length_append, List.length_cons] at hfuel
    -- one step of the fuel goes to the item, and the comma alone makes up for it
    obtain ⟨fuel, rfl⟩ : ∃ k, fuel = k + 1 := ⟨fuel - 1, by omega⟩
    have hrest := ih fuel w (lineBreak (level + 1))
      (fun u hu => hread u (List.mem_cons_of_mem v hu)) (isSpace_of_mem_lineBreak _) (by omega)
    rw [readItems?, readValue?_skip fuel depth _ _ (skipSpace_gap gap _ hgap),
      hread v List.mem_cons_self _ _ _ (stops_indentedItems level (w :: vs) rest) (by omega)]
    simp only [Option.bind_eq_bind, Option.bind_some, hcomma, hrest]

theorem skipSpace_writeString (gap tail : List Char) (k : String)
    (hgap : ∀ c ∈ gap, isSpace c = true) :
    skipSpace (gap ++ (writeString k ++ tail)) =
      '"' :: (k.toList.flatMap escapeChar ++ '"' :: tail) := by
  rw [skipSpace_gap gap _ hgap]
  simp [writeString, skipSpace, isSpace]

theorem readMembers?_written (depth level fuel : Nat) (k : String) (v : Json)
    (ms : List (String × Json)) (gap rest : List Char)
    (hread : ∀ m ∈ (k, v) :: ms, ReadsBack depth m.2) (hgap : ∀ c ∈ gap, isSpace c = true)
    (hfuel : (writeString k).length + (writeIndented (level + 1) v).length +
      (indentedMembers level ms).length ≤ fuel) :
    readMembers? fuel depth
      (gap ++ (writeString k ++ ':' :: ' ' ::
        (writeIndented (level + 1) v ++ (indentedMembers level ms ++ rest)))) =
        some ((k, v) :: ms, rest) := by
  have hcolon : ∀ cs, skipSpace (':' :: cs) = ':' :: cs := fun _ => rfl
  have hblank : ∀ cs, skipSpace (' ' :: cs) = skipSpace cs := fun _ => rfl
  induction ms generalizing k v fuel gap with
  | nil =>
    have hv : ReadsBack depth v := hread (k, v) List.mem_cons_self
    have hclose : skipSpace (indentedMembers level [] ++ rest) = '}' :: rest := by
      rw [indentedMembers, List.append_assoc, skipSpace_lineBreak]
      rfl
    simp only [indentedMembers, List.length_append, List.length_singleton] at hfuel
    obtain ⟨fuel, rfl⟩ : ∃ j, fuel = j + 1 := ⟨fuel - 1, by omega⟩
    rw [readMembers?, skipSpace_writeString gap _ k hgap]
    simp only [readString?_written k _ fuel (by omega), Option.bind_eq_bind, Option.bind_some,
      hcolon, readValue?_skip fuel depth _ _ (hblank _)]
    rw [hv _ _ _ (stops_indentedMembers level [] rest) (by omega)]
    simp only [Option.bind_some, hclose]
  | cons m ms ih =>
    obtain ⟨k', v'⟩ := m
    have hv : ReadsBack depth v := hread (k, v) List.mem_cons_self
    have hcomma : skipSpace (indentedMembers level ((k', v') :: ms) ++ rest) =
        ',' :: (lineBreak (level + 1) ++ (writeString k' ++ ':' :: ' ' ::
          (writeIndented (level + 1) v' ++ (indentedMembers level ms ++ rest)))) := by
      rw [indentedMembers]
      simp only [List.cons_append, List.append_assoc]
      rfl
    simp only [indentedMembers, List.length_append, List.length_cons] at hfuel
    obtain ⟨fuel, rfl⟩ : ∃ j, fuel = j + 1 := ⟨fuel - 1, by omega⟩
    have hrest := ih fuel k' v' (lineBreak (level + 1))
      (fun u hu => hread u (List.mem_cons_of_mem (k, v) hu)) (isSpace_of_mem_lineBreak _)
      (by omega)
    rw [readMembers?, skipSpace_writeString gap _ k hgap]
    simp only [readString?_written k _ fuel (by omega), Option.bind_eq_bind, Option.bind_some,
      hcolon, readValue?_skip fuel depth _ _ (hblank _)]
    rw [hv _ _ _ (stops_indentedMembers level _ rest) (by omega)]
    simp only [Option.bind_some, hcomma, hrest]

theorem not_isSpace_of_isDigit (c : Char) (h : c.isDigit = true) : isSpace c = false := by
  by_contra hspace
  simp only [isSpace, Bool.not_eq_false, Bool.or_eq_true, beq_iff_eq] at hspace
  rcases hspace with ((rfl | rfl) | rfl) | rfl <;> exact absurd h (by decide)

theorem writeIndented_head (depth level : Nat) (v : Json) (h : Plain depth v) :
    ∃ c cs, writeIndented level v = c :: cs ∧ isSpace c = false ∧ c ≠ ']' := by
  cases v with
  | null => exact ⟨'n', _, rfl, rfl, by decide⟩
  | bool b => cases b <;> exact ⟨_, _, rfl, rfl, by decide⟩
  | string s => exact ⟨'"', _, rfl, rfl, by decide⟩
  | array vs => cases vs <;> exact ⟨'[', _, rfl, rfl, by decide⟩
  | object ms => cases ms <;> exact ⟨'{', _, rfl, rfl, by decide⟩
  | number n =>
    cases n with
    | natural n =>
      obtain ⟨d, ds, hn, hd⟩ := toDigits_cons n
      refine ⟨d, ds, hn, not_isSpace_of_isDigit d hd, ?_⟩
      rintro rfl
      exact absurd hd (by decide)
    | other text => cases depth <;> exact h.elim

theorem readValue?_array (fuel depth : Nat) (cs ds : List Char) (c : Char)
    (h : skipSpace cs = c :: ds) (hc : c ≠ ']') :
    readValue? (fuel + 1) (depth + 1) ('[' :: cs) =
      (readItems? fuel depth (c :: ds)).map fun r => (.array r.1, r.2) := by
  have hopen : skipSpace ('[' :: cs) = '[' :: cs := rfl
  rw [readValue?, hopen]
  simp only [h]
  split
  · contradiction
  · rename_i heq
    exact absurd (List.cons.inj heq).1 hc
  · rename_i inner hinner _
    obtain rfl : depth = inner := Nat.succ.inj hinner
    rfl

theorem readValue?_object (fuel depth : Nat) (cs ds : List Char) (c : Char)
    (h : skipSpace cs = c :: ds) (hc : c ≠ '}') :
    readValue? (fuel + 1) (depth + 1) ('{' :: cs) =
      (readMembers? fuel depth (c :: ds)).map fun r => (.object r.1, r.2) := by
  have hopen : skipSpace ('{' :: cs) = '{' :: cs := rfl
  rw [readValue?, hopen]
  simp only [h]
  split
  · contradiction
  · rename_i heq
    exact absurd (List.cons.inj heq).1 hc
  · rename_i inner hinner _
    obtain rfl : depth = inner := Nat.succ.inj hinner
    rfl

theorem readValue?_digit (fuel depth : Nat) (d : Char) (ds : List Char) (h : d.isDigit = true) :
    readValue? (fuel + 1) depth (d :: ds) =
      (readNumber? (d :: ds)).map fun r => (.number r.1, r.2) := by
  have hstart : skipSpace (d :: ds) = d :: ds := by
    simp [skipSpace, not_isSpace_of_isDigit d h]
  have hother : ∀ c cs, d :: ds = c :: cs → c.isDigit = true := by
    intro c cs heq
    rw [← (List.cons.inj heq).1, h]
  rw [readValue?, hstart]
  split
  case h_7 => rfl
  all_goals
    rename_i heq
    exact absurd (hother _ _ heq) (by decide)

theorem readsBack_natural (depth n : Nat) : ReadsBack depth (.number (.natural n)) := by
  intro level fuel rest hrest hfuel
  have hnumber := readNumber?_toDigits n rest hrest
  obtain ⟨d, ds, hn, hd⟩ := toDigits_cons n
  simp only [writeIndented, writeNumber, hn, List.length_cons] at hfuel hnumber ⊢
  obtain ⟨fuel, rfl⟩ : ∃ j, fuel = j + 1 := ⟨fuel - 1, by omega⟩
  rw [List.cons_append] at hnumber ⊢
  rw [readValue?_digit fuel depth d _ hd, hnumber]
  rfl

theorem readsBack_string (depth : Nat) (s : String) : ReadsBack depth (.string s) := by
  intro level fuel rest _ hfuel
  rw [writeIndented] at hfuel ⊢
  have hpos : 0 < (writeString s).length := by simp [writeString]
  obtain ⟨fuel, rfl⟩ : ∃ j, fuel = j + 1 := ⟨fuel - 1, by omega⟩
  have hopen := skipSpace_writeString [] rest s (by simp)
  rw [List.nil_append] at hopen
  rw [readValue?, hopen]
  simp only [readString?_written s rest fuel hfuel, Option.map_some]

theorem readsBack_array (depth : Nat) (vs : List Json) (h : ∀ v ∈ vs, Plain depth v)
    (hread : ∀ v ∈ vs, ReadsBack depth v) : ReadsBack (depth + 1) (.array vs) := by
  intro level fuel rest _ hfuel
  cases vs with
  | nil =>
    simp only [writeIndented, List.length_cons] at hfuel
    obtain ⟨fuel, rfl⟩ : ∃ j, fuel = j + 1 := ⟨fuel - 1, by omega⟩
    rfl
  | cons v vs =>
    obtain ⟨c, cs, hhead, hspace, hclose⟩ :=
      writeIndented_head depth (level + 1) v (h v List.mem_cons_self)
    simp only [writeIndented, List.length_cons, List.length_append] at hfuel
    obtain ⟨fuel, rfl⟩ : ∃ j, fuel = j + 1 := ⟨fuel - 1, by omega⟩
    have hitems := readItems?_written depth level fuel v vs [] rest hread (by simp) (by omega)
    have hgap : skipSpace (lineBreak (level + 1) ++
        (writeIndented (level + 1) v ++ (indentedItems level vs ++ rest))) =
        c :: (cs ++ (indentedItems level vs ++ rest)) := by
      rw [skipSpace_lineBreak, hhead]
      simp [skipSpace, hspace]
    rw [writeIndented, List.cons_append, List.cons_append, List.cons_append, List.append_assoc,
      List.append_assoc, readValue?_array fuel depth _ _ c hgap hclose]
    rw [hhead, List.nil_append, List.cons_append] at hitems
    rw [hitems]
    rfl

theorem readsBack_object (depth : Nat) (ms : List (String × Json))
    (hread : ∀ m ∈ ms, ReadsBack depth m.2) : ReadsBack (depth + 1) (.object ms) := by
  intro level fuel rest _ hfuel
  cases ms with
  | nil =>
    simp only [writeIndented, List.length_cons] at hfuel
    obtain ⟨fuel, rfl⟩ : ∃ j, fuel = j + 1 := ⟨fuel - 1, by omega⟩
    rfl
  | cons m ms =>
    obtain ⟨k, v⟩ := m
    simp only [writeIndented, List.length_cons, List.length_append] at hfuel
    obtain ⟨fuel, rfl⟩ : ∃ j, fuel = j + 1 := ⟨fuel - 1, by omega⟩
    have hmembers := readMembers?_written depth level fuel k v ms [] rest hread (by simp)
      (by omega)
    have hgap := skipSpace_writeString (lineBreak (level + 1)) (':' :: ' ' ::
      (writeIndented (level + 1) v ++ (indentedMembers level ms ++ rest))) k
      (isSpace_of_mem_lineBreak _)
    rw [writeIndented]
    simp only [List.cons_append, List.append_assoc]
    rw [readValue?_object fuel depth _ _ '"' hgap (by decide)]
    simp only [writeString, List.nil_append, List.cons_append, List.append_assoc] at hmembers
    rw [hmembers]
    rfl

theorem readsBack_word (depth : Nat) (v : Json) (hv : v = .null ∨ ∃ b, v = .bool b) :
    ReadsBack depth v := by
  intro level fuel rest _ hfuel
  rcases hv with rfl | ⟨b, rfl⟩
  · have hword : 4 ≤ fuel := hfuel
    obtain ⟨fuel, rfl⟩ : ∃ j, fuel = j + 1 := ⟨fuel - 1, by omega⟩
    rfl
  · cases b with
    | true =>
      have hword : 4 ≤ fuel := hfuel
      obtain ⟨fuel, rfl⟩ : ∃ j, fuel = j + 1 := ⟨fuel - 1, by omega⟩
      rfl
    | false =>
      have hword : 5 ≤ fuel := hfuel
      obtain ⟨fuel, rfl⟩ : ∃ j, fuel = j + 1 := ⟨fuel - 1, by omega⟩
      rfl

theorem readsBack_of_plain : ∀ (depth : Nat) (v : Json), Plain depth v → ReadsBack depth v
  | depth, .null, _ => readsBack_word depth .null (Or.inl rfl)
  | depth, .bool b, _ => readsBack_word depth (.bool b) (Or.inr ⟨b, rfl⟩)
  | depth, .string s, _ => readsBack_string depth s
  | depth, .number (.natural n), _ => readsBack_natural depth n
  | depth, .number (.other _), h => by cases depth <;> exact h.elim
  | 0, .array _, h => h.elim
  | 0, .object _, h => h.elim
  | depth + 1, .array vs, h =>
    readsBack_array depth vs h fun v hv => readsBack_of_plain depth v (h v hv)
  | depth + 1, .object ms, h =>
    readsBack_object depth ms fun m hm => readsBack_of_plain depth m.2 (h m hm)

theorem parse?_pretty (v : Json) (h : Plain 127 v) : parse? (v.pretty ++ "\n") = some v := by
  have htext : (v.pretty ++ "\n").toList = writeIndented 0 v ++ ['\n'] := by
    rw [pretty, String.toList_append, String.toList_ofList]
    rfl
  have hread := readsBack_of_plain 127 v h 0 (2 * (writeIndented 0 v ++ ['\n']).length + 2) ['\n']
    (stops_cons '\n' [] rfl) (by rw [List.length_append]; omega)
  rw [parse?, htext]
  simp only [hread]
  rfl

end DocLint.Json
