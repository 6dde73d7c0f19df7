import DocLint.Proofs.LineKinds
import DocLint.Proofs.LoweredText
import DocLint.Proofs.TextLines
import DocLint.Prose

/-!
# Code samples in a documentation block

The prose of a block leaves out example sections and fenced passages. What they
say does not show in it: two blocks that differ only there have the same prose,
so the same stop words are found in them.
-/

set_option autoImplicit false

namespace DocLint

namespace Text

theorem strip?_append_cons (needle front rest : List Char) (d : Char) (hd : d ∉ needle) :
    strip? needle (front ++ d :: rest) = (strip? needle front).map (· ++ d :: rest) := by
  induction needle generalizing front with
  | nil => rfl
  | cons p needle ih =>
    rw [List.mem_cons, not_or] at hd
    cases front with
    | nil => simp [strip?, Ne.symm hd.1]
    | cons c front =>
      by_cases hc : p = c
      · simp [strip?, hc, ih front hd.2]
      · simp [strip?, hc]

theorem lines_join_cons (line next : List Char) (ls : List (List Char)) (h : '\n' ∉ line) :
    lines (join ['\n'] (line :: next :: ls)) =
      dropReturn line :: lines (join ['\n'] (next :: ls)) := by
  rw [join, List.append_assoc, List.singleton_append, lines, splitLines_line [] line _ h]
  rfl

theorem lines_join_single (line : List Char) (h : '\n' ∉ line) (hne : line ≠ []) :
    lines (join ['\n'] [line]) = [line] := by
  have hsplit (current rest : List Char) (hrest : '\n' ∉ rest)
      (hsome : current.reverse ++ rest ≠ []) :
      splitLines current rest = [current.reverse ++ rest] := by
    induction rest generalizing current with
    | nil => simpa [splitLines] using hsome
    | cons c rest ih =>
      rw [List.mem_cons, not_or] at hrest
      simpa [splitLines, Ne.symm hrest.1] using ih (c :: current) hrest.2
  exact hsplit [] line h hne

theorem trimEnd_dropReturn (line : List Char) : trimEnd (dropReturn line) = trimEnd line := by
  fun_induction dropReturn line with
  | case1 => rfl
  | case2 => rfl
  | case3 c cs _ ih => rw [trimEnd_cons, trimEnd_cons, ih]

end Text

namespace Prose

def lowered (line : Line) : List Char := Text.lower (lineProse line)

theorem mem_dropMark (c : Char) (cs : List Char) (h : c ∈ dropMark cs) : c ∈ cs := by
  unfold dropMark at h
  split at h
  all_goals simp [h]

theorem mem_dropBlank (c : Char) (cs : List Char) (h : c ∈ dropBlank cs) : c ∈ cs := by
  cases cs with
  | nil => exact h
  | cons d cs =>
    rw [dropBlank] at h
    split at h
    · exact List.mem_cons_of_mem d h
    · exact h

theorem mem_lineProse (c : Char) (line : Line) (h : c ∈ lineProse line) : c ∈ line := by
  have hshort :=
    (List.dropWhile_suffix Text.isBlank).subset (mem_dropMark c _ (mem_dropBlank c _ h))
  apply (Text.trimEnd_prefix line).subset
  cases hend : Text.stripEnd? ['*', '/'] (Text.trimEnd line) with
  | none =>
    rw [hend] at hshort
    exact hshort
  | some front =>
    rw [hend] at hshort
    obtain ⟨back, hback, rfl⟩ := Option.map_eq_some_iff.mp hend
    rw [Text.strip?_eq_some_iff] at hback
    rw [← List.mem_reverse, hback]
    exact List.mem_append_right _ (List.mem_reverse.mp hshort)

theorem mem_lowered (c : Char) (line : Line) (hc : c.toNat ≤ 96) (h : c ∈ lowered line) :
    c ∈ line :=
  mem_lineProse c line (Text.mem_lower c _ hc h)

theorem lowered_dropReturn (line : Line) : lowered (Text.dropReturn line) = lowered line := by
  rw [lowered, lowered, lineProse, lineProse, Text.trimEnd_dropReturn]

def blockOf (ls : List Line) : List Char := Text.join ['\n'] ls

/-- What the lines of a block add to the prose of a line above them. -/
def behind (ls : List Line) : List Char :=
  ((Text.lines (blockOf ls)).map lowered).flatMap (' ' :: ·)

theorem map_lowered_cons (line : Line) (ls : List Line) (hline : '\n' ∉ line)
    (h : line ≠ [] ∨ ls ≠ []) :
    (Text.lines (blockOf (line :: ls))).map lowered =
      lowered line :: (Text.lines (blockOf ls)).map lowered := by
  cases ls with
  | nil =>
    rw [blockOf, Text.lines_join_single line hline (by simpa using h)]
    rfl
  | cons next ls =>
    rw [blockOf, Text.lines_join_cons line next ls hline, List.map_cons, lowered_dropReturn,
      blockOf]

theorem behind_cons (line : Line) (ls : List Line) (hline : '\n' ∉ line)
    (h : line ≠ [] ∨ ls ≠ []) : behind (line :: ls) = ' ' :: lowered line ++ behind ls := by
  rw [behind, map_lowered_cons line ls hline h, List.flatMap_cons, behind]

theorem behind_append (front ls : List Line) (hfront : ∀ l ∈ front, '\n' ∉ l) (h : ls ≠ []) :
    behind (front ++ ls) = front.flatMap (' ' :: lowered ·) ++ behind ls := by
  induction front with
  | nil => rfl
  | cons line front ih =>
    rw [List.forall_mem_cons] at hfront
    rw [List.cons_append, behind_cons line _ hfront.1 (Or.inr (by simp [h])), ih hfront.2,
      List.flatMap_cons, List.append_assoc]

theorem mem_behind (c : Char) (ls : List Line) (hls : ∀ l ∈ ls, '\n' ∉ l) (h : c ∈ behind ls) :
    c = ' ' ∨ ∃ l ∈ ls, c ∈ lowered l := by
  induction ls with
  | nil => contradiction
  | cons line ls ih =>
    rw [List.forall_mem_cons] at hls
    by_cases hempty : line = [] ∧ ls = []
    · rw [hempty.1, hempty.2] at h
      contradiction
    · have hsome : line ≠ [] ∨ ls ≠ [] := by
        rw [← Decidable.not_and_iff_not_or_not]
        exact hempty
      rw [behind_cons line ls hls.1 hsome, List.cons_append, List.mem_cons, List.mem_append] at h
      rcases h with hblank | hhere | hrest
      · exact Or.inl hblank
      · exact Or.inr ⟨line, List.mem_cons_self, hhere⟩
      · apply (ih hls.2 hrest).imp_right
        rintro ⟨l, hl, hc⟩
        exact ⟨l, List.mem_cons_of_mem line hl, hc⟩

def joined (ls : List Line) : List Char := Text.join [' '] ((Text.lines (blockOf ls)).map lowered)

theorem joined_split (front ls : List Line) (line : Line) (hfront : ∀ l ∈ front, '\n' ∉ l)
    (hline : '\n' ∉ line) (hne : line ≠ []) :
    joined (front ++ line :: ls) =
      front.flatMap (lowered · ++ [' ']) ++ (lowered line ++ behind ls) := by
  induction front with
  | nil =>
    rw [List.nil_append, joined, map_lowered_cons line ls hline (Or.inl hne), Text.join_cons]
    rfl
  | cons first front ih =>
    rw [List.forall_mem_cons] at hfront
    have hsome : front ++ line :: ls ≠ [] := by simp
    obtain ⟨next, rest, hnext⟩ : ∃ next rest,
        (Text.lines (blockOf (front ++ line :: ls))).map lowered = next :: rest := by
      cases front with
      | nil => exact ⟨_, _, map_lowered_cons line ls hline (Or.inl hne)⟩
      | cons second front =>
        have hsecond := hfront.2 second List.mem_cons_self
        exact ⟨_, _, map_lowered_cons second _ hsecond (Or.inr (by simp))⟩
    have htail := ih hfront.2
    rw [joined, hnext] at htail
    rw [List.cons_append, joined, map_lowered_cons first _ hfront.1 (Or.inr hsome), hnext,
      Text.join, htail]
    simp

def withoutFences (cs : List Char) : List Char := dropFences cs.length cs

theorem length_afterFence? (cs rest : List Char) (h : afterFence? cs = some rest) :
    rest.length ≤ cs.length := by
  fun_induction afterFence? cs with
  | case1 => contradiction
  | case2 c cs rest' hstrip =>
    obtain rfl := Option.some.inj h
    rw [(Text.strip?_eq_some_iff _ _ _).mp hstrip, List.length_append]
    exact Nat.le_add_left _ _
  | case3 c cs _ ih => exact Nat.le_succ_of_le (ih h)

theorem length_behind_fence (cs rest : List Char)
    (h : (Text.strip? fence cs).bind afterFence? = some rest) : rest.length < cs.length := by
  obtain ⟨inner, hstrip, hinner⟩ := Option.bind_eq_some_iff.mp h
  have hle := length_afterFence? inner rest hinner
  rw [(Text.strip?_eq_some_iff _ _ _).mp hstrip, List.length_append]
  have hfence : fence.length = 3 := rfl
  omega

theorem dropFences_fuel (fuel : Nat) (cs : List Char) (h : cs.length ≤ fuel) :
    dropFences fuel cs = withoutFences cs := by
  induction hlength : cs.length using Nat.strongRecOn generalizing cs fuel with
  | ind n ih =>
    cases cs with
    | nil => cases fuel <;> rfl
    | cons c cs =>
      rw [List.length_cons] at h hlength
      obtain ⟨fuel, rfl⟩ : ∃ k, fuel = k + 1 := ⟨fuel - 1, by omega⟩
      rw [withoutFences, List.length_cons, dropFences, dropFences]
      cases hfence : (Text.strip? fence (c :: cs)).bind afterFence? with
      | none =>
        dsimp only
        rw [ih cs.length (by omega) fuel cs (by omega) rfl]
        rfl
      | some rest =>
        have hlt := length_behind_fence (c :: cs) rest hfence
        rw [List.length_cons] at hlt
        dsimp only
        rw [ih rest.length (by omega) fuel rest (by omega) rfl,
          ih rest.length (by omega) cs.length rest (by omega) rfl]

theorem withoutFences_cons (c : Char) (cs : List Char) :
    withoutFences (c :: cs) =
      match (Text.strip? fence (c :: cs)).bind afterFence? with
      | some rest => ' ' :: withoutFences rest
      | none => c :: withoutFences cs := by
  rw [withoutFences, List.length_cons, dropFences]
  cases hfence : (Text.strip? fence (c :: cs)).bind afterFence? with
  | none => rfl
  | some rest =>
    have hlt := length_behind_fence (c :: cs) rest hfence
    rw [List.length_cons] at hlt
    dsimp only
    rw [dropFences_fuel cs.length rest (by omega)]

theorem not_mem_fence (c : Char) (h : c ≠ '\x60') : c ∉ fence := by
  simp [fence, h]

theorem withoutFences_plain (c : Char) (cs : List Char) (h : c ≠ '\x60') :
    withoutFences (c :: cs) = c :: withoutFences cs := by
  have hstrip : Text.strip? fence ([] ++ c :: cs) = none :=
    Text.strip?_append_cons fence [] cs c (not_mem_fence c h)
  rw [List.nil_append] at hstrip
  rw [withoutFences_cons, hstrip]
  rfl

theorem withoutFences_append (front rest : List Char) (h : '\x60' ∉ front) :
    withoutFences (front ++ rest) = front ++ withoutFences rest := by
  induction front with
  | nil => rfl
  | cons c front ih =>
    rw [List.mem_cons, not_or] at h
    rw [List.cons_append, withoutFences_plain c _ (Ne.symm h.1), ih h.2, List.cons_append]

theorem afterFence?_plain (front rest : List Char) (h : '\x60' ∉ front) :
    afterFence? (front ++ rest) = afterFence? rest := by
  induction front with
  | nil => rfl
  | cons c front ih =>
    rw [List.mem_cons, not_or] at h
    have hstrip : Text.strip? fence ([] ++ c :: (front ++ rest)) = none :=
      Text.strip?_append_cons fence [] _ c (not_mem_fence c (Ne.symm h.1))
    rw [List.nil_append] at hstrip
    rw [List.cons_append, afterFence?, hstrip]
    exact ih h.2

theorem withoutFences_fenced (front inner rest : List Char) (hfront : '\x60' ∉ front)
    (hinner : '\x60' ∉ inner) :
    withoutFences (front ++ (fence ++ (inner ++ (fence ++ rest)))) =
      front ++ ' ' :: withoutFences rest := by
  have hclose : afterFence? (inner ++ (fence ++ rest)) = some rest := by
    rw [afterFence?_plain inner _ hinner]
    rfl
  have hopen : (Text.strip? fence (fence ++ (inner ++ (fence ++ rest)))).bind afterFence? =
      some rest := by
    rw [Text.strip?_append, Option.bind_some, hclose]
  have hfirst := withoutFences_cons '\x60' (['\x60', '\x60'] ++ (inner ++ (fence ++ rest)))
  rw [show (Text.strip? fence ('\x60' :: (['\x60', '\x60'] ++ (inner ++ (fence ++ rest))))).bind
    afterFence? = some rest from hopen] at hfirst
  rw [withoutFences_append front _ hfront]
  exact congrArg (front ++ ·) hfirst

def Plain (passage : List Char) : Prop := passage ≠ [] ∧ '\x60' ∉ passage

theorem strip?_fence_plain (front passage rest : List Char) (h : Plain passage) :
    Text.strip? fence (front ++ (passage ++ rest)) =
      (Text.strip? fence front).map (· ++ (passage ++ rest)) := by
  cases passage with
  | nil => exact absurd rfl h.1
  | cons d passage =>
    have hd : '\x60' ≠ d := fun hd => h.2 (List.mem_cons.mpr (Or.inl hd))
    exact Text.strip?_append_cons fence front _ d (not_mem_fence d hd.symm)

theorem afterFence?_append (front passage rest : List Char) (h : Plain passage) :
    afterFence? (front ++ (passage ++ rest)) =
      ((afterFence? front).map (· ++ (passage ++ rest))).or (afterFence? rest) := by
  induction front with
  | nil => exact afterFence?_plain passage rest h.2
  | cons c front ih =>
    have hstrip := strip?_fence_plain (c :: front) passage rest h
    rw [List.cons_append] at hstrip ⊢
    rw [afterFence?, afterFence?, hstrip]
    cases Text.strip? fence (c :: front) with
    | none => exact ih
    | some inner => rfl

theorem withoutFences_around (front rest : List Char) :
    (∃ before, ∀ passage, Plain passage →
      withoutFences (front ++ (passage ++ rest)) = before ++ (passage ++ withoutFences rest)) ∨
    ∃ text, ∀ passage, Plain passage → withoutFences (front ++ (passage ++ rest)) = text := by
  induction hlength : front.length using Nat.strongRecOn generalizing front with
  | ind n ih =>
    cases front with
    | nil =>
      left
      refine ⟨[], ?_⟩
      intro passage hplain
      exact withoutFences_append passage rest hplain.2
    | cons c front =>
      have hstep (lead shorter : List Char) (hshorter : shorter.length < n)
          (hlead : ∀ passage, Plain passage → withoutFences (c :: front ++ (passage ++ rest)) =
            lead ++ withoutFences (shorter ++ (passage ++ rest))) :
          (∃ before, ∀ passage, Plain passage → withoutFences (c :: front ++ (passage ++ rest)) =
            before ++ (passage ++ withoutFences rest)) ∨
          ∃ text, ∀ passage, Plain passage →
            withoutFences (c :: front ++ (passage ++ rest)) = text := by
        rcases ih shorter.length hshorter shorter rfl with ⟨before, hkept⟩ | ⟨text, hgone⟩
        · left
          refine ⟨lead ++ before, ?_⟩
          intro passage hplain
          rw [hlead passage hplain, hkept passage hplain, List.append_assoc]
        · right
          refine ⟨lead ++ text, ?_⟩
          intro passage hplain
          rw [hlead passage hplain, hgone passage hplain]
      have hfence (passage : List Char) (hplain : Plain passage) :
          (Text.strip? fence (c :: (front ++ (passage ++ rest)))).bind afterFence? =
            (Text.strip? fence (c :: front)).bind fun inner =>
              ((afterFence? inner).map (· ++ (passage ++ rest))).or (afterFence? rest) := by
        rw [← List.cons_append, strip?_fence_plain _ passage rest hplain, Option.bind_map]
        congr 1
        funext inner
        exact afterFence?_append inner passage rest hplain
      rw [List.length_cons] at hlength
      cases hopen : Text.strip? fence (c :: front) with
      | none =>
        apply hstep [c] front (by omega)
        intro passage hplain
        rw [List.cons_append, withoutFences_cons, hfence passage hplain, hopen]
        rfl
      | some inner =>
        cases hclose : afterFence? inner with
        | some shorter =>
          have hlt := length_behind_fence (c :: front) shorter (by rw [hopen]; exact hclose)
          rw [List.length_cons] at hlt
          apply hstep [' '] shorter (by omega)
          intro passage hplain
          rw [List.cons_append, withoutFences_cons, hfence passage hplain, hopen, Option.bind_some,
            hclose]
          rfl
        | none =>
          cases hrest : afterFence? rest with
          | some after =>
            right
            refine ⟨' ' :: withoutFences after, ?_⟩
            intro passage hplain
            rw [List.cons_append, withoutFences_cons, hfence passage hplain, hopen,
              Option.bind_some, hclose, hrest]
            rfl
          | none =>
            apply hstep [c] front (by omega)
            intro passage hplain
            rw [List.cons_append, withoutFences_cons, hfence passage hplain, hopen,
              Option.bind_some, hclose, hrest]
            rfl

theorem isSome_exampleTag?_append (c : Char) (front rest : List Char) :
    (exampleTag? (c :: front ++ '@' :: rest)).isSome = (exampleTag? (c :: front)).isSome := by
  have htag : "@example".toList = '@' :: "example".toList := by decide
  have hstrip := Text.strip?_append_cons "example".toList front rest '@' (by decide)
  unfold exampleTag?
  rw [htag, List.cons_append, Text.strip?, Text.strip?]
  by_cases hc : '@' = c
  · simp only [hc, beq_self_eq_true, if_true]
    rw [← hc, hstrip]
    cases Text.strip? "example".toList front with
    | none => rfl
    | some behind =>
      cases behind with
      | nil => rfl
      | cons d ds => cases hd : Text.isWordChar d <;> simp [Text.wordEnds, hd]
  · simp [hc]

theorem dropExamples_append (inside : Bool) (front rest : List Char) :
    dropExamples inside (front ++ '@' :: rest) =
      dropExamples inside front ++ dropExamples false ('@' :: rest) := by
  induction front generalizing inside with
  | nil => cases inside <;> rfl
  | cons c front ih =>
    have htag := isSome_exampleTag?_append c front rest
    rw [List.cons_append] at htag ⊢
    rw [dropExamples, dropExamples, htag]
    split
    · exact ih true
    · split
      · exact congrArg (' ' :: ·) (ih true)
      · exact congrArg (c :: ·) (ih false)

theorem dropExamples_inside (front rest : List Char) (h : '@' ∉ front) :
    dropExamples true (front ++ rest) = dropExamples true rest := by
  induction front with
  | nil => rfl
  | cons c front ih =>
    rw [List.mem_cons, not_or] at h
    rw [List.cons_append, dropExamples]
    simp [Ne.symm h.1, ih h.2]

theorem dropExamples_section (inner rest : List Char) (hinner : '@' ∉ inner)
    (hends : Text.wordEnds (inner ++ rest) = true) :
    dropExamples false ("@example".toList ++ (inner ++ rest)) = ' ' :: dropExamples true rest := by
  have htag : "@example".toList = '@' :: "example".toList := by decide
  have hsome : (exampleTag? ("@example".toList ++ (inner ++ rest))).isSome = true := by
    rw [exampleTag?, Text.strip?_append]
    simp [hends]
  rw [htag, List.cons_append] at hsome ⊢
  rw [dropExamples, hsome, dropExamples_inside "example".toList _ (by decide),
    dropExamples_inside inner rest hinner]
  rfl

structure SameProse (block other : List Char) : Prop where
  prose : normalize block = normalize other
  words : ∀ settings, foundWords settings block = foundWords settings other
  verdict : ∀ settings, detect settings block = detect settings other

theorem SameProse.of_prose (block other : List Char) (h : normalize block = normalize other) :
    SameProse block other := by
  have hwords (settings : LanguageSettings) :
      foundWords settings block = foundWords settings other := by
    rw [foundWords, foundWords, h]
  refine ⟨h, hwords, ?_⟩
  intro settings
  rw [detect, detect, hwords settings]

theorem normalize_blockOf (ls : List Line) :
    normalize (blockOf ls) = dropExamples false (withoutFences (joined ls)) := by
  rw [normalize, Text.lower_join, List.map_map]
  rfl

def exampleLine : Line := " * @example".toList

def fenceLine : Line := " * ".toList ++ fence

theorem lowered_exampleLine : lowered exampleLine = "@example".toList := by decide

theorem lowered_fenceLine : lowered fenceLine = fence := by decide

theorem behind_cases (ls : List Line) : behind ls = [] ∨ ∃ rest, behind ls = ' ' :: rest := by
  unfold behind
  cases (Text.lines (blockOf ls)).map lowered with
  | nil => exact Or.inl rfl
  | cons text texts => exact Or.inr ⟨_, rfl⟩

theorem behind_sample (sample post : List Line) (hsample : ∀ l ∈ sample, '\n' ∉ l) :
    ∃ inner, behind (sample ++ post) = inner ++ behind post ∧
      (∀ c ∈ inner, c = ' ' ∨ ∃ l ∈ sample, c ∈ lowered l) ∧
      (inner = [] ∨ ∃ rest, inner = ' ' :: rest) := by
  by_cases hpost : post = []
  · subst hpost
    refine ⟨behind sample, ?_, ?_, behind_cases sample⟩
    · rw [List.append_nil, show behind [] = [] from rfl, List.append_nil]
    · intro c hc
      exact mem_behind c sample hsample hc
  · refine ⟨sample.flatMap (' ' :: lowered ·), behind_append sample post hsample hpost, ?_, ?_⟩
    · intro c hc
      obtain ⟨l, hl, hmem⟩ := List.mem_flatMap.mp hc
      exact (List.mem_cons.mp hmem).imp_right fun hmem => ⟨l, hl, hmem⟩
    · cases sample with
      | nil => exact Or.inl rfl
      | cons first sample => exact Or.inr ⟨_, rfl⟩

theorem wordEnds_sample (inner : List Char) (post : List Line)
    (h : inner = [] ∨ ∃ rest, inner = ' ' :: rest) :
    Text.wordEnds (inner ++ withoutFences (behind post)) = true := by
  rcases h with rfl | ⟨rest, rfl⟩
  · rcases behind_cases post with hnil | ⟨rest, hblank⟩
    · rw [hnil]
      rfl
    · rw [hblank, withoutFences_plain ' ' rest (by decide)]
      rfl
  · rfl

theorem joined_example (pre sample post : List Line) (hpre : ∀ l ∈ pre, '\n' ∉ l)
    (hsample : ∀ l ∈ sample, '\n' ∉ l) (hplain : ∀ l ∈ sample, '@' ∉ l ∧ '\x60' ∉ l) :
    ∃ inner, joined (pre ++ exampleLine :: (sample ++ post)) =
        pre.flatMap (lowered · ++ [' ']) ++ ("@example".toList ++ inner ++ behind post) ∧
      '@' ∉ inner ∧ Plain ("@example".toList ++ inner) ∧
      (inner = [] ∨ ∃ rest, inner = ' ' :: rest) := by
  obtain ⟨inner, hbehind, hmem, hhead⟩ := behind_sample sample post hsample
  have hfree (c : Char) (hc : c.toNat ≤ 96) (hne : c ≠ ' ') (hlines : ∀ l ∈ sample, c ∉ l) :
      c ∉ inner := by
    intro hin
    rcases hmem c hin with hblank | ⟨l, hl, hlow⟩
    · exact hne hblank
    · exact hlines l hl (mem_lowered c l hc hlow)
  have hat : '@' ∉ inner := hfree '@' (by decide) (by decide) fun l hl => (hplain l hl).1
  have hquote : '\x60' ∉ "@example".toList ++ inner := by
    rw [List.mem_append, not_or]
    exact ⟨by decide, hfree '\x60' (by decide) (by decide) fun l hl => (hplain l hl).2⟩
  refine ⟨inner, ?_, hat, ⟨by simp, hquote⟩, hhead⟩
  rw [joined_split pre _ exampleLine hpre (by decide) (by decide), hbehind, lowered_exampleLine,
    List.append_assoc]

theorem normalize_example (pre post : List Line) (hpre : ∀ l ∈ pre, '\n' ∉ l) :
    ∃ text, ∀ sample, (∀ l ∈ sample, '\n' ∉ l) → (∀ l ∈ sample, '@' ∉ l ∧ '\x60' ∉ l) →
      normalize (blockOf (pre ++ exampleLine :: (sample ++ post))) = text := by
  -- The fences keep the whole section or take it out; a section that is kept becomes a blank.
  rcases withoutFences_around (pre.flatMap (lowered · ++ [' '])) (behind post) with
    ⟨before, hkept⟩ | ⟨text, hgone⟩
  · refine ⟨dropExamples false before ++ ' ' :: dropExamples true (withoutFences (behind post)), ?_⟩
    intro sample hsample hplain
    obtain ⟨inner, htext, hat, hpassage, hhead⟩ :=
      joined_example pre sample post hpre hsample hplain
    have hsection := dropExamples_section inner _ hat (wordEnds_sample inner post hhead)
    rw [normalize_blockOf, htext, hkept _ hpassage, List.append_assoc, ← hsection]
    exact dropExamples_append false before _
  · refine ⟨dropExamples false text, ?_⟩
    intro sample hsample hplain
    obtain ⟨inner, htext, -, hpassage, -⟩ := joined_example pre sample post hpre hsample hplain
    rw [normalize_blockOf, htext, hgone _ hpassage]

theorem normalize_fenced (pre sample post : List Line) (hpre : ∀ l ∈ pre, '\n' ∉ l)
    (hsample : ∀ l ∈ sample, '\n' ∉ l) (hplain : ∀ l ∈ pre ++ sample, '\x60' ∉ l) :
    normalize (blockOf (pre ++ fenceLine :: (sample ++ fenceLine :: post))) =
      dropExamples false (pre.flatMap (lowered · ++ [' ']) ++
        ' ' :: withoutFences (behind post)) := by
  have hfree (ls : List Line) (f : Line → List Char) (hls : ∀ l ∈ ls, '\x60' ∉ l)
      (hf : ∀ l, '\x60' ∈ f l → '\x60' ∈ lowered l) : '\x60' ∉ ls.flatMap f := by
    intro hmem
    obtain ⟨l, hl, hin⟩ := List.mem_flatMap.mp hmem
    exact hls l hl (mem_lowered '\x60' l (by decide) (hf l hin))
  have hfront : '\x60' ∉ pre.flatMap (lowered · ++ [' ']) :=
    hfree pre _ (fun l hl => hplain l (List.mem_append_left _ hl)) fun l h => by simpa using h
  have hinner : '\x60' ∉ sample.flatMap (' ' :: lowered ·) :=
    hfree sample _ (fun l hl => hplain l (List.mem_append_right _ hl)) fun l h => by simpa using h
  have htext : joined (pre ++ fenceLine :: (sample ++ fenceLine :: post)) =
      pre.flatMap (lowered · ++ [' ']) ++
        (fence ++ ((sample.flatMap (' ' :: lowered ·) ++ [' ']) ++ (fence ++ behind post))) := by
    rw [joined_split pre _ fenceLine hpre (by decide) (by decide),
      behind_append sample _ hsample (by simp),
      behind_cons fenceLine post (by decide) (Or.inl (by decide)), lowered_fenceLine]
    simp
  rw [normalize_blockOf, htext, withoutFences_fenced _ _ _ hfront (by simpa using hinner)]

/-- Code samples do not count. Two blocks that differ only in the lines below an example tag, where
these lines hold neither a further tag nor a back quote, have the same prose. So have two blocks
that differ only in the lines between the first two fences. -/
theorem code_samples_ignored (pre sample other post : List Line)
    (hlines : ∀ l ∈ pre ++ sample ++ other, '\n' ∉ l) :
    ((∀ l ∈ sample ++ other, '@' ∉ l ∧ '\x60' ∉ l) →
      SameProse (blockOf (pre ++ [exampleLine] ++ sample ++ post))
        (blockOf (pre ++ [exampleLine] ++ other ++ post))) ∧
    ((∀ l ∈ pre ++ sample ++ other, '\x60' ∉ l) →
      SameProse (blockOf (pre ++ [fenceLine] ++ sample ++ [fenceLine] ++ post))
        (blockOf (pre ++ [fenceLine] ++ other ++ [fenceLine] ++ post))) := by
  simp only [List.forall_mem_append, List.append_assoc, List.cons_append, List.nil_append]
    at hlines ⊢
  obtain ⟨hpre, hsample, hother⟩ := hlines
  constructor
  · intro ⟨hplain, hplain'⟩
    obtain ⟨text, hsame⟩ := normalize_example pre post hpre
    apply SameProse.of_prose
    rw [hsame sample hsample hplain, hsame other hother hplain']
  · intro ⟨hquote, hplain, hplain'⟩
    apply SameProse.of_prose
    rw [normalize_fenced pre sample post hpre hsample (List.forall_mem_append.mpr ⟨hquote, hplain⟩),
      normalize_fenced pre other post hpre hother (List.forall_mem_append.mpr ⟨hquote, hplain'⟩)]

def greetingTop : List Line := ["/**".toList, " * Formats a greeting.".toList]

def greetingEnd : List Line := [" * @returns greeting".toList, " */".toList]

theorem greeting_sample_ignored :
    SameProse
        (blockOf (greetingTop ++ [exampleLine] ++ [" * saluda al usuario".toList] ++ greetingEnd))
        (blockOf (greetingTop ++ [exampleLine] ++ [] ++ greetingEnd)) ∧
      SameProse
        (blockOf (greetingTop ++ [fenceLine] ++ [" * saluda al usuario".toList] ++ [fenceLine] ++
          greetingEnd))
        (blockOf (greetingTop ++ [fenceLine] ++ [] ++ [fenceLine] ++ greetingEnd)) := by
  have hignored := code_samples_ignored greetingTop [" * saluda al usuario".toList] [] greetingEnd
    (by decide)
  exact ⟨hignored.1 (by decide), hignored.2 (by decide)⟩

end Prose

end DocLint
