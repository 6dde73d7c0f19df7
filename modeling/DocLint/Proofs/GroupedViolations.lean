import DocLint.Proofs.ChangedCheck
import DocLint.Proofs.ReportSections
import DocLint.Proofs.ValidatedOnce
import Mathlib.Data.List.Perm.Subperm

/-!
# The order of reported violations

One call on a linter reports file by file, and within a file from top to
bottom. A file that comes up again in the call adds nothing, since all of its
declarations are remembered by then. So the violations come in sections, and the
report has one header for each failing file and each failing declaration.
-/

set_option autoImplicit false

namespace DocLint

def Contiguous {α : Type} (P : α → Prop) (xs : List α) : Prop :=
  ∃ before inside after, xs = before ++ inside ++ after ∧ (∀ x ∈ inside, P x) ∧
    ∀ x ∈ before ++ after, ¬ P x

theorem contiguous_of_forall {α : Type} (P : α → Prop) (xs : List α) (h : ∀ x ∈ xs, P x) :
    Contiguous P xs :=
  ⟨[], xs, [], by simp, h, by simp⟩

theorem Contiguous.append_right {α : Type} {P : α → Prop} {xs : List α} (h : Contiguous P xs)
    (ys : List α) (hys : ∀ y ∈ ys, ¬ P y) : Contiguous P (xs ++ ys) := by
  obtain ⟨before, inside, after, rfl, hin, hout⟩ := h
  refine ⟨before, inside, after ++ ys, by simp, hin, ?_⟩
  intro x hx
  rw [← List.append_assoc, List.mem_append] at hx
  exact hx.elim (hout x) (hys x)

theorem Contiguous.append_left {α : Type} {P : α → Prop} {ys : List α} (h : Contiguous P ys)
    (xs : List α) (hxs : ∀ x ∈ xs, ¬ P x) : Contiguous P (xs ++ ys) := by
  obtain ⟨before, inside, after, rfl, hin, hout⟩ := h
  refine ⟨xs ++ before, inside, after, by simp, hin, ?_⟩
  intro x hx
  rw [List.append_assoc, List.mem_append] at hx
  exact hx.elim (hxs x) (hout x)

theorem contiguous_flatMap {α β κ : Type} (P : α → Prop) (parts : List β) (f : β → List α)
    (key : β → κ) (k : κ) (hd : (parts.map key).Nodup)
    (hin : ∀ b ∈ parts, key b = k → Contiguous P (f b))
    (hout : ∀ b ∈ parts, key b ≠ k → ∀ x ∈ f b, ¬ P x) : Contiguous P (parts.flatMap f) := by
  induction parts with
  | nil => exact contiguous_of_forall P [] (by simp)
  | cons b parts ih =>
    obtain ⟨hnew, hparts⟩ := List.nodup_cons.mp hd
    rw [List.flatMap_cons]
    by_cases hb : key b = k
    · apply (hin b List.mem_cons_self hb).append_right
      intro x hx
      obtain ⟨c, hc, hxc⟩ := List.mem_flatMap.mp hx
      refine hout c (List.mem_cons_of_mem b hc) ?_ x hxc
      intro hck
      exact hnew (List.mem_map.mpr ⟨c, hc, hck.trans hb.symm⟩)
    · refine Contiguous.append_left (ih hparts ?_ ?_) (f b) (hout b List.mem_cons_self hb)
      · exact fun c hc => hin c (List.mem_cons_of_mem b hc)
      · exact fun c hc => hout c (List.mem_cons_of_mem b hc)

theorem nodup_eraseDups {α : Type} [BEq α] [LawfulBEq α] (xs : List α) : xs.eraseDups.Nodup := by
  induction hn : xs.length using Nat.strongRecOn generalizing xs with
  | _ n ih =>
    cases xs with
    | nil => simp
    | cons x xs =>
      rw [List.eraseDups_cons, List.nodup_cons, List.mem_eraseDups]
      have hle := List.length_filter_le (fun y => !y == x) xs
      rw [List.length_cons] at hn
      exact ⟨by simp, ih _ (by omega) _ rfl⟩

/-- The violations are those of the sections, one section for each file. -/
structure Sectioned (vs : List Violation) (ss : List FileSection) : Prop where
  whole : vs = ss.flatMap FileSection.violations
  distinct : (ss.map FileSection.file).Nodup

namespace Sectioned

variable {vs : List Violation} {ss : List FileSection}

theorem nil : Sectioned [] [] := ⟨rfl, List.nodup_nil⟩

theorem append (h : Sectioned vs ss) {ws : List Violation} {ts : List FileSection}
    (h' : Sectioned ws ts) (hd : ∀ s ∈ ss, ∀ t ∈ ts, s.file ≠ t.file) :
    Sectioned (vs ++ ws) (ss ++ ts) := by
  refine ⟨by rw [h.whole, h'.whole, List.flatMap_append], ?_⟩
  rw [List.map_append, List.nodup_append]
  refine ⟨h.distinct, h'.distinct, ?_⟩
  intro f hf g hg
  obtain ⟨s, hs, rfl⟩ := List.mem_map.mp hf
  obtain ⟨t, ht, rfl⟩ := List.mem_map.mp hg
  exact hd s hs t ht

theorem mem_keys_iff (h : Sectioned vs ss) (file : String) (line : Nat) :
    (file, line) ∈ ss.flatMap FileSection.keys ↔ ∃ v ∈ vs, v.file = file ∧ v.line = line := by
  rw [h.whole]
  constructor
  · intro hk
    obtain ⟨s, hs, hk⟩ := List.mem_flatMap.mp hk
    obtain ⟨v, hv, hat⟩ := s.exists_violation _ hk
    exact ⟨v, List.mem_flatMap.mpr ⟨s, hs, hv⟩, hat⟩
  · rintro ⟨v, hv, rfl, rfl⟩
    obtain ⟨s, hs, hv⟩ := List.mem_flatMap.mp hv
    exact List.mem_flatMap.mpr ⟨s, hs, (s.mem_violations v hv).2⟩

theorem mem_files_iff (h : Sectioned vs ss) (file : String) :
    file ∈ ss.map FileSection.file ↔ ∃ v ∈ vs, v.file = file := by
  rw [h.whole]
  constructor
  · intro hf
    obtain ⟨s, hs, rfl⟩ := List.mem_map.mp hf
    obtain ⟨k, hk⟩ := List.exists_mem_of_ne_nil _ s.keys_ne_nil
    obtain ⟨v, hv, -⟩ := s.exists_violation k hk
    exact ⟨v, List.mem_flatMap.mpr ⟨s, hs, hv⟩, (s.mem_violations v hv).1⟩
  · rintro ⟨v, hv, rfl⟩
    obtain ⟨s, hs, hv⟩ := List.mem_flatMap.mp hv
    exact List.mem_map.mpr ⟨s, hs, (s.mem_violations v hv).1.symm⟩

theorem nodup_keys (h : Sectioned vs ss) : (ss.flatMap FileSection.keys).Nodup := by
  rw [List.nodup_flatMap]
  refine ⟨fun s _ => s.nodup_keys, (List.pairwise_map.mp h.distinct).imp ?_⟩
  intro s t hne k hks hkt
  obtain ⟨l, -, rfl⟩ := List.mem_map.mp hks
  obtain ⟨m, -, heq⟩ := List.mem_map.mp hkt
  exact hne (congrArg Prod.fst heq).symm

theorem contiguous_file (h : Sectioned vs ss) (file : String) :
    Contiguous (fun v => v.file = file) vs := by
  rw [h.whole]
  apply contiguous_flatMap _ ss _ FileSection.file file h.distinct
  · intro s _ hs
    apply contiguous_of_forall
    intro v hv
    exact (s.mem_violations v hv).1.trans hs
  · intro s _ hs v hv heq
    exact hs ((s.mem_violations v hv).1.symm.trans heq)

theorem contiguous_line (h : Sectioned vs ss) (file : String) (line : Nat) :
    Contiguous (fun v => v.file = file ∧ v.line = line) vs := by
  rw [h.whole]
  apply contiguous_flatMap _ ss _ FileSection.file file h.distinct
  · intro s _ hs
    have hlines : (s.lines.map LineSection.line).Nodup := by
      rw [List.Nodup, List.pairwise_map]
      exact s.ascending.imp fun hlt => Nat.ne_of_lt hlt
    apply contiguous_flatMap _ s.lines _ LineSection.line line hlines
    · intro l _ hl
      apply contiguous_of_forall
      intro v hv
      obtain ⟨hfile, hline⟩ := l.mem_violations s.file v hv
      exact ⟨hfile.trans hs, hline.trans hl⟩
    · intro l _ hl v hv heq
      exact hl ((l.mem_violations s.file v hv).2.symm.trans heq.2)
  · intro s _ hs v hv heq
    exact hs ((s.mem_violations v hv).1.symm.trans heq.1)

theorem lines_ascend (h : Sectioned vs ss) :
    vs.Pairwise fun v w => v.file = w.file → v.line ≤ w.line := by
  rw [h.whole, List.pairwise_flatMap]
  refine ⟨?_, (List.pairwise_map.mp h.distinct).imp ?_⟩
  · intro s _
    rw [FileSection.violations, List.pairwise_flatMap]
    refine ⟨?_, s.ascending.imp ?_⟩
    · intro l _
      apply List.pairwise_of_forall_mem_list
      intro v hv w hw _
      exact Nat.le_of_eq ((l.mem_violations s.file v hv).2.trans
        (l.mem_violations s.file w hw).2.symm)
    · intro k l hlt v hv w hw _
      rw [(k.mem_violations s.file v hv).2, (l.mem_violations s.file w hw).2]
      omega
  · intro s t hne v hv w hw heq
    rw [(s.mem_violations v hv).1, (t.mem_violations w hw).1] at heq
    exact absurd heq hne

theorem keys_perm (h : Sectioned vs ss) :
    ((vs.map fun v => (v.file, v.line)).eraseDups).Perm (ss.flatMap FileSection.keys) := by
  rw [List.perm_ext_iff_of_nodup (nodup_eraseDups _) h.nodup_keys]
  rintro ⟨file, line⟩
  rw [List.mem_eraseDups, h.mem_keys_iff, List.mem_map]
  simp only [Prod.mk.injEq]

theorem length_keys (ss : List FileSection) :
    (ss.flatMap FileSection.keys).length = (ss.flatMap FileSection.lines).length := by
  simp [List.length_flatMap, FileSection.keys]

theorem failingDeclarations_eq {r : LintResult} (h : Sectioned r.violations ss) :
    r.failingDeclarations = (ss.flatMap FileSection.lines).length := by
  rw [LintResult.failingDeclarations, h.keys_perm.length_eq, length_keys]

theorem terminalText_eq {r : LintResult} (h : Sectioned r.violations ss) (color : Bool)
    (c : ReportContext) :
    terminalText color c r =
      TerminalReport.heading color c ++ TerminalReport.counts color r ++
        TerminalReport.sectionsText color ss ++
        (if r.skipped.isEmpty then "" else TerminalReport.skipped color r.skipped) ++
        TerminalReport.verdict color r := by
  have hsections : (if r.violations.isEmpty then ""
      else TerminalReport.violations color none r.violations) =
        TerminalReport.sectionsText color ss := by
    cases ss with
    | nil => simp [h.whole, TerminalReport.sectionsText]
    | cons s ss =>
      obtain ⟨k, hk⟩ := List.exists_mem_of_ne_nil _ s.keys_ne_nil
      obtain ⟨v, hv, -⟩ := s.exists_violation k hk
      have hne : r.violations.isEmpty = false := by
        rw [List.isEmpty_eq_false_iff, h.whole]
        exact List.ne_nil_of_mem (List.mem_flatMap.mpr ⟨s, List.mem_cons_self, hv⟩)
      rw [hne, h.whole, ← TerminalReport.violations_sections color _ (by simp) h.distinct]
      rfl
  rw [terminalText, hsections]

end Sectioned

namespace LintPolicy

theorem exists_lineSections (p : LintPolicy) (file : String) (lines : List Line)
    (ds : List Declaration) (h : Ascending ds) :
    ∃ ls : List LineSection, ls.Pairwise (fun k l => k.line < l.line) ∧
      (∀ l ∈ ls, ∃ d ∈ ds, l.line = d.lineNumber) ∧
      ds.flatMap (p.violations file lines) = ls.flatMap (LineSection.violations file) := by
  induction ds with
  | nil => exact ⟨[], List.Pairwise.nil, by simp, rfl⟩
  | cons d ds ih =>
    obtain ⟨ls, hls, hfrom, heq⟩ := ih h.of_cons
    by_cases hf : p.settings.validate lines d = []
    · refine ⟨ls, hls, ?_, ?_⟩
      · intro l hl
        obtain ⟨e, he, hline⟩ := hfrom l hl
        exact ⟨e, List.mem_cons_of_mem d he, hline⟩
      · simp [violations, hf, ← heq]
    · refine ⟨⟨d.lineNumber, declarationText lines d, _, hf⟩ :: ls, ?_, ?_, ?_⟩
      · refine List.Pairwise.cons ?_ hls
        intro l hl
        obtain ⟨e, he, hline⟩ := hfrom l hl
        have hlt : d.index < e.index := List.rel_of_pairwise_cons h he
        rw [hline]
        exact Nat.succ_lt_succ hlt
      · intro l hl
        rcases List.mem_cons.mp hl with rfl | hl
        · exact ⟨d, List.mem_cons_self, rfl⟩
        · obtain ⟨e, he, hline⟩ := hfrom l hl
          exact ⟨e, List.mem_cons_of_mem d he, hline⟩
      · rw [List.flatMap_cons, List.flatMap_cons, heq]
        rfl

theorem lintDeclarations_sectioned (p : LintPolicy) (file : String) (lines : List Line)
    (done : Validated) (ds : List Declaration) (h : ∀ d ∈ ds, Accepted lines d) :
    ∃ ss, Sectioned (p.lintDeclarations file lines done ds).1.violations ss ∧
      ∀ s ∈ ss, s.file = file := by
  have hasc := inOrder_ascending lines ds h
  obtain ⟨ls, hls, -, heq⟩ := p.exists_lineSections file lines _
    (hasc.filter fun d => !done.contains (file, d.index))
  have hviolations : (p.lintDeclarations file lines done ds).1.violations =
      ls.flatMap (LineSection.violations file) :=
    (p.lintEach_violations file lines done _ hasc).trans heq
  rw [hviolations]
  cases ls with
  | nil => exact ⟨[], Sectioned.nil, by simp⟩
  | cons l ls =>
    exact ⟨[⟨file, l :: ls, by simp, hls⟩], ⟨by simp [FileSection.violations], by simp⟩, by simp⟩

theorem lintSource_sectioned (p : LintPolicy) (file content : String) (changed : List Nat)
    (done : Validated) :
    ∃ ss, Sectioned (p.lintSource file content changed done).1.violations ss ∧
      ∀ s ∈ ss, s.file = file :=
  p.lintDeclarations_sectioned file _ done _ (owners_accepted _ changed)

theorem lintWhole_sectioned (p : LintPolicy) (file content : String) (done : Validated) :
    ∃ ss, Sectioned (p.lintWhole file content done).1.violations ss ∧ ∀ s ∈ ss, s.file = file :=
  p.lintDeclarations_sectioned file _ done _ fun d hd => (mem_declarations_iff _ d).mp hd

theorem lintRead_sectioned (file : String) (content : Except FileError String)
    (lint : String → Validated → LintResult × Validated) (done : Validated)
    (h : ∀ text, ∃ ss, Sectioned (lint text done).1.violations ss ∧ ∀ s ∈ ss, s.file = file) :
    ∃ ss, Sectioned (lintRead file content lint done).1.violations ss ∧
      ∀ s ∈ ss, s.file = file := by
  cases content with
  | ok text => exact h text
  | error e => exact ⟨[], Sectioned.nil, by simp⟩

theorem run_sectioned (p : LintPolicy) (read : String → Except FileError String)
    (changed : List (String × List Nat)) (done : Validated)
    (hd : (changed.map Prod.fst).Nodup) :
    ∃ ss, Sectioned (p.run read changed done).1.violations ss ∧
      ∀ s ∈ ss, s.file ∈ changed.map Prod.fst := by
  induction changed generalizing done with
  | nil => exact ⟨[], Sectioned.nil, by simp⟩
  | cons entry rest ih =>
    obtain ⟨file, ls⟩ := entry
    obtain ⟨hnew, hrest⟩ := List.nodup_cons.mp hd
    by_cases hc : p.covers file = true
    · obtain ⟨ss, hss, hfile⟩ := lintRead_sectioned file (read file)
        (fun text => p.lintSource file text ls) done
        fun text => p.lintSource_sectioned file text ls done
      obtain ⟨ts, hts, hfiles⟩ := ih (lintRead file (read file)
        (fun text => p.lintSource file text ls) done).2 hrest
      refine ⟨ss ++ ts, ?_, ?_⟩
      · rw [run, if_pos hc]
        apply hss.append hts
        intro s hs t ht heq
        exact hnew (hfile s hs ▸ heq ▸ hfiles t ht)
      · intro s hs
        rcases List.mem_append.mp hs with hs | hs
        · simp [hfile s hs]
        · exact List.mem_cons_of_mem file (hfiles s hs)
    · obtain ⟨ss, hss, hfiles⟩ := ih done hrest
      rw [run, if_neg hc]
      exact ⟨ss, hss, fun s hs => List.mem_cons_of_mem file (hfiles s hs)⟩

theorem lintFiles_avoids (p : LintPolicy) (read : String → Except FileError String)
    (files : List String) (done : Validated) (file : String)
    (hdone : ∀ v ∈ askedRead (read file) (askedWhole file), v.key ∈ done) :
    ∀ w ∈ (p.lintFiles read files done).1.violations, w.file ≠ file := by
  intro w hw heq
  obtain ⟨made, h⟩ := p.lintFiles_accounts read files done
  rw [h.violations] at hw
  obtain ⟨v, hv, hwv⟩ := List.mem_flatMap.mp hw
  have hfile := (Validation.mem_violations p v w hwv).1
  obtain ⟨other, -, hasked⟩ := List.mem_flatMap.mp (h.wanted v hv)
  have hother : v.file = other := (LintStep.askedRead_origin other _ _ v
    (fun text => LintStep.askedWhole_origin other text v) hasked).1
  rw [← hother, ← hfile, heq] at hasked
  exact h.fresh v hv (hdone v hasked)

theorem lintFiles_sectioned (p : LintPolicy) (read : String → Except FileError String)
    (files : List String) (done : Validated) :
    ∃ ss, Sectioned (p.lintFiles read files done).1.violations ss := by
  induction files generalizing done with
  | nil => exact ⟨[], Sectioned.nil⟩
  | cons file rest ih =>
    by_cases hc : p.covers file = true
    · obtain ⟨ss, hss, hfile⟩ := lintRead_sectioned file (read file) (p.lintWhole file) done
        fun text => p.lintWhole_sectioned file text done
      obtain ⟨ts, hts⟩ := ih (lintRead file (read file) (p.lintWhole file) done).2
      refine ⟨ss ++ ts, ?_⟩
      rw [lintFiles, if_pos hc]
      apply hss.append hts
      intro s hs t ht heq
      obtain ⟨made, h⟩ := p.lintRead_accounts file (read file) (askedWhole file)
        (p.lintWhole file) done fun text => p.lintWhole_accounts file text done
      obtain ⟨v, hv, hvfile⟩ := (hts.mem_files_iff t.file).mp (List.mem_map_of_mem ht)
      exact p.lintFiles_avoids read rest _ file h.settled v hv
        (hvfile.trans (heq.symm.trans (hfile s hs)))
    · rw [lintFiles, if_neg hc]
      exact ih done

end LintPolicy

/-- Each file has one entry in the changes of a call. -/
def LintStep.Distinct : LintStep → Prop
  | .changes _ changed => (changed.map Prod.fst).Nodup
  | .source .. | .files .. => True

theorem LintStep.lint_sectioned (p : LintPolicy) (s : LintStep) (done : Validated)
    (hs : s.Distinct) : ∃ ss, Sectioned (s.lint p done).1.violations ss := by
  cases s with
  | source file content changed =>
    obtain ⟨ss, hss, -⟩ := p.lintSource_sectioned file content changed done
    exact ⟨ss, hss⟩
  | changes read changed =>
    obtain ⟨ss, hss, -⟩ := p.run_sectioned read changed done hs
    exact ⟨ss, hss⟩
  | files read paths => exact p.lintFiles_sectioned read (paths.map p.relative) done

theorem Accounts.failing_le {p : LintPolicy} {asked made : List Validation} {done : Validated}
    {out : LintResult × Validated} (h : Accounts p asked done made out) :
    out.1.failingDeclarations ≤ out.1.declarations := by
  have hsub : (out.1.violations.map fun v => (v.file, v.line)).eraseDups ⊆
      made.map fun v => (v.file, v.declaration.lineNumber) := by
    intro k hk
    obtain ⟨w, hw, rfl⟩ := List.mem_map.mp (List.mem_eraseDups.mp hk)
    rw [h.violations] at hw
    obtain ⟨v, hv, hwv⟩ := List.mem_flatMap.mp hw
    obtain ⟨hfile, hline⟩ := Validation.mem_violations p v w hwv
    exact List.mem_map.mpr ⟨v, hv, by rw [hfile, hline]; rfl⟩
  have hle := (List.subperm_of_subset (nodup_eraseDups _) hsub).length_le
  rw [List.length_map, ← h.declarations] at hle
  exact hle

namespace LintPolicy

/-- In the result of a call the violations of a file stand together, and so do those at a line of
it, from top to bottom. The terminal report has a section for each failing file and in it one for
each failing declaration, as many as there are failing declarations. -/
theorem violations_in_sections (p : LintPolicy) (s : LintStep) (done : Validated)
    (hs : s.Distinct) :
    let r := (s.lint p done).1
    (∀ file, Contiguous (fun v => v.file = file) r.violations) ∧
    (∀ file line, Contiguous (fun v => v.file = file ∧ v.line = line) r.violations) ∧
    (r.violations.Pairwise fun v w => v.file = w.file → v.line ≤ w.line) ∧
    (∃ ss : List FileSection,
      (∀ color c, terminalText color c r =
        TerminalReport.heading color c ++ TerminalReport.counts color r ++
          TerminalReport.sectionsText color ss ++
          (if r.skipped.isEmpty then "" else TerminalReport.skipped color r.skipped) ++
          TerminalReport.verdict color r) ∧
      (ss.map FileSection.file).Nodup ∧
      (∀ file, file ∈ ss.map FileSection.file ↔ ∃ v ∈ r.violations, v.file = file) ∧
      (ss.flatMap FileSection.keys).Nodup ∧
      (∀ file line, (file, line) ∈ ss.flatMap FileSection.keys ↔
        ∃ v ∈ r.violations, v.file = file ∧ v.line = line) ∧
      (ss.flatMap FileSection.lines).length = r.failingDeclarations) ∧
    r.failingDeclarations ≤ r.declarations := by
  intro r
  obtain ⟨ss, h⟩ := s.lint_sectioned p done hs
  obtain ⟨made, hmade⟩ := s.lint_accounts p done
  exact ⟨h.contiguous_file, h.contiguous_line, h.lines_ascend,
    ⟨ss, h.terminalText_eq, h.distinct, h.mem_files_iff, h.nodup_keys, h.mem_keys_iff,
      h.failingDeclarations_eq.symm⟩, hmade.failing_le⟩

theorem two_files_in_two_sections :
    let p : LintPolicy := ⟨"/repo", {}, []⟩
    let s : LintStep := .changes (fun _ => .ok twoClasses) [("a.ts", [3]), ("b.ts", [1])]
    s.Distinct ∧ ∃ ss : List FileSection,
      (∀ file, file ∈ ss.map FileSection.file ↔ ∃ v ∈ (s.lint p []).1.violations, v.file = file) ∧
      (ss.flatMap FileSection.lines).length = 2 := by
  intro p s
  have hs : s.Distinct := by
    change ["a.ts", "b.ts"].Nodup
    decide
  have htwo : (s.lint p []).1.failingDeclarations = 2 := by decide +kernel
  obtain ⟨-, -, -, ⟨ss, -, -, hfiles, -, -, hcount⟩, -⟩ := p.violations_in_sections s [] hs
  exact ⟨hs, ss, hfiles, hcount.trans htwo⟩

end LintPolicy

end DocLint
