import DocLint.Linter

/-!
# Files that cannot be read

A check of changed lines is the check of the files that are linted and can be
read. Files that are not linted leave no trace in it. A linted file that cannot be
read leaves one entry in the list of skipped files, and nothing else.
-/

set_option autoImplicit false

namespace DocLint

def ChangedLines.without (c : ChangedLines) (file : String) : ChangedLines :=
  ⟨c.files.filter fun entry => entry.1 != file⟩

namespace LintPolicy

variable (p : LintPolicy) (read : String → Except FileError String)

def scans (entry : String × List Nat) : Bool := p.covers entry.1 && (read entry.1).isOk

def skips? (entry : String × List Nat) : Option SkippedFile :=
  match read entry.1 with
  | .ok _ => none
  | .error e => if p.covers entry.1 then some ⟨entry.1, e.skipReason⟩ else none

theorem skips?_of_not_covered (entry : String × List Nat) (h : p.covers entry.1 = false) :
    p.skips? read entry = none := by
  rw [skips?]
  cases read entry.1 with
  | ok text => rfl
  | error e => simp [h]

theorem not_scans_of_error (file : String) (lines : List Nat) (e : FileError)
    (hread : read file = .error e) : ¬ p.scans read (file, lines) = true := by
  simp [scans, hread, Except.isOk, Except.toBool]

theorem skips?_of_error (file : String) (lines : List Nat) (e : FileError)
    (hcovers : p.covers file = true) (hread : read file = .error e) :
    p.skips? read (file, lines) = some ⟨file, e.skipReason⟩ := by
  simp [skips?, hread, hcovers]

theorem file_of_skips? (entry : String × List Nat) (s : SkippedFile)
    (h : p.skips? read entry = some s) : s.file = entry.1 := by
  cases hread : read entry.1 with
  | ok text => simp [skips?, hread] at h
  | error e =>
    cases hcovers : p.covers entry.1 with
    | false => simp [skips?, hread, hcovers] at h
    | true =>
      have hs : ⟨entry.1, e.skipReason⟩ = s := by simpa [skips?, hread, hcovers] using h
      rw [← hs]

theorem lintEach_skipped (file : String) (lines : List Line) (done : Validated)
    (ds : List Declaration) : (p.lintEach file lines done ds).1.skipped = [] := by
  induction ds generalizing done with
  | nil => rfl
  | cons d ds ih =>
    rw [lintEach]
    by_cases h : done.contains (file, d.index) = true
    · rw [if_pos h]
      exact ih done
    · rw [if_neg h]
      exact ih ((file, d.index) :: done)

theorem lintSource_skipped (file content : String) (changed : List Nat) (done : Validated) :
    (p.lintSource file content changed done).1.skipped = [] :=
  p.lintEach_skipped file _ done _

theorem lintSource_scanned (file content : String) (changed : List Nat) (done : Validated) :
    (p.lintSource file content changed done).1.scanned = 1 := rfl

section Step

variable (file : String) (lines : List Nat) (rest : List (String × List Nat)) (done : Validated)

theorem run_of_not_covered (h : p.covers file = false) :
    p.run read ((file, lines) :: rest) done = p.run read rest done := by
  rw [run, if_neg (Bool.eq_false_iff.mp h)]

theorem run_of_error (e : FileError) (h : p.covers file = true) (hread : read file = .error e) :
    p.run read ((file, lines) :: rest) done =
      ((({ skipped := [⟨file, e.skipReason⟩] } : LintResult).merge (p.run read rest done).1),
        (p.run read rest done).2) := by
  rw [run, if_pos h, hread]
  rfl

theorem run_of_ok (text : String) (h : p.covers file = true) (hread : read file = .ok text) :
    p.run read ((file, lines) :: rest) done =
      ((p.lintSource file text lines done).1.merge
          (p.run read rest (p.lintSource file text lines done).2).1,
        (p.run read rest (p.lintSource file text lines done).2).2) := by
  rw [run, if_pos h, hread]
  rfl

end Step

theorem run_eq_scanned (files : List (String × List Nat)) (done : Validated) :
    p.run read files done =
      let out := p.run read (files.filter (p.scans read)) done
      ({ out.1 with skipped := files.filterMap (p.skips? read) }, out.2) := by
  induction files generalizing done with
  | nil => rfl
  | cons entry rest ih =>
    obtain ⟨file, lines⟩ := entry
    cases hcovers : p.covers file with
    | false =>
      have hscans : ¬ p.scans read (file, lines) = true := by simp [scans, hcovers]
      rw [run_of_not_covered p read file lines rest done hcovers, ih,
        List.filter_cons_of_neg hscans,
        List.filterMap_cons_none (p.skips?_of_not_covered read (file, lines) hcovers)]
    | true =>
      cases hread : read file with
      | error e =>
        rw [run_of_error p read file lines rest done e hcovers hread, ih,
          List.filter_cons_of_neg (p.not_scans_of_error read file lines e hread),
          List.filterMap_cons_some (p.skips?_of_error read file lines e hcovers hread)]
        simp [LintResult.merge]
      | ok text =>
        have hscans : p.scans read (file, lines) = true := by
          simp [scans, hcovers, hread, Except.isOk, Except.toBool]
        have hskips : p.skips? read (file, lines) = none := by simp [skips?, hread]
        rw [run_of_ok p read file lines rest done text hcovers hread, ih,
          List.filter_cons_of_pos hscans, List.filterMap_cons_none hskips,
          run_of_ok p read file lines _ done text hcovers hread]
        simp [LintResult.merge, lintSource_skipped]

theorem run_scanned_add_skipped (files : List (String × List Nat)) (done : Validated) :
    (p.run read files done).1.scanned + (p.run read files done).1.skipped.length =
      (files.filter fun entry => p.covers entry.1).length := by
  induction files generalizing done with
  | nil => rfl
  | cons entry rest ih =>
    obtain ⟨file, lines⟩ := entry
    cases hcovers : p.covers file with
    | false =>
      rw [run_of_not_covered p read file lines rest done hcovers, ih done,
        List.filter_cons_of_neg (by simp [hcovers])]
    | true =>
      rw [List.filter_cons_of_pos (by simp [hcovers]), List.length_cons]
      cases hread : read file with
      | error e =>
        have hrest := ih done
        rw [run_of_error p read file lines rest done e hcovers hread]
        simp only [LintResult.merge, List.singleton_append, List.length_cons]
        omega
      | ok text =>
        have hrest := ih (p.lintSource file text lines done).2
        rw [run_of_ok p read file lines rest done text hcovers hread]
        simp only [LintResult.merge, lintSource_skipped, lintSource_scanned, List.nil_append]
        omega

theorem run_covered (read' : String → Except FileError String) (files : List (String × List Nat))
    (done : Validated) (hread : ∀ file, p.covers file = true → read' file = read file) :
    p.run read' (files.filter fun entry => p.covers entry.1) done = p.run read files done := by
  induction files generalizing done with
  | nil => rfl
  | cons entry rest ih =>
    obtain ⟨file, lines⟩ := entry
    cases hcovers : p.covers file with
    | false =>
      rw [List.filter_cons_of_neg (by simp [hcovers]),
        run_of_not_covered p read file lines rest done hcovers, ih]
    | true =>
      rw [List.filter_cons_of_pos (by simp [hcovers]), run, run, if_pos hcovers, if_pos hcovers,
        hread file hcovers]
      simp only [ih]

theorem skipped_in_order (files : List (String × List Nat)) (done : Validated)
    (h : files.Pairwise fun e f => e.1 < f.1) :
    (p.run read files done).1.skipped.Pairwise fun s t => s.file < t.file := by
  rw [run_eq_scanned, List.pairwise_filterMap]
  refine h.imp ?_
  intro e f hlt s hs t ht
  rw [p.file_of_skips? read e s hs, p.file_of_skips? read f t ht]
  exact hlt

/-- Without a file that cannot be read, its entry is gone from the skipped files and all else is
the same. -/
theorem run_without (before after : List (String × List Nat)) (file : String) (lines : List Nat)
    (e : FileError) (done : Validated) (hcovers : p.covers file = true)
    (hread : read file = .error e) :
    p.run read (before ++ (file, lines) :: after) done =
      let out := p.run read (before ++ after) done
      ({ out.1 with skipped := before.filterMap (p.skips? read) ++
          ⟨file, e.skipReason⟩ :: after.filterMap (p.skips? read) }, out.2) := by
  rw [run_eq_scanned, run_eq_scanned p read (before ++ after), List.filter_append,
    List.filter_cons_of_neg (p.not_scans_of_error read file lines e hread), ← List.filter_append,
    List.filterMap_append,
    List.filterMap_cons_some (p.skips?_of_error read file lines e hcovers hread)]

end LintPolicy

theorem ChangedLines.files_without (before after : List (String × List Nat)) (file : String)
    (lines : List Nat)
    (h : (before ++ (file, lines) :: after).Pairwise fun e f => e.1 < f.1) :
    (ChangedLines.without ⟨before ++ (file, lines) :: after⟩ file).files = before ++ after := by
  obtain ⟨-, hafter, hacross⟩ := List.pairwise_append.mp h
  have hne (entry : String × List Nat) (hentry : entry ∈ before ++ after) :
      (entry.1 != file) = true := by
    rw [bne_iff_ne]
    intro hfile
    rcases List.mem_append.mp hentry with hentry | hentry
    · have hlt : entry.1 < file := hacross entry hentry (file, lines) List.mem_cons_self
      exact String.lt_irrefl _ (hfile ▸ hlt)
    · have hlt : file < entry.1 := List.rel_of_pairwise_cons hafter hentry
      exact String.lt_irrefl _ (hfile ▸ hlt)
  rw [without, List.filter_append, List.filter_cons_of_neg (by simp), ← List.filter_append,
    List.filter_eq_self.mpr hne]

open LintPolicy in
/-- Each linted file is scanned or skipped, and files that are not linted have no effect. A linted
file that cannot be read changes nothing but the list of skipped files, where it adds one entry;
the entries stand in the order of the files. -/
theorem LintPolicy.read_failures_isolated (p : LintPolicy)
    (read : String → Except FileError String) (c : ChangedLines) (done : Validated)
    (hc : c.files.Pairwise fun e f => e.1 < f.1) :
    let out := p.run read c.files done
    out.1.scanned + out.1.skipped.length = (c.files.filter fun e => p.covers e.1).length ∧
    (∀ (read' : String → Except FileError String) (c' : ChangedLines),
      (∀ file, p.covers file = true → read' file = read file) →
      (c'.files.filter fun e => p.covers e.1) = (c.files.filter fun e => p.covers e.1) →
      p.run read' c'.files done = out) ∧
    (∀ file lines e, (file, lines) ∈ c.files → p.covers file = true → read file = .error e →
      let rest := p.run read (c.without file).files done
      out.1.violations = rest.1.violations ∧ out.1.declarations = rest.1.declarations ∧
      out.1.scanned = rest.1.scanned ∧ out.2 = rest.2 ∧
      ∃ before after, rest.1.skipped = before ++ after ∧
        out.1.skipped = before ++ ⟨file, e.skipReason⟩ :: after) ∧
    out.1.skipped.Pairwise fun s t => s.file < t.file := by
  intro out
  refine ⟨p.run_scanned_add_skipped read c.files done, ?_, ?_, p.skipped_in_order read _ done hc⟩
  · intro read' c' hread hfiles
    rw [← p.run_covered read' read' c'.files done fun _ _ => rfl, hfiles]
    exact p.run_covered read read' c.files done hread
  · intro file lines e hmem hcovers hread
    obtain ⟨files⟩ := c
    obtain ⟨before, after, rfl⟩ := List.append_of_mem hmem
    have hout := p.run_without read before after file lines e done hcovers hread
    rw [ChangedLines.files_without before after file lines hc]
    refine ⟨congrArg (·.1.violations) hout, congrArg (·.1.declarations) hout,
      congrArg (·.1.scanned) hout, congrArg (·.2) hout, before.filterMap (p.skips? read),
      after.filterMap (p.skips? read), ?_, congrArg (·.1.skipped) hout⟩
    rw [run_eq_scanned, List.filterMap_append]

/-- Changes of a document, of a source and of a source that is gone. -/
def changesWithDeleted : ChangedLines :=
  ⟨[("README.md", [1]), ("src/app.ts", [1]), ("src/deleted.ts", [3])]⟩

def readsApp (file : String) : Except FileError String :=
  if file = "src/app.ts" then .ok "export const LIMIT = 10;\n" else .error .notFound

theorem deleted_source_skipped :
    let p : LintPolicy := ⟨"/repo", {}, []⟩
    let out := p.run readsApp changesWithDeleted.files []
    let rest := p.run readsApp (changesWithDeleted.without "src/deleted.ts").files []
    p.covers "README.md" = false ∧ p.covers "src/deleted.ts" = true ∧
    readsApp "src/deleted.ts" = .error .notFound ∧ out.1.scanned + out.1.skipped.length = 2 ∧
    out.1.violations = rest.1.violations ∧ out.2 = rest.2 ∧
    ∃ before after, rest.1.skipped = before ++ after ∧
      out.1.skipped =
        before ++ ⟨"src/deleted.ts", "file not found (deleted or renamed)"⟩ :: after := by
  intro p out rest
  have hcovers : p.covers "src/deleted.ts" = true := by decide
  have hread : readsApp "src/deleted.ts" = .error .notFound := if_neg (by decide)
  have hlinted : (changesWithDeleted.files.filter fun e => p.covers e.1).length = 2 := by decide
  have hisolated := p.read_failures_isolated readsApp changesWithDeleted [] (by decide)
  have hdeleted := hisolated.2.2.1 "src/deleted.ts" [3] .notFound
    (by simp [changesWithDeleted]) hcovers hread
  exact ⟨by decide, hcovers, hread, hisolated.1.trans hlinted, hdeleted.1, hdeleted.2.2.2.1,
    hdeleted.2.2.2.2⟩

end DocLint
