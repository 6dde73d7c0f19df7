import DocLint.Proofs.ReadOnlyWorlds

/-!
# The verdict of a check

What keeps a check from being carried out is an obstacle, and only obstacles
do. Without one, the format of the report decides nothing: the result, the exit
code and each of the three reports say the same about the violations.
-/

set_option autoImplicit false

namespace DocLint

namespace LintResult

theorem hasErrors_iff (r : LintResult) : r.hasErrors = true ↔ r.violations ≠ [] := by
  have hseverity (v : Violation) : v.severity = .error := by cases v.severity; rfl
  cases hv : r.violations with
  | nil => simp [hasErrors, hv]
  | cons v vs => simp [hasErrors, hv, hseverity]

end LintResult

theorem Summary.passed_eq_false_iff (c : ReportContext) (r : LintResult) :
    (Summary.ofResult c r).toJson.get? "passed" = some (.bool false) ↔ r.violations ≠ [] := by
  have hpassed : (Summary.ofResult c r).toJson.get? "passed" = some (.bool (!r.hasErrors)) := by
    rw [Summary.toJson]
    split <;> rfl
  rw [hpassed, ← r.hasErrors_iff]
  simp

theorem Sarif.results_iff (r : LintResult) :
    (∃ run ∈ (Sarif.ofResult r).runs, run.results ≠ []) ↔ r.violations ≠ [] := by
  simp [Sarif.ofResult]

namespace TerminalReport

def lastWord (color failed : Bool) : List Char :=
  ((if failed then styled color .red "FAILED" else styled color .green "PASSED") ++ "\n\n").toList

theorem lastWord_suffix (color : Bool) (c : ReportContext) (r : LintResult) :
    lastWord color r.hasErrors <:+ (terminalText color c r).toList := by
  have hverdict : lastWord color r.hasErrors <:+ (verdict color r).toList := by
    simp only [verdict, lastWord, String.toList_append, List.append_assoc]
    iterate 3 apply List.suffix_append_of_suffix
    exact List.suffix_refl _
  rw [terminalText, String.toList_append]
  exact hverdict.trans (List.suffix_append _ _)

theorem lastWord_unique (color a b : Bool) (text : List Char) (ha : lastWord color a <:+ text)
    (hb : lastWord color b <:+ text) : a = b := by
  have hlength : (lastWord color a).length = (lastWord color b).length := by
    clear ha hb
    revert color a b
    decide
  have heq : lastWord color a = lastWord color b :=
    (List.suffix_of_suffix_length_le ha hb (Nat.le_of_eq hlength)).eq_of_length hlength
  clear ha hb hlength
  revert color a b
  decide

theorem failed_iff (color : Bool) (c : ReportContext) (r : LintResult) :
    (styled color .red "FAILED" ++ "\n\n").toList <:+ (terminalText color c r).toList ↔
      r.violations ≠ [] := by
  rw [← r.hasErrors_iff]
  constructor
  · intro h
    exact (lastWord_unique color true r.hasErrors _ h (lastWord_suffix color c r)).symm
  · intro h
    have hend := lastWord_suffix color c r
    rw [h] at hend
    exact hend

theorem not_failed_suffix (color : Bool) (c : ReportContext) (r : LintResult) :
    ¬ "FAILED".toList <:+ (terminalText color c r).toList := by
  intro h
  have hbreak : ['\n'] <:+ (terminalText color c r).toList := by
    refine List.IsSuffix.trans ?_ (lastWord_suffix color c r)
    rw [lastWord, String.toList_append]
    exact List.suffix_append_of_suffix (by decide)
  have hlast : ['\n'] <:+ "FAILED".toList := List.suffix_of_suffix_length_le hbreak h (by decide)
  revert hlast
  decide

end TerminalReport

namespace World

section Obstacles

variable (w : World Id) (args : CheckArguments)

/-- The file that settings are read from, where there is a root to look in: the one that is named,
or else the first usual one. -/
def settingsFile? : Except FileError (Option String) :=
  Except.map (fun root => args.settingsPath.or
    ((settingsFileNames.map (PathText.join root)).find? w.isFile)) w.repositoryRoot

/-- The settings of a check, whether or not they are valid. -/
inductive HasSettings : Settings → Prop
  | builtIn (hfile : w.settingsFile? args = .ok none) : HasSettings {}
  | ofFile (path text : String) (s : Settings) (hfile : w.settingsFile? args = .ok (some path))
      (hread : w.read path = .ok text) (hparse : Settings.parse? text = some s) : HasSettings s

/-- The path leads to no file, or to a directory that cannot be walked. -/
inductive Unreachable (path : String) : CheckError → Prop
  | noAccess (e : FileError) (h : w.canonical path = .error e) :
      Unreachable path (.noAccess path e)
  | noWalk (absolute : String) (e : WalkError) (h : w.canonical path = .ok absolute)
      (hwalk : w.directory? absolute = some (.error e)) : Unreachable path (.noWalk e)

/-- What keeps a check from being carried out. -/
inductive Obstacle : CheckError → Prop
  | format (h : args.format ∉ ["pretty", "json", "sarif"]) :
      Obstacle (.invalidFormat args.format)
  | directory (e : FileError) (h : w.currentDirectory = .error e) : Obstacle (.noDirectory e)
  | unreadable (path : String) (e : FileError) (hfile : w.settingsFile? args = .ok (some path))
      (hread : w.read path = .error e) : Obstacle (.load (.unreadable path e))
  | malformed (path text : String) (hfile : w.settingsFile? args = .ok (some path))
      (hread : w.read path = .ok text) (hparse : Settings.parse? text = none) :
      Obstacle (.load (.malformed path))
  | invalid (s : Settings) (p : SettingsProblem) (hs : HasSettings w args s)
      (hp : s.problem? = some p) : Obstacle (.invalidSettings p)
  | policy (s : Settings) (reason : String) (hs : HasSettings w args s)
      (henforced : s.language.enforceEnglish = true) (hwords : Prose.stopWords s.language ≠ [])
      (hsearch : w.prepareSearch (Prose.stopWords s.language) = .error reason) :
      Obstacle (.policy (.wordSearch reason))
  | path (path : String) (e : CheckError) (hpath : path ∈ args.paths)
      (h : Unreachable w path e) : Obstacle e

theorem firstFile?_eq (paths : List String) : w.firstFile? paths = paths.find? w.isFile := by
  induction paths with
  | nil => rfl
  | cons path paths ih =>
    have hcons : w.firstFile? (path :: paths) =
        if (w.isFile path).run then some path else w.firstFile? paths := rfl
    rw [hcons, ih, List.find?_cons]
    cases w.isFile path <;> rfl

theorem repositoryRoot_eq_error_iff (e : FileError) :
    w.repositoryRoot = .error e ↔ w.currentDirectory = .error e := by
  unfold repositoryRoot
  cases w.currentDirectory with
  | error e' => exact Iff.rfl
  | ok current =>
    dsimp only [Bind.bind, Pure.pure]
    split <;> exact iff_of_false nofun nofun

theorem loadSettings_eq (root : String) (hroot : w.repositoryRoot = .ok root) :
    ∃ file, w.settingsFile? args = .ok file ∧ w.loadSettings root args.settingsPath =
      match file with
      | none => .ok ({}, none)
      | some path => Except.map (fun s => (s, some path)) (w.readSettings path) := by
  refine ⟨_, congrArg (Except.map _) hroot, ?_⟩
  cases args.settingsPath with
  | some path => rfl
  | none =>
    dsimp only [Option.or]
    rw [← firstFile?_eq]
    rfl

theorem readSettings_eq (path : String) :
    w.readSettings path =
      match w.read path with
      | .error e => .error (.unreadable path e)
      | .ok text => match Settings.parse? text with
        | none => .error (.malformed path)
        | some s => .ok s := rfl

theorem checkedSettings_eq (root : String) :
    w.checkedSettings root args =
      match w.loadSettings root args.settingsPath with
      | .error e => .error (.load e)
      | .ok (s, path) => match s.problem? with
        | some p => .error (.invalidSettings p)
        | none => .ok ({ s with diff := { s.diff with
            contextLines := args.context.getD s.diff.contextLines } }, path) := rfl

theorem loadSettings_cases (root : String) (hroot : w.repositoryRoot = .ok root) :
    (∃ e, Obstacle w args (.load e) ∧ w.loadSettings root args.settingsPath = .error e) ∨
    (∃ s path, HasSettings w args s ∧ w.loadSettings root args.settingsPath = .ok (s, path)) := by
  obtain ⟨file, hfile, hload⟩ := w.loadSettings_eq args root hroot
  rw [hload]
  cases file with
  | none => exact Or.inr ⟨{}, none, .builtIn hfile, rfl⟩
  | some path =>
    simp only [readSettings_eq]
    cases hread : w.read path with
    | error e => exact Or.inl ⟨_, .unreadable path e hfile hread, rfl⟩
    | ok text =>
      dsimp only
      cases hparse : Settings.parse? text with
      | none => exact Or.inl ⟨_, .malformed path text hfile hread hparse, rfl⟩
      | some s => exact Or.inr ⟨s, some path, .ofFile path text s hfile hread hparse, rfl⟩

theorem HasSettings.unique {s s' : Settings} (h : HasSettings w args s)
    (h' : HasSettings w args s') : s = s' := by
  cases h with
  | builtIn hfile =>
    cases h' with
    | builtIn => rfl
    | ofFile path text s' hfile' => rw [hfile] at hfile'; cases hfile'
  | ofFile path text s hfile hread hparse =>
    cases h' with
    | builtIn hfile' => rw [hfile] at hfile'; cases hfile'
    | ofFile path' text' s' hfile' hread' hparse' =>
      obtain rfl : path = path' := Option.some.inj (Except.ok.inj (hfile.symm.trans hfile'))
      obtain rfl : text = text' := Except.ok.inj (hread.symm.trans hread')
      exact Option.some.inj (hparse.symm.trans hparse')

theorem HasSettings.no_load_obstacle {s : Settings} (h : HasSettings w args s) (e : LoadError) :
    ¬ Obstacle w args (.load e) := by
  intro ho
  cases ho with
  | unreadable path e hfile hread =>
    cases h with
    | builtIn hnone => rw [hfile] at hnone; cases hnone
    | ofFile path' text s hfile' hread' hparse =>
      obtain rfl : path = path' := Option.some.inj (Except.ok.inj (hfile.symm.trans hfile'))
      rw [hread] at hread'
      cases hread'
  | malformed path text hfile hread hparse =>
    cases h with
    | builtIn hnone => rw [hfile] at hnone; cases hnone
    | ofFile path' text' s hfile' hread' hparse' =>
      obtain rfl : path = path' := Option.some.inj (Except.ok.inj (hfile.symm.trans hfile'))
      obtain rfl : text = text' := Except.ok.inj (hread.symm.trans hread')
      rw [hparse] at hparse'
      cases hparse'
  | path path e hpath h => cases h

theorem filesAt_eq (s : Settings) (path : String) :
    w.filesAt s path =
      match w.canonical path with
      | .error e => .error (.noAccess path e)
      | .ok absolute => match w.directory? absolute with
        | none => .ok [absolute]
        | some (.ok n) => .ok ((n.walkFrom absolute).filter s.supports)
        | some (.error e) => .error (.noWalk e) := rfl

theorem collectFiles_cons (s : Settings) (path : String) (paths : List String) :
    w.collectFiles s (path :: paths) =
      match w.filesAt s path with
      | .error e => .error e
      | .ok found => Except.map (found ++ ·) (w.collectFiles s paths) := rfl

theorem not_unreachable (path absolute : String) (hc : w.canonical path = .ok absolute)
    (hd : ∀ e, w.directory? absolute ≠ some (.error e)) (e : CheckError) :
    ¬ Unreachable w path e := by
  intro h
  cases h with
  | noAccess e h => rw [hc] at h; cases h
  | noWalk absolute' e h hwalk =>
    obtain rfl : absolute = absolute' := Except.ok.inj (hc.symm.trans h)
    exact hd e hwalk

theorem filesAt_cases (s : Settings) (path : String) :
    (∃ e, Unreachable w path e ∧ w.filesAt s path = .error e) ∨
    ((∀ e, ¬ Unreachable w path e) ∧ ∃ files, w.filesAt s path = .ok files) := by
  rw [filesAt_eq]
  cases hc : w.canonical path with
  | error e => exact Or.inl ⟨_, .noAccess e hc, rfl⟩
  | ok absolute =>
    dsimp only
    rcases hd : w.directory? absolute with _ | e | n
    · exact Or.inr ⟨w.not_unreachable path absolute hc (by rw [hd]; exact nofun), _, rfl⟩
    · exact Or.inl ⟨_, .noWalk absolute e hc hd, rfl⟩
    · exact Or.inr ⟨w.not_unreachable path absolute hc (by rw [hd]; exact nofun), _, rfl⟩

theorem collectFiles_cases (s : Settings) (paths : List String) :
    (∃ path ∈ paths, ∃ e, Unreachable w path e ∧ w.collectFiles s paths = .error e) ∨
    ((∀ path ∈ paths, ∀ e, ¬ Unreachable w path e) ∧
      ∃ files, w.collectFiles s paths = .ok files) := by
  induction paths with
  | nil => exact Or.inr ⟨by simp, [], rfl⟩
  | cons path paths ih =>
    rw [collectFiles_cons]
    rcases w.filesAt_cases s path with ⟨e, he, hfail⟩ | ⟨hpath, found, hfound⟩
    · rw [hfail]
      exact Or.inl ⟨path, List.mem_cons_self, e, he, rfl⟩
    · rw [hfound]
      rcases ih with ⟨path', hmem, e, he, hfail⟩ | ⟨hpaths, files, hfiles⟩
      · refine Or.inl ⟨path', List.mem_cons_of_mem path hmem, e, he, ?_⟩
        rw [hfail]
        rfl
      · refine Or.inr ⟨?_, found ++ files, by rw [hfiles]; rfl⟩
        simp only [List.forall_mem_cons]
        exact ⟨hpath, hpaths⟩

theorem lintTarget_eq (p : LintPolicy) :
    w.lintTarget p args =
      if args.paths.isEmpty then
        Except.map Except.ok (w.lintChanges p ⟨args.base, args.staged⟩)
      else .ok (w.lintGiven p args.paths) := by
  unfold lintTarget
  cases args.paths.isEmpty <;> rfl

theorem lintGiven_eq (p : LintPolicy) (paths : List String) :
    w.lintGiven p paths =
      Except.map (fun files => (", ".intercalate paths, (p.lintPaths
        (contentOf (w.contents p.root ((files.map p.relative).filter p.covers))) files []).1))
        (w.collectFiles p.settings paths) := by
  have hmatch : w.lintGiven p paths = match w.collectFiles p.settings paths with
    | .error e => .error e
    | .ok files => .ok (", ".intercalate paths, (p.lintPaths
        (contentOf (w.contents p.root ((files.map p.relative).filter p.covers))) files []).1) := rfl
  rw [hmatch]
  cases w.collectFiles p.settings paths <;> rfl

theorem lintTarget_cases (p : LintPolicy) (l : Except CheckError (String × LintResult))
    (h : w.lintTarget p args = .ok l) :
    (∃ path ∈ args.paths, ∃ e, Unreachable w path e ∧ l = .error e) ∨
    ((∀ path ∈ args.paths, ∀ e, ¬ Unreachable w path e) ∧ ∃ r, l = .ok r) := by
  rw [lintTarget_eq] at h
  split at h
  · rename_i hempty
    rw [List.isEmpty_iff] at hempty
    refine Or.inr ⟨by simp [hempty], ?_⟩
    cases hc : w.lintChanges p ⟨args.base, args.staged⟩ with
    | error e => rw [hc] at h; cases h
    | ok r =>
      rw [hc] at h
      exact ⟨r, (Except.ok.inj h).symm⟩
  · rw [← Except.ok.inj h, lintGiven_eq]
    rcases w.collectFiles_cases p.settings args.paths with
      ⟨path, hmem, e, he, hfail⟩ | ⟨hpaths, files, hfiles⟩
    · rw [hfail]
      exact Or.inl ⟨path, hmem, e, he, rfl⟩
    · rw [hfiles]
      exact Or.inr ⟨hpaths, _, rfl⟩

/-- The result of a check, with what its report says besides; the format of the report has no part
in it. -/
def linted : Except LineOverflow (Except CheckError (ReportContext × LintResult)) :=
  match w.repositoryRoot with
  | .error e => .ok (.error (.noDirectory e))
  | .ok root => match w.checkedSettings root args with
    | .error e => .ok (.error e)
    | .ok (s, path) => match LintPolicy.make w.prepareSearch root s with
      | .error p => .ok (.error (.policy p))
      | .ok policy => Except.map (Except.map fun r =>
          (⟨r.1, path.map fun p => (PathText.below? root p).getD p⟩, r.2))
          (w.lintTarget policy args)

theorem linted_format (name : String) : w.linted { args with format := name } = w.linted args := rfl

theorem checkWith_eq_linted (color : Bool) (f : ReportFormat)
    (h : ReportFormat.ofName? args.format = some f) :
    w.checkWith color args =
      Except.map (Except.map fun r => (f.render color r.1 r.2, r.2)) (w.linted args) := by
  have hmatch : w.checkWith color args =
      match w.repositoryRoot with
      | .error e => .ok (.error (.noDirectory e))
      | .ok root => match w.checkedSettings root args with
        | .error e => .ok (.error e)
        | .ok (s, path) => match LintPolicy.make w.prepareSearch root s with
          | .error p => .ok (.error (.policy p))
          | .ok policy => Except.map (Except.map fun r => (f.render color
              ⟨r.1, path.map fun p => (PathText.below? root p).getD p⟩ r.2, r.2))
              (w.lintTarget policy args) := by
    rw [checkWith, h]
    rfl
  rw [hmatch, linted]
  cases w.repositoryRoot with
  | error e => rfl
  | ok root =>
    dsimp only
    cases w.checkedSettings root args with
    | error e => rfl
    | ok checked =>
      dsimp only
      cases LintPolicy.make w.prepareSearch root checked.1 with
      | error p => rfl
      | ok policy =>
        dsimp only
        cases w.lintTarget policy args with
        | error e => rfl
        | ok l => cases l <;> rfl

theorem ofName?_eq_none_iff (name : String) :
    ReportFormat.ofName? name = none ↔ name ∉ ["pretty", "json", "sarif"] := by
  unfold ReportFormat.ofName?
  split <;> simp_all

theorem searchProblem?_eq_some_iff (prepare : List (List Char) → Except String Unit)
    (s : LanguageSettings) (reason : String) :
    Prose.searchProblem? prepare s = some reason ↔
      s.enforceEnglish = true ∧ Prose.stopWords s ≠ [] ∧
        prepare (Prose.stopWords s) = .error reason := by
  unfold Prose.searchProblem?
  cases prepare (Prose.stopWords s) <;> simp [and_assoc]

theorem excluded_of_valid (s : Settings) (h : s.problem? = none) :
    ∃ globs, s.excluded = .ok globs := by
  unfold Settings.problem? at h
  split at h
  · cases h
  split at h
  · cases h
  split at h
  · cases h
  split at h
  · cases h
  cases hx : s.excluded with
  | ok globs => exact ⟨globs, rfl⟩
  | error p => rw [hx] at h; cases h

theorem make_cases (prepare : List (List Char) → Except String Unit) (root : String)
    (s : Settings) (d : DiffSettings) (globs : List Glob) (h : s.excluded = .ok globs) :
    (∃ reason, Prose.searchProblem? prepare s.language = some reason ∧
      LintPolicy.make prepare root { s with diff := d } = .error (.wordSearch reason)) ∨
    (Prose.searchProblem? prepare s.language = none ∧
      LintPolicy.make prepare root { s with diff := d } =
        .ok ⟨root, { s with diff := d }, globs⟩) := by
  have hdiff : Settings.excluded { s with diff := d } = .ok globs := h
  unfold LintPolicy.make
  split
  · next p hp =>
    rw [hdiff] at hp
    cases hp
  · next globs' hglobs =>
    obtain rfl := Except.ok.inj (hdiff.symm.trans hglobs)
    split
    · next reason hreason => exact Or.inl ⟨reason, hreason, rfl⟩
    · next hnone => exact Or.inr ⟨hnone, rfl⟩

/-- With a root, valid settings, a search for their words and paths that lead somewhere, only the
format can be an obstacle. -/
theorem format_of_obstacle (root : String) (hroot : w.repositoryRoot = .ok root) (s : Settings)
    (hs : HasSettings w args s) (hp : s.problem? = none)
    (hsearch : Prose.searchProblem? w.prepareSearch s.language = none)
    (hpaths : ∀ path ∈ args.paths, ∀ e, ¬ Unreachable w path e) (e : CheckError)
    (h : Obstacle w args e) : args.format ∉ ["pretty", "json", "sarif"] := by
  cases h with
  | format h => exact h
  | directory e h =>
    rw [← repositoryRoot_eq_error_iff, hroot] at h
    cases h
  | unreadable path e hfile hread =>
    exact (hs.no_load_obstacle w args _ (.unreadable path e hfile hread)).elim
  | malformed path text hfile hread hparse =>
    exact (hs.no_load_obstacle w args _ (.malformed path text hfile hread hparse)).elim
  | invalid s' p hs' hp' =>
    obtain rfl := hs.unique w args hs'
    rw [hp] at hp'
    cases hp'
  | policy s' reason hs' henforced hwords hrefused =>
    obtain rfl := hs.unique w args hs'
    have hproblem := (searchProblem?_eq_some_iff _ _ reason).mpr ⟨henforced, hwords, hrefused⟩
    rw [hsearch] at hproblem
    cases hproblem
  | path path e hpath h => exact (hpaths path hpath e h).elim

theorem linted_cases (l : Except CheckError (ReportContext × LintResult))
    (h : w.linted args = .ok l) :
    (∃ e, Obstacle w args e ∧ l = .error e) ∨
    ((∀ e, Obstacle w args e → args.format ∉ ["pretty", "json", "sarif"]) ∧ ∃ r, l = .ok r) := by
  rw [linted] at h
  cases hroot : w.repositoryRoot with
  | error e =>
    rw [hroot] at h
    have he : Obstacle w args (.noDirectory e) :=
      .directory e ((w.repositoryRoot_eq_error_iff e).mp hroot)
    exact Or.inl ⟨_, he, (Except.ok.inj h).symm⟩
  | ok root =>
    rw [hroot] at h
    dsimp only at h
    rw [checkedSettings_eq] at h
    rcases w.loadSettings_cases args root hroot with ⟨e, he, hload⟩ | ⟨s, path, hs, hload⟩
    · rw [hload] at h
      exact Or.inl ⟨_, he, (Except.ok.inj h).symm⟩
    rw [hload] at h
    dsimp only at h
    cases hp : s.problem? with
    | some p =>
      rw [hp] at h
      exact Or.inl ⟨_, .invalid s p hs hp, (Except.ok.inj h).symm⟩
    | none =>
      obtain ⟨globs, hx⟩ := excluded_of_valid s hp
      rw [hp] at h
      dsimp only at h
      rcases make_cases w.prepareSearch root s _ globs hx with
        ⟨reason, hsearch, hmake⟩ | ⟨hsearch, hmake⟩
      · rw [hmake] at h
        obtain ⟨henforced, hwords, hrefused⟩ := (searchProblem?_eq_some_iff _ _ reason).mp hsearch
        have he : Obstacle w args (.policy (.wordSearch reason)) :=
          .policy s reason hs henforced hwords hrefused
        exact Or.inl ⟨_, he, (Except.ok.inj h).symm⟩
      · rw [hmake] at h
        dsimp only [Except.map] at h
        split at h
        · cases h
        rename_i target htarget
        rw [← Except.ok.inj h]
        rcases w.lintTarget_cases args _ target htarget with
          ⟨path, hmem, e, he, rfl⟩ | ⟨hpaths, r, rfl⟩
        · exact Or.inl ⟨e, .path path e hmem he, rfl⟩
        · exact Or.inr ⟨w.format_of_obstacle args root hroot s hs hp hsearch hpaths, _, rfl⟩

/-- What the exit code, the violations and the three reports say agrees. -/
structure Verdict (color : Bool) (c : ReportContext) (r : LintResult) (exit : Nat) : Prop where
  code : exit = 0 ∨ exit = 1
  violations : exit = 1 ↔ r.violations ≠ []
  summary : exit = 1 ↔ (Summary.ofResult c r).toJson.get? "passed" = some (.bool false)
  sarif : exit = 1 ↔ ∃ run ∈ (Sarif.ofResult r).runs, run.results ≠ []
  terminal : exit = 1 ↔
    (styled color .red "FAILED" ++ "\n\n").toList <:+ (terminalText color c r).toList

theorem verdict_hasErrors (color : Bool) (c : ReportContext) (r : LintResult) :
    Verdict color c r (if r.hasErrors then 1 else 0) := by
  have hcode : (if r.hasErrors then 1 else 0) = 1 ↔ r.violations ≠ [] := by
    rw [← r.hasErrors_iff]
    cases r.hasErrors <;> simp
  constructor
  · cases r.hasErrors <;> simp
  · exact hcode
  · rw [hcode, Summary.passed_eq_false_iff]
  · rw [hcode, Sarif.results_iff]
  · rw [hcode, TerminalReport.failed_iff]

theorem check_invalid_format (color : Bool) (h : ReportFormat.ofName? args.format = none) :
    w.check color args = .ok (.refused (CheckError.invalidFormat args.format).message) := by
  have hmap : w.check color args = Except.map outcomeOfCheck (w.checkWith color args) := rfl
  rw [hmap, checkWith, h]
  rfl

theorem check_eq_linted (color : Bool) (f : ReportFormat)
    (h : ReportFormat.ofName? args.format = some f) :
    w.check color args =
      Except.map (fun l => outcomeOfCheck (Except.map (fun r => (f.render color r.1 r.2, r.2)) l))
        (w.linted args) := by
  have hmap : w.check color args = Except.map outcomeOfCheck (w.checkWith color args) := rfl
  rw [hmap, w.checkWith_eq_linted args color f h]
  cases w.linted args <;> rfl

/-- A check that does not overflow is refused for an obstacle, in every format, or has a result
that does not depend on the format. -/
theorem check_cases (color : Bool) (out : Outcome) (h : w.check color args = .ok out) :
    (∃ e, Obstacle w args e ∧ out = .refused e.message ∧
      (args.format ∈ ["pretty", "json", "sarif"] → ∀ name ∈ ["pretty", "json", "sarif"],
        w.check color { args with format := name } = .ok out)) ∨
    ((∀ e, ¬ Obstacle w args e) ∧ ∃ c r, out.exit = (if r.hasErrors then 1 else 0) ∧
      ∀ name f, ReportFormat.ofName? name = some f →
        w.checkWith color { args with format := name } = .ok (.ok (f.render color c r, r)) ∧
        w.check color { args with format := name } =
          .ok { exit := out.exit, stdout := f.render color c r }) := by
  cases hformat : ReportFormat.ofName? args.format with
  | none =>
    have hinvalid := (ofName?_eq_none_iff args.format).mp hformat
    rw [w.check_invalid_format args color hformat] at h
    exact Or.inl ⟨_, .format hinvalid, (Except.ok.inj h).symm, fun hvalid => (hinvalid hvalid).elim⟩
  | some f =>
    have hvalid : args.format ∈ ["pretty", "json", "sarif"] := by
      apply Decidable.byContradiction
      intro hinvalid
      rw [(ofName?_eq_none_iff args.format).mpr hinvalid] at hformat
      cases hformat
    rw [w.check_eq_linted args color f hformat] at h
    cases hl : w.linted args with
    | error e => rw [hl] at h; cases h
    | ok l =>
      rw [hl] at h
      obtain rfl := Except.ok.inj h
      rcases w.linted_cases args l hl with ⟨e, he, rfl⟩ | ⟨hnone, ⟨c, r⟩, rfl⟩
      · refine Or.inl ⟨e, he, rfl, fun _ name hname => ?_⟩
        cases hf : ReportFormat.ofName? name with
        | none => exact ((ofName?_eq_none_iff name).mp hf hname).elim
        | some f' =>
          rw [w.check_eq_linted { args with format := name } color f' hf, linted_format, hl]
          rfl
      · refine Or.inr ⟨fun e he => hnone e he hvalid, c, r, rfl, fun name f' hf => ⟨?_, ?_⟩⟩
        · rw [w.checkWith_eq_linted { args with format := name } color f' hf, linted_format, hl]
          rfl
        · rw [w.check_eq_linted { args with format := name } color f' hf, linted_format, hl]
          rfl

end Obstacles

/-- A check that does not overflow exits with two exactly if there is an obstacle; then it prints
nothing but the message of one, in every format. Otherwise it exits with one exactly if there are
violations, all reports agree with that, and the format decides only which of them is printed. -/
theorem exit_code_tells_verdict {σ : Type} (w : World (StateM σ)) (t : σ) (hw : w.Looks t)
    (color : Bool) (args : CheckArguments) (out : Outcome)
    (h : ((w.check color args).run t).1 = .ok out) :
    (out.exit = 2 ↔ ∃ e, Obstacle (w.snapshot t) args e) ∧
    (out.exit = 2 → out.stdout = "" ∧
      (∃ e, Obstacle (w.snapshot t) args e ∧ out.stderr = e.message ++ "\n") ∧
      (args.format ∈ ["pretty", "json", "sarif"] → ∀ name ∈ ["pretty", "json", "sarif"],
        (w.check color { args with format := name }).run t = (.ok out, t))) ∧
    (out.exit ≠ 2 → ∃ c r, Verdict color c r out.exit ∧
      ∀ name f, ReportFormat.ofName? name = some f →
        (w.checkWith color { args with format := name }).run t =
          (.ok (.ok (f.render color c r, r)), t) ∧
        (w.check color { args with format := name }).run t =
          (.ok { exit := out.exit, stdout := f.render color c r }, t)) := by
  have hrun (args : CheckArguments) : (w.check color args).run t =
      (((w.snapshot t).check color args).run, t) := hw.check color args
  have hchecked : (w.snapshot t).check color args = .ok out :=
    (congrArg Prod.fst (hrun args)).symm.trans h
  rcases (w.snapshot t).check_cases args color out hchecked with
    ⟨e, he, rfl, hsame⟩ | ⟨hnone, c, r, hexit, hreport⟩
  · refine ⟨iff_of_true rfl ⟨e, he⟩, fun _ => ⟨rfl, ⟨e, he, rfl⟩, fun hvalid name hname => ?_⟩,
      fun hne => (hne rfl).elim⟩
    rw [hrun, hsame hvalid name hname]
    rfl
  · have hverdict : Verdict color c r out.exit := hexit ▸ verdict_hasErrors color c r
    have hne : out.exit ≠ 2 := by
      intro htwo
      rcases hverdict.code with hcode | hcode <;> rw [hcode] at htwo <;> cases htwo
    refine ⟨iff_of_false hne fun ⟨e, he⟩ => hnone e he, fun htwo => (hne htwo).elim,
      fun _ => ⟨c, r, hverdict, fun name f hf => ⟨?_, ?_⟩⟩⟩
    · rw [show (w.checkWith color { args with format := name }).run t = _ from
        hw.checkWith color _, (hreport name f hf).1]
      rfl
    · rw [hrun, (hreport name f hf).2]
      rfl

theorem exists_outcome (x : Except LineOverflow Outcome) (exit : Nat)
    (h : x.toOption.map Outcome.exit = some exit) : ∃ out, x = .ok out ∧ out.exit = exit := by
  cases x with
  | error e => cases h
  | ok out => exact ⟨out, rfl, Option.some.inj h⟩

/-- A class without documentation fails a check. A path that leads nowhere is refused, and so are
words that cannot be searched for. -/
theorem undocumented_class_fails :
    let w := FileTree.world fun _ => .notStarted "no git"
    let full := { w with prepareSearch := fun _ => .error "too many words" }
    let t : FileTree := { top := .directory [("a.ts", .file (some "class A {}\n"))] }
    (∃ out c r, ((w.check false { paths := ["a.ts"] }).run t).1 = .ok out ∧ out.exit = 1 ∧
      Verdict false c r out.exit) ∧
    (∃ out e, ((w.check false { paths := ["b.ts"] }).run t).1 = .ok out ∧ out.exit = 2 ∧
      out.stdout = "" ∧ Obstacle (w.snapshot t) { paths := ["b.ts"] } e) ∧
    (∃ out e, ((full.check false { paths := ["a.ts"] }).run t).1 = .ok out ∧ out.exit = 2 ∧
      out.stdout = "" ∧ Obstacle (full.snapshot t) { paths := ["a.ts"] } e) := by
  intro w full t
  have hexits :
      ((((w.check false { paths := ["a.ts"] }).run t).1.toOption).map Outcome.exit = some 1 ∧
      (((w.check false { paths := ["b.ts"] }).run t).1.toOption).map Outcome.exit = some 2) ∧
      (((full.check false { paths := ["a.ts"] }).run t).1.toOption).map Outcome.exit =
        some 2 := by decide +kernel
  refine ⟨?_, ?_, ?_⟩
  · obtain ⟨out, hout, hexit⟩ := exists_outcome _ 1 hexits.1.1
    obtain ⟨-, -, hverdict⟩ :=
      exit_code_tells_verdict w t (FileTree.world_looks _ t) false _ out hout
    obtain ⟨c, r, hv, -⟩ := hverdict (by rw [hexit]; decide)
    exact ⟨out, c, r, hout, hexit, hv⟩
  · obtain ⟨out, hout, hexit⟩ := exists_outcome _ 2 hexits.1.2
    obtain ⟨-, hrefused, -⟩ :=
      exit_code_tells_verdict w t (FileTree.world_looks _ t) false _ out hout
    obtain ⟨hsilent, ⟨e, he, -⟩, -⟩ := hrefused hexit
    exact ⟨out, e, hout, hexit, hsilent, he⟩
  · obtain ⟨out, hout, hexit⟩ := exists_outcome _ 2 hexits.2
    obtain ⟨-, hrefused, -⟩ :=
      exit_code_tells_verdict full t ((FileTree.world_looks _ t).withSearch _) false _ out hout
    obtain ⟨hsilent, ⟨e, he, -⟩, -⟩ := hrefused hexit
    exact ⟨out, e, hout, hexit, hsilent, he⟩

/-- A check in a directory that is gone is refused with no other obstacle, and a coloured report of
a failure does not end in `FAILED`. -/
theorem refused_in_gone_directory :
    let w := FileTree.world fun _ => .notStarted "no git"
    let gone : FileTree := { top := .directory [], current := ["gone"] }
    let t : FileTree := { top := .directory [("a.ts", .file (some "class A {}\n"))] }
    ((w.check false {}).run gone).1 =
      .ok (.refused "Error: No such file or directory (os error 2)") ∧
    (∀ e, Obstacle (w.snapshot gone) {} e → e = .noDirectory .notFound) ∧
    (∃ out, ((w.check true { paths := ["a.ts"] }).run t).1 = .ok out ∧ out.exit = 1 ∧
      ¬ "FAILED".toList <:+ out.stdout.toList) := by
  intro w gone t
  have hnowhere : (w.snapshot gone).settingsFile? {} = .error .notFound := rfl
  have hsettings (s : Settings) : ¬ HasSettings (w.snapshot gone) {} s := by
    intro hs
    cases hs with
    | builtIn hfile => rw [hnowhere] at hfile; cases hfile
    | ofFile path text s hfile => rw [hnowhere] at hfile; cases hfile
  refine ⟨rfl, ?_, ?_⟩
  · intro e he
    cases he with
    | format h => exact (h (List.mem_cons_self ..)).elim
    | directory e h => exact congrArg CheckError.noDirectory (Except.error.inj h).symm
    | unreadable path e hfile hread => rw [hnowhere] at hfile; cases hfile
    | malformed path text hfile hread hparse => rw [hnowhere] at hfile; cases hfile
    | invalid s p hs hp => exact (hsettings s hs).elim
    | policy s reason hs => exact (hsettings s hs).elim
    | path path e hpath h => cases hpath
  · have hone : (((w.check true { paths := ["a.ts"] }).run t).1.toOption).map Outcome.exit =
        some 1 := by decide +kernel
    obtain ⟨out, hout, hexit⟩ := exists_outcome _ 1 hone
    refine ⟨out, hout, hexit, ?_⟩
    have hchecked : (w.snapshot t).check true { paths := ["a.ts"] } = .ok out :=
      (congrArg Prod.fst ((FileTree.world_looks _ t).check true _)).symm.trans hout
    rcases (w.snapshot t).check_cases _ true out hchecked with
      ⟨e, -, rfl, -⟩ | ⟨-, c, r, -, hreport⟩
    · cases hexit
    · have hpretty := hchecked.symm.trans (hreport "pretty" .terminal rfl).2
      rw [Except.ok.inj hpretty]
      exact TerminalReport.not_failed_suffix true c r

end World

end DocLint
