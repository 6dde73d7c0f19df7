import DocLint.Command.Check

/-!
# Checks only look

A check asks questions and changes nothing. In a world whose questions leave
its state as it is, a check leaves it too, and what it answers is what the
answers in that state alone determine.
-/

set_option autoImplicit false

namespace DocLint

variable {σ α β : Type}

def Reads (t : σ) (x : StateM σ α) (a : Id α) : Prop := x.run t = (a.run, t)

namespace Reads

variable {t : σ}

theorem pure (a : α) : Reads t (Pure.pure a) (Pure.pure a) := rfl

theorem bind {x : StateM σ α} {a : Id α} {f : α → StateM σ β} {b : α → Id β} (hx : Reads t x a)
    (hf : ∀ v, Reads t (f v) (b v)) : Reads t (x >>= f) (a >>= b) := by
  have hrun : (x >>= f).run t = (f (x.run t).1).run (x.run t).2 := rfl
  rw [Reads, hrun, hx]
  exact hf a.run

theorem of_unchanged {x : StateM σ α} (h : (x.run t).2 = t) : Reads t x (x.run t).1 :=
  Prod.ext rfl h

theorem ite {c : Bool} {x y : StateM σ α} {a b : Id α} (hx : Reads t x a) (hy : Reads t y b) :
    Reads t (if c then x else y) (if c then a else b) := by
  cases c
  · exact hy
  · exact hx

end Reads

namespace DiffSettings

section Git

variable {t : σ} (s : DiffSettings) {git : List String → StateM σ (Except GitError String)}
  {answers : List String → Id (Except GitError String)}
  (h : ∀ args, Reads t (git args) (answers args))

include h

theorem answer?_reads (args : List String) : Reads t (answer? git args) (answer? answers args) :=
  (h args).bind fun _ => Reads.pure _

theorem trackedBranch?_reads : Reads t (s.trackedBranch? git) (s.trackedBranch? answers) := by
  refine (answer?_reads h _).bind fun current => ?_
  cases current with
  | none => exact Reads.pure _
  | some output =>
    refine Reads.ite (Reads.pure _) ((answer?_reads h _).bind fun heads => ?_)
    cases heads with
    | none => exact Reads.pure _
    | some heads => exact Reads.ite (Reads.pure _) (Reads.pure _)

theorem firstBase?_reads (names : List String) :
    Reads t (s.firstBase? git names) (s.firstBase? answers names) := by
  induction names with
  | nil => exact Reads.pure _
  | cons name names ih =>
    refine (answer?_reads h _).bind fun found => ?_
    cases found with
    | none => exact ih
    | some _ => exact Reads.pure _

theorem resolveTarget_reads (r : DiffRequest) :
    Reads t (s.resolveTarget git r) (s.resolveTarget answers r) := by
  unfold resolveTarget
  cases r.base with
  | some base => exact Reads.pure _
  | none =>
    refine Reads.ite (Reads.pure _) ((s.trackedBranch?_reads h).bind fun branch => ?_)
    cases branch with
    | some branch => exact Reads.pure _
    | none =>
      refine (s.firstBase?_reads h _).bind fun base => ?_
      cases base <;> exact Reads.pure _

theorem collect_reads (c : ChangedLines) (extras : List (List String)) :
    Reads t (s.collect git c extras) (s.collect answers c extras) := by
  induction extras generalizing c with
  | nil => exact Reads.pure _
  | cons extra extras ih =>
    refine (answer?_reads h _).bind fun text => ?_
    cases s.addDiff text c with
    | ok c' => exact ih c'
    | error e => exact Reads.pure _

theorem extract_reads (r : DiffRequest) : Reads t (s.extract git r) (s.extract answers r) :=
  (s.resolveTarget_reads h r).bind fun _ => (s.collect_reads h _ _).bind fun _ => Reads.pure _

end Git

end DiffSettings

namespace World

def snapshot (w : World (StateM σ)) (t : σ) : World Id where
  currentDirectory := (w.currentDirectory.run t).1
  git directory args := ((w.git directory args).run t).1
  read path := ((w.read path).run t).1
  isFile path := ((w.isFile path).run t).1
  isThere path := ((w.isThere path).run t).1
  canonical path := ((w.canonical path).run t).1
  directory? path := ((w.directory? path).run t).1
  makeDirectories path := ((w.makeDirectories path).run t).1
  write path content := ((w.write path content).run t).1
  prepareSearch := w.prepareSearch

/-- The questions that a check may ask leave the state as it is. -/
structure Looks (w : World (StateM σ)) (t : σ) : Prop where
  currentDirectory : Reads t w.currentDirectory (w.snapshot t).currentDirectory
  git (directory : String) (args : List String) :
    Reads t (w.git directory args) ((w.snapshot t).git directory args)
  read (path : String) : Reads t (w.read path) ((w.snapshot t).read path)
  isFile (path : String) : Reads t (w.isFile path) ((w.snapshot t).isFile path)
  canonical (path : String) : Reads t (w.canonical path) ((w.snapshot t).canonical path)
  directory? (path : String) : Reads t (w.directory? path) ((w.snapshot t).directory? path)

namespace Looks

variable {w : World (StateM σ)} {t : σ} (h : w.Looks t)

include h

theorem withSearch (prepare : List (List Char) → Except String Unit) :
    ({ w with prepareSearch := prepare } : World (StateM σ)).Looks t :=
  ⟨h.currentDirectory, h.git, h.read, h.isFile, h.canonical, h.directory?⟩

theorem runGit (directory : String) (args : List String) :
    Reads t (w.runGit directory args) ((w.snapshot t).runGit directory args) :=
  (h.git directory args).bind fun _ => Reads.pure _

theorem repositoryRoot : Reads t w.repositoryRoot (w.snapshot t).repositoryRoot := by
  refine h.currentDirectory.bind fun current => ?_
  cases current with
  | error e => exact Reads.pure _
  | ok current =>
    refine (h.runGit _ _).bind fun output => (h.canonical _).bind fun path => ?_
    cases path <;> exact Reads.pure _

theorem firstFile? (paths : List String) :
    Reads t (w.firstFile? paths) ((w.snapshot t).firstFile? paths) := by
  induction paths with
  | nil => exact Reads.pure _
  | cons path paths ih => exact (h.isFile path).bind fun _ => Reads.ite (Reads.pure _) ih

theorem readSettings (path : String) :
    Reads t (w.readSettings path) ((w.snapshot t).readSettings path) := by
  refine (h.read path).bind fun content => ?_
  cases content with
  | error e => exact Reads.pure _
  | ok text =>
    dsimp only
    cases Settings.parse? text <;> exact Reads.pure _

theorem loadSettings (root : String) (named : Option String) :
    Reads t (w.loadSettings root named) ((w.snapshot t).loadSettings root named) := by
  unfold World.loadSettings
  cases named with
  | some path => exact (h.readSettings path).bind fun _ => Reads.pure _
  | none =>
    refine (h.firstFile? _).bind fun path => ?_
    cases path with
    | none => exact Reads.pure _
    | some path => exact (h.readSettings path).bind fun _ => Reads.pure _

theorem checkedSettings (root : String) (args : CheckArguments) :
    Reads t (w.checkedSettings root args) ((w.snapshot t).checkedSettings root args) := by
  refine (h.loadSettings root args.settingsPath).bind fun loaded => ?_
  cases loaded with
  | error e => exact Reads.pure _
  | ok loaded =>
    dsimp only
    cases loaded.1.problem? <;> exact Reads.pure _

theorem contents (root : String) (files : List String) :
    Reads t (w.contents root files) ((w.snapshot t).contents root files) := by
  induction files with
  | nil => exact Reads.pure _
  | cons file files ih => exact (h.read _).bind fun _ => ih.bind fun _ => Reads.pure _

theorem filesAt (s : Settings) (path : String) :
    Reads t (w.filesAt s path) ((w.snapshot t).filesAt s path) := by
  refine (h.canonical path).bind fun absolute => ?_
  cases absolute with
  | error e => exact Reads.pure _
  | ok absolute =>
    refine (h.directory? absolute).bind fun node => ?_
    rcases node with _ | _ | _ <;> exact Reads.pure _

theorem collectFiles (s : Settings) (paths : List String) :
    Reads t (w.collectFiles s paths) ((w.snapshot t).collectFiles s paths) := by
  induction paths with
  | nil => exact Reads.pure _
  | cons path paths ih =>
    refine (h.filesAt s path).bind fun found => ?_
    cases found with
    | error e => exact Reads.pure _
    | ok found => exact ih.bind fun _ => Reads.pure _

theorem lintChanges (p : LintPolicy) (r : DiffRequest) :
    Reads t (w.lintChanges p r) ((w.snapshot t).lintChanges p r) := by
  refine (p.settings.diff.extract_reads (h.runGit p.root) r).bind fun extraction => ?_
  cases extraction with
  | error e => exact Reads.pure _
  | ok e => exact (h.contents _ _).bind fun _ => Reads.pure _

theorem lintGiven (p : LintPolicy) (paths : List String) :
    Reads t (w.lintGiven p paths) ((w.snapshot t).lintGiven p paths) := by
  refine (h.collectFiles p.settings paths).bind fun files => ?_
  cases files with
  | error e => exact Reads.pure _
  | ok files => exact (h.contents _ _).bind fun _ => Reads.pure _

theorem lintTarget (p : LintPolicy) (args : CheckArguments) :
    Reads t (w.lintTarget p args) ((w.snapshot t).lintTarget p args) :=
  Reads.ite ((h.lintChanges p _).bind fun _ => Reads.pure _)
    ((h.lintGiven p args.paths).bind fun _ => Reads.pure _)

theorem checkWith (color : Bool) (args : CheckArguments) :
    Reads t (w.checkWith color args) ((w.snapshot t).checkWith color args) := by
  unfold World.checkWith
  cases ReportFormat.ofName? args.format with
  | none => exact Reads.pure _
  | some format =>
    refine h.repositoryRoot.bind fun root => ?_
    cases root with
    | error e => exact Reads.pure _
    | ok root =>
      refine (h.checkedSettings root args).bind fun checked => ?_
      cases checked with
      | error e => exact Reads.pure _
      | ok checked =>
        dsimp only [snapshot]
        cases LintPolicy.make w.prepareSearch root checked.1 with
        | error p => exact Reads.pure _
        | ok policy => exact (h.lintTarget policy args).bind fun _ => Reads.pure _

theorem check (color : Bool) (args : CheckArguments) :
    Reads t (w.check color args) ((w.snapshot t).check color args) :=
  (h.checkWith color args).bind fun _ => Reads.pure _

end Looks

end World

theorem FileTree.world_looks (git : List String → GitOutcome) (t : FileTree) :
    (FileTree.world git).Looks t where
  currentDirectory := rfl
  git directory args := by
    apply Reads.of_unchanged
    simp only [FileTree.world, StateT.run_bind, StateT.run_get, pure_bind]
    split <;> rfl
  read path := rfl
  isFile path := rfl
  canonical path := rfl
  directory? path := by
    apply Reads.of_unchanged
    simp only [FileTree.world, StateT.run_bind, StateT.run_get, pure_bind]
    split <;> rfl

end DocLint
