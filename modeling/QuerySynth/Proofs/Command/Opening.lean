import QuerySynth.Proofs.Command.Run

/-!
# Files that cannot be opened

A run opens its files one after the other, and ends at the first one that cannot be
opened.  It leaves behind what a run with only the files before it leaves behind.
-/

namespace QuerySynth

open FileTree

variable {tree opened after : FileTree}

namespace FileTree

variable {location key : Location} {names : List String} {directory : String} {index n : Nat}

/-! ## Opening -/

/-- The file at the names can be opened. -/
def CanOpen (tree : FileTree) (names : List String) : Prop :=
  ∃ location, tree.walk [] names = .ok location ∧ tree.Accepts location

/-- The number of the files from `index` on, of `n` files at most, up to the first one
that cannot be opened. -/
def countOpen (tree : FileTree) (directory : String) (index : Nat) : Nat → Nat
  | 0 => 0
  | n + 1 =>
      match tree.append (pathNames (queryFile directory index)) "" with
      | .ok _ => tree.countOpen directory (index + 1) n + 1
      | .error _ => 0

theorem canOpen_of_append {text : String} (h : tree.append names text = .ok after) :
    tree.CanOpen names := by
  obtain ⟨location, hwalk, haccepts, -⟩ := append_eq_ok_iff.mp h
  exact ⟨location, hwalk, haccepts⟩

theorem not_canOpen_of_append {text : String} {cause : FileError}
    (h : tree.append names text = .error cause) : ¬ tree.CanOpen names := by
  rintro ⟨location, hwalk, haccepts⟩
  cases h.symm.trans (append_eq_ok_iff.mpr ⟨location, hwalk, haccepts, rfl⟩)

theorem countOpen_succ (h : tree.CanOpen (pathNames (queryFile directory index))) (n : Nat) :
    tree.countOpen directory index (n + 1) = tree.countOpen directory (index + 1) n + 1 := by
  rw [countOpen]
  cases happend : tree.append (pathNames (queryFile directory index)) "" with
  | ok _ => rfl
  | error _ => exact absurd h (not_canOpen_of_append happend)

theorem countOpen_of_not_canOpen (h : ¬ tree.CanOpen (pathNames (queryFile directory index)))
    (n : Nat) : tree.countOpen directory index n = 0 := by
  cases n with
  | zero => rfl
  | succ n =>
      rw [countOpen]
      cases happend : tree.append (pathNames (queryFile directory index)) "" with
      | ok _ => exact absurd (canOpen_of_append happend) h
      | error _ => rfl

theorem countOpen_le (tree : FileTree) (directory : String) (index n : Nat) :
    tree.countOpen directory index n ≤ n := by
  induction n generalizing index with
  | zero => exact Nat.le_refl 0
  | succ n ih =>
      rw [countOpen]
      split
      · exact Nat.succ_le_succ (ih (index + 1))
      · exact Nat.zero_le _

theorem canOpen_of_lt_countOpen {i : Nat} (h : i < tree.countOpen directory index n) :
    tree.CanOpen (pathNames (queryFile directory (index + i))) := by
  induction n generalizing index i with
  | zero => exact absurd h (Nat.not_lt_zero i)
  | succ n ih =>
      by_cases hopen : tree.CanOpen (pathNames (queryFile directory index))
      · rw [countOpen_succ hopen] at h
        cases i with
        | zero => exact hopen
        | succ i =>
            have hi := ih (Nat.lt_of_succ_lt_succ h)
            rwa [Nat.add_assoc, Nat.add_comm 1 i] at hi
      · rw [countOpen_of_not_canOpen hopen] at h
        exact absurd h (Nat.not_lt_zero i)

/-- Adding a text to a file makes no directory. -/
theorem addText_keepsDirectories (haccepts : tree.Accepts location) (text : String) :
    (tree.addText location text).KeepsDirectories tree := by
  intro key hentry
  by_cases hkey : key = location
  · rw [hkey, entry?_addText_self haccepts] at hentry
    cases hentry
  · rwa [entry?_addText_of_ne hkey] at hentry

theorem accepts_addText_iff (haccepts : tree.Accepts location) (text : String) :
    (tree.addText location text).Accepts key ↔ tree.Accepts key := by
  by_cases hkey : key = location
  · rw [hkey]
    exact iff_of_true (.inl ⟨_, entry?_addText_self haccepts text⟩) haccepts
  · constructor
    · rintro (hfile | ⟨hnone, hparent⟩)
      · rw [entry?_addText_of_ne hkey] at hfile
        exact .inl hfile
      · rw [entry?_addText_of_ne hkey] at hnone
        exact .inr ⟨hnone, addText_keepsDirectories haccepts text _ hparent⟩
    · exact fun h => h.addText haccepts hkey text

/-- What can be opened is the same before and after a text is added to a file. -/
theorem canOpen_addText_iff (haccepts : tree.Accepts location) (text : String) :
    (tree.addText location text).CanOpen names ↔ tree.CanOpen names := by
  constructor
  · rintro ⟨key, hwalk, hkey⟩
    exact ⟨key, walk_mono (addText_keepsDirectories haccepts text) hwalk,
      (accepts_addText_iff haccepts text).mp hkey⟩
  · rintro ⟨key, hwalk, hkey⟩
    exact ⟨key, walk_mono (keepsDirectories_addText haccepts text) hwalk,
      (accepts_addText_iff haccepts text).mpr hkey⟩

theorem countOpen_addText (haccepts : tree.Accepts location) (text directory : String)
    (index n : Nat) :
    (tree.addText location text).countOpen directory index n =
      tree.countOpen directory index n := by
  induction n generalizing index with
  | zero => rfl
  | succ n ih =>
      by_cases hopen : tree.CanOpen (pathNames (queryFile directory index))
      · rw [countOpen_succ hopen, countOpen_succ ((canOpen_addText_iff haccepts text).mpr hopen),
          ih]
      · rw [countOpen_of_not_canOpen hopen,
          countOpen_of_not_canOpen (mt (canOpen_addText_iff haccepts text).mp hopen)]

end FileTree

/-! ## Writing -/

namespace Setup

variable {setup : Setup} {directory : String} {source s : Metered Keystream} {index n : Nat}
  {batch : Batch}

theorem run_writeFiles_of_not_canOpen (h : (setup.write none).run source = some (batch, s))
    (hopen : ¬ tree.CanOpen (pathNames (queryFile directory index))) (n : Nat) :
    ∃ cause, tree.run (setup.writeFiles directory source index (n + 1)) =
      (("", .error (.file (queryFile directory index) cause)), tree) := by
  cases happend : tree.append (pathNames (queryFile directory index)) batch.text with
  | ok _ => exact absurd (canOpen_of_append happend) hopen
  | error cause =>
      refine ⟨cause, ?_⟩
      have hrun : tree.run (Files.append (queryFile directory index) batch.text) =
          (.error cause, tree) := by
        simp only [run, Files.append, happend]
      simp only [writeFiles, h]
      exact run_bind hrun

/-- The files from the first one on that cannot be opened do not matter to what is left
behind, but there is no good end to them. -/
theorem run_writeFiles_countOpen (setup : Setup) (directory : String) (source : Metered Keystream)
    (index n : Nat) (tree : FileTree) :
    (tree.run (setup.writeFiles directory source index n)).2 =
        (tree.run (setup.writeFiles directory source index
          (tree.countOpen directory index n))).2 ∧
      (tree.countOpen directory index n < n →
        ∃ cause, (tree.run (setup.writeFiles directory source index n)).1.2 = .error cause) := by
  induction n generalizing tree source index with
  | zero => exact ⟨rfl, fun h => absurd h (Nat.not_lt_zero _)⟩
  | succ n ih =>
      cases hwrite : (setup.write none).run source with
      | none =>
          rw [run_writeFiles_of_none hwrite]
          refine ⟨?_, fun _ => ⟨_, rfl⟩⟩
          cases tree.countOpen directory index (n + 1) with
          | zero => rfl
          | succ k => rw [run_writeFiles_of_none hwrite]
      | some outcome =>
          obtain ⟨batch, s⟩ := outcome
          by_cases hopen : tree.CanOpen (pathNames (queryFile directory index))
          · rw [countOpen_succ hopen]
            obtain ⟨location, hwalk, haccepts⟩ := hopen
            by_cases hstop : ∃ k cause, batch.stop = some (.undrawable k cause)
            · obtain ⟨k, cause, hstop⟩ := hstop
              rw [run_writeFiles_of_undrawable hwrite hstop hwalk haccepts,
                run_writeFiles_of_undrawable hwrite hstop hwalk haccepts]
              exact ⟨rfl, fun _ => ⟨_, rfl⟩⟩
            · have hstop : ∀ k cause, batch.stop ≠ some (.undrawable k cause) :=
                fun k cause heq => hstop ⟨k, cause, heq⟩
              obtain ⟨hafter, herror⟩ := ih s (index + 1) (tree.addText location batch.text)
              rw [countOpen_addText haccepts] at hafter herror
              rw [run_writeFiles_of_full hwrite hstop hwalk haccepts,
                run_writeFiles_of_full hwrite hstop hwalk haccepts]
              refine ⟨hafter, fun hlt => ?_⟩
              obtain ⟨cause, hcause⟩ := herror (Nat.lt_of_succ_lt_succ hlt)
              exact ⟨cause, by simp only [withShown, hcause, Except.map]⟩
          · obtain ⟨cause, hrun⟩ := run_writeFiles_of_not_canOpen hwrite hopen n
            rw [hrun, countOpen_of_not_canOpen hopen]
            exact ⟨rfl, fun _ => ⟨_, rfl⟩⟩

end Setup

namespace GenerateArgs

variable {args : GenerateArgs} {words : Nat} {setup : Setup} {source : Metered Keystream}

/-- The tree with the directory of the files, or with what could be made of it. -/
def ready (args : GenerateArgs) (tree : FileTree) : FileTree :=
  (tree.run (createDirectories args.directory)).2

/-- The number of files of the run up to the first one that cannot be opened: none if
their directory cannot be made. -/
def openable (args : GenerateArgs) (tree : FileTree) : Nat :=
  match (tree.run (createDirectories args.directory)).1 with
  | .ok () => (args.ready tree).countOpen args.directory args.start.toNat args.numFiles.toNat
  | .error _ => 0

/-- The run with the files that can be opened. -/
def front (args : GenerateArgs) (tree : FileTree) : GenerateArgs :=
  { args with numFiles := .ofNat (args.openable tree) }

theorem openable_le (args : GenerateArgs) (tree : FileTree) :
    args.openable tree ≤ args.numFiles.toNat := by
  rw [openable]
  split
  · exact countOpen_le ..
  · exact Nat.zero_le _

theorem toNat_front_numFiles (args : GenerateArgs) (tree : FileTree) :
    (args.front tree).numFiles.toNat = args.openable tree :=
  UInt64.toNat_ofNat_of_lt' (Nat.lt_of_le_of_lt (args.openable_le tree) args.numFiles.toNat_lt)

/-- What the files are called does not matter to what they are drawn from. -/
theorem Prepares.renumber {start numFiles : UInt64} {directory : String}
    (h : args.Prepares tree words setup source)
    (hindex : start.toNat + numFiles.toNat < UInt64.size) :
    ({ args with start, numFiles, directory } : GenerateArgs).Prepares tree words setup source :=
  ⟨h.config, ⟨h.literals.1, h.literals.2, h.literals.3⟩, h.pool, hindex⟩

theorem Prepares.front (h : args.Prepares tree words setup source) :
    (args.front tree).Prepares tree words setup source := by
  have hle := args.openable_le tree
  rw [← toNat_front_numFiles] at hle
  exact h.renumber (Nat.lt_of_le_of_lt (Nat.add_le_add_left hle _) h.index)

section Directory

variable (hdirectory : tree.run (createDirectories args.directory) = (.ok (), opened))

include hdirectory

theorem openable_eq_countOpen :
    args.openable tree = opened.countOpen args.directory args.start.toNat args.numFiles.toNat := by
  simp only [openable, ready, hdirectory]

theorem front_writable : (args.front tree).Writable tree opened where
  directory := hdirectory
  files i hi := by
    rw [toNat_front_numFiles, openable_eq_countOpen hdirectory] at hi
    obtain ⟨location, hwalk, haccepts⟩ := canOpen_of_lt_countOpen hi
    exact ⟨_, append_eq_ok_iff.mpr ⟨location, hwalk, haccepts, rfl⟩⟩

theorem writable_of_openable (h : args.openable tree = args.numFiles.toNat) :
    args.Writable tree opened where
  directory := hdirectory
  files i hi := (front_writable hdirectory).files i (by rwa [toNat_front_numFiles, h])

theorem Prepares.run_front (h : args.Prepares tree words setup source) :
    (tree.run (args.run words)).2 = (tree.run ((args.front tree).run words)).2 ∧
      (args.openable tree < args.numFiles.toNat → (tree.run (args.run words)).1.code ≠ 0) := by
  obtain ⟨hafter, herror⟩ := setup.run_writeFiles_countOpen args.directory source
    args.start.toNat args.numFiles.toNat opened
  rw [← openable_eq_countOpen hdirectory] at hafter herror
  rw [h.run_run hdirectory rfl, h.front.run_run hdirectory rfl, toNat_front_numFiles]
  refine ⟨hafter, fun hlt => ?_⟩
  obtain ⟨cause, hcause⟩ := herror hlt
  rw [hcause]
  exact nofun

end Directory

theorem Prepares.run_run_of_error {cause : FileError} (h : args.Prepares tree words setup source)
    (hdirectory : tree.run (createDirectories args.directory) = (.error cause, opened)) :
    tree.run (args.run words) = (.failed "" (.directory args.directory cause), opened) :=
  (run_bind h.run_prepare).trans (run_bind hdirectory)

/-- Files can be opened only in a directory that can be made. -/
theorem run_createDirectories_of_openable (h : 0 < args.openable tree) :
    tree.run (createDirectories args.directory) = (.ok (), args.ready tree) := by
  rw [openable] at h
  split at h
  · next houtcome => exact Prod.ext houtcome rfl
  · exact absurd h (Nat.lt_irrefl 0)

/-- A run that is done has opened all of its files. -/
theorem writable_of_code (hcode : (tree.run (args.run words)).1.code = 0) :
    args.openable tree = args.numFiles.toNat ∧ args.Writable tree (args.ready tree) := by
  rcases args.exists_prepares_or_refuses tree words with ⟨setup, source, hsetup⟩ | ⟨cause, hcause⟩
  · cases houtcome : (tree.run (createDirectories args.directory)).1 with
    | error cause =>
        rw [hsetup.run_run_of_error (Prod.ext houtcome rfl)] at hcode
        cases hcode
    | ok done =>
        have hdirectory : tree.run (createDirectories args.directory) = (.ok (), args.ready tree) :=
          Prod.ext houtcome rfl
        obtain ⟨-, hfailed⟩ := hsetup.run_front hdirectory
        have hall : args.openable tree = args.numFiles.toNat :=
          Nat.le_antisymm (args.openable_le tree) (Nat.le_of_not_lt fun hlt => hfailed hlt hcode)
        exact ⟨hall, writable_of_openable hdirectory hall⟩
  · rw [hcause.run_run] at hcode
    cases hcode

end GenerateArgs

end QuerySynth
