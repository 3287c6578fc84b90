import QuerySynth.Command.Files

/-!
# Trees of files

What the operations on a tree of files do to its entries.

* A put changes the entry of one location.
* A path that leads somewhere leads there as long as directories stay directories.
* Adding a text puts one file, with the text behind what was there.
* Making directories adds entries for directories and changes no entry.
-/

namespace QuerySynth

namespace FileTree

variable {tree other after : FileTree}

/-! ## Computations over a tree -/

section Runs

variable {ε α β : Type}

/-- The outcome of a computation that starts from the tree, and the tree behind it. -/
abbrev run (tree : FileTree) (act : StateM FileTree α) : α × FileTree := act tree

theorem run_bind {step : StateM FileTree α} {next : α → StateM FileTree β} {a : α}
    (h : tree.run step = (a, after)) : tree.run (step >>= next) = after.run (next a) := by
  have hrun : tree.run (step >>= next) = (tree.run step).2.run (next (tree.run step).1) := rfl
  rw [hrun, h]

theorem run_bind_of_ok {step : ExceptT ε (StateM FileTree) α}
    {next : α → ExceptT ε (StateM FileTree) β} {a : α} (h : tree.run step.run = (.ok a, after)) :
    tree.run (step >>= next).run = after.run (next a).run := by
  have hrun : tree.run (step >>= next).run =
      (tree.run step.run).2.run (ExceptT.bindCont next (tree.run step.run).1) := rfl
  rw [hrun, h]
  rfl

theorem run_bind_of_error {step : ExceptT ε (StateM FileTree) α}
    {next : α → ExceptT ε (StateM FileTree) β} {e : ε}
    (h : tree.run step.run = (.error e, after)) :
    tree.run (step >>= next).run = (.error e, after) := by
  have hrun : tree.run (step >>= next).run =
      (tree.run step.run).2.run (ExceptT.bindCont next (tree.run step.run).1) := rfl
  rw [hrun, h]
  rfl

end Runs

/-! ## Entries -/

/-- The text of the file at a location, if there is one. -/
def textAt (tree : FileTree) (location : Location) : String :=
  match tree.entry? location with
  | some (.file text) => text
  | _ => ""

theorem textAt_of_file {location : Location} {text : String}
    (h : tree.entry? location = some (.file text)) : tree.textAt location = text := by
  simp only [textAt, h]

theorem textAt_congr {location : Location} (h : other.entry? location = tree.entry? location) :
    other.textAt location = tree.textAt location := by
  simp only [textAt, h]

theorem entry?_nil : tree.entry? [] = some .directory := rfl

theorem entry?_of_ne_nil {location : Location} (h : location ≠ []) :
    tree.entry? location = tree.entries.lookup location :=
  if_neg (by simpa using h)

theorem lookup_filter_ne (entries : List (Location × Entry)) (location key : Location) :
    (entries.filter (·.1 != location)).lookup key =
      if key = location then none else entries.lookup key := by
  induction entries with
  | nil => simp
  | cons head rest ih =>
      obtain ⟨place, entry⟩ := head
      by_cases hplace : place = location
      · -- the entry in front is dropped, and is not the one of any other key
        rw [List.filter_cons_of_neg (by simp [hplace]), ih]
        by_cases hkey : key = location
        · rw [if_pos hkey, if_pos hkey]
        · have hne : (key == place) = false := by simp [hplace, hkey]
          rw [if_neg hkey, if_neg hkey, List.lookup_cons, hne]
      · rw [List.filter_cons_of_pos (by simp [hplace]), List.lookup_cons, List.lookup_cons, ih]
        by_cases hkey : key = place
        · have hne : ¬ key = location := by rwa [hkey]
          simp [hkey, hplace]
        · have hne : (key == place) = false := by simp [hkey]
          rw [hne]

theorem entry?_put_self {location : Location} {entry : Entry} (h : location ≠ []) :
    FileTree.entry? (tree.put location entry) location = some entry := by
  rw [entry?_of_ne_nil h, put, List.lookup_append, lookup_filter_ne, if_pos rfl]
  simp

theorem entry?_put_of_ne {location key : Location} {entry : Entry} (h : key ≠ location) :
    FileTree.entry? (tree.put location entry) key = tree.entry? key := by
  by_cases hkey : key = []
  · subst hkey
    rfl
  · have hne : (key == location) = false := by simp [h]
    rw [entry?_of_ne_nil hkey, entry?_of_ne_nil hkey, put, List.lookup_append, lookup_filter_ne,
      if_neg h, List.lookup_cons, hne, List.lookup_nil, Option.or_none]

/-! ## Paths -/

/-- Every directory of the one tree is a directory of the other. -/
def KeepsDirectories (tree other : FileTree) : Prop :=
  ∀ location, tree.entry? location = some .directory → other.entry? location = some .directory

theorem KeepsDirectories.put {location : Location} {entry : Entry}
    (h : tree.entry? location ≠ some .directory) :
    tree.KeepsDirectories (tree.put location entry) := by
  intro key hkey
  have hne : key ≠ location := by
    rintro rfl
    exact h hkey
  rwa [entry?_put_of_ne hne]

/-- Where a name leads from a directory. -/
def stepFrom (here : Location) (name : String) : Location :=
  if name = "" ∨ name = "." then here
  else if name = ".." then here.dropLast
  else here ++ [name]

theorem walk_cons_of_directory {here : Location} {name : String} {rest : List String}
    (h : tree.entry? here = some .directory) :
    tree.walk here (name :: rest) = tree.walk (stepFrom here name) rest := by
  simp only [walk, h, stepFrom]
  split
  · rfl
  · split <;> rfl

/-- A step that succeeds starts from a directory. -/
theorem walk_cons_eq_ok {here there : Location} {name : String} {rest : List String}
    (h : tree.walk here (name :: rest) = .ok there) :
    tree.entry? here = some .directory ∧ tree.walk (stepFrom here name) rest = .ok there := by
  cases hentry : tree.entry? here with
  | none =>
      simp only [walk, hentry] at h
      cases h
  | some entry =>
      cases entry with
      | file text =>
          simp only [walk, hentry] at h
          cases h
      | directory => exact ⟨rfl, walk_cons_of_directory hentry ▸ h⟩

theorem walk_append {here : Location} {front back : List String} {there : Location} :
    tree.walk here (front ++ back) = .ok there ↔
      ∃ middle, tree.walk here front = .ok middle ∧ tree.walk middle back = .ok there := by
  induction front generalizing here with
  | nil => simp [walk]
  | cons name front ih =>
      constructor
      · intro h
        obtain ⟨hentry, h⟩ := walk_cons_eq_ok h
        obtain ⟨middle, hfront, hback⟩ := ih.mp h
        exact ⟨middle, (walk_cons_of_directory hentry).trans hfront, hback⟩
      · rintro ⟨middle, hfront, hback⟩
        obtain ⟨hentry, hfront⟩ := walk_cons_eq_ok hfront
        exact (walk_cons_of_directory hentry).trans (ih.mpr ⟨middle, hfront, hback⟩)

theorem walk_mono (h : tree.KeepsDirectories other) {here there : Location} {names : List String}
    (hwalk : tree.walk here names = .ok there) : other.walk here names = .ok there := by
  induction names generalizing here with
  | nil => exact hwalk
  | cons name names ih =>
      obtain ⟨hentry, hwalk⟩ := walk_cons_eq_ok hwalk
      exact (walk_cons_of_directory (h here hentry)).trans (ih hwalk)

/-- Empty names lead from a directory to itself. -/
theorem walk_blank {here : Location} {names : List String} (hblank : ∀ name ∈ names, name = "")
    (h : tree.entry? here = some .directory) : tree.walk here names = .ok here := by
  induction names with
  | nil => rfl
  | cons name names ih =>
      obtain ⟨rfl, hrest⟩ := List.forall_mem_cons.mp hblank
      exact (walk_cons_of_directory h).trans (ih hrest)

/-! ## Reading -/

theorem find_eq_ok_iff {names : List String} {location : Location} {entry : Entry} :
    tree.find names = .ok (location, entry) ↔
      tree.walk [] names = .ok location ∧ tree.entry? location = some entry := by
  simp only [find, bind, Except.bind, pure, Except.pure, throw, throwThe, MonadExceptOf.throw]
  cases hwalk : tree.walk [] names with
  | error cause => simp
  | ok there =>
      cases hentry : tree.entry? there with
      | none =>
          simp only [hentry, reduceCtorEq, Except.ok.injEq, false_iff, not_and]
          rintro rfl
          simp [hentry]
      | some found =>
          simp only [hentry, Except.ok.injEq, Prod.mk.injEq]
          constructor
          · rintro ⟨rfl, rfl⟩
            exact ⟨rfl, hentry⟩
          · rintro ⟨rfl, h⟩
            exact ⟨rfl, Option.some.inj (hentry.symm.trans h)⟩

theorem read_eq_ok_iff {names : List String} {text : String} :
    tree.read names = .ok text ↔
      ∃ location, tree.walk [] names = .ok location ∧
        tree.entry? location = some (.file text) := by
  simp only [← find_eq_ok_iff, read, bind, Except.bind, pure, Except.pure, throw, throwThe,
    MonadExceptOf.throw]
  cases hfind : tree.find names with
  | error cause => simp
  | ok found =>
      obtain ⟨location, entry⟩ := found
      cases entry with
      | directory => simp
      | file before => simp

theorem isDirectory_iff {names : List String} :
    tree.isDirectory names = true ↔
      ∃ location, tree.walk [] names = .ok location ∧
        tree.entry? location = some .directory := by
  simp only [← find_eq_ok_iff, isDirectory]
  cases hfind : tree.find names with
  | error cause => simp
  | ok found =>
      obtain ⟨location, entry⟩ := found
      cases entry with
      | directory => simp
      | file before => simp

/-- What can be read is there. -/
theorem toBool_find_of_read {names : List String} {text : String}
    (h : tree.read names = .ok text) : (tree.find names).toBool = true := by
  cases hfind : tree.find names with
  | ok found => rfl
  | error cause =>
      rw [read, hfind] at h
      cases h

/-! ## Adding texts -/

/-- A text can be added at the location: there is a file, or there is nothing in a
directory. -/
def Accepts (tree : FileTree) (location : Location) : Prop :=
  (∃ text, tree.entry? location = some (.file text)) ∨
    tree.entry? location = none ∧ tree.entry? location.dropLast = some .directory

theorem Accepts.ne_directory {location : Location} (h : tree.Accepts location) :
    tree.entry? location ≠ some .directory := by
  rcases h with ⟨text, h⟩ | ⟨h, -⟩ <;> simp [h]

theorem Accepts.ne_nil {location : Location} (h : tree.Accepts location) : location ≠ [] := by
  rintro rfl
  exact h.ne_directory entry?_nil

theorem dropLast_append_getLast (names : List String) :
    names.dropLast ++ names.getLast?.toList = names := by
  by_cases hnames : names = []
  · rw [hnames]
    rfl
  · rw [List.getLast?_eq_some_getLast hnames]
    exact List.dropLast_concat_getLast hnames

/-- A text is added where its path leads, behind the text that is there. -/
theorem append_eq_ok_iff {names : List String} {text : String} :
    tree.append names text = .ok after ↔
      ∃ location, tree.walk [] names = .ok location ∧ tree.Accepts location ∧
        after = tree.put location (.file (tree.textAt location ++ text)) := by
  -- the directory first and then the last name, which together are the whole path
  have hpath : ∀ location, tree.walk [] names = .ok location ↔
      ∃ above, tree.walk [] names.dropLast = .ok above ∧
        tree.walk above names.getLast?.toList = .ok location := by
    intro location
    rw [← walk_append, dropLast_append_getLast]
  simp only [hpath, append, bind, Except.bind, pure, Except.pure, throw, throwThe,
    MonadExceptOf.throw]
  cases habove : tree.walk [] names.dropLast with
  | error cause => simp
  | ok above =>
      cases hlocation : tree.walk above names.getLast?.toList with
      | error cause => simp [hlocation]
      | ok location =>
          cases hentry : tree.entry? location with
          | none =>
              by_cases hparent : tree.entry? location.dropLast = some .directory
              · simp [hlocation, hentry, hparent, Accepts, textAt, eq_comm]
              · simp [hlocation, hentry, hparent, Accepts]
          | some entry =>
              cases entry with
              | directory => simp [hlocation, hentry, Accepts]
              | file before => simp [hlocation, hentry, Accepts, textAt, eq_comm]

/-! ## Making directories -/

/-- Every entry of the tree is an entry of the other, which has nothing besides but
directories. -/
def Extends (tree other : FileTree) : Prop :=
  ∀ location, other.entry? location = tree.entry? location ∨
    tree.entry? location = none ∧ other.entry? location = some .directory

namespace Extends

theorem refl (tree : FileTree) : tree.Extends tree := fun _ => .inl rfl

theorem trans (h : tree.Extends other) (h' : other.Extends after) : tree.Extends after := by
  intro location
  rcases h' location with hsame | ⟨hnone, hmade⟩
  · rcases h location with hold | ⟨hnone, hmade⟩
    · exact .inl (hsame.trans hold)
    · exact .inr ⟨hnone, hsame.trans hmade⟩
  · rcases h location with hold | ⟨-, hmade'⟩
    · exact .inr ⟨hold.symm.trans hnone, hmade⟩
    · rw [hnone] at hmade'
      cases hmade'

theorem keepsDirectories (h : tree.Extends other) : tree.KeepsDirectories other := by
  intro location hentry
  rcases h location with hsame | ⟨hnone, -⟩
  · exact hsame.trans hentry
  · rw [hnone] at hentry
    cases hentry

theorem textAt_eq (h : tree.Extends other) (location : Location) :
    other.textAt location = tree.textAt location := by
  rcases h location with hsame | ⟨hnone, hmade⟩
  · exact textAt_congr hsame
  · simp only [textAt, hnone, hmade]

end Extends

theorem exists_dropEmpty_append (names : List String) :
    ∃ blank, names = dropEmpty names ++ blank ∧ ∀ name ∈ blank, name = "" := by
  refine ⟨(names.reverse.takeWhile (· == "")).reverse, ?_, ?_⟩
  · rw [dropEmpty, ← List.reverse_append, List.takeWhile_append_dropWhile, List.reverse_reverse]
  · intro name hname
    exact eq_of_beq (List.all_eq_true.mp List.all_takeWhile name (List.mem_reverse.mp hname))

/-- A directory is made where its path leads, if there was nothing. -/
theorem createDir_eq_ok {names : List String} (h : tree.createDir names = .ok after) :
    ∃ location, tree.walk [] (dropEmpty names) = .ok location ∧
      tree.entry? location = none ∧ after = tree.put location .directory := by
  simp only [createDir, bind, Except.bind, pure, Except.pure, throw, throwThe,
    MonadExceptOf.throw] at h
  cases habove : tree.walk [] (dropEmpty names).dropLast with
  | error cause => simp [habove] at h
  | ok above =>
      cases hlocation : tree.walk above (dropEmpty names).getLast?.toList with
      | error cause =>
          simp only [habove, hlocation] at h
          split at h <;> cases h
      | ok location =>
          refine ⟨location, ?_, ?_⟩
          · rw [← dropLast_append_getLast (dropEmpty names)]
            exact walk_append.mpr ⟨above, habove, hlocation⟩
          · simp only [habove, hlocation] at h
            split at h
            · cases h
            · cases h
            · split at h
              · cases h
              · rename_i hentry
                exact ⟨hentry, (Except.ok.inj h).symm⟩

theorem Extends.put_directory {location : Location} (h : tree.entry? location = none) :
    tree.Extends (tree.put location .directory) := by
  intro key
  by_cases hkey : key = location
  · subst hkey
    have hne : key ≠ [] := by
      rintro rfl
      cases h
    exact .inr ⟨h, entry?_put_self hne⟩
  · exact .inl (entry?_put_of_ne hkey)

theorem extends_of_createDir {names : List String} (h : tree.createDir names = .ok after) :
    tree.Extends after := by
  obtain ⟨location, -, hentry, rfl⟩ := createDir_eq_ok h
  exact .put_directory hentry

theorem isDirectory_of_createDir {names : List String} (h : tree.createDir names = .ok after) :
    after.isDirectory names = true := by
  have hextends := extends_of_createDir h
  obtain ⟨location, hwalk, hentry, rfl⟩ := createDir_eq_ok h
  obtain ⟨blank, hnames, hblank⟩ := exists_dropEmpty_append names
  have hne : location ≠ [] := by
    rintro rfl
    cases hentry
  have hmade : FileTree.entry? (tree.put location .directory) location = some .directory :=
    entry?_put_self hne
  refine isDirectory_iff.mpr ⟨location, ?_, hmade⟩
  rw [hnames]
  exact walk_append.mpr
    ⟨location, walk_mono hextends.keepsDirectories hwalk, walk_blank hblank hmade⟩

/-- Where there is a directory, none is made. -/
theorem createDir_ne_ok {names : List String} (h : tree.isDirectory names = true) :
    tree.createDir names ≠ .ok after := by
  intro hmade
  obtain ⟨location, hwalk, hentry, -⟩ := createDir_eq_ok hmade
  obtain ⟨there, hthere, hdirectory⟩ := isDirectory_iff.mp h
  obtain ⟨blank, hnames, hblank⟩ := exists_dropEmpty_append names
  rw [hnames] at hthere
  obtain ⟨middle, hmiddle, hback⟩ := walk_append.mp hthere
  rw [hwalk] at hmiddle
  cases hmiddle
  -- an empty name behind the location would have to start from a directory
  cases blank with
  | nil =>
      cases hback
      rw [hentry] at hdirectory
      cases hdirectory
  | cons name blank =>
      have hstart := (walk_cons_eq_ok hback).1
      rw [hentry] at hstart
      cases hstart

theorem run_ensureDirectory_of_ok {path : String}
    (h : tree.createDir (pathNames path) = .ok after) :
    tree.run (ensureDirectory path) = (.ok (), after) := by
  have hcreate : tree.run (Files.createDir path) = (.ok (), after) := by
    simp only [run, Files.createDir, h]
  exact run_bind hcreate

theorem run_ensureDirectory_of_error {path : String} {cause : FileError}
    (h : tree.createDir (pathNames path) = .error cause) :
    tree.run (ensureDirectory path) =
      (if tree.isDirectory (pathNames path) then .ok () else .error cause, tree) := by
  have hcreate : tree.run (Files.createDir path) = (.error cause, tree) := by
    simp only [run, Files.createDir, h]
  exact run_bind hcreate

theorem run_ensureDirectory (path : String) (tree : FileTree) :
    ∃ outcome after, tree.run (ensureDirectory path) = (outcome, after) ∧ tree.Extends after ∧
      (outcome = .ok () → after.isDirectory (pathNames path) = true) := by
  cases hcreate : tree.createDir (pathNames path) with
  | ok after =>
      exact ⟨.ok (), after, run_ensureDirectory_of_ok hcreate, extends_of_createDir hcreate,
        fun _ => isDirectory_of_createDir hcreate⟩
  | error cause =>
      refine ⟨_, tree, run_ensureDirectory_of_error hcreate, .refl tree, ?_⟩
      by_cases hthere : tree.isDirectory (pathNames path) = true
      · exact fun _ => hthere
      · simp [hthere]

theorem run_ensureDirectory_of_isDirectory {path : String}
    (h : tree.isDirectory (pathNames path) = true) :
    tree.run (ensureDirectory path) = (.ok (), tree) := by
  cases hcreate : tree.createDir (pathNames path) with
  | ok after => exact absurd hcreate (createDir_ne_ok h)
  | error cause => rw [run_ensureDirectory_of_error hcreate, if_pos h]

theorem run_ensureDirectories_of_isEmpty {path : String} (h : path.isEmpty = true) (n : Nat) :
    tree.run (ensureDirectories path n) = (.ok (), tree) := by
  cases n <;> simp only [ensureDirectories, h] <;> rfl

theorem run_ensureDirectories_zero {path : String} (h : path.isEmpty = false) :
    tree.run (ensureDirectories path 0) = tree.run (ensureDirectory path) := by
  simp only [ensureDirectories, h]
  rfl

/-- With the directory itself made, or refused for another reason than a missing one
above, there is nothing more to do. -/
theorem run_ensureDirectories_of_ne_missing {path : String} {n : Nat}
    {outcome : Except FileError Unit} (hpath : path.isEmpty = false)
    (h : tree.run (ensureDirectory path) = (outcome, after))
    (hmissing : outcome ≠ .error .missing) :
    tree.run (ensureDirectories path (n + 1)) = (outcome, after) := by
  simp only [ensureDirectories, hpath]
  refine (run_bind h).trans ?_
  split
  · contradiction
  · rfl

theorem run_ensureDirectories_of_missing {path : String} {n : Nat}
    {outcome : Except FileError Unit} {middle : FileTree} (hpath : path.isEmpty = false)
    (h : tree.run (ensureDirectory path) = (.error .missing, other))
    (habove : other.run (ensureDirectories (parentPath path) n) = (outcome, middle)) :
    tree.run (ensureDirectories path (n + 1)) =
      match outcome with
      | .ok () => middle.run (ensureDirectory path)
      | .error cause => (.error cause, middle) := by
  simp only [ensureDirectories, hpath]
  refine (run_bind h).trans ((run_bind habove).trans ?_)
  cases outcome <;> rfl

/-- Making directories only adds directories, and in the end there is the one asked
for. -/
theorem run_ensureDirectories (path : String) (n : Nat) (tree : FileTree) :
    ∃ outcome after, tree.run (ensureDirectories path n) = (outcome, after) ∧
      tree.Extends after ∧
      (outcome = .ok () → path.isEmpty = true ∨ after.isDirectory (pathNames path) = true) := by
  induction n generalizing path tree with
  | zero =>
      cases hpath : path.isEmpty with
      | true =>
          exact ⟨.ok (), tree, run_ensureDirectories_of_isEmpty hpath 0, .refl tree,
            fun _ => .inl rfl⟩
      | false =>
          obtain ⟨outcome, made, hrun, hextends, hmade⟩ := run_ensureDirectory path tree
          exact ⟨outcome, made, (run_ensureDirectories_zero hpath).trans hrun, hextends,
            fun h => .inr (hmade h)⟩
  | succ n ih =>
      cases hpath : path.isEmpty with
      | true =>
          exact ⟨.ok (), tree, run_ensureDirectories_of_isEmpty hpath _, .refl tree,
            fun _ => .inl rfl⟩
      | false =>
          obtain ⟨outcome, made, hrun, hextends, hmade⟩ := run_ensureDirectory path tree
          by_cases hmissing : outcome = .error .missing
          · -- the directories above, and then the directory once more
            subst hmissing
            obtain ⟨above, middle, habove, hmiddle, -⟩ := ih (parentPath path) made
            have hstep := run_ensureDirectories_of_missing hpath hrun habove
            cases above with
            | error cause => exact ⟨_, middle, hstep, hextends.trans hmiddle, nofun⟩
            | ok done =>
                obtain ⟨last, final, hlast, hfinal, hthere⟩ := run_ensureDirectory path middle
                exact ⟨last, final, hstep.trans hlast, (hextends.trans hmiddle).trans hfinal,
                  fun h => .inr (hthere h)⟩
          · exact ⟨outcome, made, run_ensureDirectories_of_ne_missing hpath hrun hmissing,
              hextends, fun h => .inr (hmade h)⟩

theorem extends_of_createDirectories {path : String} {outcome : Except FileError Unit}
    (h : tree.run (createDirectories path) = (outcome, after)) : tree.Extends after := by
  obtain ⟨outcome', after', hrun, hextends, -⟩ :=
    run_ensureDirectories path (pathNames path).length tree
  cases hrun.symm.trans h
  exact hextends

/-- Directories once made are not made again. -/
theorem run_createDirectories_again {path : String}
    (h : tree.run (createDirectories path) = (.ok (), other)) (hkeeps : other.KeepsDirectories after) :
    after.run (createDirectories path) = (.ok (), after) := by
  obtain ⟨outcome, other', hrun, -, hmade⟩ :=
    run_ensureDirectories path (pathNames path).length tree
  cases hrun.symm.trans h
  cases hpath : path.isEmpty with
  | true => exact run_ensureDirectories_of_isEmpty hpath _
  | false =>
      obtain ⟨location, hwalk, hentry⟩ :=
        isDirectory_iff.mp ((hmade rfl).resolve_left (by simp [hpath]))
      have hthere : after.isDirectory (pathNames path) = true :=
        isDirectory_iff.mpr ⟨location, walk_mono hkeeps hwalk, hkeeps location hentry⟩
      have hdone := run_ensureDirectory_of_isDirectory hthere
      cases hlength : (pathNames path).length with
      | zero =>
          rw [createDirectories, hlength, run_ensureDirectories_zero hpath, hdone]
      | succ n =>
          rw [createDirectories, hlength,
            run_ensureDirectories_of_ne_missing hpath hdone (by simp)]

end FileTree

end QuerySynth
