import QuerySynth.Command.Run
import QuerySynth.Proofs.Command.FileTree
import QuerySynth.Proofs.Generate.Batch
import QuerySynth.Proofs.Text.Pieces

/-!
# The files that are written

The numbered files of a run lie at places of their own, since a path ends in the
name of its file and the names differ.  Writing the files adds a text at one place
after the other and leaves everything else as it is.
-/

namespace QuerySynth

open Text FileTree

/-! ## Names of files -/

/-- The name of a numbered file. -/
def fileName (index : Nat) : String := "queries_" ++ index.repr ++ ".txt"

theorem fileName_toList (index : Nat) :
    (fileName index).toList = "queries_".toList ++ (Nat.toDigits 10 index ++ ".txt".toList) := by
  rw [fileName, String.toList_append, String.toList_append, Nat.toList_repr, List.append_assoc]

theorem fileName_inj {i j : Nat} (h : fileName i = fileName j) : i = j := by
  have hlists := congrArg String.toList h
  rw [fileName_toList, fileName_toList, List.append_cancel_left_eq,
    List.append_cancel_right_eq] at hlists
  calc
    i = Nat.ofDigitChars 10 (Nat.toDigits 10 i) 0 := Nat.ofDigitChars_ten_toDigits.symm
    _ = Nat.ofDigitChars 10 (Nat.toDigits 10 j) 0 := by rw [hlists]
    _ = j := Nat.ofDigitChars_ten_toDigits

theorem separator_not_mem_fileName (index : Nat) : '/' ∉ (fileName index).toList := by
  rw [fileName_toList, List.mem_append, List.mem_append]
  rintro (h | h | h)
  · exact absurd h (by decide)
  · exact absurd (Nat.isDigit_of_mem_toDigits (by decide) (by decide) h) (by decide)
  · exact absurd h (by decide)

theorem stepFrom_fileName (here : Location) (index : Nat) :
    stepFrom here (fileName index) = here ++ [fileName index] := by
  have hne : ∀ name : String, name.toList.head? ≠ some 'q' → fileName index ≠ name := by
    rintro name hname rfl
    rw [fileName_toList] at hname
    exact hname rfl
  have hstay : ¬ (fileName index = "" ∨ fileName index = ".") :=
    not_or.mpr ⟨hne "" (by decide), hne "." (by decide)⟩
  rw [stepFrom, if_neg hstay, if_neg (hne ".." (by decide))]

/-- The path of a numbered file ends in its name. -/
theorem exists_pathNames_queryFile (directory : String) (index : Nat) :
    ∃ folder, pathNames (queryFile directory index) = folder ++ [fileName index] := by
  have hchars : ∃ front, (queryFile directory index).toList =
      front ++ '/' :: (fileName index).toList := by
    have hname : queryFile directory index = joinPath directory (fileName index) := rfl
    rw [hname, joinPath]
    split
    · rename_i hlast
      obtain ⟨front, hfront⟩ := List.getLast?_eq_some_iff.mp hlast
      refine ⟨front, ?_⟩
      rw [String.toList_append, hfront, List.append_assoc]
      rfl
    · refine ⟨directory.toList, ?_⟩
      rw [String.toList_append, String.toList_append, List.append_assoc]
      rfl
  obtain ⟨front, hfront⟩ := hchars
  refine ⟨(piecesAt '/' front).map String.ofList, ?_⟩
  rw [pathNames, hfront, piecesAt_append, piecesAt_of_not_mem (separator_not_mem_fileName index),
    List.map_append, List.map_singleton, String.ofList_toList]

namespace FileTree

variable {tree after : FileTree} {directory : String} {location : Location} {index n : Nat}

theorem getLast?_of_walk_queryFile
    (h : tree.walk [] (pathNames (queryFile directory index)) = .ok location) :
    location.getLast? = some (fileName index) := by
  obtain ⟨folder, hfolder⟩ := exists_pathNames_queryFile directory index
  rw [hfolder] at h
  obtain ⟨middle, -, hname⟩ := walk_append.mp h
  have hstep := (walk_cons_eq_ok hname).2
  rw [stepFrom_fileName] at hstep
  cases hstep
  exact List.getLast?_concat

/-! ## Adding texts -/

/-- The tree with a text behind the one at a location. -/
def addText (tree : FileTree) (location : Location) (text : String) : FileTree :=
  tree.put location (.file (tree.textAt location ++ text))

/-- The tree with texts added one after the other. -/
def addTexts (tree : FileTree) (added : List (Location × String)) : FileTree :=
  added.foldl (fun tree (location, text) => tree.addText location text) tree

/-- Paths lead to different places, and a text can be added at each of them. -/
inductive Opens (tree : FileTree) : List (List String) → List Location → Prop
  | nil : Opens tree [] []
  | cons {path : List String} {paths : List (List String)} {location : Location}
      {locations : List Location} (hwalk : tree.walk [] path = .ok location)
      (haccepts : tree.Accepts location) (hnew : location ∉ locations)
      (hrest : Opens tree paths locations) : Opens tree (path :: paths) (location :: locations)

/-- The paths of the files numbered from `index` on. -/
def queryPaths (directory : String) (index n : Nat) : List (List String) :=
  (List.range' index n).map fun i => pathNames (queryFile directory i)

theorem keepsDirectories_addText (h : tree.Accepts location) (text : String) :
    tree.KeepsDirectories (tree.addText location text) := .put h.ne_directory

theorem entry?_addText_self (h : tree.Accepts location) (text : String) :
    FileTree.entry? (tree.addText location text) location =
      some (.file (tree.textAt location ++ text)) := entry?_put_self h.ne_nil

theorem entry?_addText_of_ne {key : Location} (h : key ≠ location) (text : String) :
    FileTree.entry? (tree.addText location text) key = tree.entry? key := entry?_put_of_ne h

theorem Accepts.addText {key : Location} (hkey : tree.Accepts key)
    (h : tree.Accepts location) (hne : key ≠ location) (text : String) :
    (tree.addText location text).Accepts key := by
  rw [Accepts, entry?_addText_of_ne hne]
  rcases hkey with hfile | ⟨hnone, hparent⟩
  · exact .inl hfile
  · exact .inr ⟨hnone, keepsDirectories_addText h text _ hparent⟩

theorem Opens.addText {paths : List (List String)} {locations : List Location}
    (h : tree.Opens paths locations) (haccepts : tree.Accepts location)
    (hnew : location ∉ locations) (text : String) :
    (tree.addText location text).Opens paths locations := by
  induction h with
  | nil => exact .nil
  | @cons path paths key locations hwalk hkey hfresh _ ih =>
      obtain ⟨hne, hnew⟩ := List.ne_and_not_mem_of_not_mem_cons hnew
      exact .cons (walk_mono (keepsDirectories_addText haccepts text) hwalk)
        (hkey.addText haccepts hne.symm text) hfresh (ih hnew)

/-- The numbered files of a directory open one beside the other if each of them
opens. -/
theorem exists_opens_queryPaths
    (h : ∀ i ∈ List.range' index n, ∃ location,
      tree.walk [] (pathNames (queryFile directory i)) = .ok location ∧ tree.Accepts location) :
    ∃ locations, tree.Opens (queryPaths directory index n) locations ∧
      ∀ location ∈ locations, ∃ i ∈ List.range' index n,
        location.getLast? = some (fileName i) := by
  induction n generalizing index with
  | zero => exact ⟨[], .nil, nofun⟩
  | succ n ih =>
      rw [List.range'_succ] at h
      obtain ⟨⟨location, hwalk, haccepts⟩, hrest⟩ := List.forall_mem_cons.mp h
      obtain ⟨locations, hopens, hnames⟩ := ih hrest
      have hname := getLast?_of_walk_queryFile hwalk
      have hnew : location ∉ locations := by
        intro hmem
        -- a later file would have the same name
        obtain ⟨i, hi, hlast⟩ := hnames location hmem
        rw [hname, Option.some.injEq] at hlast
        rw [← fileName_inj hlast, List.mem_range'_1] at hi
        omega
      refine ⟨location :: locations, ?_, List.forall_mem_cons.mpr ⟨?_, ?_⟩⟩
      · rw [queryPaths, List.range'_succ]
        exact .cons hwalk haccepts hnew hopens
      · exact ⟨index, by rw [List.range'_succ]; exact List.mem_cons_self, hname⟩
      · intro other hmem
        obtain ⟨i, hi, hlast⟩ := hnames other hmem
        exact ⟨i, by rw [List.range'_succ]; exact List.mem_cons_of_mem _ hi, hlast⟩

theorem addTexts_append (tree : FileTree) (added more : List (Location × String)) :
    tree.addTexts (added ++ more) = (tree.addTexts added).addTexts more := List.foldl_append

theorem addTexts_cons (tree : FileTree) (location : Location) (text : String)
    (added : List (Location × String)) :
    tree.addTexts ((location, text) :: added) = (tree.addText location text).addTexts added := rfl

namespace Opens

variable {paths : List (List String)} {locations : List Location} {texts : List String}

theorem walk_getElem? (h : tree.Opens paths locations) {i : Nat} {path : List String}
    (hpath : paths[i]? = some path) :
    ∃ location, locations[i]? = some location ∧ tree.walk [] path = .ok location ∧
      tree.Accepts location := by
  induction h generalizing i with
  | nil => cases hpath
  | cons hwalk haccepts _ _ ih =>
      cases i with
      | zero =>
          cases hpath
          exact ⟨_, rfl, hwalk, haccepts⟩
      | succ i => exact ih hpath

theorem keepsDirectories_addTexts (h : tree.Opens paths locations) (texts : List String) :
    tree.KeepsDirectories (tree.addTexts (locations.zip texts)) := by
  induction locations generalizing tree paths texts with
  | nil => exact fun _ hentry => hentry
  | cons location locations ih =>
      cases texts with
      | nil => exact fun _ hentry => hentry
      | cons text texts =>
          cases h with
          | cons hwalk haccepts hnew hrest =>
              intro key hentry
              exact ih (hrest.addText haccepts hnew text) texts key
                (keepsDirectories_addText haccepts text key hentry)

/-- Adding texts changes no other place than those of the texts. -/
theorem entry?_addTexts_of_ne (h : tree.Opens paths locations) {key : Location}
    (hkey : ∀ i < texts.length, locations[i]? ≠ some key) :
    FileTree.entry? (tree.addTexts (locations.zip texts)) key = tree.entry? key := by
  induction locations generalizing tree paths texts with
  | nil => rfl
  | cons location locations ih =>
      cases texts with
      | nil => rfl
      | cons text texts =>
          cases h with
          | cons hwalk haccepts hnew hrest =>
              have hne : key ≠ location := by
                rintro rfl
                exact hkey 0 (Nat.succ_pos _) rfl
              rw [List.zip_cons_cons, addTexts_cons, ih (hrest.addText haccepts hnew text) ?_,
                entry?_addText_of_ne hne]
              exact fun i hi => hkey (i + 1) (Nat.succ_lt_succ hi)

/-- Every place has its text behind the text that was there. -/
theorem entry?_addTexts (h : tree.Opens paths locations) {i : Nat} {location : Location}
    {text : String} (hlocation : locations[i]? = some location) (htext : texts[i]? = some text) :
    FileTree.entry? (tree.addTexts (locations.zip texts)) location =
      some (.file (tree.textAt location ++ text)) := by
  induction locations generalizing tree paths texts i with
  | nil => cases hlocation
  | cons first locations ih =>
      cases texts with
      | nil => cases htext
      | cons head texts =>
          cases h with
          | cons hwalk haccepts hnew hrest =>
              have hopens := hrest.addText haccepts hnew head
              rw [List.zip_cons_cons, addTexts_cons]
              cases i with
              | zero =>
                  cases hlocation
                  cases htext
                  rw [hopens.entry?_addTexts_of_ne, entry?_addText_self haccepts]
                  exact fun i _ hi => hnew (List.mem_of_getElem? hi)
              | succ i =>
                  have hne : location ≠ first := by
                    rintro rfl
                    exact hnew (List.mem_of_getElem? hlocation)
                  rw [ih hopens hlocation htext, textAt_congr (entry?_addText_of_ne hne head)]

end Opens

end FileTree

/-! ## Writing files -/

/-- The lines shown for files numbered from `index` on. -/
def wroteLines (directory : String) (index n count : Nat) : String :=
  String.join ((List.range' index n).map fun i => wroteLine (queryFile directory i) count)

/-- What is shown and counted before, in front of what a run goes on with. -/
def withShown (shown : String) (count : Nat) (rest : String × Except RunError Nat) :
    String × Except RunError Nat := (shown ++ rest.1, rest.2.map (count + ·))

theorem withShown_nothing (rest : String × Except RunError Nat) : withShown "" 0 rest = rest := by
  obtain ⟨shown, result⟩ := rest
  cases result <;> simp [withShown, Except.map]

theorem withShown_withShown (first second : String) (m n : Nat)
    (rest : String × Except RunError Nat) :
    withShown first m (withShown second n rest) = withShown (first ++ second) (m + n) rest := by
  obtain ⟨shown, result⟩ := rest
  cases result <;> simp [withShown, Except.map, String.append_assoc, Nat.add_assoc]

theorem withShown_error (shown : String) (count : Nat) (cause : RunError) :
    withShown shown count ("", .error cause) = (shown, .error cause) := by
  simp [withShown, Except.map]

theorem withShown_zero (shown : String) (count : Nat) :
    withShown shown count ("", .ok 0) = (shown, .ok count) := by
  simp [withShown, Except.map]

theorem wroteLines_succ (directory : String) (index n count : Nat) :
    wroteLines directory index (n + 1) count =
      wroteLine (queryFile directory index) count ++ wroteLines directory (index + 1) n count := by
  rw [wroteLines, List.range'_succ, List.map_cons, String.join_cons, wroteLines]

namespace Setup

variable {setup : Setup} {tree : FileTree} {directory : String} {location : Location}
  {source s t : Metered Keystream} {index n : Nat} {queries : List Query} {batch : Batch}

theorem run_append {path : String} (hwalk : tree.walk [] (pathNames path) = .ok location)
    (haccepts : tree.Accepts location) (text : String) :
    tree.run (Files.append path text) = (.ok (), tree.addText location text) := by
  have happend : tree.append (pathNames path) text = .ok (tree.addText location text) :=
    append_eq_ok_iff.mpr ⟨location, hwalk, haccepts, rfl⟩
  simp only [run, Files.append, happend]

theorem run_writeFiles_of_none (h : (setup.write none).run source = none) :
    tree.run (setup.writeFiles directory source index (n + 1)) = (("", .error .exhausted), tree) := by
  simp only [writeFiles, h]
  rfl

theorem run_writeFiles_of_undrawable {k : Nat} {cause : ChoiceError}
    (h : (setup.write none).run source = some (batch, s))
    (hstop : batch.stop = some (.undrawable k cause))
    (hwalk : tree.walk [] (pathNames (queryFile directory index)) = .ok location)
    (haccepts : tree.Accepts location) :
    tree.run (setup.writeFiles directory source index (n + 1)) =
      (("", .error (.undrawable (queryFile directory index) k cause)),
        tree.addText location batch.text) := by
  simp only [writeFiles, h]
  refine (run_bind (run_append hwalk haccepts batch.text)).trans ?_
  simp only [hstop]
  rfl

theorem run_writeFiles_of_full (h : (setup.write none).run source = some (batch, s))
    (hstop : ∀ k cause, batch.stop ≠ some (.undrawable k cause))
    (hwalk : tree.walk [] (pathNames (queryFile directory index)) = .ok location)
    (haccepts : tree.Accepts location) :
    tree.run (setup.writeFiles directory source index (n + 1)) =
      let rest := (tree.addText location batch.text).run
        (setup.writeFiles directory s (index + 1) n)
      (withShown (wroteLine (queryFile directory index) batch.texts.length) batch.texts.length
        rest.1, rest.2) := by
  -- no query of the file is undrawable, so the run goes on
  simp only [writeFiles, h]
  exact (run_bind (run_append hwalk haccepts batch.text)).trans rfl

/-- The files that are filled come first, and the run goes on behind them. -/
theorem Fills.run_writeFiles {files : List (List Query)} (h : setup.Fills source files s)
    {locations : List Location}
    (hopens : tree.Opens (queryPaths directory index (files.length + n)) locations) :
    ∃ front back, locations = front ++ back ∧ front.length = files.length ∧
      let after := tree.addTexts (front.zip (files.map fileText))
      let rest := after.run (setup.writeFiles directory s (index + files.length) n)
      after.Opens (queryPaths directory (index + files.length) n) back ∧
      tree.run (setup.writeFiles directory source index (files.length + n)) =
        (withShown (wroteLines directory index files.length setup.config.numQueries.toNat)
          (files.length * setup.config.numQueries.toNat) rest.1, rest.2) := by
  induction h generalizing tree index locations with
  | nil source =>
      refine ⟨[], locations, rfl, rfl, ?_⟩
      simp only [List.length_nil, Nat.zero_add, Nat.zero_mul, Nat.add_zero] at hopens ⊢
      refine ⟨hopens, ?_⟩
      have hlines : wroteLines directory index 0 setup.config.numQueries.toNat = "" := rfl
      rw [hlines, withShown_nothing]
      rfl
  | @cons source s u queries files hqueries hnumbers hrest ih =>
      have hlength := length_eq_of_map_index hnumbers
      have hcount : (queries :: files).length + n = files.length + n + 1 := by
        rw [List.length_cons]
        omega
      rw [hcount, queryPaths, List.range'_succ] at hopens
      cases hopens with
      | @cons _ _ location locations hwalk haccepts hnew hopens =>
          have hopens := hopens.addText haccepts hnew (fileText queries)
          obtain ⟨front, back, rfl, hfront, hback, hrun⟩ := ih hopens
          refine ⟨location :: front, back, rfl, by rw [List.length_cons, hfront]; rfl, ?_⟩
          have hindex : index + (queries :: files).length = index + 1 + files.length := by
            rw [List.length_cons]
            omega
          rw [hindex]
          refine ⟨hback, ?_⟩
          rw [hcount, run_writeFiles_of_full (hqueries.run_write hlength) nofun hwalk haccepts]
          -- what is shown and counted for the first file joins that for the others
          have hbatch : tree.addText location
              (Batch.text ⟨queries.map Query.render, none⟩) =
                tree.addText location (fileText queries) := rfl
          rw [hbatch, hrun]
          simp only [withShown_withShown, List.length_map, List.length_cons, wroteLines_succ,
            hlength, Nat.succ_mul, Nat.add_comm]
          rfl

end Setup

end QuerySynth
