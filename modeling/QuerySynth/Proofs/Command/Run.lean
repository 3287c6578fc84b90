import QuerySynth.Proofs.Command.Output
import QuerySynth.Proofs.Command.Preparation

/-!
# What a run leaves behind

A run is refused before it touches a file, or it gets stuck at a query that cannot be
drawn, or it is done.  Where directories can be made and files can be opened, what was
drawn before is in the files: the files that were filled have all of their queries, the
file where the run got stuck has those before, and nothing else is changed.
-/

namespace QuerySynth

open FileTree

namespace GenerateArgs

/-- The names on the path of a file of the run, counted from zero. -/
def output (args : GenerateArgs) (i : Nat) : List String :=
  pathNames (queryFile args.directory (args.start.toNat + i))

/-- The directory of the files can be made, which leads to the second tree, and there
every file of the run can be opened. -/
structure Writable (args : GenerateArgs) (tree opened : FileTree) : Prop where
  directory : tree.run (createDirectories args.directory) = (.ok (), opened)
  files : ∀ i < args.numFiles.toNat, ∃ after, opened.append (args.output i) "" = .ok after

/-- The first files of the run have gained these texts, behind what was in them, and
nothing else is changed but for new directories. -/
structure Gained (args : GenerateArgs) (tree : FileTree) (texts : List String)
    (after : FileTree) : Prop where
  gained : ∀ i text, texts[i]? = some text → ∃ location,
    after.walk [] (args.output i) = .ok location ∧
      FileTree.entry? after location = some (.file (tree.textAt location ++ text))
  kept : ∀ location, (∀ i < texts.length, after.walk [] (args.output i) ≠ .ok location) →
    FileTree.entry? after location = tree.entry? location ∨
      tree.entry? location = none ∧ FileTree.entry? after location = some .directory
  directories : tree.KeepsDirectories after

/-- The lines shown for the first files of the run. -/
def wrote (args : GenerateArgs) (setup : Setup) (n : Nat) : String :=
  wroteLines args.directory args.start.toNat n setup.config.numQueries.toNat

/-- The report on what the files of the run came to. -/
def report (args : GenerateArgs) (shown : String) : Except RunError Nat → Report
  | .ok total => { errors := shown ++ doneLine total args }
  | .error cause => .failed shown cause

/-- How a run can end: what it shows, and the texts that its files gain if any file is
touched. -/
inductive Ends (args : GenerateArgs) (tree : FileTree) (words : Nat) :
    Report → Option (List String) → Prop
  | refused {cause : RunError} (hcause : args.Refuses tree words cause) :
      Ends args tree words (.failed "" cause) none
  | stuck {setup : Setup} {source s t u : Metered Keystream} {files : List (List Query)}
      {queries : List Query} {k : Nat} {cause : ChoiceError}
      (hsetup : args.Prepares tree words setup source) (hfiles : setup.Fills source files s)
      (hfew : files.length < args.numFiles.toNat) (hqueries : setup.Draws 1 s queries t)
      (hnumbers : queries.map Query.index = List.range' 1 k)
      (hk : k < setup.config.numQueries.toNat)
      (hcause : (setup.drawQuery (k + 1)).run t = some (.error cause, u)) :
      Ends args tree words
        (.failed (args.wrote setup files.length)
          (.undrawable (queryFile args.directory (args.start.toNat + files.length)) (k + 1) cause))
        (some (files.map fileText ++ [fileText queries]))
  | done {setup : Setup} {source s : Metered Keystream} {files : List (List Query)}
      (hsetup : args.Prepares tree words setup source) (hfiles : setup.Fills source files s)
      (hall : files.length = args.numFiles.toNat) :
      Ends args tree words
        { errors := args.wrote setup files.length ++
            doneLine (files.length * setup.config.numQueries.toNat) args }
        (some (files.map fileText))
  /-- The words allowed for the run are used up, in the middle of a file. -/
  | exhausted {setup : Setup} {source s t : Metered Keystream} {files : List (List Query)}
      {queries : List Query} (hsetup : args.Prepares tree words setup source)
      (hfiles : setup.Fills source files s) (hfew : files.length < args.numFiles.toNat)
      (hqueries : setup.Draws 1 s queries t)
      (hlength : queries.length < setup.config.numQueries.toNat)
      (hwords : (setup.drawQuery (queries.length + 1)).run t = none) :
      Ends args tree words (.failed (args.wrote setup files.length) .exhausted)
        (some (files.map fileText))

variable {args : GenerateArgs} {tree opened after : FileTree} {words : Nat} {setup : Setup}
  {source : Metered Keystream}

/-! ## Every run ends -/

theorem exists_ends (args : GenerateArgs) (tree : FileTree) (words : Nat) :
    ∃ report texts, args.Ends tree words report texts := by
  rcases args.exists_prepares_or_refuses tree words with ⟨setup, source, hsetup⟩ | ⟨cause, hcause⟩
  · obtain ⟨files, s, hfiles, hall | ⟨hfew, queries, t, hqueries, hlength, hstuck⟩⟩ :=
      Setup.exists_fills setup args.numFiles.toNat source
    · exact ⟨_, _, .done hsetup hfiles hall⟩
    · cases hnext : (setup.drawQuery (queries.length + 1)).run t with
      | none => exact ⟨_, _, .exhausted hsetup hfiles hfew hqueries hlength hnext⟩
      | some drawn =>
          obtain ⟨outcome, u⟩ := drawn
          cases outcome with
          | ok query => exact absurd hnext (hstuck query u)
          | error cause =>
              exact ⟨_, _, .stuck hsetup hfiles hfew hqueries hqueries.map_index hlength hnext⟩
  · exact ⟨_, _, .refused hcause⟩

/-! ## Places of files -/

theorem Writable.exists_opens (h : args.Writable tree opened) :
    ∃ locations, opened.Opens (queryPaths args.directory args.start.toNat args.numFiles.toNat)
      locations := by
  have hfiles : ∀ i ∈ List.range' args.start.toNat args.numFiles.toNat, ∃ location,
      opened.walk [] (pathNames (queryFile args.directory i)) = .ok location ∧
        opened.Accepts location := by
    intro i hi
    obtain ⟨j, hj, rfl⟩ := List.mem_range'.mp hi
    rw [Nat.one_mul]
    obtain ⟨after, happend⟩ := h.files j hj
    obtain ⟨location, hwalk, haccepts, -⟩ := append_eq_ok_iff.mp happend
    exact ⟨location, hwalk, haccepts⟩
  obtain ⟨locations, hopens, -⟩ := exists_opens_queryPaths hfiles
  exact ⟨locations, hopens⟩

theorem getElem?_queryPaths {i : Nat} (hi : i < args.numFiles.toNat) :
    (queryPaths args.directory args.start.toNat args.numFiles.toNat)[i]? =
      some (args.output i) := by
  rw [queryPaths, List.getElem?_map, List.getElem?_range' hi, Nat.one_mul]
  rfl

/-- Texts added at the places of the first files are gained by these files. -/
theorem gained_addTexts {locations : List Location} (hextends : tree.Extends opened)
    (hopens : opened.Opens (queryPaths args.directory args.start.toNat args.numFiles.toNat)
      locations) (texts : List String) (hlength : texts.length ≤ args.numFiles.toNat) :
    args.Gained tree texts (opened.addTexts (locations.zip texts)) := by
  have hkeeps := hopens.keepsDirectories_addTexts texts
  have hplace : ∀ i < texts.length, ∃ location, locations[i]? = some location ∧
      FileTree.walk (opened.addTexts (locations.zip texts)) [] (args.output i) =
        .ok location := by
    intro i hi
    obtain ⟨location, hlocation, hwalk, -⟩ :=
      hopens.walk_getElem? (getElem?_queryPaths (Nat.lt_of_lt_of_le hi hlength))
    exact ⟨location, hlocation, walk_mono hkeeps hwalk⟩
  refine ⟨?_, ?_, fun key hkey => hkeeps key (hextends.keepsDirectories key hkey)⟩
  · intro i text htext
    obtain ⟨location, hlocation, hwalk⟩ := hplace i (List.getElem?_eq_some_iff.mp htext).1
    refine ⟨location, hwalk, ?_⟩
    rw [hopens.entry?_addTexts hlocation htext, hextends.textAt_eq]
  · intro key hkey
    rw [hopens.entry?_addTexts_of_ne]
    · exact hextends key
    · intro i hi hlocation
      obtain ⟨location, hplace, hwalk⟩ := hplace i hi
      cases hlocation.symm.trans hplace
      exact hkey i hi hwalk

/-! ## What a run comes to -/

theorem Refuses.run_run {cause : RunError} (h : args.Refuses tree words cause) :
    tree.run (args.run words) = (.failed "" cause, tree) := run_bind h.run_prepare

theorem Prepares.run_run (h : args.Prepares tree words setup source)
    (hdirectory : tree.run (createDirectories args.directory) = (.ok (), opened))
    {shown : String} {result : Except RunError Nat}
    (hfiles : opened.run (setup.writeFiles args.directory source args.start.toNat
      args.numFiles.toNat) = ((shown, result), after)) :
    tree.run (args.run words) = (args.report shown result, after) := by
  refine (run_bind h.run_prepare).trans ((run_bind hdirectory).trans ((run_bind hfiles).trans ?_))
  cases result <;> rfl

/-- The files that are filled gain their texts, and the run goes on behind them with
the files that are left. -/
theorem Prepares.exists_run_writeFiles {s : Metered Keystream} {files : List (List Query)}
    {n : Nat} (hwritable : args.Writable tree opened) (hfiles : setup.Fills source files s)
    (hn : args.numFiles.toNat = files.length + n) :
    ∃ front back, front.length = files.length ∧
      opened.Opens (queryPaths args.directory args.start.toNat args.numFiles.toNat)
        (front ++ back) ∧
      let middle := opened.addTexts (front.zip (files.map fileText))
      let rest := middle.run (setup.writeFiles args.directory s
        (args.start.toNat + files.length) n)
      middle.Opens (queryPaths args.directory (args.start.toNat + files.length) n) back ∧
      opened.run (setup.writeFiles args.directory source args.start.toNat args.numFiles.toNat) =
        (withShown (args.wrote setup files.length)
          (files.length * setup.config.numQueries.toNat) rest.1, rest.2) := by
  obtain ⟨locations, hopens⟩ := hwritable.exists_opens
  rw [hn] at hopens
  obtain ⟨front, back, rfl, hfront, hback, hrun⟩ := hfiles.run_writeFiles hopens
  rw [hn]
  exact ⟨front, back, hfront, hopens, hback, hrun⟩

theorem zip_append_of_length_eq {α β : Type} {front back : List α} {items : List β}
    (h : front.length = items.length) : (front ++ back).zip items = front.zip items := by
  have happend : (front ++ back).zip (items ++ []) = front.zip items ++ back.zip [] :=
    List.zip_append h
  rwa [List.append_nil, List.zip_nil_right, List.append_nil] at happend

/-- A run that is not refused adds its texts at the places of its files. -/
theorem Ends.exists_run_eq (hwritable : args.Writable tree opened) {report : Report}
    {texts : List String} (h : args.Ends tree words report (some texts)) :
    ∃ locations,
      opened.Opens (queryPaths args.directory args.start.toNat args.numFiles.toNat) locations ∧
      texts.length ≤ args.numFiles.toNat ∧
      tree.run (args.run words) = (report, opened.addTexts (locations.zip texts)) := by
  cases h with
  | @stuck setup source s t u files queries k cause hsetup hfiles hfew hqueries hnumbers hk hcause =>
      have hlength := Setup.length_eq_of_map_index hnumbers
      subst hlength
      obtain ⟨n, hn⟩ := Nat.exists_eq_add_of_lt hfew
      rw [Nat.add_assoc] at hn
      obtain ⟨front, back, hfront, hopens, hback, hrun⟩ :=
        Prepares.exists_run_writeFiles hwritable hfiles hn
      rw [queryPaths, List.range'_succ] at hback
      cases hback with
      | @cons _ _ location back hwalk haccepts hnew hback =>
          rw [Setup.run_writeFiles_of_undrawable (hqueries.run_write_of_error hk hcause) rfl hwalk
            haccepts, withShown_error] at hrun
          refine ⟨_, hopens, by simp; omega, (hsetup.run_run hwritable.directory hrun).trans ?_⟩
          -- the queries before the one in question are one more text that is added
          rw [List.zip_append (by rw [hfront, List.length_map]), List.zip_cons_cons,
            List.zip_nil_right, addTexts_append]
          rfl
  | @done setup source s files hsetup hfiles hall =>
      obtain ⟨front, back, hfront, hopens, hback, hrun⟩ :=
        Prepares.exists_run_writeFiles hwritable hfiles (n := 0) hall.symm
      have hrest : ∀ middle : FileTree, middle.run (setup.writeFiles args.directory s
          (args.start.toNat + files.length) 0) = (("", .ok 0), middle) := fun _ => rfl
      rw [hrest, withShown_zero] at hrun
      refine ⟨_, hopens, by simp; omega, ?_⟩
      rw [zip_append_of_length_eq (by rw [hfront, List.length_map])]
      exact hsetup.run_run hwritable.directory hrun
  | @exhausted setup source s t files queries hsetup hfiles hfew hqueries hlength hwords =>
      obtain ⟨n, hn⟩ := Nat.exists_eq_add_of_lt hfew
      rw [Nat.add_assoc] at hn
      obtain ⟨front, back, hfront, hopens, hback, hrun⟩ :=
        Prepares.exists_run_writeFiles hwritable hfiles hn
      rw [Setup.run_writeFiles_of_none (hqueries.run_write_of_none hlength hwords),
        withShown_error] at hrun
      refine ⟨_, hopens, by simp; omega, ?_⟩
      rw [zip_append_of_length_eq (by rw [hfront, List.length_map])]
      exact hsetup.run_run hwritable.directory hrun

theorem Ends.run_run (hwritable : args.Writable tree opened) {report : Report}
    {texts : List String} (h : args.Ends tree words report (some texts)) :
    ∃ after, tree.run (args.run words) = (report, after) ∧ args.Gained tree texts after := by
  obtain ⟨locations, hopens, hlength, hrun⟩ := h.exists_run_eq hwritable
  have hextends := extends_of_createDirectories hwritable.directory
  exact ⟨_, hrun, gained_addTexts hextends hopens texts hlength⟩

/-- A run that is refused leaves every file as it is.  Where directories can be made and
files can be opened, any other run leaves behind what could be drawn: every filled file
has gained all of its queries, and the file of a query that cannot be drawn those
before. -/
theorem run_atomic (args : GenerateArgs) (tree : FileTree) (words : Nat) :
    (∃ report texts, args.Ends tree words report texts) ∧
      (∀ report, args.Ends tree words report none →
        tree.run (args.run words) = (report, tree)) ∧
      ∀ opened, args.Writable tree opened →
        ∀ report texts, args.Ends tree words report (some texts) →
          ∃ after, tree.run (args.run words) = (report, after) ∧ args.Gained tree texts after := by
  refine ⟨args.exists_ends tree words, ?_, fun opened hwritable report texts hends =>
    hends.run_run hwritable⟩
  rintro report ⟨hcause⟩
  exact hcause.run_run

/-- Three files of two queries each, from a pool without names. -/
def unluckyArgs : GenerateArgs where
  flags :=
    { numQueries := some 2
      lenQueries := some 0
      poolSize := some 0
      weights := { PerGroup.none with result := some [1, 1] } }
  numFiles := 3
  directory := "out"
  seed := 13

/-- A directory with a file of an earlier run. -/
def unluckyTree : FileTree :=
  ⟨[(["out"], .directory), (["out", "queries_1.txt"], .file "before\n")]⟩

/-- The report of the run, with the query that cannot be drawn. -/
def unluckyReport : Report :=
  .failed "wrote out/queries_1.txt (2 queries)\n"
    (.undrawable "out/queries_2.txt" 2 (.zeroWeights "elem"))

/-- The files behind the run. -/
def unluckyAfter : FileTree :=
  ⟨[(["out"], .directory),
    (["out", "queries_1.txt"], .file
      "before\n1 - NIL\n\nSelect BOOLEAN\n\n5000\n2 - NIL\n\nSelect BOOLEAN\n\n5000\n"),
    (["out", "queries_2.txt"], .file "1 - NIL\n\nSelect BOOLEAN\n\n5000\n")]⟩

theorem unlucky_writable : unluckyArgs.Writable unluckyTree unluckyTree where
  directory := by decide +kernel
  files
    | 0, _ => ⟨_, rfl⟩
    | 1, _ => ⟨_, rfl⟩
    | 2, _ => ⟨_, rfl⟩
    | _ + 3, h => absurd h (Nat.not_lt.mpr (Nat.le_add_left 3 _))

theorem run_unlucky : unluckyTree.run (unluckyArgs.run 1000) = (unluckyReport, unluckyAfter) := by
  decide +kernel

/-- A run that asks for a preset that is not there. -/
def misnamedArgs : GenerateArgs := { unluckyArgs with flags := { preset := some [4, 0] } }

/-- A file where the directory would be made. -/
def blockedTree : FileTree := ⟨[(["out"], .file "notes\n")]⟩

/-- The report of the run, which ends before it comes to the directory. -/
def misnamedReport : Report := .failed "" (.resolve (.setting (.selectPreset 4)))

/-- A run that gets stuck in the middle of its second file, and one that is refused. -/
theorem run_unlucky_atomic :
    ((∃ texts, unluckyArgs.Ends unluckyTree 1000 unluckyReport (some texts) ∧
        unluckyArgs.Gained unluckyTree texts unluckyAfter) ∧
      unluckyTree.run (unluckyArgs.run 1000) = (unluckyReport, unluckyAfter)) ∧
    misnamedArgs.Ends blockedTree 1000 misnamedReport none ∧
      blockedTree.run (misnamedArgs.run 1000) = (misnamedReport, blockedTree) := by
  constructor
  · obtain ⟨⟨report, texts, hends⟩, hrefused, hdrawn⟩ := run_atomic unluckyArgs unluckyTree 1000
    cases texts with
    | none =>
        have htree : unluckyAfter = unluckyTree :=
          congrArg Prod.snd (run_unlucky.symm.trans (hrefused report hends))
        exact absurd htree (by decide)
    | some texts =>
        obtain ⟨after, hrun, hgained⟩ := hdrawn unluckyTree unlucky_writable report texts hends
        cases run_unlucky.symm.trans hrun
        exact ⟨⟨texts, hends, hgained⟩, run_unlucky⟩
  · have hends : misnamedArgs.Ends blockedTree 1000 misnamedReport none :=
      .refused (.config (.misnamed (.standard rfl) (.select rfl (by decide))))
    exact ⟨hends, (run_atomic misnamedArgs blockedTree 1000).2.1 misnamedReport hends⟩

end GenerateArgs

end QuerySynth
