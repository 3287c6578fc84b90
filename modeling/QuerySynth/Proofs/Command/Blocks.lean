import Mathlib.Data.List.Forall2
import QuerySynth.Proofs.Command.Opening

/-!
# The blocks of a run

The text that a run adds to a file is its block.  All blocks are drawn from the
configuration, the literals and the seed, so runs that agree in these add the same
blocks, however their files are called and whatever is in them.

* Runs with another number of files have a front of the blocks in common.
* A run that is done adds the same blocks when it is run once more.
* A file with fewer queries has a front of the block.
-/

namespace QuerySynth

open FileTree

variable {tree other opened : FileTree}

/-! ## Inputs -/

namespace FileTree

/-- What can be read at the paths in the one tree can be read there in the other. -/
def KeepsTexts (tree other : FileTree) (paths : List String) : Prop :=
  ∀ path ∈ paths, ∀ text,
    tree.read (pathNames path) = .ok text → other.read (pathNames path) = .ok text

/-- The same texts can be read at the paths in both trees. -/
def SameTexts (tree other : FileTree) (paths : List String) : Prop :=
  tree.KeepsTexts other paths ∧ other.KeepsTexts tree paths

theorem SameTexts.of_read_eq {paths : List String}
    (h : ∀ path ∈ paths, tree.read (pathNames path) = other.read (pathNames path)) :
    tree.SameTexts other paths :=
  ⟨fun path hpath _ hread => (h path hpath).symm.trans hread,
    fun path hpath _ hread => (h path hpath).trans hread⟩

theorem KeepsTexts.mono {paths some : List String} (h : tree.KeepsTexts other paths)
    (hsome : some ⊆ paths) : tree.KeepsTexts other some :=
  fun path hpath => h path (hsome hpath)

end FileTree

theorem Flags.Resolves.mono {flags : Flags} {config : Config}
    (hkeeps : tree.KeepsTexts other flags.file.toList) (h : flags.Resolves tree (.ok config)) :
    flags.Resolves other (.ok config) := by
  cases h with
  | resolved hbase hpreset hconfig hcheck =>
      refine .resolved ?_ hpreset hconfig hcheck
      cases hbase with
      | standard hfile => exact .standard hfile
      | file hfile hread hbase =>
          exact .file hfile (hkeeps _ (by rw [hfile]; exact List.mem_singleton_self _) _ hread) hbase

theorem ReadsLiterals.mono {what delimiter : String} {path : Option String} {names : List String}
    (hkeeps : tree.KeepsTexts other path.toList)
    (h : ReadsLiterals tree what delimiter path (.ok names)) :
    ReadsLiterals other what delimiter path (.ok names) := by
  cases h with
  | nothing => exact .nothing
  | file hread => exact .file (hkeeps _ (List.mem_singleton_self _) _ hread)

namespace GenerateArgs

/-- The paths of the files of literals. -/
def literalFiles (args : GenerateArgs) : List String :=
  args.procedureFile.toList ++ (args.variableFile.toList ++ args.constantFile.toList)

/-- The paths of the files that a run reads. -/
def inputs (args : GenerateArgs) : List String := args.flags.file.toList ++ args.literalFiles

variable {args : GenerateArgs} {words : Nat} {setup : Setup} {source : Metered Keystream}
  {blocks : List String}

theorem Supplies.mono {literals : Literals} (hkeeps : tree.KeepsTexts other args.literalFiles)
    (h : args.Supplies tree literals) : args.Supplies other literals where
  procedureNames := h.procedureNames.mono (hkeeps.mono (List.subset_append_left _ _))
  variableNames := h.variableNames.mono (hkeeps.mono fun _ hpath =>
    List.mem_append_right _ (List.mem_append_left _ hpath))
  constants := h.constants.mono (hkeeps.mono fun _ hpath =>
    List.mem_append_right _ (List.mem_append_right _ hpath))

theorem Prepares.mono (hkeeps : tree.KeepsTexts other args.inputs)
    (h : args.Prepares tree words setup source) : args.Prepares other words setup source where
  config := h.config.mono (hkeeps.mono (List.subset_append_left _ _))
  literals := h.literals.mono (hkeeps.mono (List.subset_append_right _ _))
  pool := h.pool
  index := h.index

theorem Prepares.unique {setup' : Setup} {source' : Metered Keystream}
    (h : args.Prepares tree words setup source) (h' : args.Prepares tree words setup' source') :
    setup = setup' ∧ source = source' := by
  cases h.run_prepare.symm.trans h'.run_prepare
  exact ⟨rfl, rfl⟩

theorem Prepares.not_refuses {cause : RunError} (h : args.Prepares tree words setup source) :
    ¬ args.Refuses tree words cause := by
  intro h'
  cases h.run_prepare.symm.trans h'.run_prepare

end GenerateArgs

/-! ## Blocks -/

namespace Setup

variable {σ : Type} [WordSource σ] {setup : Setup} {s t u : σ}

/-- The blocks of at most `n` files, up to the first file that is not filled.  Where the
words run out, the file in question has none. -/
def blocks (setup : Setup) (s : σ) : Nat → List String
  | 0 => []
  | n + 1 =>
      match (setup.write none).run s with
      | none => []
      | some (batch, t) =>
          batch.text :: (match batch.stop with
            | none => setup.blocks t n
            | some _ => [])

/-- Fewer files have a front of the blocks. -/
theorem take_blocks (setup : Setup) (s : σ) (n m : Nat) :
    (setup.blocks s n).take m = setup.blocks s (min n m) := by
  induction n generalizing s m with
  | zero => rw [Nat.zero_min, blocks, List.take_nil]
  | succ n ih =>
      cases m with
      | zero => rw [Nat.min_zero, List.take_zero, blocks]
      | succ m =>
          rw [Nat.succ_min_succ, blocks, blocks]
          cases (setup.write none).run s with
          | none => exact List.take_nil
          | some outcome =>
              obtain ⟨batch, t⟩ := outcome
              rw [List.take_succ_cons]
              cases hstop : batch.stop with
              | none => simp only [hstop, ih]
              | some stop => simp only [hstop, List.take_nil]

theorem Fills.blocks_add {files : List (List Query)} (h : setup.Fills s files t) (n : Nat) :
    setup.blocks s (files.length + n) = files.map fileText ++ setup.blocks t n := by
  induction h with
  | nil s => rw [List.length_nil, Nat.zero_add, List.map_nil, List.nil_append]
  | @cons s t u queries files hqueries hnumbers _ ih =>
      have hcount : (queries :: files).length + n = files.length + n + 1 := by
        rw [List.length_cons]
        omega
      rw [hcount, blocks, hqueries.run_write (length_eq_of_map_index hnumbers)]
      simp only [ih]
      rfl

end Setup

namespace GenerateArgs

variable {args : GenerateArgs} {words : Nat} {setup : Setup} {source : Metered Keystream}
  {blocks : List String} {report : Report}

/-- The blocks of a run: none if it is refused. -/
inductive Adds (args : GenerateArgs) (tree : FileTree) (words : Nat) : List String → Prop
  | refused {cause : RunError} (hcause : args.Refuses tree words cause) : Adds args tree words []
  | prepared {setup : Setup} {source : Metered Keystream}
      (hsetup : args.Prepares tree words setup source) :
      Adds args tree words (setup.blocks source args.numFiles.toNat)

theorem exists_adds (args : GenerateArgs) (tree : FileTree) (words : Nat) :
    ∃ blocks, args.Adds tree words blocks := by
  rcases args.exists_prepares_or_refuses tree words with ⟨setup, source, hsetup⟩ | ⟨cause, hcause⟩
  · exact ⟨_, .prepared hsetup⟩
  · exact ⟨_, .refused hcause⟩

theorem Adds.unique {blocks' : List String} (h : args.Adds tree words blocks)
    (h' : args.Adds tree words blocks') : blocks = blocks' := by
  cases h with
  | refused hcause =>
      cases h' with
      | refused _ => rfl
      | prepared hsetup => exact absurd hcause hsetup.not_refuses
  | prepared hsetup =>
      cases h' with
      | refused hcause => exact absurd hcause hsetup.not_refuses
      | prepared hsetup' =>
          obtain ⟨rfl, rfl⟩ := hsetup.unique hsetup'
          rfl

/-- The texts that the files of a run gain are its blocks. -/
theorem Ends.adds {texts : List String} (h : args.Ends tree words report (some texts)) :
    args.Adds tree words texts := by
  cases h with
  | @stuck setup source s t u files queries k cause hsetup hfiles hfew hqueries hnumbers hk hcause =>
      have hlength := Setup.length_eq_of_map_index hnumbers
      subst hlength
      obtain ⟨n, hn⟩ := Nat.exists_eq_add_of_lt hfew
      have hblocks : setup.blocks s (n + 1) = [fileText queries] := by
        rw [Setup.blocks, hqueries.run_write_of_error hk hcause]
        rfl
      rw [← hblocks, ← hfiles.blocks_add, ← Nat.add_assoc, ← hn]
      exact .prepared hsetup
  | @done setup source s files hsetup hfiles hall =>
      have hblocks := hfiles.blocks_add 0
      rw [Nat.add_zero, Setup.blocks, List.append_nil, hall] at hblocks
      rw [← hblocks]
      exact .prepared hsetup
  | @exhausted setup source s t files queries hsetup hfiles hfew hqueries hlength hwords =>
      obtain ⟨n, hn⟩ := Nat.exists_eq_add_of_lt hfew
      have hblocks := hfiles.blocks_add (n + 1)
      rw [Setup.blocks, hqueries.run_write_of_none hlength hwords, ← Nat.add_assoc, ← hn,
        List.append_nil] at hblocks
      rw [← hblocks]
      exact .prepared hsetup

/-- The text that a file has gained can be told from what is in the file. -/
theorem Gained.text_eq {texts : List String} {i : Nat} {text block : String}
    {location : Location} (h : args.Gained tree texts after) (htext : texts[i]? = some text)
    (hwalk : after.walk [] (args.output i) = .ok location)
    (hentry : FileTree.entry? after location = some (.file (tree.textAt location ++ block))) :
    text = block := by
  obtain ⟨place, hplace, hfile⟩ := h.gained i text htext
  cases hwalk.symm.trans hplace
  rw [hentry, Option.some_inj, Entry.file.injEq, String.append_right_inj] at hfile
  exact hfile.symm

theorem gained_nil (h : tree.Extends after) : args.Gained tree [] after :=
  ⟨nofun, fun location _ => h location, h.keepsDirectories⟩

theorem Adds.gained_of_writable (hwritable : args.Writable tree opened)
    (h : args.Adds tree words blocks) :
    args.Gained tree blocks (tree.run (args.run words)).2 := by
  obtain ⟨report, texts, hends⟩ := args.exists_ends tree words
  cases texts with
  | none =>
      cases hends with
      | refused hcause =>
          rw [hcause.run_run, h.unique (.refused hcause)]
          exact gained_nil (.refl tree)
  | some texts =>
      obtain ⟨after, hrun, hgained⟩ := hends.run_run hwritable
      rw [hrun, h.unique hends.adds]
      exact hgained

/-- The files of a run that can be opened gain its blocks. -/
theorem Adds.gained (h : args.Adds tree words blocks) :
    args.Gained tree (blocks.take (args.openable tree)) (tree.run (args.run words)).2 := by
  cases h with
  | refused hcause =>
      rw [hcause.run_run, List.take_nil]
      exact gained_nil (.refl tree)
  | @prepared setup source hsetup =>
      cases houtcome : (tree.run (createDirectories args.directory)).1 with
      | error cause =>
          have hdirectory : tree.run (createDirectories args.directory) =
              (.error cause, args.ready tree) := Prod.ext houtcome rfl
          rw [hsetup.run_run_of_error hdirectory, openable, houtcome, List.take_zero]
          exact gained_nil (extends_of_createDirectories hdirectory)
      | ok done =>
          have hdirectory : tree.run (createDirectories args.directory) =
              (.ok (), args.ready tree) := Prod.ext houtcome rfl
          have hfront := Adds.gained_of_writable (front_writable hdirectory) (.prepared hsetup.front)
          rw [(hsetup.run_front hdirectory).1, Setup.take_blocks,
            Nat.min_eq_right (args.openable_le tree), ← toNat_front_numFiles]
          exact ⟨hfront.gained, hfront.kept, hfront.directories⟩

/-! ## Other numbers of files -/

/-- Runs that read the same texts have a front of their blocks in common. -/
theorem Adds.take_eq {start numFiles : UInt64} {directory : String} {blocks' : List String}
    (h : args.Adds tree words blocks)
    (h' : ({ args with start, numFiles, directory } : GenerateArgs).Adds other words blocks')
    (hsame : tree.SameTexts other args.inputs)
    (hindex : args.start.toNat + args.numFiles.toNat < UInt64.size)
    (hindex' : start.toNat + numFiles.toNat < UInt64.size) :
    blocks.take numFiles.toNat = blocks'.take args.numFiles.toNat := by
  -- what one of the runs is prepared from, the other is prepared from as well
  have hprepares : ∀ setup source, args.Prepares tree words setup source ↔
      ({ args with start, numFiles, directory } : GenerateArgs).Prepares other words setup source :=
    fun setup source =>
      ⟨fun hsetup => (hsetup.mono hsame.1).renumber hindex',
        fun hsetup => (hsetup.renumber hindex : args.Prepares other words setup source).mono hsame.2⟩
  cases h with
  | refused hcause =>
      cases h' with
      | refused _ => rw [List.take_nil, List.take_nil]
      | prepared hsetup' => exact absurd hcause ((hprepares _ _).mpr hsetup').not_refuses
  | prepared hsetup =>
      cases h' with
      | refused hcause' => exact absurd hcause' ((hprepares _ _).mp hsetup).not_refuses
      | prepared hsetup' =>
          obtain ⟨rfl, rfl⟩ := hsetup.unique ((hprepares _ _).mpr hsetup')
          rw [Setup.take_blocks, Setup.take_blocks, Nat.min_comm]

/-! ## Running once more -/

/-- No file that the run reads is a file that it writes. -/
def Apart (args : GenerateArgs) (tree : FileTree) : Prop :=
  ∀ path ∈ args.inputs, ∀ location, tree.walk [] (pathNames path) = .ok location →
    ∀ i < args.numFiles.toNat, (args.ready tree).walk [] (args.output i) ≠ .ok location

theorem Gained.keepsTexts {texts : List String} {after : FileTree}
    (h : args.Gained tree texts after) (hwritable : args.Writable tree (args.ready tree))
    (hapart : args.Apart tree) (hlength : texts.length ≤ args.numFiles.toNat)
    (hkeeps : (args.ready tree).KeepsDirectories after) : tree.KeepsTexts after args.inputs := by
  intro path hpath text hread
  obtain ⟨location, hwalk, hentry⟩ := read_eq_ok_iff.mp hread
  refine read_eq_ok_iff.mpr ⟨location, walk_mono h.directories hwalk, ?_⟩
  -- the place of the file is not the place of an output
  have hother : ∀ i < texts.length, after.walk [] (args.output i) ≠ .ok location := by
    intro i hi hout
    have hi := Nat.lt_of_lt_of_le hi hlength
    obtain ⟨_, happend⟩ := hwritable.files i hi
    obtain ⟨place, hplace, -, -⟩ := append_eq_ok_iff.mp happend
    cases (walk_mono hkeeps hplace).symm.trans hout
    exact hapart path hpath location hwalk i hi hplace
  rcases h.kept location hother with hsame | ⟨hnone, -⟩
  · exact hsame.trans hentry
  · rw [hnone] at hentry
    cases hentry

theorem Gained.again {texts : List String} {middle after : FileTree}
    (h : args.Gained tree texts middle) (h' : args.Gained middle texts after) :
    args.Gained tree (texts.map fun text => text ++ text) after where
  gained := by
    intro i twice htwice
    rw [List.getElem?_map, Option.map_eq_some_iff] at htwice
    obtain ⟨text, htext, rfl⟩ := htwice
    obtain ⟨location, hwalk, hentry⟩ := h.gained i text htext
    obtain ⟨location', hwalk', hentry'⟩ := h'.gained i text htext
    cases (walk_mono h'.directories hwalk).symm.trans hwalk'
    refine ⟨location, hwalk', ?_⟩
    rw [hentry', textAt_of_file hentry, String.append_assoc]
  kept := by
    intro location hother
    rw [List.length_map] at hother
    have hbefore : ∀ i < texts.length, middle.walk [] (args.output i) ≠ .ok location :=
      fun i hi hwalk => hother i hi (walk_mono h'.directories hwalk)
    rcases h'.kept location hother with hsame' | ⟨hnone', hmade'⟩
    · rcases h.kept location hbefore with hsame | ⟨hnone, hmade⟩
      · exact .inl (hsame'.trans hsame)
      · exact .inr ⟨hnone, hsame'.trans hmade⟩
    · rcases h.kept location hbefore with hsame | ⟨-, hmade⟩
      · exact .inr ⟨hsame.symm.trans hnone', hmade'⟩
      · rw [hnone'] at hmade
        cases hmade
  directories := fun location hentry => h'.directories location (h.directories location hentry)

/-- A run that is done, when it is run once more, is done once more and adds the same
blocks. -/
theorem Adds.run_again (h : args.Adds tree words blocks)
    (hcode : (tree.run (args.run words)).1.code = 0) (hapart : args.Apart tree) :
    blocks.length = args.numFiles.toNat ∧ args.openable tree = args.numFiles.toNat ∧
      ∃ after, (tree.run (args.run words)).2.run (args.run words) =
          ((tree.run (args.run words)).1, after) ∧
        args.Gained tree (blocks.map fun block => block ++ block) after := by
  obtain ⟨hall, hwritable⟩ := writable_of_code hcode
  obtain ⟨report, texts, hends⟩ := args.exists_ends tree words
  cases texts with
  | none =>
      cases hends with
      | refused hcause =>
          rw [hcause.run_run] at hcode
          cases hcode
  | some texts =>
      obtain ⟨locations, hopens, hlength, hrun⟩ := hends.exists_run_eq hwritable
      have hextends := extends_of_createDirectories hwritable.directory
      have hgained := gained_addTexts hextends hopens texts hlength
      have hkeeps := hopens.keepsDirectories_addTexts texts
      have htexts := hgained.keepsTexts hwritable hapart hlength hkeeps
      cases h.unique hends.adds
      rw [hrun] at hcode ⊢
      cases hends with
      | stuck | exhausted => cases hcode
      | @done setup source s files hsetup hfiles hfull =>
          have hlength : (files.map fileText).length = args.numFiles.toNat := by
            rw [List.length_map, hfull]
          have hagain : args.Writable ((args.ready tree).addTexts (locations.zip (files.map fileText)))
              ((args.ready tree).addTexts (locations.zip (files.map fileText))) := by
            refine ⟨run_createDirectories_again hwritable.directory hkeeps, fun i hi => ?_⟩
            obtain ⟨location, hwalk, hentry⟩ :=
              hgained.gained i _ (List.getElem?_eq_getElem (hlength.symm ▸ hi))
            exact ⟨_, append_eq_ok_iff.mpr ⟨location, hwalk, .inl ⟨_, hentry⟩, rfl⟩⟩
          obtain ⟨after, hrun', hgained'⟩ :=
            (Ends.done (hsetup.mono htexts) hfiles hfull).run_run hagain
          exact ⟨hlength, hall, after, hrun', hgained.again hgained'⟩

end GenerateArgs

/-! ## Fewer queries -/

namespace Setup

variable {σ : Type} [WordSource σ] {setup : Setup} {s t : σ} {index : Nat}

/-- The setup with another number of queries in a file. -/
def withQueries (setup : Setup) (n : UInt64) : Setup :=
  { setup with config := { setup.config with numQueries := n } }

theorem writeFrom_withQueries (setup : Setup) (n : UInt64) (index k : Nat) :
    ((setup.withQueries n).writeFrom none index k : Draw σ Batch) =
      setup.writeFrom none index k := by
  induction k generalizing index with
  | zero => rfl
  | succ k ih =>
      have hquery : ((setup.withQueries n).drawQuery index : Choose σ Query) =
        setup.drawQuery index := rfl
      simp only [writeFrom, hquery, Option.map_none, ih]

/-- Fewer queries are a front of the queries. -/
theorem exists_writeFrom_prefix {k n : Nat} {batch : Batch} (hk : k ≤ n)
    (h : (setup.writeFrom none index n).run s = some (batch, t)) :
    ∃ fewer u, (setup.writeFrom none index k).run s = some (fewer, u) ∧
      fewer.texts <+: batch.texts := by
  obtain ⟨queries, u, hqueries, hend⟩ := exists_draws setup index k s
  have hle : queries.length ≤ k := by omega
  obtain ⟨m, rfl⟩ := Nat.exists_eq_add_of_le (Nat.le_trans hle hk)
  rw [hqueries.run_writeFrom, Option.map_eq_some_iff] at h
  obtain ⟨⟨rest, v⟩, hrest, heq⟩ := h
  cases heq
  rcases hend with hlength | ⟨hlt, hstuck⟩
  · have hrun := hqueries.run_writeFrom 0
    rw [Nat.add_zero, hlength] at hrun
    refine ⟨⟨queries.map Query.render, none⟩, u, hrun.trans ?_, List.prefix_append _ _⟩
    simp [writeFrom]
  · -- both stop at the query that cannot be drawn
    obtain ⟨l, hl⟩ := Nat.exists_eq_add_of_lt hlt
    obtain ⟨l', rfl⟩ : ∃ l', m = l' + 1 := ⟨m - 1, by omega⟩
    cases hnext : (setup.drawQuery (index + queries.length)).run u with
    | none =>
        rw [run_writeFrom_of_none hnext] at hrest
        cases hrest
    | some outcome =>
        obtain ⟨outcome, w⟩ := outcome
        cases outcome with
        | ok query => exact absurd hnext (hstuck query w)
        | error cause =>
            have hrun := hqueries.run_writeFrom (l + 1)
            rw [run_writeFrom_of_error hnext, ← Nat.add_assoc, ← hl] at hrun
            refine ⟨_, w, hrun, ?_⟩
            rw [List.append_nil]
            exact List.prefix_append _ _

theorem text_mono {fewer batch : Batch} (h : fewer.texts <+: batch.texts) :
    fewer.text.toList <+: batch.text.toList := by
  obtain ⟨rest, hrest⟩ := h
  rw [Batch.text, Batch.text, ← hrest, String.join_append, String.toList_append]
  exact List.prefix_append _ _

theorem forall₂_blocks_withQueries {n : UInt64} (hn : n ≤ setup.config.numQueries)
    (h : (setup.write none).run s ≠ none) :
    List.Forall₂ (fun front block => front.toList <+: block.toList)
      ((setup.withQueries n).blocks s 1) (setup.blocks s 1) := by
  obtain ⟨⟨batch, t⟩, hbatch⟩ := Option.ne_none_iff_exists'.mp h
  have hrun := hbatch
  rw [write] at hrun
  obtain ⟨fewer, u, hfewer, hprefix⟩ :=
    exists_writeFrom_prefix (UInt64.le_iff_toNat_le.mp hn) hrun
  have hwrite : ((setup.withQueries n).write none).run s = some (fewer, u) := by
    rw [write, writeFrom_withQueries]
    exact hfewer
  have hone : ∀ (setup : Setup) (batch : Batch) (t : σ), (setup.write none).run s = some (batch, t) →
      setup.blocks s 1 = [batch.text] := by
    intro setup batch t hbatch
    rw [blocks, hbatch]
    cases hstop : batch.stop <;> simp [hstop, blocks]
  rw [hone _ _ _ hbatch, hone _ _ _ hwrite]
  exact .cons (text_mono hprefix) .nil

end Setup

namespace GenerateArgs

variable {args : GenerateArgs} {words : Nat} {setup : Setup} {source : Metered Keystream}
  {blocks : List String}

theorem resolves_unique {flags : Flags} {config config' : Config}
    (h : flags.Resolves tree (.ok config)) (h' : flags.Resolves tree (.ok config')) :
    config = config' := by
  cases h.run_resolve.symm.trans h'.run_resolve
  rfl

/-- A run whose first file runs out of words says so. -/
theorem Prepares.run_run_of_none (hopen : 0 < args.openable tree)
    (hsetup : args.Prepares tree words setup source) (hone : args.numFiles = 1)
    (h : (setup.write none).run source = none) :
    (tree.run (args.run words)).1 = .failed "" .exhausted := by
  have hfiles : (args.ready tree).run (setup.writeFiles args.directory source args.start.toNat
      args.numFiles.toNat) = (("", .error .exhausted), args.ready tree) := by
    rw [hone]
    exact Setup.run_writeFiles_of_none h
  rw [hsetup.run_run (run_createDirectories_of_openable hopen) hfiles]
  rfl

/-- A single file with fewer queries has a front of the block. -/
theorem Adds.forall₂_front {flags : Flags} {start n : UInt64} {directory : String}
    {config : Config} {fronts : List String} (hopen : 0 < args.openable tree)
    (hone : args.numFiles = 1) (h : args.Adds tree words blocks)
    (h' : ({ args with flags, start, directory } : GenerateArgs).Adds other words fronts)
    (hconfig : args.flags.Resolves tree (.ok config))
    (hconfig' : flags.Resolves other (.ok { config with numQueries := n }))
    (hn : n ≤ config.numQueries) (hsame : tree.SameTexts other args.literalFiles)
    (hindex : args.start.toNat + args.numFiles.toNat < UInt64.size)
    (hindex' : start.toNat + args.numFiles.toNat < UInt64.size)
    (hwords : (tree.run (args.run words)).1 ≠ .failed "" .exhausted) :
    List.Forall₂ (fun front block => front.toList <+: block.toList) fronts blocks := by
  cases h with
  | refused hcause =>
      cases h' with
      | refused _ => exact .nil
      | @prepared setup source hsetup =>
          -- the pool does not depend on the number of queries
          have hpool := hsetup.pool
          rw [← resolves_unique hconfig' hsetup.config] at hpool
          have hliterals : args.Supplies other setup.literals :=
            ⟨hsetup.literals.1, hsetup.literals.2, hsetup.literals.3⟩
          have hargs : args.Prepares tree words ⟨config, setup.pool, setup.literals⟩ source :=
            ⟨hconfig, hliterals.mono hsame.2, hpool, hindex⟩
          exact absurd hcause hargs.not_refuses
  | @prepared setup source hsetup =>
      cases resolves_unique hconfig hsetup.config
      have hfewer : ({ args with flags, start, directory } : GenerateArgs).Prepares other words
          (setup.withQueries n) source := by
        have hliterals := hsetup.literals.mono hsame.1
        exact ⟨hconfig', ⟨hliterals.1, hliterals.2, hliterals.3⟩, hsetup.pool, hindex'⟩
      rw [h'.unique (.prepared hfewer)]
      have hcount : args.numFiles.toNat = 1 := by rw [hone]; rfl
      rw [hcount]
      refine Setup.forall₂_blocks_withQueries hn fun hnone => ?_
      exact hwords (hsetup.run_run_of_none hopen hone hnone)

/-- The blocks of a run do not depend on the number of its first file, on the number of
its files or on what was in them, and the files that can be opened gain them: runs
that read the same texts have a front of their blocks in common, a run that is done
adds the same blocks once more, and a single file with fewer queries has a front of the
block. -/
theorem run_blocks (args : GenerateArgs) (tree : FileTree) (words : Nat)
    (hindex : args.start.toNat + args.numFiles.toNat < UInt64.size) :
    ∃ blocks : List String,
      args.Gained tree (blocks.take (args.openable tree)) (tree.run (args.run words)).2 ∧
      (∀ (start numFiles : UInt64) (directory : String) (tree' : FileTree),
        let other : GenerateArgs := { args with start, numFiles, directory }
        start.toNat + numFiles.toNat < UInt64.size → tree.SameTexts tree' args.inputs →
        ∃ blocks' : List String,
          other.Gained tree' (blocks'.take (other.openable tree')) (tree'.run (other.run words)).2 ∧
          blocks.take numFiles.toNat = blocks'.take args.numFiles.toNat) ∧
      ((tree.run (args.run words)).1.code = 0 → args.Apart tree →
        blocks.length = args.numFiles.toNat ∧ args.openable tree = args.numFiles.toNat ∧
          ∃ after, (tree.run (args.run words)).2.run (args.run words) =
              ((tree.run (args.run words)).1, after) ∧
            args.Gained tree (blocks.map fun block => block ++ block) after) ∧
      (args.numFiles = 1 → 0 < args.openable tree →
        (tree.run (args.run words)).1 ≠ .failed "" .exhausted →
        ∀ (flags : Flags) (start n : UInt64) (directory : String) (tree' : FileTree)
          (config : Config),
        let fewer : GenerateArgs := { args with flags, start, directory }
        start.toNat + args.numFiles.toNat < UInt64.size →
        tree.SameTexts tree' args.literalFiles → args.flags.Resolves tree (.ok config) →
        flags.Resolves tree' (.ok { config with numQueries := n }) → n ≤ config.numQueries →
        ∃ fronts : List String,
          fewer.Gained tree' (fronts.take (fewer.openable tree')) (tree'.run (fewer.run words)).2 ∧
          List.Forall₂ (fun front block => front.toList <+: block.toList) fronts blocks) := by
  obtain ⟨blocks, hadds⟩ := args.exists_adds tree words
  refine ⟨blocks, hadds.gained, ?_, hadds.run_again, ?_⟩
  · intro start numFiles directory tree' other hindex' hsame
    obtain ⟨blocks', hadds'⟩ := other.exists_adds tree' words
    exact ⟨blocks', hadds'.gained, hadds.take_eq hadds' hsame hindex hindex'⟩
  · intro hone hopen hwords flags start n directory tree' config fewer hindex' hsame hconfig
      hconfig' hn
    obtain ⟨fronts, hadds'⟩ := fewer.exists_adds tree' words
    exact ⟨fronts, hadds'.gained,
      hadds.forall₂_front hopen hone hadds' hconfig hconfig' hn hsame hindex hindex' hwords⟩

/-- Truth values under equations of literals, from a pool without names.  Other settings
come from a file, and perhaps another number of queries. -/
def luckyFlags (numQueries : Option UInt64) : Flags where
  file := some "base.toml"
  numQueries
  poolSize := some 0
  weights :=
    { PerGroup.none with
      result := some [0, 1], clauseFamily := some [0, 1, 0], withRef := some [1, 0, 0] }

/-- One file of two queries, with literals from a file. -/
def luckyArgs : GenerateArgs where
  flags := luckyFlags none
  directory := "out"
  seed := 4
  procedureFile := some "names.txt"

/-- Two files with other numbers. -/
def jammedArgs : GenerateArgs := { luckyArgs with start := 7, numFiles := 2 }

/-- One file of one query. -/
def fewerArgs : GenerateArgs := { luckyArgs with flags := luckyFlags (some 1) }

/-- The text of the file of settings. -/
def luckyText : String := "num_queries = 2\nlen_queries = 1\n"

/-- The configuration of the file. -/
def luckyBase : Config := { numQueries := 2, lenQueries := 1 }

/-- The files that the runs read. -/
def luckyInputs : List (Location × Entry) :=
  [(["base.toml"], .file luckyText), (["names.txt"], .file "main swap\n")]

/-- A directory with the file of an earlier run. -/
def luckyTree : FileTree :=
  ⟨luckyInputs ++ [(["out"], .directory), (["out", "queries_1.txt"], .file "before\n")]⟩

/-- A directory with a directory in it that is called like a file. -/
def jammedTree : FileTree :=
  ⟨luckyInputs ++ [(["out"], .directory), (["out", "queries_8.txt"], .directory)]⟩

/-- The block of one query. -/
def fewerBlock : String :=
  "1 - NIL\n\nSelect BOOLEAN with \"main\" = \"swap\" and \"swap\" = \"main\"\n\n5000\n"

/-- The block of both queries. -/
def luckyBlock : String := fewerBlock ++ "2 - NIL\n\nSelect BOOLEAN\n\n5000\n"

/-- The report of the run. -/
def luckyReport : Report :=
  { errors := "wrote out/queries_1.txt (2 queries)\n" ++ doneLine 2 luckyArgs }

/-- The files behind the run. -/
def luckyAfter : FileTree :=
  ⟨luckyInputs ++
    [(["out"], .directory), (["out", "queries_1.txt"], .file ("before\n" ++ luckyBlock))]⟩

/-- The files behind the run of one query, beside the directory that is called like a file. -/
def fewerAfter : FileTree := ⟨jammedTree.entries ++ [(["out", "queries_1.txt"], .file fewerBlock)]⟩

theorem ofFile_luckyText : Config.ofFile luckyText = .ok luckyBase := by
  decide +kernel

theorem lucky_resolves {numQueries : Option UInt64}
    (hread : tree.read (pathNames "base.toml") = .ok luckyText)
    (hcheck : ((luckyFlags numQueries).override luckyBase).check = .ok ()) :
    (luckyFlags numQueries).Resolves tree (.ok ((luckyFlags numQueries).override luckyBase)) :=
  .resolved (.file rfl hread ofFile_luckyText) (.nothing rfl)
    (.apply_override {} (luckyFlags numQueries) luckyBase) hcheck

theorem forall_mem_lucky_inputs {p : String → Prop} :
    (∀ path ∈ luckyArgs.inputs, p path) ↔ p "base.toml" ∧ p "names.txt" := by
  have hinputs : luckyArgs.inputs = ["base.toml", "names.txt"] := rfl
  rw [hinputs, List.forall_mem_cons, List.forall_mem_singleton]

theorem lucky_sameTexts : luckyTree.SameTexts jammedTree luckyArgs.inputs :=
  .of_read_eq (forall_mem_lucky_inputs.mpr ⟨rfl, rfl⟩)

theorem lucky_apart : luckyArgs.Apart luckyTree := by
  have hinputs : ∀ path ∈ luckyArgs.inputs,
      luckyTree.walk [] (pathNames path) ≠ .ok ["out", "queries_1.txt"] :=
    forall_mem_lucky_inputs.mpr ⟨by decide, by decide⟩
  intro path hpath location hwalk i hi hout
  obtain rfl : i = 0 := Nat.lt_one_iff.mp hi
  have hplace : (luckyArgs.ready luckyTree).walk [] (luckyArgs.output 0) =
      .ok ["out", "queries_1.txt"] := by decide +kernel
  cases hplace.symm.trans hout
  exact hinputs path hpath hwalk

theorem run_lucky : luckyTree.run (luckyArgs.run 1000) = (luckyReport, luckyAfter) := by
  decide +kernel

theorem run_fewer : (jammedTree.run (fewerArgs.run 1000)).2 = fewerAfter := by
  decide +kernel

/-- The run beside one whose second file cannot be opened, once more, and beside one of
fewer queries. -/
theorem run_lucky_blocks :
    luckyTree.run (luckyArgs.run 1000) = (luckyReport, luckyAfter) ∧
      luckyArgs.Gained luckyTree [luckyBlock] luckyAfter ∧
      jammedArgs.Gained jammedTree [luckyBlock] (jammedTree.run (jammedArgs.run 1000)).2 ∧
      (∃ after, luckyAfter.run (luckyArgs.run 1000) = (luckyReport, after) ∧
        luckyArgs.Gained luckyTree [luckyBlock ++ luckyBlock] after) ∧
      fewerArgs.Gained jammedTree [fewerBlock] (jammedTree.run (fewerArgs.run 1000)).2 ∧
      fewerBlock.toList <+: luckyBlock.toList := by
  obtain ⟨blocks, hgained, hother, hagain, hfewer⟩ := run_blocks luckyArgs luckyTree 1000 (by decide)
  rw [run_lucky] at hgained hagain hfewer
  obtain ⟨hlength, hopen, after, hrun, hafter⟩ := hagain rfl lucky_apart
  obtain ⟨block, rfl⟩ := List.length_eq_one_iff.mp hlength
  rw [hopen] at hgained
  -- the block is what the file has gained
  obtain rfl : block = luckyBlock := hgained.text_eq (i := 0) rfl rfl (by decide)
  refine ⟨run_lucky, hgained, ?_, ⟨after, hrun, hafter⟩, ?_⟩
  · obtain ⟨blocks', hgained', htake⟩ := hother 7 2 "out" jammedTree (by decide) lucky_sameTexts
    have hopen' : jammedArgs.openable jammedTree = luckyArgs.numFiles.toNat := by decide +kernel
    rw [show [luckyBlock] = _ from htake, ← hopen']
    exact hgained'
  · obtain ⟨fronts, hgained', hfronts⟩ := hfewer rfl (by rw [hopen]; decide) (by decide)
      (luckyFlags (some 1)) 1 1 "out" jammedTree ((luckyFlags none).override luckyBase) (by decide)
      ⟨lucky_sameTexts.1.mono (List.subset_append_right _ _),
        lucky_sameTexts.2.mono (List.subset_append_right _ _)⟩
      (lucky_resolves rfl (by decide +kernel)) (lucky_resolves rfl (by decide +kernel)) (by decide)
    obtain ⟨front, rfl⟩ := List.length_eq_one_iff.mp (hfronts.length_eq.trans hlength)
    have hopen' : fewerArgs.openable jammedTree = 1 := by decide +kernel
    have hfront : fewerArgs.Gained jammedTree ([front].take 1)
        (jammedTree.run (fewerArgs.run 1000)).2 := hopen' ▸ hgained'
    rw [run_fewer] at hfront ⊢
    obtain rfl : front = fewerBlock := hfront.text_eq (i := 0) rfl rfl (by decide)
    exact ⟨hfront, (List.forall₂_cons.mp hfronts).1⟩

end GenerateArgs

end QuerySynth
