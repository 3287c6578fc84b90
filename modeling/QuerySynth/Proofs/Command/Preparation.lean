import QuerySynth.Command.Run
import QuerySynth.Proofs.Command.Layers

/-!
# What a run is prepared from

Before the first file is touched, a run resolves its configuration, reads its
literals, makes its pool and checks the number of its last file, in this order.
`Prepares` says what comes of it and `Refuses` which step fails first.  Neither
changes a file.
-/

namespace QuerySynth

open FileTree

variable {tree : FileTree}

/-! ## Literals -/

/-- What becomes of the file for a list of literals, if there is to be one. -/
inductive ReadsLiterals (tree : FileTree) (what delimiter : String) :
    Option String → Except RunError (List String) → Prop
  | nothing : ReadsLiterals tree what delimiter none (.ok [])
  | file {path text : String} (hread : tree.read (pathNames path) = .ok text) :
      ReadsLiterals tree what delimiter (some path) (.ok (Text.entries text delimiter))
  | missing {path : String} (hfind : (tree.find (pathNames path)).toBool = false) :
      ReadsLiterals tree what delimiter (some path) (.error (.literalsMissing what path))
  | unreadable {path : String} {cause : FileError}
      (hfind : (tree.find (pathNames path)).toBool = true)
      (hread : tree.read (pathNames path) = .error cause) :
      ReadsLiterals tree what delimiter (some path) (.error (.literalsUnreadable what path cause))

theorem exists_readsLiterals (tree : FileTree) (what delimiter : String) (path : Option String) :
    ∃ outcome, ReadsLiterals tree what delimiter path outcome := by
  cases path with
  | none => exact ⟨_, .nothing⟩
  | some path =>
      cases hread : tree.read (pathNames path) with
      | ok text => exact ⟨_, .file hread⟩
      | error cause =>
          cases hfind : (tree.find (pathNames path)).toBool with
          | true => exact ⟨_, .unreadable hfind hread⟩
          | false => exact ⟨_, .missing hfind⟩

theorem ReadsLiterals.run_readLiterals {what delimiter : String} {path : Option String}
    {outcome : Except RunError (List String)}
    (h : ReadsLiterals tree what delimiter path outcome) :
    tree.run (readLiterals what delimiter path).run = (outcome, tree) := by
  have hpresent : ∀ path, tree.run (ExceptT.lift (Files.present path) :
      ExceptT RunError (StateM FileTree) _).run =
        (.ok (tree.find (pathNames path)).toBool, tree) := fun _ => rfl
  have hstep : ∀ path, tree.run (ExceptT.lift (Files.read path) :
      ExceptT RunError (StateM FileTree) _).run = (.ok (tree.read (pathNames path)), tree) :=
    fun _ => rfl
  cases h with
  | nothing => rfl
  | file hread =>
      simp only [readLiterals, run_bind_of_ok (hpresent _), toBool_find_of_read hread, if_true,
        run_bind_of_ok (hstep _), hread]
      rfl
  | missing hfind =>
      simp only [readLiterals, run_bind_of_ok (hpresent _), hfind, Bool.false_eq_true, if_false]
      rfl
  | unreadable hfind hread =>
      simp only [readLiterals, run_bind_of_ok (hpresent _), hfind, if_true,
        run_bind_of_ok (hstep _), hread]
      rfl

namespace GenerateArgs

variable {args : GenerateArgs} {words : Nat}

/-- The literals of all three files. -/
structure Supplies (args : GenerateArgs) (tree : FileTree) (literals : Literals) : Prop where
  procedureNames : ReadsLiterals tree "procedure" args.delimiter args.procedureFile
    (.ok literals.procedureNames)
  variableNames : ReadsLiterals tree "variable" args.delimiter args.variableFile
    (.ok literals.variableNames)
  constants : ReadsLiterals tree "constant" args.delimiter args.constantFile
    (.ok literals.constants)

/-- The first of the three files that fails, and how. -/
inductive Lacks (args : GenerateArgs) (tree : FileTree) : RunError → Prop
  | procedureNames {cause : RunError}
      (h : ReadsLiterals tree "procedure" args.delimiter args.procedureFile (.error cause)) :
      Lacks args tree cause
  | variableNames {cause : RunError} {procedureNames : List String}
      (hprocedures :
        ReadsLiterals tree "procedure" args.delimiter args.procedureFile (.ok procedureNames))
      (h : ReadsLiterals tree "variable" args.delimiter args.variableFile (.error cause)) :
      Lacks args tree cause
  | constants {cause : RunError} {procedureNames variableNames : List String}
      (hprocedures :
        ReadsLiterals tree "procedure" args.delimiter args.procedureFile (.ok procedureNames))
      (hvariables :
        ReadsLiterals tree "variable" args.delimiter args.variableFile (.ok variableNames))
      (h : ReadsLiterals tree "constant" args.delimiter args.constantFile (.error cause)) :
      Lacks args tree cause

theorem exists_supplies_or_lacks (args : GenerateArgs) (tree : FileTree) :
    (∃ literals, args.Supplies tree literals) ∨ ∃ cause, args.Lacks tree cause := by
  obtain ⟨procedureNames, hprocedures⟩ :=
    exists_readsLiterals tree "procedure" args.delimiter args.procedureFile
  obtain ⟨variableNames, hvariables⟩ :=
    exists_readsLiterals tree "variable" args.delimiter args.variableFile
  obtain ⟨constants, hconstants⟩ :=
    exists_readsLiterals tree "constant" args.delimiter args.constantFile
  cases procedureNames with
  | error cause => exact .inr ⟨cause, .procedureNames hprocedures⟩
  | ok procedureNames =>
      cases variableNames with
      | error cause => exact .inr ⟨cause, .variableNames hprocedures hvariables⟩
      | ok variableNames =>
          cases constants with
          | error cause => exact .inr ⟨cause, .constants hprocedures hvariables hconstants⟩
          | ok constants =>
              exact .inl ⟨⟨procedureNames, variableNames, constants⟩, hprocedures, hvariables, hconstants⟩

theorem Supplies.run_literals {literals : Literals} (h : args.Supplies tree literals) :
    tree.run args.literals.run = (.ok literals, tree) := by
  simp only [GenerateArgs.literals, run_bind_of_ok h.procedureNames.run_readLiterals,
    run_bind_of_ok h.variableNames.run_readLiterals, run_bind_of_ok h.constants.run_readLiterals]
  rfl

theorem Lacks.run_literals {cause : RunError} (h : args.Lacks tree cause) :
    tree.run args.literals.run = (.error cause, tree) := by
  cases h with
  | procedureNames h => exact run_bind_of_error h.run_readLiterals
  | variableNames hprocedures h =>
      simp only [GenerateArgs.literals, run_bind_of_ok hprocedures.run_readLiterals,
        run_bind_of_error h.run_readLiterals]
  | constants hprocedures hvariables h =>
      simp only [GenerateArgs.literals, run_bind_of_ok hprocedures.run_readLiterals,
        run_bind_of_ok hvariables.run_readLiterals, run_bind_of_error h.run_readLiterals]

/-! ## Setups -/

/-- The pool of a configuration, drawn from the words of the seed. -/
def drawPool (args : GenerateArgs) (words : Nat) (config : Config) :
    Option (Except SettingError Pool × Metered Keystream) :=
  (Pool.generate config.pools config.idenLen.toNat).run ⟨.ofSeed args.seed, words⟩

/-- What queries are drawn from, and the words behind the pool. -/
structure Prepares (args : GenerateArgs) (tree : FileTree) (words : Nat) (setup : Setup)
    (source : Metered Keystream) : Prop where
  config : args.flags.Resolves tree (.ok setup.config)
  literals : args.Supplies tree setup.literals
  pool : args.drawPool words setup.config = some (.ok setup.pool, source)
  index : args.start.toNat + args.numFiles.toNat < UInt64.size

/-- The first step that fails, and how. -/
inductive Refuses (args : GenerateArgs) (tree : FileTree) (words : Nat) : RunError → Prop
  | config {cause : ResolveError} (hconfig : args.flags.Resolves tree (.error cause)) :
      Refuses args tree words (.resolve cause)
  | literals {config : Config} {cause : RunError} (hconfig : args.flags.Resolves tree (.ok config))
      (hliterals : args.Lacks tree cause) : Refuses args tree words cause
  | pool {config : Config} {literals : Literals} {cause : SettingError}
      {source : Metered Keystream} (hconfig : args.flags.Resolves tree (.ok config))
      (hliterals : args.Supplies tree literals)
      (hpool : args.drawPool words config = some (.error cause, source)) :
      Refuses args tree words (.setting cause)
  | exhausted {config : Config} {literals : Literals}
      (hconfig : args.flags.Resolves tree (.ok config)) (hliterals : args.Supplies tree literals)
      (hpool : args.drawPool words config = none) : Refuses args tree words .exhausted
  | index {config : Config} {literals : Literals} {pool : Pool} {source : Metered Keystream}
      (hconfig : args.flags.Resolves tree (.ok config)) (hliterals : args.Supplies tree literals)
      (hpool : args.drawPool words config = some (.ok pool, source))
      (hindex : UInt64.size ≤ args.start.toNat + args.numFiles.toNat) :
      Refuses args tree words (.indexOverflow args.start args.numFiles)

theorem exists_prepares_or_refuses (args : GenerateArgs) (tree : FileTree) (words : Nat) :
    (∃ setup source, args.Prepares tree words setup source) ∨
      ∃ cause, args.Refuses tree words cause := by
  obtain ⟨resolved, hconfig⟩ := args.flags.exists_resolves tree
  cases resolved with
  | error cause => exact .inr ⟨_, .config hconfig⟩
  | ok config =>
      rcases args.exists_supplies_or_lacks tree with ⟨literals, hliterals⟩ | ⟨cause, hliterals⟩
      · cases hpool : args.drawPool words config with
        | none => exact .inr ⟨_, .exhausted hconfig hliterals hpool⟩
        | some drawn =>
            obtain ⟨outcome, source⟩ := drawn
            cases outcome with
            | error cause => exact .inr ⟨_, .pool hconfig hliterals hpool⟩
            | ok pool =>
                by_cases hindex : args.start.toNat + args.numFiles.toNat < UInt64.size
                · exact .inl ⟨⟨config, pool, literals⟩, source, hconfig, hliterals, hpool, hindex⟩
                · exact .inr ⟨_, .index hconfig hliterals hpool (Nat.not_lt.mp hindex)⟩
      · exact .inr ⟨_, .literals hconfig hliterals⟩

theorem run_resolved {outcome : Except ResolveError Config}
    (h : args.flags.Resolves tree outcome) :
    tree.run (ExceptT.mk (do return (← args.flags.resolve.run).mapError RunError.resolve)).run =
      (outcome.mapError RunError.resolve, tree) := run_bind h.run_resolve

theorem Prepares.run_prepare {setup : Setup} {source : Metered Keystream}
    (h : args.Prepares tree words setup source) :
    tree.run (args.prepare words).run = (.ok (setup, source), tree) := by
  have hpool : (Pool.generate setup.config.pools setup.config.idenLen.toNat).run
      ⟨.ofSeed args.seed, words⟩ = some (.ok setup.pool, source) := h.pool
  refine (run_bind_of_ok (run_resolved h.config)).trans ?_
  refine (run_bind_of_ok h.literals.run_literals).trans ?_
  simp only [hpool, if_neg (Nat.not_le.mpr h.index)]
  rfl

theorem Refuses.run_prepare {cause : RunError} (h : args.Refuses tree words cause) :
    tree.run (args.prepare words).run = (.error cause, tree) := by
  cases h with
  | config hconfig => exact run_bind_of_error (run_resolved hconfig)
  | literals hconfig hliterals =>
      refine (run_bind_of_ok (run_resolved hconfig)).trans ?_
      exact run_bind_of_error hliterals.run_literals
  | pool hconfig hliterals hpool =>
      refine (run_bind_of_ok (run_resolved hconfig)).trans ?_
      refine (run_bind_of_ok hliterals.run_literals).trans ?_
      rw [drawPool] at hpool
      simp only [hpool]
      rfl
  | exhausted hconfig hliterals hpool =>
      refine (run_bind_of_ok (run_resolved hconfig)).trans ?_
      refine (run_bind_of_ok hliterals.run_literals).trans ?_
      rw [drawPool] at hpool
      simp only [hpool]
      rfl
  | index hconfig hliterals hpool hindex =>
      refine (run_bind_of_ok (run_resolved hconfig)).trans ?_
      refine (run_bind_of_ok hliterals.run_literals).trans ?_
      rw [drawPool] at hpool
      simp only [hpool, if_pos hindex]
      rfl

end GenerateArgs

end QuerySynth
