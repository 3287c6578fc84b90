import QuerySynth.Config.File
import QuerySynth.Proofs.Steps

/-!
# What a configuration file says

A document whose keys stand in front of all headers is the list of its pairs, and has
no key twice.  A setting is what its own key says, or the standard one if the key is not
given, and a file is read exactly if every setting is.
-/

namespace QuerySynth

namespace Toml

namespace Entries

variable {α : Type} {entries after : Entries} {name key : String} {reader : Reader α}
  {standard a : α} {cause : ConfigFileError}

/-! ## Keys -/

/-- What a key says: the value that it is given, or the standard one. -/
inductive Says (entries : Entries) (name : String) (reader : Reader α) (standard : α) : α → Prop
  | absent (h : entries.lookup name = none) : Says entries name reader standard standard
  | given {node : Node} {a : α} (h : entries.lookup name = some node)
      (hread : reader node = some a) : Says entries name reader standard a

theorem setting_eq_ok_iff :
    entries.setting name reader standard = .ok a ↔ entries.Says name reader standard a := by
  constructor
  · intro h
    rw [setting] at h
    cases hfound : entries.lookup name with
    | none =>
        rw [hfound] at h
        cases h
        exact .absent hfound
    | some node =>
        cases hread : reader node with
        | none => simp [hfound, hread] at h
        | some b =>
            simp only [hfound, hread, Except.ok.injEq] at h
            exact h ▸ .given hfound hread
  · rintro (h | ⟨h, hread⟩)
    · rw [setting, h]
    · simp only [setting, h, hread]

/-- A value of the wrong type is refused under the name of its key. -/
theorem setting_eq_error_iff : entries.setting name reader standard = .error cause ↔
    cause = .mistyped name ∧ ∃ node, entries.lookup name = some node ∧ reader node = none := by
  rw [setting]
  cases hfound : entries.lookup name with
  | none => simp
  | some node => cases hread : reader node <;> simp [hread, eq_comm]

/-! ## Documents of plain keys -/

/-- A key is added behind the others, unless it is there already. -/
theorem insert_single_eq_some_iff {node : Node} : entries.insert node true [key] = some after ↔
    entries.lookup key = none ∧ after = entries ++ [(key, node)] := by
  rw [insert, if_pos rfl]
  induction entries generalizing after with
  | nil => simp [update, eq_comm]
  | cons entry entries ih =>
      obtain ⟨k, present⟩ := entry
      rw [update, List.lookup_cons]
      by_cases hk : k = key
      · simp [hk]
      · rw [if_neg hk, beq_eq_false_iff_ne.mpr (Ne.symm hk), Option.map_eq_some_iff]
        constructor
        · rintro ⟨rest, hrest, rfl⟩
          obtain ⟨hnone, rfl⟩ := ih.mp hrest
          exact ⟨hnone, rfl⟩
        · rintro ⟨hnone, rfl⟩
          exact ⟨_, ih.mpr ⟨hnone, rfl⟩, rfl⟩

end Entries

/-- Pairs in front of all headers are the entries of the document, in order, if no key is
given twice. -/
theorem assemble_pairs {pairs entries after : Entries} :
    assemble entries [] (pairs.map fun pair => .pair [pair.1] pair.2) = some after ↔
      (pairs.map Prod.fst).Nodup ∧ (∀ pair ∈ pairs, entries.lookup pair.1 = none) ∧
        after = entries ++ pairs := by
  induction pairs generalizing entries with
  | nil =>
      rw [List.append_nil]
      exact Option.some_inj.trans ⟨fun h => ⟨.nil, nofun, h.symm⟩, fun h => h.2.2.symm⟩
  | cons pair pairs ih =>
      obtain ⟨key, node⟩ := pair
      have hstep : assemble entries [] (((key, node) :: pairs).map fun pair => .pair [pair.1] pair.2) =
          some after ↔ ∃ middle, entries.insert node true [key] = some middle ∧
            assemble middle [] (pairs.map fun pair => .pair [pair.1] pair.2) = some after :=
        Option.bind_eq_some_iff
      have hlookup : ∀ name, (entries ++ [(key, node)]).lookup name = none ↔
          entries.lookup name = none ∧ name ≠ key := by
        intro name
        rw [List.lookup_append, Option.or_eq_none_iff, List.lookup_cons]
        cases hname : name == key
        · simp [beq_eq_false_iff_ne.mp hname]
        · simp [beq_iff_eq.mp hname]
      rw [hstep, List.map_cons, List.nodup_cons, List.forall_mem_cons]
      constructor
      · rintro ⟨middle, hinsert, hrest⟩
        obtain ⟨hnone, rfl⟩ := Entries.insert_single_eq_some_iff.mp hinsert
        obtain ⟨hnodup, hnew, rfl⟩ := ih.mp hrest
        refine ⟨⟨?_, hnodup⟩, ⟨hnone, fun pair hpair => ((hlookup pair.1).mp (hnew pair hpair)).1⟩,
          List.append_assoc _ _ _⟩
        intro hkey
        obtain ⟨pair, hpair, hsame⟩ := List.mem_map.mp hkey
        exact ((hlookup pair.1).mp (hnew pair hpair)).2 hsame
      · rintro ⟨⟨hkey, hnodup⟩, ⟨hnone, hnew⟩, rfl⟩
        refine ⟨_, Entries.insert_single_eq_some_iff.mpr ⟨hnone, rfl⟩,
          ih.mpr ⟨hnodup, fun pair hpair => (hlookup pair.1).mpr ⟨hnew pair hpair, ?_⟩,
            by rw [List.append_assoc]; rfl⟩⟩
        exact fun hsame => hkey (List.mem_map.mpr ⟨pair, hpair, hsame⟩)

theorem lookup_of_mem {pairs : Entries} {key : String} {node : Node}
    (hdistinct : (pairs.map Prod.fst).Nodup) (hpair : (key, node) ∈ pairs) :
    pairs.lookup key = some node := by
  obtain ⟨front, back, rfl⟩ := List.append_of_mem hpair
  rw [List.map_append, List.map_cons, List.nodup_append] at hdistinct
  obtain ⟨-, -, hfront⟩ := hdistinct
  refine List.lookup_eq_some_iff.mpr ⟨front, back, rfl, fun other hother => ?_⟩
  have hne := hfront other.1 (List.mem_map_of_mem hother) key List.mem_cons_self
  exact bne_iff_ne.mpr hne.symm

/-- A key that is given in front of all headers reads as its value. -/
theorem setting_of_assemble {α : Type} {pairs entries : Entries} {key : String} {node : Node}
    {reader : Reader α} {a : α}
    (h : assemble [] [] (pairs.map fun pair => .pair [pair.1] pair.2) = some entries)
    (hpair : (key, node) ∈ pairs) (hread : reader node = some a) (standard : α) :
    entries.setting key reader standard = .ok a := by
  obtain ⟨hdistinct, -, rfl⟩ := assemble_pairs.mp h
  exact Entries.setting_eq_ok_iff.mpr (.given (lookup_of_mem hdistinct hpair) hread)

end Toml

open Toml

/-! ## Configurations -/

/-- Every group of weights is what its own key says. -/
def Weights.Given (weights : Weights) (entries : Entries) : Prop :=
  ∀ group ∈
      [("result", [4, 1], weights.result), ("tuple", [1, 3], weights.tuple),
        ("elem", [1, 1], weights.elem), ("clause_family", [1, 1, 1], weights.clauseFamily),
        ("relation", [1, 1, 1, 1, 1, 1, 1], weights.relation),
        ("transitive", [1, 1], weights.transitive), ("with_ref", [1, 1, 1], weights.withRef),
        ("attr_name", [1, 1, 1, 1], weights.attrName), ("pattern", [1, 1, 1], weights.pattern)],
    entries.Says group.1 Node.weights? group.2.1 group.2.2

/-- The standard size and the size of every kind are what their own keys say. -/
structure PoolSizes.Given (sizes : PoolSizes) (entries : Entries) : Prop where
  standard : entries.Says "default" Node.word64? 10 sizes.standard
  overrides : ∀ size ∈
      [("procedure", sizes.overrides.procedure), ("prog_line", sizes.overrides.progLine),
        ("stmt", sizes.overrides.stmt), ("read", sizes.overrides.read),
        ("print", sizes.overrides.print), ("call", sizes.overrides.call),
        ("while", sizes.overrides.whileStmt), ("if", sizes.overrides.ifStmt),
        ("assign", sizes.overrides.assign), ("variable", sizes.overrides.var),
        ("constant", sizes.overrides.const)],
    entries.Says size.1 (fun node => node.integer64?.map some) none size.2

/-- Every setting is what its own key says. -/
structure Config.Given (config : Config) (entries : Entries) : Prop where
  weights : ∃ group, entries.Says "weights"
      (Node.group? ["result", "tuple", "elem", "clause_family", "relation", "transitive",
        "with_ref", "attr_name", "pattern"]) [] group ∧ config.weights.Given group
  pools : ∃ group, entries.Says "pools"
      (Node.group? ["default", "procedure", "prog_line", "stmt", "read", "print", "call", "while",
        "if", "assign", "variable", "constant"]) [] group ∧ config.pools.Given group
  idenLen : entries.Says "iden_len" Node.word64? 10 config.idenLen
  andLimit : entries.Says "and_limit" Node.word64? 5 config.andLimit
  andDecay : entries.Says "and_decay" Node.float? 1.0 config.andDecay
  selectLimit : entries.Says "select_limit" Node.word64? 5 config.selectLimit
  numQueries : entries.Says "num_queries" Node.word64? 50 config.numQueries
  lenQueries : entries.Says "len_queries" Node.word64? 10 config.lenQueries
  comment : entries.Says "comment" Node.string? "NIL" config.comment
  timeout : entries.Says "timeout" Node.string? "5000" config.timeout
  allowError : entries.Says "allow_error" Node.boolean? false config.allowError
  lineRefs : entries.Says "line_refs" Node.boolean? false config.lineRefs

theorem Weights.ofEntries_eq_ok_iff {entries : Entries} {weights : Weights} :
    Weights.ofEntries entries = .ok weights ↔ weights.Given entries := by
  rw [ofEntries, PerGroup.generate_eq_ok_iff]
  simp only [Entries.setting_eq_ok_iff]
  constructor
  · intro h
    simpa only [Given, List.forall_mem_cons] using ⟨h .result, h .tuple, h .elem, h .clauseFamily,
      h .relation, h .transitive, h .withRef, h .attrName, h .pattern, nofun⟩
  · exact fun h group => h (group.name, standard.get group, weights.get group)
      (by cases group <;> simp [WeightGroup.name, PerGroup.get, standard])

theorem PoolSizes.ofEntries_eq_ok_iff {entries : Entries} {sizes : PoolSizes} :
    PoolSizes.ofEntries entries = .ok sizes ↔ sizes.Given entries := by
  simp only [ofEntries, bind_eq_ok_iff, PerKind.generate_eq_ok_iff, Entries.setting_eq_ok_iff,
    pure, Except.pure, Except.ok.injEq]
  constructor
  · rintro ⟨_, standard, overrides, h, rfl⟩
    refine ⟨standard, ?_⟩
    simpa only [List.forall_mem_cons] using ⟨h .procedure, h .progLine, h .stmt, h .read,
      h .print, h .call, h .whileStmt, h .ifStmt, h .assign, h .var, h .const, nofun⟩
  · intro h
    refine ⟨_, h.standard, sizes.overrides, fun kind => ?_, rfl⟩
    exact h.overrides (kind.keyword, sizes.overrides.get kind)
      (by cases kind <;> simp [Kind.keyword, PerKind.get])

theorem groupSetting_eq_ok_iff {α : Type} {entries : Entries} {name : String}
    {names : List String} {reader : Entries → Except ConfigFileError α} {a : α} :
    groupSetting entries name names reader = .ok a ↔
      ∃ group, entries.Says name (Node.group? names) [] group ∧ reader group = .ok a := by
  simp only [groupSetting, bind_eq_ok_iff, Entries.setting_eq_ok_iff]

theorem Config.ofEntries_eq_ok_iff {entries : Entries} {config : Config} :
    Config.ofEntries entries = .ok config ↔ config.Given entries := by
  simp only [ofEntries, bind_eq_ok_iff, groupSetting_eq_ok_iff, Weights.ofEntries_eq_ok_iff,
    PoolSizes.ofEntries_eq_ok_iff, Entries.setting_eq_ok_iff, pure, Except.pure, Except.ok.injEq]
  constructor
  · rintro ⟨_, weights, _, pools, _, idenLen, _, andLimit, _, andDecay, _, selectLimit, _,
      numQueries, _, lenQueries, _, comment, _, timeout, _, allowError, _, lineRefs, rfl⟩
    exact ⟨weights, pools, idenLen, andLimit, andDecay, selectLimit, numQueries, lenQueries,
      comment, timeout, allowError, lineRefs⟩
  · intro h
    exact ⟨_, h.weights, _, h.pools, _, h.idenLen, _, h.andLimit, _, h.andDecay, _, h.selectLimit,
      _, h.numQueries, _, h.lenQueries, _, h.comment, _, h.timeout, _, h.allowError, _, h.lineRefs,
      rfl⟩

/-- A file is read exactly if it is a document and every setting is what its key says. -/
theorem Config.ofFile_eq_ok_iff {text : String} {config : Config} :
    Config.ofFile text = .ok config ↔
      ∃ entries, document? text = some entries ∧ config.Given entries := by
  rw [ofFile]
  cases document? text with
  | none => exact ⟨nofun, nofun⟩
  | some entries => simp [ofEntries_eq_ok_iff]

example : Config.ofFile "comment = \"one\"\nand_limit = 3\n[pools]\nwhile = 4\n" =
    .ok { comment := "one", andLimit := 3,
          pools := { overrides := (PerKind.fill none).set .whileStmt (some 4) } } := rfl

end QuerySynth
