import Mathlib.Data.List.Induction
import QuerySynth.Proofs.Pool

/-!
# Pools hold distinct names

Both ways of making a pool leave the names of a kind distinct.

* A generated pool has as many names of a kind as were asked for.  Each round of the
  drawing adds a name that none of the rounds before has seen.
* A listed pool has the names of the last entry for a kind, each at the place where it
  is listed first.
-/

namespace QuerySynth.Pool

open Draw

/-! ## Drawn names -/

section Drawn

variable {σ : Type} [WordSource σ] {limit : Nat} {seen : Std.TreeSet String}

theorem drawFresh_not_seen {name : String}
    (h : Yields (drawFresh limit seen : Draw σ String) name) : seen.contains name = false := by
  obtain ⟨drawn, -, h⟩ := yields_bind (yields_retry h)
  have hfresh := yields_pure h
  split at hfresh
  · cases hfresh
  · next hseen =>
    rw [Option.some.inj hfresh]
    exact Bool.eq_false_iff.mpr hseen

/-- What holds of the names that come behind any set of seen ones. -/
theorem drawDistinct_distinct {n : Nat} {names : List String}
    (h : Yields (drawDistinct limit seen n : Draw σ (List String)) names) :
    names.length = n ∧ names.Nodup ∧ ∀ name ∈ names, seen.contains name = false := by
  induction n generalizing seen names with
  | zero =>
      rw [yields_pure h]
      exact ⟨rfl, List.nodup_nil, nofun⟩
  | succ n ih =>
      obtain ⟨name, hname, h⟩ := yields_bind h
      obtain ⟨rest, hrest, h⟩ := yields_bind h
      obtain ⟨hlength, hnodup, hnot⟩ := ih hrest
      -- the set behind the rest has the name and all that was seen before it
      have hsplit : ∀ other ∈ rest, other ≠ name ∧ seen.contains other = false := by
        intro other hother
        have hinsert := hnot other hother
        rw [Std.TreeSet.contains_insert, Bool.or_eq_false_iff, beq_eq_false_iff_ne] at hinsert
        exact ⟨fun heq => hinsert.1 (by rw [heq, Std.compare_self]), hinsert.2⟩
      rw [yields_pure h]
      refine ⟨congrArg Nat.succ hlength, List.nodup_cons.mpr ⟨?_, hnodup⟩, ?_⟩
      · exact fun hmem => (hsplit name hmem).1 rfl
      · exact List.forall_mem_cons.mpr
          ⟨drawFresh_not_seen hname, fun other hother => (hsplit other hother).2⟩

theorem generate_distinct {sizes : PoolSizes} {pool : Pool}
    (h : Succeeds (generate sizes limit : Filling σ Pool) pool) (kind : Kind) :
    (pool.names.get kind).length = (sizes.count kind).toNat ∧ (pool.names.get kind).Nodup := by
  obtain ⟨-, h⟩ := succeeds_guard h
  obtain ⟨names, hnames, rfl⟩ := succeeds_bind_pure h
  obtain ⟨-, hkind⟩ := succeeds_guard (PerKind.succeeds_generate hnames kind)
  obtain ⟨hlength, hnodup, -⟩ := drawDistinct_distinct (succeeds_lift hkind)
  exact ⟨hlength, hnodup⟩

end Drawn

/-! ## Listed names -/

/-- The listed names are held, in the order of their first places and therefore each of
them once. -/
structure FirstOccurrences (listed held : List String) : Prop where
  mem_iff : ∀ name, name ∈ held ↔ name ∈ listed
  ordered : held.Pairwise fun a b => listed.idxOf a < listed.idxOf b

namespace FirstOccurrences

variable {listed held : List String} {name : String}

theorem nodup (h : FirstOccurrences listed held) : held.Nodup :=
  h.ordered.imp fun hlt heq => Nat.ne_of_lt hlt (congrArg listed.idxOf heq)

/-- What is listed later leaves the first places as they are. -/
theorem ordered_append (h : FirstOccurrences listed held) (later : List String) :
    held.Pairwise fun a b => (listed ++ later).idxOf a < (listed ++ later).idxOf b := by
  refine h.ordered.imp_of_mem fun {a b} ha hb hlt => ?_
  rwa [List.idxOf_append_of_mem ((h.mem_iff a).mp ha),
    List.idxOf_append_of_mem ((h.mem_iff b).mp hb)]

theorem concat_of_mem (h : FirstOccurrences listed held) (hname : name ∈ listed) :
    FirstOccurrences (listed ++ [name]) held where
  mem_iff other := by
    rw [h.mem_iff, List.mem_append, List.mem_singleton]
    exact ⟨.inl, fun hother => hother.elim id (· ▸ hname)⟩
  ordered := h.ordered_append [name]

theorem concat_of_not_mem (h : FirstOccurrences listed held) (hname : name ∉ listed) :
    FirstOccurrences (listed ++ [name]) (held ++ [name]) where
  mem_iff other := by
    rw [List.mem_append, List.mem_append, h.mem_iff]
  ordered := by
    have hplace : (listed ++ [name]).idxOf name = listed.length := by
      rw [List.idxOf_append_of_notMem hname, List.idxOf_cons_self, Nat.add_zero]
    refine List.pairwise_append.mpr ⟨h.ordered_append [name], List.pairwise_singleton _ _, ?_⟩
    -- a name that is new comes behind all that are listed
    intro a ha b hb
    have hmem := (h.mem_iff a).mp ha
    rw [List.mem_singleton.mp hb, hplace, List.idxOf_append_of_mem hmem]
    exact List.idxOf_lt_length_of_mem hmem

end FirstOccurrences

theorem firstOccurrences_eraseDups (listed : List String) :
    FirstOccurrences listed listed.eraseDups := by
  induction listed using List.reverseRecOn with
  | nil => exact ⟨fun _ => Iff.rfl, List.Pairwise.nil⟩
  | append_singleton listed name ih =>
      rw [List.eraseDups_append]
      by_cases hname : name ∈ listed
      · simpa [List.removeAll, hname] using ih.concat_of_mem hname
      · simpa [List.removeAll, hname, List.eraseDups_cons] using ih.concat_of_not_mem hname

theorem get_ofNames_concat (entries : List (Kind × List String)) (kind other : Kind)
    (listed : List String) :
    (ofNames (entries ++ [(kind, listed)])).names.get other =
      if other = kind then listed.eraseDups else (ofNames entries).names.get other := by
  simp only [ofNames, List.foldl_append, List.foldl_cons, List.foldl_nil]
  exact PerKind.get_set _ _ _ _

theorem get_ofNames_of_absent {entries : List (Kind × List String)} {kind : Kind}
    (h : ∀ listed, (kind, listed) ∉ entries) : (ofNames entries).names.get kind = [] := by
  induction entries using List.reverseRecOn with
  | nil => exact PerKind.get_fill _ _
  | append_singleton entries entry ih =>
      obtain ⟨other, listed⟩ := entry
      have hne : kind ≠ other := by
        rintro rfl
        exact h listed (List.mem_append_right _ List.mem_cons_self)
      rw [get_ofNames_concat, if_neg hne]
      exact ih fun listed hmem => h listed (List.mem_append_left _ hmem)

/-- Entries for other kinds behind the last one for a kind leave its names alone. -/
theorem get_ofNames_of_last {before after : List (Kind × List String)} {kind : Kind}
    {listed : List String} (h : ∀ other, (kind, other) ∉ after) :
    (ofNames (before ++ (kind, listed) :: after)).names.get kind = listed.eraseDups := by
  induction after using List.reverseRecOn with
  | nil => rw [get_ofNames_concat, if_pos rfl]
  | append_singleton after entry ih =>
      obtain ⟨other, names⟩ := entry
      have hne : kind ≠ other := by
        rintro rfl
        exact h names (List.mem_append_right _ List.mem_cons_self)
      rw [← List.cons_append, ← List.append_assoc, get_ofNames_concat, if_neg hne]
      exact ih fun names hmem => h names (List.mem_append_left _ hmem)

/-! ## Both sorts of pools -/

/-- A generated pool has for each kind the number of names that was asked for, none of
them twice, all of a length within the limit and made of letters and digits.  A pool of
listed names has for each kind the names of the last entry for it, in the order of their
first places and none of them twice, and nothing where there is no entry. -/
theorem names_distinct :
    (∀ {σ : Type} [WordSource σ] (sizes : PoolSizes) (limit : Nat) (s t : σ) (pool : Pool),
      (generate sizes limit : Filling σ Pool).run s = some (.ok pool, t) → ∀ kind,
        (pool.names.get kind).length = (sizes.count kind).toNat ∧
        (pool.names.get kind).Nodup ∧
        ∀ name ∈ pool.names.get kind, (1 ≤ name.length ∧ name.length ≤ limit) ∧
          ∀ c ∈ name.toList, c.isAlphanum = true) ∧
      ∀ (entries : List (Kind × List String)) (kind : Kind),
        ((∀ listed, (kind, listed) ∉ entries) → (ofNames entries).names.get kind = []) ∧
        ∀ before listed after, entries = before ++ (kind, listed) :: after →
          (∀ other, (kind, other) ∉ after) →
            FirstOccurrences listed ((ofNames entries).names.get kind) ∧
              ((ofNames entries).names.get kind).Nodup := by
  refine ⟨?_, fun entries kind => ⟨get_ofNames_of_absent, ?_⟩⟩
  · intro σ _ sizes limit s t pool hrun kind
    have hsucceeds := succeeds_of_run hrun
    obtain ⟨hlength, hnodup⟩ := generate_distinct hsucceeds kind
    refine ⟨hlength, hnodup, fun name hname => ?_⟩
    have hisName := generate_isName hsucceeds kind name hname
    rw [← String.length_toList]
    exact ⟨⟨hisName.length_pos, hisName.length_le⟩,
      fun c hc => isAlphanum_of_mem_alphabet (hisName.letters c hc)⟩
  · rintro before listed after rfl hafter
    rw [get_ofNames_of_last hafter]
    have hfirst := firstOccurrences_eraseDups listed
    exact ⟨hfirst, hfirst.nodup⟩

/-- Two variables and nothing else. -/
def pairSizes : PoolSizes := ⟨0, (PerKind.fill none).set .var (some 2)⟩

/-- Words for the same name twice, and then for another. -/
def repeatTape : Tape := ⟨[0, 0, 0, 0, 0, 0x8000000000000000]⟩

/-- A kind with two entries, one of them with a repeated name. -/
def repeatEntries : List (Kind × List String) :=
  [(.stmt, ["a"]), (.var, ["x"]), (.stmt, ["c", "b", "c"]), (.print, [])]

set_option maxRecDepth 1024 in
theorem names_distinct_repeated :
    (∃ pool, (generate pairSizes 1 : Filling Tape Pool).run repeatTape =
        some (.ok pool, ⟨[]⟩) ∧ pool.names.get .var = ["A", "f"] ∧
        (pool.names.get .var).length = 2 ∧ (pool.names.get .var).Nodup) ∧
      (ofNames repeatEntries).names.get .read = [] ∧
      (ofNames repeatEntries).names.get .stmt = ["c", "b"] ∧
      FirstOccurrences ["c", "b", "c"] ((ofNames repeatEntries).names.get .stmt) := by
  have hrun : (generate pairSizes 1 : Filling Tape Pool).run repeatTape =
      some (.ok ⟨(PerKind.fill []).set .var ["A", "f"]⟩, ⟨[]⟩) := rfl
  obtain ⟨hlength, hnodup, -⟩ := names_distinct.1 _ _ _ _ _ hrun .var
  have hstmt := (names_distinct.2 repeatEntries .stmt).2 [(.stmt, ["a"]), (.var, ["x"])]
    ["c", "b", "c"] [(.print, [])] rfl (by simp)
  exact ⟨⟨_, hrun, rfl, hlength, hnodup⟩,
    (names_distinct.2 repeatEntries .read).1 (by simp [repeatEntries]), rfl, hstmt.1⟩

end QuerySynth.Pool
