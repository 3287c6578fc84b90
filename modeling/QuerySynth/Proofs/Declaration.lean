import QuerySynth.Declaration
import QuerySynth.Proofs.Random.Subset

/-!
# Declarations are parts of the pool

Sampling never fails.  What it declares of a kind is a part of that kind's pool,
and something is declared of every kind whose pool is not empty.
-/

namespace QuerySynth

open Draw

namespace PerKind

variable {σ ε α : Type}

theorem succeeds_generate {entry : Kind → ExceptT ε (Draw σ) α} {table : PerKind α}
    (h : Succeeds (generate entry) table) (kind : Kind) :
    Succeeds (entry kind) (table.get kind) := by
  -- one step for each kind, in declaration order
  repeat obtain ⟨_, _, h⟩ := succeeds_bind h
  cases succeeds_pure h
  cases kind <;> assumption

theorem fails_generate {entry : Kind → ExceptT ε (Draw σ) α} {e : ε}
    (h : Fails (generate entry) e) : ∃ kind, Fails (entry kind) e := by
  repeat
    rcases fails_bind h with h | ⟨_, -, h⟩
    · exact ⟨_, h⟩
  exact absurd h not_fails_pure

end PerKind

namespace Declarations

theorem mem_ofKind {declared : Declarations} {kind : Kind} {s : Synonym} :
    s ∈ declared.ofKind kind ↔ s.kind = kind ∧ s.name ∈ declared.names.get kind := by
  constructor
  · intro h
    obtain ⟨name, hname, rfl⟩ := List.mem_map.mp h
    exact ⟨rfl, hname⟩
  · rintro ⟨rfl, hname⟩
    exact List.mem_map.mpr ⟨s.name, hname, rfl⟩

theorem contains_iff {declared : Declarations} {s : Synonym} :
    declared.contains s = true ↔ s.name ∈ declared.names.get s.kind := by
  simp [contains, mem_ofKind]

theorem contains_of_mem_ofKind {declared : Declarations} {kind : Kind} {s : Synonym}
    (h : s ∈ declared.ofKind kind) : declared.contains s = true := by
  obtain ⟨rfl, hname⟩ := mem_ofKind.mp h
  exact contains_iff.mpr hname

theorem mem_ofKinds {declared : Declarations} {kinds : List Kind} {s : Synonym} :
    s ∈ declared.ofKinds kinds ↔ s.kind ∈ kinds ∧ declared.contains s = true := by
  rw [contains_iff]
  constructor
  · intro h
    obtain ⟨kind, hkind, hs⟩ := List.mem_flatMap.mp h
    obtain ⟨rfl, hname⟩ := mem_ofKind.mp hs
    exact ⟨hkind, hname⟩
  · rintro ⟨hkind, hname⟩
    exact List.mem_flatMap.mpr ⟨s.kind, hkind, mem_ofKind.mpr ⟨rfl, hname⟩⟩

theorem mem_synonyms {declared : Declarations} {s : Synonym} :
    s ∈ declared.synonyms ↔ declared.contains s = true := by
  simp [synonyms, mem_ofKinds, Kind.mem_all]

/-- The names declared of each kind are part of the kind's pool, with at least
one for every kind that has any. -/
structure PartOf (declared : Declarations) (pool : Pool) : Prop where
  subperm : ∀ kind, (declared.names.get kind).Subperm (pool.names.get kind)
  ne_nil : ∀ kind, pool.names.get kind ≠ [] → declared.names.get kind ≠ []

namespace PartOf

variable {declared : Declarations} {pool : Pool}

theorem name_mem (h : declared.PartOf pool) {s : Synonym} (hs : declared.contains s = true) :
    s.name ∈ pool.names.get s.kind :=
  (h.subperm s.kind).subset (contains_iff.mp hs)

theorem names_eq_nil (h : declared.PartOf pool) {kind : Kind} (hkind : pool.names.get kind = []) :
    declared.names.get kind = [] := by
  have hsubperm := h.subperm kind
  rw [hkind] at hsubperm
  exact List.subset_nil.mp hsubperm.subset

theorem exists_mem_ofKind (h : declared.PartOf pool) {kind : Kind}
    (hkind : pool.names.get kind ≠ []) : ∃ s, s ∈ declared.ofKind kind := by
  obtain ⟨name, hname⟩ := List.exists_mem_of_ne_nil _ (h.ne_nil kind hkind)
  exact ⟨⟨kind, name⟩, mem_ofKind.mpr ⟨rfl, hname⟩⟩

end PartOf

variable {σ : Type} [WordSource σ]

theorem partOf_of_sample {pool : Pool} {declared : Declarations}
    (h : Succeeds (sample pool : Choose σ Declarations) declared) : declared.PartOf pool := by
  obtain ⟨names, hnames, rfl⟩ := succeeds_bind_pure h
  have hsubset := fun kind => Choose.succeeds_subset (PerKind.succeeds_generate hnames kind)
  exact ⟨fun kind => (hsubset kind).1, fun kind => (hsubset kind).2⟩

theorem not_fails_sample {pool : Pool} {e : ChoiceError} :
    ¬ Fails (sample pool : Choose σ Declarations) e := by
  intro h
  obtain ⟨kind, h⟩ := PerKind.fails_generate (fails_of_fails_bind_pure h)
  exact Choose.not_fails_subset h

end Declarations

end QuerySynth
