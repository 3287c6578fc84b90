import Mathlib.Data.List.Nodup
import QuerySynth.Proofs.Declaration
import QuerySynth.Proofs.Reading.Word

/-!
# Declared synonyms are distinct

Sampling from names that are distinct within each kind declares distinct synonyms.
Their texts are distinct too, whatever the names are: the stems of the kinds are
prefix-free, so a name of one kind cannot make up for the stem of another.
-/

namespace QuerySynth

/-- A text belongs to one synonym only. -/
theorem Synonym.render_injective : Function.Injective Synonym.render := by
  intro a b h
  have htext := congrArg String.toList h
  rw [render_toList, render_toList] at htext
  obtain ⟨hkind, hname⟩ := Kind.stem_prefixFree.append_inj htext
  have hname := String.toList_inj.mp hname
  cases a
  cases b
  cases hkind
  cases hname
  rfl

namespace Declarations

open Draw

variable {declared : Declarations} {pool : Pool}

theorem ofKind_eq_nil_iff {kind : Kind} :
    declared.ofKind kind = [] ↔ declared.names.get kind = [] :=
  List.map_eq_nil_iff

theorem length_ofKind (declared : Declarations) (kind : Kind) :
    (declared.ofKind kind).length = (declared.names.get kind).length :=
  List.length_map _

theorem nodup_ofKind {kind : Kind} (h : (declared.names.get kind).Nodup) :
    (declared.ofKind kind).Nodup :=
  h.map fun _ _ hmk => (Synonym.mk.inj hmk).2

/-- Synonyms of different kinds are different, so it is enough that none is repeated
within its kind. -/
theorem nodup_synonyms (h : ∀ kind, (declared.names.get kind).Nodup) :
    declared.synonyms.Nodup := by
  refine List.nodup_flatMap.mpr ⟨fun kind _ => nodup_ofKind (h kind), ?_⟩
  refine Kind.all_nodup.imp fun {a b} hne => ?_
  intro s ha hb
  exact hne ((mem_ofKind.mp ha).1.symm.trans (mem_ofKind.mp hb).1)

/-- Declared from the pool: for each kind with names some of them and none twice, and
nothing for a kind without names. -/
structure DistinctPart (declared : Declarations) (pool : Pool) : Prop where
  eq_nil_iff : ∀ kind, declared.ofKind kind = [] ↔ pool.names.get kind = []
  length_pos : ∀ kind, pool.names.get kind ≠ [] → 0 < (declared.ofKind kind).length
  length_le : ∀ kind, (declared.ofKind kind).length ≤ (pool.names.get kind).length
  nodup : ∀ kind, (declared.ofKind kind).Nodup
  mem : ∀ kind, ∀ s ∈ declared.ofKind kind, s.kind = kind ∧ s.name ∈ pool.names.get kind

theorem PartOf.nodup (h : declared.PartOf pool) {kind : Kind}
    (hpool : (pool.names.get kind).Nodup) : (declared.names.get kind).Nodup := by
  obtain ⟨listed, hperm, hsublist⟩ := h.subperm kind
  exact hperm.nodup_iff.mp (hpool.sublist hsublist)

theorem PartOf.distinctPart (h : declared.PartOf pool)
    (hpool : ∀ kind, (pool.names.get kind).Nodup) : declared.DistinctPart pool where
  eq_nil_iff kind := by
    rw [ofKind_eq_nil_iff]
    exact ⟨fun hnil => by_contra fun hne => h.ne_nil kind hne hnil, h.names_eq_nil⟩
  length_pos kind hne := by
    rw [length_ofKind]
    exact List.length_pos_iff.mpr (h.ne_nil kind hne)
  length_le kind := by
    rw [length_ofKind]
    exact (h.subperm kind).length_le
  nodup kind := nodup_ofKind (h.nodup (hpool kind))
  mem kind s hs := by
    obtain ⟨rfl, hname⟩ := mem_ofKind.mp hs
    exact ⟨rfl, (h.subperm s.kind).subset hname⟩

/-- Sampling from distinct names always ends with declarations.  Of each kind it declares
distinct synonyms out of the pool, at least one where there is any.  Listed kind after kind
they are the declared synonyms, no one of them is listed twice, and no two of them have the
same text. -/
theorem sample_distinct {σ : Type} [WordSource σ] {pool : Pool}
    (hpool : ∀ kind, (pool.names.get kind).Nodup) {s t : σ}
    {outcome : Except ChoiceError Declarations}
    (h : (sample pool : Choose σ Declarations).run s = some (outcome, t)) :
    ∃ declared, outcome = .ok declared ∧ declared.DistinctPart pool ∧
      (declared.synonyms = Kind.all.flatMap declared.ofKind ∧ declared.synonyms.Nodup) ∧
      (∀ synonym, declared.contains synonym = true ↔ synonym ∈ declared.synonyms) ∧
      (declared.synonyms.map Synonym.render).Nodup := by
  cases outcome with
  | error e => exact absurd (fails_of_run h) not_fails_sample
  | ok declared =>
      have hpart := partOf_of_sample (succeeds_of_run h)
      have hnodup := nodup_synonyms fun kind => hpart.nodup (hpool kind)
      exact ⟨declared, rfl, hpart.distinctPart hpool, ⟨rfl, hnodup⟩, fun _ => mem_synonyms.symm,
        hnodup.map Synonym.render_injective⟩

/-- Names of which some go on like the stem of another kind. -/
def lookalikes : Pool :=
  ⟨⟨["g", ""], ["c", ""], [], [], ["s"], [], [], [], [], ["x", "y", "z"], []⟩⟩

/-- Words for two names of each kind that has as many. -/
def lookalikeTape : Tape :=
  ⟨[0x8000000000000000, 0, 0, 0x8000000000000000, 0, 0, 0, 0, 0x8000000000000000, 0, 0]⟩

set_option maxRecDepth 1024 in
theorem sample_lookalikes_distinct :
    (∀ kind, (lookalikes.names.get kind).Nodup) ∧
      ∃ declared, (sample lookalikes : Choose Tape Declarations).run lookalikeTape =
          some (.ok declared, ⟨[]⟩) ∧
        declared.synonyms.map Synonym.render =
          ["proc", "procg", "prog", "progc", "prnts", "vz", "vx"] ∧
        declared.DistinctPart lookalikes ∧ (declared.synonyms.map Synonym.render).Nodup := by
  have hpool : ∀ kind, (lookalikes.names.get kind).Nodup := by
    intro kind
    cases kind <;> decide
  have hrun : (sample lookalikes : Choose Tape Declarations).run lookalikeTape =
      some (.ok ⟨⟨["", "g"], ["", "c"], [], [], ["s"], [], [], [], [], ["z", "x"], []⟩⟩,
        ⟨[]⟩) := rfl
  obtain ⟨declared, heq, hpart, -, -, htexts⟩ := sample_distinct hpool hrun
  cases heq
  exact ⟨hpool, _, hrun, rfl, hpart, htexts⟩

end Declarations

end QuerySynth
