import QuerySynth.Proofs.Query.Decoding
import QuerySynth.Proofs.Reading.Line

/-!
# Declaration lines read back

The line of some declarations is read back as what was declared, kind by kind and
synonym by synonym, exactly if no bare name hides a separator or ends in a blank.

* What stands in front of a bare name is letters, so a name may be empty, and
  blanks at its beginning or inside of it do no harm.
* Conversely, nothing that is read has a separator in it or a blank at its end.
* The names of a generated pool are made of letters and digits.
-/

namespace QuerySynth

open Draw Text

/-- What a synonym is read back as. -/
def Synonym.entry (s : Synonym) : Kind × String := (s.kind, s.render)

/-- The bare name has no separator in it, and no blank at its end. -/
structure Separable (name : String) : Prop where
  semicolon : ';' ∉ name.toList
  comma : ',' ∉ name.toList
  last : ∀ c ∈ name.toList.getLast?, isBlank c = false

instance (name : String) : Decidable (Separable name) :=
  decidable_of_iff (';' ∉ name.toList ∧ ',' ∉ name.toList ∧
      name.toList.getLast?.any isBlank = false)
    ⟨fun h => ⟨h.1, h.2.1, (Option.any_eq_false _ _).mp h.2.2⟩,
      fun h => ⟨h.semicolon, h.comma, (Option.any_eq_false _ _).mpr h.last⟩⟩

theorem Kind.solid_stem (kind : Kind) : Solid kind.stem.toList :=
  solid_of_not_any_isBlank (by cases kind <;> decide) (by cases kind <;> decide)

theorem Kind.separator_not_mem_stem (kind : Kind) :
    ';' ∉ kind.stem.toList ∧ ',' ∉ kind.stem.toList := by
  cases kind <;> decide

namespace Declarations

theorem readable_render_iff {s : Synonym} : Readable s.render ↔ Separable s.name := by
  obtain ⟨hsemicolon, hcomma⟩ := s.kind.separator_not_mem_stem
  constructor
  · intro h
    have hname := s.render_toList
    refine ⟨?_, ?_, ?_⟩
    · intro hmem
      exact h.semicolon (by rw [hname]; exact List.mem_append_right _ hmem)
    · intro hmem
      exact h.comma (by rw [hname]; exact List.mem_append_right _ hmem)
    · intro c hc
      obtain ⟨front, d, hclose, hd⟩ := h.solid.closes
      have hlast : s.render.toList.getLast? = some c := by
        rw [hname, List.getLast?_append, Option.mem_def.mp hc]
        rfl
      rw [hclose, List.getLast?_concat] at hlast
      rw [← Option.some.inj hlast]
      exact hd
  · intro h
    refine ⟨?_, ?_, ?_⟩
    · rw [s.render_toList]
      exact s.kind.solid_stem.append_of_getLast? h.last
    · rw [s.render_toList, List.mem_append]
      exact not_or.mpr ⟨hsemicolon, h.semicolon⟩
    · rw [s.render_toList, List.mem_append]
      exact not_or.mpr ⟨hcomma, h.comma⟩

theorem readGroups_groups {declared : Declarations}
    (h : ∀ s, declared.contains s = true → Readable s.render) (kinds : List Kind) :
    readGroups (declared.groups kinds) =
      .ok (kinds.flatMap fun kind => (declared.ofKind kind).map Synonym.entry) := by
  induction kinds with
  | nil => rfl
  | cons kind kinds ih =>
      rw [groups_cons, List.flatMap_cons]
      by_cases hnone : declared.ofKind kind = []
      · rw [renderKind_of_eq_nil hnone, hnone]
        exact ih
      · have hnames : ∀ name ∈ (declared.ofKind kind).map Synonym.render, Readable name :=
          List.forall_mem_map.mpr fun s hs => h s (contains_of_mem_ofKind hs)
        have hgroup := readGroups_group kind (by simpa using hnone) hnames
        have hline : (declared.renderKind kind).toList ++ declared.groups kinds =
            kind.keyword.toList ++ ' ' :: ", ".toList.intercalate
              (((declared.ofKind kind).map Synonym.render).map String.toList) ++
              ';' :: ' ' :: declared.groups kinds := by
          rw [renderKind_of_ne_nil hnone, List.map_map]
          simp only [List.append_assoc, List.cons_append, List.nil_append]
          rfl
        have hentries : (((declared.ofKind kind).map Synonym.render).map (Prod.mk kind)) =
            (declared.ofKind kind).map Synonym.entry := by
          rw [List.map_map]
          refine List.map_congr_left fun s hs => ?_
          obtain ⟨rfl, -⟩ := mem_ofKind.mp hs
          rfl
        rw [hline, readGroups_append, readGroups_cons_space, hgroup, ih, hentries]
        rfl

/-- Declarations are read back from their line exactly if all of their names are
separable. -/
theorem readLine_render_eq_ok_iff {declared : Declarations} :
    readLine declared.render = .ok (declared.synonyms.map Synonym.entry) ↔
      ∀ s ∈ declared.synonyms, Separable s.name := by
  constructor
  · intro h s hs
    exact readable_render_iff.mp (readable_of_readGroups h _ (List.mem_map_of_mem hs))
  · intro h
    have hreadable : ∀ s, declared.contains s = true → Readable s.render :=
      fun s hs => readable_render_iff.mpr (h s (mem_synonyms.mpr hs))
    have hline : declared.render.toList = declared.groups Kind.all := by
      rw [render, String.toList_join, List.flatMap_map]
      rfl
    rw [readLine_eq, hline, readGroups_groups hreadable, synonyms, ofKinds, List.map_flatMap]

theorem Plain.separable {declared : Declarations} (h : declared.Plain) {s : Synonym}
    (hs : declared.contains s = true) : Separable s.name := by
  refine ⟨?_, ?_, ?_⟩
  · exact fun hmem => absurd (h s hs _ hmem) (by decide)
  · exact fun hmem => absurd (h s hs _ hmem) (by decide)
  · intro c hc
    exact isBlank_eq_false_of_isAlphanum (h s hs c (List.mem_of_getLast? hc))

/-! ## The round trip -/

/-- Whatever the names, a declaration line is read back as the declared synonyms
exactly if every name is separable; so it is for any sample of a generated pool,
and for no declarations at all. -/
theorem readLine_render_roundTrip :
    (∀ declared : Declarations,
      readLine declared.render = .ok (declared.synonyms.map Synonym.entry) ↔
        ∀ s ∈ declared.synonyms, Separable s.name) ∧
    (∀ {σ τ : Type} [WordSource σ] [WordSource τ] (sizes : PoolSizes) (limit : Nat) (pool : Pool)
      (declared : Declarations) (p q : τ) (s t : σ),
      (Pool.generate sizes limit : Pool.Filling τ Pool).run p = some (.ok pool, q) →
      (sample pool : Choose σ Declarations).run s = some (.ok declared, t) →
      readLine declared.render = .ok (declared.synonyms.map Synonym.entry)) ∧
    readLine empty.render = .ok [] := by
  refine ⟨fun declared => readLine_render_eq_ok_iff, ?_, ?_⟩
  · intro σ τ _ _ sizes limit pool declared p q s t hpool hsample
    have hplain : declared.Plain :=
      (partOf_of_sample (succeeds_of_run hsample)).plain (Pool.generate_plain (succeeds_of_run hpool))
    exact readLine_render_eq_ok_iff.mpr fun s hs => hplain.separable (mem_synonyms.mp hs)
  · exact readLine_render_eq_ok_iff.mpr nofun

/-- Names with blanks inside, and the empty name. -/
def spacedNames : Declarations := ⟨(PerKind.fill []).set .stmt [" x\ty", ""]⟩

/-- A name with a blank at its end. -/
def openName : Declarations := ⟨(PerKind.fill []).set .stmt ["x "]⟩

/-- Both sides of the criterion, and a sample of a generated pool. -/
theorem readLine_render_samples :
    spacedNames.render = "stmt s x\ty, s; " ∧
      readLine spacedNames.render = .ok (spacedNames.synonyms.map Synonym.entry) ∧
      openName.render = "stmt sx ; " ∧
      readLine openName.render ≠ .ok (openName.synonyms.map Synonym.entry) ∧
      (sample Setup.twinPool : Choose Tape Declarations).run (Setup.tapeOfEighths [0, 0, 0, 0]) =
        some (.ok ⟨Setup.twinPool.names⟩, ⟨[]⟩) ∧
      readLine (⟨Setup.twinPool.names⟩ : Declarations).render =
        .ok [(.assign, "aA"), (.var, "vA")] := by
  have hspaced : ∀ s ∈ spacedNames.synonyms, Separable s.name := by decide
  have hopen : ¬ ∀ s ∈ openName.synonyms, Separable s.name := by decide
  have hsample : (sample Setup.twinPool : Choose Tape Declarations).run
      (Setup.tapeOfEighths [0, 0, 0, 0]) = some (.ok ⟨Setup.twinPool.names⟩, ⟨[]⟩) := rfl
  exact ⟨rfl, (readLine_render_roundTrip.1 spacedNames).mpr hspaced, rfl,
    fun h => hopen ((readLine_render_roundTrip.1 openName).mp h), hsample,
    readLine_render_roundTrip.2.1 _ _ _ _ _ _ _ _ Setup.run_firstTwin.1 hsample⟩

end Declarations

end QuerySynth
