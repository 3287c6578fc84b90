import QuerySynth.Generate.Attribute
import QuerySynth.Proofs.Declaration
import QuerySynth.Proofs.Random.Run

/-!
# Outcomes of attribute draws

The references admitted by weights and a wanted type, the guard that tells
whether there are any, and the draw that ends with one of them.
-/

namespace QuerySynth.AttrSubjects

open Draw

/-- The attribute has a positive weight and the wanted type, and the subject is
one of its subjects. -/
structure Admits (subjects : AttrSubjects) (weights : List UInt32) (wanted : Option ValueType)
    (ref : AttrRef) : Prop where
  possible : (Options.ofWeights AttrName.all weights).Possible ref.attr
  valueType_eq : ∀ type ∈ wanted, ref.valueType = type
  subject_mem : ref.subject ∈ subjects.get ref.attr

variable {subjects : AttrSubjects} {weights : List UInt32} {wanted : Option ValueType}

theorem offers_iff {attr : AttrName} :
    subjects.offers wanted attr = true ↔
      (∀ type ∈ wanted, attr.valueType = type) ∧ subjects.get attr ≠ [] := by
  cases wanted <;> simp [offers]

/-- The guard holds exactly where a reference is admitted. -/
theorem canDraw_iff :
    subjects.canDraw weights wanted = true ↔ ∃ ref, subjects.Admits weights wanted ref := by
  unfold canDraw
  constructor
  · intro h
    obtain ⟨⟨attr, weight⟩, hmem, h⟩ := List.any_eq_true.mp h
    rw [Bool.and_eq_true, decide_eq_true_eq, offers_iff] at h
    obtain ⟨hweight, htype, hne⟩ := h
    obtain ⟨subject, hsubject⟩ := List.exists_mem_of_ne_nil _ hne
    exact ⟨⟨subject, attr⟩, ⟨weight, hmem, hweight⟩, htype, hsubject⟩
  · rintro ⟨ref, ⟨weight, hmem, hweight⟩, htype, hsubject⟩
    refine List.any_eq_true.mpr ⟨(ref.attr, weight), hmem, ?_⟩
    rw [Bool.and_eq_true, decide_eq_true_eq, offers_iff]
    exact ⟨hweight, htype, List.ne_nil_of_mem hsubject⟩

variable {σ : Type} [WordSource σ]

theorem succeeds_draw {ref : AttrRef}
    (h : Succeeds (subjects.draw weights wanted : Choose σ AttrRef) ref) :
    subjects.Admits weights wanted ref := by
  obtain ⟨attr, hattr, h⟩ := succeeds_bind h
  obtain ⟨subject, hsubject, rfl⟩ := succeeds_bind_pure h
  obtain ⟨hpossible, hoffers⟩ := Options.possible_mask.mp (Choose.succeeds_weighted hattr)
  exact ⟨hpossible, (offers_iff.mp hoffers).1, Choose.succeeds_uniform hsubject⟩

/-- A draw fails only where nothing is admitted; past its first choice there is
always a subject. -/
theorem fails_draw {e : ChoiceError}
    (h : Fails (subjects.draw weights wanted : Choose σ AttrRef) e) :
    e = .zeroWeights "attr_name" ∧ ∀ ref, ¬ subjects.Admits weights wanted ref := by
  rcases fails_bind h with h | ⟨attr, hattr, h⟩
  · obtain ⟨rfl, hnone⟩ := Choose.fails_weighted h
    refine ⟨rfl, fun ref href => hnone ref.attr (Options.possible_mask.mpr ⟨href.possible, ?_⟩)⟩
    exact offers_iff.mpr ⟨href.valueType_eq, List.ne_nil_of_mem href.subject_mem⟩
  · obtain ⟨-, hoffers⟩ := Options.possible_mask.mp (Choose.succeeds_weighted hattr)
    have hempty := (Choose.fails_uniform (fails_of_fails_bind_pure h)).2
    exact absurd hempty (offers_iff.mp hoffers).2

theorem not_fails_draw_of_canDraw {e : ChoiceError}
    (hcan : subjects.canDraw weights wanted = true) :
    ¬ Fails (subjects.draw weights wanted : Choose σ AttrRef) e := by
  intro h
  obtain ⟨ref, href⟩ := canDraw_iff.mp hcan
  exact (fails_draw h).2 ref href

/-- Where the guard fails, no word is taken. -/
theorem run_draw_of_not_canDraw (hcannot : subjects.canDraw weights wanted = false) (s : σ) :
    (subjects.draw weights wanted : Choose σ AttrRef).run s =
      some (.error (.zeroWeights "attr_name"), s) := by
  refine Draw.run_bind_of_error (Choose.run_weighted_of_not_possible ?_ s)
  intro attr hattr
  obtain ⟨hpossible, hoffers⟩ := Options.possible_mask.mp hattr
  obtain ⟨htype, hne⟩ := offers_iff.mp hoffers
  obtain ⟨subject, hsubject⟩ := List.exists_mem_of_ne_nil _ hne
  have hcan := canDraw_iff.mpr ⟨⟨subject, attr⟩, hpossible, htype, hsubject⟩
  exact Bool.false_ne_true (hcannot.symm.trans hcan)

/-- References drawn from declarations read an attribute off a declared owner. -/
theorem Admits.owned {declared : Declarations} {ref : AttrRef}
    (h : (ofDeclarations declared).Admits weights wanted ref) :
    ref.subject.kind ∈ ref.attr.owners ∧ declared.contains ref.subject = true := by
  have hsubject := h.subject_mem
  rw [get_ofDeclarations] at hsubject
  exact Declarations.mem_ofKinds.mp hsubject

end QuerySynth.AttrSubjects
