import QuerySynth.Proofs.Clause.Equation
import QuerySynth.Proofs.Random.Completion

/-!
# The guard of attribute references

The guard looks through the weights for an attribute that could be drawn, and the draw
masks the weights and picks; the two are told apart by nothing that a caller can see.

* Behind the guard no draw fails, and every draw can be brought to its end.
* Where the guard fails the draw fails too, and takes no word.
* A drawn reference has a weight and the wanted type.  Over declarations it reads an
  attribute off a declared owner, and every such reference is drawn by some words.
-/

namespace QuerySynth.AttrSubjects

open Draw

variable {subjects : AttrSubjects} {weights : List UInt32} {wanted : Option ValueType}

theorem completable_draw :
    Completable (subjects.draw weights wanted : Choose Tape AttrRef).run := by
  refine completable_bind_run (Choose.completable_weighted _ _) fun attr => ?_
  exact completable_bind_run (Choose.completable_uniform _ _) fun subject =>
    completable_pure (Except.ok _)

/-- Behind the guard, words can be added to any words until a reference is drawn. -/
theorem exists_run_draw_of_canDraw (hcan : subjects.canDraw weights wanted = true)
    (words : List UInt64) :
    ∃ more ref rest, (subjects.draw weights wanted).run (⟨words ++ more⟩ : Tape) =
      some (.ok ref, rest) := by
  obtain ⟨more, outcome, rest, hrun⟩ := completable_draw.exists_run words
  cases outcome with
  | ok ref => exact ⟨more, ref, rest, hrun⟩
  | error e => exact absurd (fails_of_run hrun) (not_fails_draw_of_canDraw hcan)

/-- A readable attribute of the wanted type is drawn by some words, if words can tell the
declared synonyms apart. -/
theorem reaches_draw_of_readable {declared : Declarations} {ref : AttrRef}
    (hsize : declared.synonyms.length < UInt64.size) (htype : ∀ type ∈ wanted, ref.valueType = type)
    (hreadable : ref.Readable declared weights) :
    Reaches ((ofDeclarations declared).draw weights wanted : Choose Tape AttrRef).run
      (.ok ref) := by
  have hadmits := admits_iff.mpr ⟨htype, hreadable⟩
  have hlength := length_get_ofDeclarations_le declared ref.attr
  exact reaches_draw hadmits
    (Choose.reaches_uniform (Nat.le_of_lt (Nat.lt_of_le_of_lt hlength hsize)) hadmits.subject_mem)

/-- The guard and the draw agree.  The last part speaks of declarations that fit into a
memory, where there are fewer synonyms than 64-bit words. -/
theorem draw_guarded (subjects : AttrSubjects) (weights : List UInt32)
    (wanted : Option ValueType) :
    (subjects.canDraw weights wanted = true →
      (∀ (σ : Type) [WordSource σ] (s t : σ) (e : ChoiceError),
        (subjects.draw weights wanted).run s ≠ some (.error e, t)) ∧
      ∀ words, ∃ more ref rest, (subjects.draw weights wanted).run (⟨words ++ more⟩ : Tape) =
        some (.ok ref, rest)) ∧
    (subjects.canDraw weights wanted = false →
      ∀ (σ : Type) [WordSource σ] (s : σ), (subjects.draw weights wanted).run s =
        some (.error (.zeroWeights "attr_name"), s)) ∧
    (∀ (σ : Type) [WordSource σ] (s t : σ) (ref : AttrRef),
      (subjects.draw weights wanted).run s = some (.ok ref, t) →
        (∀ type ∈ wanted, ref.attr.valueType = type) ∧ 0 < weights.getD ref.attr.ctorIdx 0) ∧
    ∀ (declared : Declarations) (ref : AttrRef),
      (∀ (σ : Type) [WordSource σ] (s t : σ),
        ((ofDeclarations declared).draw weights wanted).run s = some (.ok ref, t) →
          declared.contains ref.subject = true ∧ ref.subject.kind ∈ ref.attr.owners) ∧
      (declared.synonyms.length < UInt64.size → declared.contains ref.subject = true →
        ref.subject.kind ∈ ref.attr.owners → (∀ type ∈ wanted, ref.attr.valueType = type) →
        0 < weights.getD ref.attr.ctorIdx 0 →
          ∃ words rest, ((ofDeclarations declared).draw weights wanted).run (⟨words⟩ : Tape) =
            some (.ok ref, rest)) := by
  refine ⟨fun hcan => ⟨?_, exists_run_draw_of_canDraw hcan⟩, fun hcannot σ _ s =>
    run_draw_of_not_canDraw hcannot s, ?_, fun declared ref => ⟨?_, ?_⟩⟩
  · intro σ _ s t e hrun
    exact not_fails_draw_of_canDraw hcan (fails_of_run hrun)
  · intro σ _ s t ref hrun
    have hadmits := succeeds_draw (succeeds_of_run hrun)
    exact ⟨hadmits.valueType_eq,
      (Options.possible_ofWeights_iff (by decide) ref.attr.getElem?_all).mp hadmits.possible⟩
  · intro σ _ s t hrun
    exact (succeeds_draw (succeeds_of_run hrun)).owned.symm
  · intro hsize hdeclared howned htype hweight
    obtain ⟨words, hwords⟩ := reaches_draw_of_readable hsize htype ⟨hweight, howned, hdeclared⟩
    exact ⟨words ++ [], ⟨[]⟩, hwords []⟩

/-- One print statement. -/
def onePrint : Declarations := ⟨(PerKind.fill []).set .print ["p"]⟩

/-- A print statement has a name to be read, and none of the numbers has a weight. -/
theorem draw_guarded_onePrint :
    (ofDeclarations onePrint).canDraw [5, 1] (some .name) = true ∧
      (ofDeclarations onePrint).canDraw [5, 1] (some .number) = false ∧
      (∃ words rest, ((ofDeclarations onePrint).draw [5, 1] (some .name)).run
        (⟨words⟩ : Tape) = some (.ok ⟨⟨.print, "p"⟩, .varName⟩, rest)) ∧
      (∀ words, ∃ more ref rest, ((ofDeclarations onePrint).draw [5, 1] (some .name)).run
        (⟨words ++ more⟩ : Tape) = some (.ok ref, rest)) ∧
      ∀ words, ((ofDeclarations onePrint).draw [5, 1] (some .number)).run (⟨words⟩ : Tape) =
        some (.error (.zeroWeights "attr_name"), ⟨words⟩) := by
  have hcan : (ofDeclarations onePrint).canDraw [5, 1] (some .name) = true := by decide
  have hcannot : (ofDeclarations onePrint).canDraw [5, 1] (some .number) = false := by decide
  obtain ⟨hguarded, -, -, hsupport⟩ :=
    draw_guarded (ofDeclarations onePrint) [5, 1] (some .name)
  obtain ⟨-, hfails, -⟩ := draw_guarded (ofDeclarations onePrint) [5, 1] (some .number)
  refine ⟨hcan, hcannot, ?_, (hguarded hcan).2, fun words => hfails hcannot Tape ⟨words⟩⟩
  exact (hsupport onePrint ⟨⟨.print, "p"⟩, .varName⟩).2 (by decide) (by decide) (by decide)
    (by decide) (by decide)

end QuerySynth.AttrSubjects
