import QuerySynth.Generate.Query
import QuerySynth.Proofs.Config.Check
import QuerySynth.Proofs.Generate.Select
import QuerySynth.Proofs.Generate.Support

/-!
# The results that can be drawn

What a query can ask for, told by weights, synonyms and subjects.

* A truth value, one element, or a tuple: each wherever the weights on the way to it are
  positive.
* Elements are drawn one by one, so every list of them is drawn, with repetitions, as
  long as the limit allows it.
* A draw fails for three reasons, one for each choice on the way, and for none of them if
  a truth value came first.
-/

namespace QuerySynth

open Draw

/-! ## Draws in a row -/

namespace Choose

variable {α : Type} {next : Choose Tape α}

theorem reaches_times {items : List α} (h : ∀ item ∈ items, Reaches next.run (.ok item)) :
    Reaches (times next items.length).run (.ok items) := by
  induction items with
  | nil => exact reaches_pure _
  | cons item items ih =>
      obtain ⟨hitem, hitems⟩ := List.forall_mem_cons.mp h
      exact reaches_bind_of_ok hitem (reaches_bind_of_ok (ih hitems) (reaches_pure _))

/-- A row fails with the first of its draws. -/
theorem reaches_times_error {n : Nat} {e : ChoiceError} (h : Reaches next.run (.error e)) :
    Reaches (times next (n + 1)).run (.error e) :=
  reaches_bind_of_error h

end Choose

/-! ## Picking one of two readings -/

namespace Side

variable {β : Type} {weights : List UInt32} {side : Side} {group : String}
  {next : Side → Choose Tape β} {outcome : Except ChoiceError β}

/-- A reading with a weight is picked, and then what follows it is reached. -/
theorem reaches_pick (hlength : weights.length = 2) (h : Possible weights side)
    (hnext : Reaches (next side).run outcome) :
    Reaches (Choose.inRange (options? weights) >>= fun options =>
      Choose.weighted group options >>= next).run outcome := by
  obtain ⟨options, hoptions, htwo⟩ := options?_of_length hlength
  obtain ⟨found, hfound, hpossible⟩ := h
  cases hoptions.symm.trans hfound
  exact reaches_bind_of_ok (Choose.reaches_inRange hoptions)
    (reaches_bind_of_ok (Choose.reaches_weighted (by omega) hpossible) hnext)

/-- So is one that is available, where the others are masked. -/
theorem reaches_masked_pick {available : Side → Bool} (hlength : weights.length = 2)
    (h : Possible weights side) (havailable : available side = true)
    (hnext : Reaches (next side).run outcome) :
    Reaches (Choose.inRange (options? weights) >>= fun options =>
      Choose.weighted group (options.mask available) >>= next).run outcome := by
  obtain ⟨options, hoptions, htwo⟩ := options?_of_length hlength
  obtain ⟨found, hfound, hpossible⟩ := h
  cases hoptions.symm.trans hfound
  have hshort : (options.mask available).length ≤ 2 ^ 32 := by
    rw [Options.length_mask]
    omega
  exact reaches_bind_of_ok (Choose.reaches_inRange hoptions)
    (reaches_bind_of_ok (Choose.reaches_weighted hshort
      (Options.possible_mask.mpr ⟨hpossible, havailable⟩)) hnext)

theorem reaches_pick_error (hlength : weights.length = 2) (h : ∀ side, ¬ Possible weights side) :
    Reaches (Choose.inRange (options? weights) >>= fun options =>
      Choose.weighted group options >>= next).run (.error (.zeroWeights group)) := by
  obtain ⟨options, hoptions, -⟩ := options?_of_length hlength
  refine reaches_bind_of_ok (Choose.reaches_inRange hoptions) (reaches_bind_of_error ?_)
  exact Choose.reaches_weighted_error fun side hside => h side ⟨options, hoptions, hside⟩

end Side

namespace SelectWeights

/-! ## What there is to draw -/

/-- There is a weight for every option. -/
structure Full (weights : SelectWeights) : Prop where
  result : weights.result.length = WeightGroup.result.arity
  tuple : weights.tuple.length = WeightGroup.tuple.arity
  elem : weights.elem.length = WeightGroup.elem.arity
  attrName : weights.attrName.length = WeightGroup.attrName.arity

/-- A synonym, if synonyms have a weight; an attribute of a subject, if attributes have a
weight and the attribute has one. -/
def Offers (weights : SelectWeights) (synonyms : List Synonym) (subjects : AttrSubjects) :
    Elem → Prop
  | .synonym s => 0 < weights.elem.getD 0 0 ∧ s ∈ synonyms
  | .attr ref => 0 < weights.elem.getD 1 0 ∧
      0 < weights.attrName.getD ref.attr.ctorIdx 0 ∧ ref.subject ∈ subjects.get ref.attr

/-- A truth value, an element, or up to so many elements in brackets, as far as the
weights of the shapes allow. -/
def Composes (weights : SelectWeights) (limit : Nat) (synonyms : List Synonym)
    (subjects : AttrSubjects) : SelectResult → Prop
  | .boolean => 0 < weights.result.getD 1 0
  | .single elem => 0 < weights.result.getD 0 0 ∧ 0 < weights.tuple.getD 0 0 ∧
      weights.Offers synonyms subjects elem
  | .tuple elems => 0 < weights.result.getD 0 0 ∧ 0 < weights.tuple.getD 1 0 ∧
      1 ≤ elems.length ∧ elems.length ≤ limit ∧
      ∀ elem ∈ elems, weights.Offers synonyms subjects elem

/-- Why there is no result: no shape has a weight; or, where anything but a truth value has
one, no shape of tuple has; or, where a shape of tuple has one as well, there is no element. -/
inductive Refuses (weights : SelectWeights) (synonyms : List Synonym) (subjects : AttrSubjects) :
    ChoiceError → Prop
  | result (htuple : weights.result.getD 0 0 = 0) (hboolean : weights.result.getD 1 0 = 0) :
      weights.Refuses synonyms subjects (.zeroWeights "result")
  | tuple (hresult : 0 < weights.result.getD 0 0) (hsingle : weights.tuple.getD 0 0 = 0)
      (hbracketed : weights.tuple.getD 1 0 = 0) :
      weights.Refuses synonyms subjects (.zeroWeights "tuple")
  | elem (hresult : 0 < weights.result.getD 0 0)
      (htuple : 0 < weights.tuple.getD 0 0 ∨ 0 < weights.tuple.getD 1 0)
      (hnone : ∀ elem, ¬ weights.Offers synonyms subjects elem) :
      weights.Refuses synonyms subjects (.zeroWeights "elem")

variable {weights : SelectWeights} {limit : Nat} {synonyms : List Synonym}
  {subjects : AttrSubjects}

theorem full_of_check {setup : Setup} (hcheck : setup.config.weights.check = .ok ()) :
    setup.selectWeights.Full := by
  have harity := fun group => (Weights.check_eq_ok_iff.mp hcheck group).1
  exact ⟨harity .result, harity .tuple, harity .elem, harity .attrName⟩

theorem admitsElem_iff (hfull : weights.Full) {elem : Elem} :
    weights.AdmitsElem synonyms subjects elem ↔ weights.Offers synonyms subjects elem := by
  cases elem with
  | synonym s => exact and_congr_left fun _ => Side.possible_iff hfull.elem
  | attr ref =>
      have hattr : subjects.Admits weights.attrName none ref ↔
          0 < weights.attrName.getD ref.attr.ctorIdx 0 ∧ ref.subject ∈ subjects.get ref.attr := by
        rw [← Options.possible_ofWeights_iff (by decide) ref.attr.getElem?_all]
        exact ⟨fun h => ⟨h.possible, h.subject_mem⟩, fun h => ⟨h.1, nofun, h.2⟩⟩
      exact and_congr (Side.possible_iff hfull.elem) hattr

theorem admitsResult_iff (hfull : weights.Full) (hlimit : 1 ≤ limit) {result : SelectResult} :
    weights.AdmitsResult limit synonyms subjects result ↔
      weights.Composes limit synonyms subjects result := by
  cases result with
  | boolean => exact Side.possible_iff hfull.result
  | single elem =>
      exact and_congr (Side.possible_iff hfull.result)
        (and_congr (Side.possible_iff hfull.tuple) (admitsElem_iff hfull))
  | tuple elems =>
      have hmax : max limit 1 = limit := Nat.max_eq_left hlimit
      simp only [AdmitsResult, Composes, Side.possible_iff hfull.result,
        Side.possible_iff hfull.tuple, admitsElem_iff hfull, hmax, and_assoc]
      rfl

/-! ## Words for all of it -/

theorem reaches_drawElem (hfull : weights.Full) (hsynonyms : synonyms.length ≤ 2 ^ 64)
    (hsubjects : ∀ attr, (subjects.get attr).length ≤ 2 ^ 64) {elem : Elem}
    (h : weights.AdmitsElem synonyms subjects elem) :
    Reaches (weights.drawElem synonyms subjects : Choose Tape Elem).run (.ok elem) := by
  cases elem with
  | synonym s =>
      obtain ⟨hside, hs⟩ := h
      refine Side.reaches_masked_pick hfull.elem hside ?_ ?_
      · simpa using List.ne_nil_of_mem hs
      · exact reaches_bind_of_ok (Choose.reaches_uniform hsynonyms hs) (reaches_pure _)
  | attr ref =>
      obtain ⟨hside, href⟩ := h
      refine Side.reaches_masked_pick hfull.elem hside (AttrSubjects.canDraw_iff.mpr ⟨ref, href⟩) ?_
      exact reaches_bind_of_ok (AttrSubjects.reaches_draw href
        (Choose.reaches_uniform (hsubjects _) href.subject_mem)) (reaches_pure _)

theorem reaches_drawElem_error (hfull : weights.Full)
    (h : ∀ elem, ¬ weights.AdmitsElem synonyms subjects elem) :
    Reaches (weights.drawElem synonyms subjects : Choose Tape Elem).run
      (.error (.zeroWeights "elem")) := by
  obtain ⟨options, hoptions, -⟩ := Side.options?_of_length hfull.elem
  refine reaches_bind_of_ok (Choose.reaches_inRange hoptions) (reaches_bind_of_error ?_)
  refine Choose.reaches_weighted_error fun side hside => ?_
  obtain ⟨hpossible, havailable⟩ := Options.possible_mask.mp hside
  -- what keeps its weight behind the mask has something to be drawn
  cases side with
  | first =>
      obtain ⟨s, hs⟩ := List.exists_mem_of_ne_nil synonyms (by simpa using havailable)
      exact h (.synonym s) ⟨⟨options, hoptions, hpossible⟩, hs⟩
  | second =>
      obtain ⟨ref, href⟩ := AttrSubjects.canDraw_iff.mp havailable
      exact h (.attr ref) ⟨⟨options, hoptions, hpossible⟩, href⟩

theorem reaches_draw (hfull : weights.Full) (hlimit : limit ≤ 2 ^ 64)
    (hsynonyms : synonyms.length ≤ 2 ^ 64)
    (hsubjects : ∀ attr, (subjects.get attr).length ≤ 2 ^ 64) {result : SelectResult}
    (h : weights.AdmitsResult limit synonyms subjects result) :
    Reaches (weights.draw limit synonyms subjects : Choose Tape SelectResult).run
      (.ok result) := by
  cases result with
  | boolean => exact Side.reaches_pick hfull.result h (reaches_pure _)
  | single elem =>
      obtain ⟨hresult, htuple, helem⟩ := h
      refine Side.reaches_pick hfull.result hresult (Side.reaches_pick hfull.tuple htuple ?_)
      exact reaches_bind_of_ok (reaches_drawElem hfull hsynonyms hsubjects helem) (reaches_pure _)
  | tuple elems =>
      obtain ⟨hresult, htuple, ⟨hpos, hle⟩, helems⟩ := h
      obtain ⟨more, hmore⟩ := Nat.exists_eq_succ_of_ne_zero (Nat.ne_of_gt hpos)
      have hcount : Reaches (Choose.below (max limit 1) : Choose Tape Nat).run (.ok more) :=
        Choose.reaches_below (by omega) (reaches_below64 (by omega) (by omega))
      have hrow := Choose.reaches_times fun elem helem =>
        reaches_drawElem hfull hsynonyms hsubjects (helems elem helem)
      rw [hmore] at hrow
      refine Side.reaches_pick hfull.result hresult (Side.reaches_pick hfull.tuple htuple ?_)
      exact reaches_bind_of_ok hcount (reaches_bind_of_ok hrow (reaches_pure _))

theorem reaches_draw_error (hfull : weights.Full) {e : ChoiceError}
    (h : weights.Refuses synonyms subjects e) :
    Reaches (weights.draw limit synonyms subjects : Choose Tape SelectResult).run (.error e) := by
  cases h with
  | result htuple hboolean =>
      exact Side.reaches_pick_error hfull.result
        ((Side.not_possible_iff hfull.result).mpr ⟨htuple, hboolean⟩)
  | tuple hresult hsingle hbracketed =>
      have hfirst : Side.Possible weights.result .first :=
        (Side.possible_iff hfull.result).mpr hresult
      refine Side.reaches_pick hfull.result hfirst ?_
      exact Side.reaches_pick_error hfull.tuple
        ((Side.not_possible_iff hfull.tuple).mpr ⟨hsingle, hbracketed⟩)
  | elem hresult htuple hnone =>
      have hfirst : Side.Possible weights.result .first :=
        (Side.possible_iff hfull.result).mpr hresult
      obtain ⟨shape, hshape⟩ := (Side.exists_possible_iff hfull.tuple).mpr htuple
      have helem : Reaches (weights.drawElem synonyms subjects : Choose Tape Elem).run
          (.error (.zeroWeights "elem")) :=
        reaches_drawElem_error hfull fun elem helem => hnone elem ((admitsElem_iff hfull).mp helem)
      refine Side.reaches_pick hfull.result hfirst (Side.reaches_pick hfull.tuple hshape ?_)
      cases shape with
      | first => exact reaches_bind_of_error helem
      | second =>
          -- brackets hold one element at least, and the first one fails
          refine reaches_bind_of_ok (Choose.reaches_below (by omega) (reaches_below64_zero _)) ?_
          exact reaches_bind_of_error (Choose.reaches_times_error helem)

/-! ## Nothing else -/

theorem composes_of_succeeds {σ : Type} [WordSource σ] (hfull : weights.Full) (hlimit : 1 ≤ limit)
    {result : SelectResult}
    (h : Succeeds (weights.draw limit synonyms subjects : Choose σ SelectResult) result) :
    weights.Composes limit synonyms subjects result :=
  (admitsResult_iff hfull hlimit).mp (succeeds_draw h)

theorem refuses_of_fails {σ : Type} [WordSource σ] (hfull : weights.Full) {e : ChoiceError}
    (h : Fails (weights.draw limit synonyms subjects : Choose σ SelectResult) e) :
    weights.Refuses synonyms subjects e := by
  rcases fails_draw h with ⟨-, hnone⟩ | ⟨rfl, hnone⟩ | ⟨rfl, hresult, hnone⟩ |
    ⟨rfl, hresult, htuple, hnone⟩
  · -- there are two weights to look at, wherever two are needed
    obtain ⟨_, hresult, -⟩ := Side.options?_of_length hfull.result
    obtain ⟨_, htuple, -⟩ := Side.options?_of_length hfull.tuple
    obtain ⟨_, helem, -⟩ := Side.options?_of_length hfull.elem
    rcases hnone with hnone | hnone | hnone
    · cases hresult.symm.trans hnone
    · cases htuple.symm.trans hnone
    · cases helem.symm.trans hnone
  · obtain ⟨htuple, hboolean⟩ := (Side.not_possible_iff hfull.result).mp hnone
    exact .result htuple hboolean
  · obtain ⟨hsingle, hbracketed⟩ := (Side.not_possible_iff hfull.tuple).mp hnone
    exact .tuple ((Side.possible_iff hfull.result).mp hresult) hsingle hbracketed
  · exact .elem ((Side.possible_iff hfull.result).mp hresult)
      ((Side.exists_possible_iff hfull.tuple).mp htuple)
      fun elem helem => hnone elem ((admitsElem_iff hfull).mpr helem)

/-- Some words lead to a result exactly if the weights compose it, and to an error exactly
if they refuse it; no source of words leads to anything else.  The lists fit into a memory,
where there are fewer items than 64-bit words. -/
theorem draw_composes_iff {limit : UInt64} (hfull : weights.Full) (hlimit : 1 ≤ limit)
    (hsynonyms : synonyms.length < UInt64.size)
    (hsubjects : ∀ attr, (subjects.get attr).length < UInt64.size) :
    (∀ result, (∃ words rest, (weights.draw limit.toNat synonyms subjects).run (⟨words⟩ : Tape) =
        some (.ok result, rest)) ↔ weights.Composes limit.toNat synonyms subjects result) ∧
      (∀ e, (∃ words rest, (weights.draw limit.toNat synonyms subjects).run (⟨words⟩ : Tape) =
        some (.error e, rest)) ↔ weights.Refuses synonyms subjects e) ∧
      ∀ (σ : Type) [WordSource σ] (s t : σ),
        (∀ result, (weights.draw limit.toNat synonyms subjects).run s = some (.ok result, t) →
          weights.Composes limit.toNat synonyms subjects result) ∧
        ∀ e, (weights.draw limit.toNat synonyms subjects).run s = some (.error e, t) →
          weights.Refuses synonyms subjects e := by
  have hpos : 1 ≤ limit.toNat := UInt64.le_iff_toNat_le.mp hlimit
  refine ⟨fun result => ⟨?_, fun h => ?_⟩, fun e => ⟨?_, fun h => ?_⟩, fun σ _ s t => ⟨?_, ?_⟩⟩
  · rintro ⟨words, rest, hrun⟩
    exact composes_of_succeeds hfull hpos (succeeds_of_run hrun)
  · obtain ⟨words, hwords⟩ := reaches_draw hfull (Nat.le_of_lt limit.toNat_lt)
      (Nat.le_of_lt hsynonyms) (fun attr => Nat.le_of_lt (hsubjects attr))
      ((admitsResult_iff hfull hpos).mpr h)
    exact ⟨words ++ [], ⟨[]⟩, hwords []⟩
  · rintro ⟨words, rest, hrun⟩
    exact refuses_of_fails hfull (fails_of_run hrun)
  · obtain ⟨words, hwords⟩ := reaches_draw_error hfull h
    exact ⟨words ++ [], ⟨[]⟩, hwords []⟩
  · intro result hrun
    exact composes_of_succeeds hfull hpos (succeeds_of_run hrun)
  · intro e hrun
    exact refuses_of_fails hfull (fails_of_run hrun)

/-- Tuples only, and of the attributes only statement numbers. -/
def numbered : SelectWeights := ⟨[1, 0], [0, 1], [1, 1], [0, 0, 0, 1]⟩

/-- One call. -/
def oneCall : AttrSubjects where
  procName := [⟨.call, "c"⟩]
  stmtNo := [⟨.call, "c"⟩]

/-- A call can be asked for beside its number, and three elements are too many for a limit
of two.  Without synonyms and subjects there is no element. -/
theorem draw_composes_oneCall :
    (numbered.Full ∧ (1 : UInt64) ≤ 2) ∧
      (∃ words rest, (numbered.draw (2 : UInt64).toNat [⟨.call, "c"⟩] oneCall).run
        (⟨words⟩ : Tape) = some (.ok (.tuple [.synonym ⟨.call, "c"⟩,
          .attr ⟨⟨.call, "c"⟩, .stmtNo⟩]), rest)) ∧
      (¬ ∃ words rest, (numbered.draw (2 : UInt64).toNat [⟨.call, "c"⟩] oneCall).run
        (⟨words⟩ : Tape) = some (.ok (.tuple [.synonym ⟨.call, "c"⟩, .synonym ⟨.call, "c"⟩,
          .synonym ⟨.call, "c"⟩]), rest)) ∧
      ∃ words rest, (numbered.draw (2 : UInt64).toNat [] {}).run (⟨words⟩ : Tape) =
        some (.error (.zeroWeights "elem"), rest) := by
  have hfull : numbered.Full := ⟨rfl, rfl, rfl, rfl⟩
  have hlimit : (1 : UInt64) ≤ 2 := by decide
  have hsynonyms : [(⟨.call, "c"⟩ : Synonym)].length < UInt64.size := by decide
  have hsubjects : ∀ attr, (oneCall.get attr).length < UInt64.size := by
    intro attr
    cases attr <;> decide
  have hempty : ([] : List Synonym).length < UInt64.size := by decide
  have hnone : ∀ attr, (AttrSubjects.get {} attr).length < UInt64.size := by
    intro attr
    cases attr <;> decide
  obtain ⟨hresults, -⟩ := draw_composes_iff hfull hlimit hsynonyms hsubjects
  obtain ⟨-, herrors, -⟩ := draw_composes_iff hfull hlimit hempty hnone
  refine ⟨⟨hfull, hlimit⟩, (hresults _).mpr ?_, fun hthree => ?_, (herrors _).mpr ?_⟩
  · refine ⟨by decide, by decide, by decide, by decide, ?_⟩
    intro elem helem
    rcases List.mem_pair.mp helem with rfl | rfl
    · exact ⟨by decide, by decide⟩
    · exact ⟨by decide, by decide, by decide⟩
  · obtain ⟨-, -, -, hle, -⟩ := (hresults _).mp hthree
    exact absurd hle (by decide)
  · refine .elem (by decide) (by decide) fun elem helem => ?_
    cases elem with
    | synonym s => cases helem.2
    | attr ref =>
        obtain ⟨-, -, hmem⟩ := helem
        cases hattr : ref.attr <;> (rw [hattr] at hmem; cases hmem)

end SelectWeights

end QuerySynth
