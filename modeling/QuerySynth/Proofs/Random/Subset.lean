import Mathlib.Data.List.Perm.Subperm
import QuerySynth.Random.Subset
import QuerySynth.Proofs.Random.Choice

/-!
# Drawn positions are distinct

The three methods of sampling agree in what they end with: so many distinct
positions below the length.

* Shuffling keeps the array a rearrangement of the whole range.
* Floyd's method keeps a sample of the positions below `last`, which is why
  `last` itself can stand in for a draw that is already taken.
* Rejection adds only fresh positions.

A subset drawn from a list is therefore a part of it, with no item taken more
often than it occurs, and it is empty only if the list is.
-/

namespace QuerySynth

namespace Draw

/-- So many distinct positions below the length. -/
structure IsSample (length amount : Nat) (places : List Nat) : Prop where
  length_eq : places.length = amount
  nodup : places.Nodup
  lt : ∀ place ∈ places, place < length

namespace IsSample

variable {length amount : Nat} {places other : List Nat}

theorem nil (length : Nat) : IsSample length 0 [] :=
  ⟨rfl, List.nodup_nil, by simp⟩

theorem mono {larger : Nat} (h : IsSample length amount places) (hle : length ≤ larger) :
    IsSample larger amount places :=
  ⟨h.length_eq, h.nodup, fun place hplace => Nat.lt_of_lt_of_le (h.lt place hplace) hle⟩

theorem perm (h : IsSample length amount places) (hperm : other.Perm places) :
    IsSample length amount other :=
  ⟨hperm.length_eq.trans h.length_eq, hperm.nodup_iff.mpr h.nodup,
    fun place hplace => h.lt place (hperm.mem_iff.mp hplace)⟩

theorem cons {place : Nat} (h : IsSample length amount places) (hplace : place ∉ places)
    (hlt : place < length) : IsSample length (amount + 1) (place :: places) :=
  ⟨by simp [h.length_eq], List.nodup_cons.mpr ⟨hplace, h.nodup⟩,
    List.forall_mem_cons.mpr ⟨hlt, h.lt⟩⟩

/-- One round of Floyd's method: the draw, or `length` in place of a draw that
is already taken. -/
theorem floyd {drawn : Nat} (h : IsSample length amount places) (hdrawn : drawn < length + 1) :
    IsSample (length + 1) (amount + 1)
      ((if drawn ∈ places then length else drawn) :: places) := by
  have hnot : length ∉ places := fun hmem => Nat.lt_irrefl _ (h.lt length hmem)
  by_cases hmem : drawn ∈ places
  · rw [if_pos hmem]
    exact (h.mono (Nat.le_succ length)).cons hnot (Nat.lt_succ_self length)
  · rw [if_neg hmem]
    exact (h.mono (Nat.le_succ length)).cons hmem hdrawn

end IsSample

theorem swapIfInBounds_perm (entries : Array Nat) (i j : Nat) :
    (entries.swapIfInBounds i j).toList.Perm entries.toList := by
  rw [Array.swapIfInBounds_def]
  split
  · split
    · exact (Array.swap_perm _ _).toList
    · exact List.Perm.refl _
  · exact List.Perm.refl _

variable {σ : Type} [WordSource σ]

theorem shuffleFrom_perm {entries shuffled : Array Nat} {start n : Nat}
    (h : Yields (shuffleFrom entries start n : Draw σ (Array Nat)) shuffled) :
    shuffled.toList.Perm entries.toList := by
  induction n generalizing entries start with
  | zero => rw [yields_pure h]
  | succ n ih =>
      obtain ⟨offset, -, h⟩ := yields_bind h
      exact (ih h).trans (swapIfInBounds_perm entries _ _)

theorem shuffleDown_perm {entries shuffled : Array Nat} {n : Nat}
    (h : Yields (shuffleDown entries n : Draw σ (Array Nat)) shuffled) :
    shuffled.toList.Perm entries.toList := by
  induction n generalizing entries with
  | zero => rw [yields_pure h]
  | succ n ih =>
      obtain ⟨place, -, h⟩ := yields_bind h
      exact (ih h).trans (swapIfInBounds_perm entries _ _)

theorem sampleByShuffle_isSample {length amount : Nat} {places : List Nat}
    (hamount : amount ≤ length)
    (h : Yields (sampleByShuffle length amount : Draw σ (List Nat)) places) :
    IsSample length amount places := by
  obtain ⟨entries, hentries, h⟩ := yields_bind h
  have hperm : entries.toList.Perm (List.range length) := by
    simpa using shuffleFrom_perm hentries
  have hplaces : places = entries.toList.take amount := by
    rw [yields_pure h]
    simp [Array.toList_extract, List.extract_eq_take_drop]
  have hsublist : places.Sublist entries.toList := by
    rw [hplaces]
    exact List.take_sublist _ _
  refine ⟨?_, ?_, ?_⟩
  · rw [hplaces, List.length_take, hperm.length_eq, List.length_range]
    omega
  · exact hsublist.nodup (hperm.nodup_iff.mpr List.nodup_range)
  · intro place hplace
    exact List.mem_range.mp (hperm.mem_iff.mp (hsublist.subset hplace))

theorem floydInserting_isSample {sample places : List Nat} {last amount n : Nat}
    (hsample : IsSample last amount sample)
    (h : Yields (floydInserting sample last n : Draw σ (List Nat)) places) :
    IsSample (last + n) (amount + n) places := by
  induction n generalizing sample last amount with
  | zero => rwa [yields_pure h]
  | succ n ih =>
      obtain ⟨drawn, hdrawn, h⟩ := yields_bind h
      have hstep := hsample.floyd (below32_lt (Nat.succ_pos last) hdrawn)
      have hgo : ∀ {next : List Nat}, IsSample (last + 1) (amount + 1) next →
          Yields (floydInserting next (last + 1) n : Draw σ (List Nat)) places →
          IsSample (last + (n + 1)) (amount + (n + 1)) places := by
        intro next hnext hrest
        simpa [Nat.add_assoc, Nat.add_comm 1 n] using ih hnext hrest
      cases hfound : sample.idxOf? drawn with
      | none =>
          have hmem : drawn ∉ sample := List.idxOf?_eq_none_iff.mp hfound
          rw [if_neg hmem] at hstep
          rw [hfound] at h
          exact hgo (hstep.perm (List.perm_append_singleton drawn sample)) h
      | some place =>
          obtain ⟨hplace, hat, -⟩ := List.idxOf?_eq_some_iff.mp hfound
          have hmem : drawn ∈ sample := hat ▸ List.getElem_mem hplace
          rw [if_pos hmem] at hstep
          rw [hfound] at h
          exact hgo (hstep.perm (List.perm_insertIdx last sample (Nat.le_of_lt hplace))) h

theorem floydAppending_isSample {sample places : Array Nat} {last amount n : Nat}
    (hsample : IsSample last amount sample.toList)
    (h : Yields (floydAppending sample last n : Draw σ (Array Nat)) places) :
    IsSample (last + n) (amount + n) places.toList := by
  induction n generalizing sample last amount with
  | zero => rwa [yields_pure h]
  | succ n ih =>
      obtain ⟨drawn, hdrawn, h⟩ := yields_bind h
      have hstep := hsample.floyd (below32_lt (Nat.succ_pos last) hdrawn)
      have hnext : IsSample (last + 1) (amount + 1)
          (sample.push (if sample.contains drawn then last else drawn)).toList := by
        refine hstep.perm ?_
        simp only [Array.toList_push, Array.contains_iff_mem, Array.mem_toList_iff]
        exact List.perm_append_singleton _ _
      simpa [Nat.add_assoc, Nat.add_comm 1 n] using ih hnext h

theorem sampleByFloyd_isSample {length amount : Nat} {places : List Nat}
    (hamount : amount ≤ length)
    (h : Yields (sampleByFloyd length amount : Draw σ (List Nat)) places) :
    IsSample length amount places := by
  have hlength : length - amount + amount = length := by omega
  unfold sampleByFloyd at h
  split at h
  · simpa [hlength] using floydInserting_isSample (IsSample.nil _) h
  · obtain ⟨arrived, harrived, h⟩ := yields_bind h
    obtain ⟨shuffled, hshuffled, h⟩ := yields_bind h
    have hsample : IsSample length amount arrived.toList := by
      simpa [hlength] using floydAppending_isSample (IsSample.nil _) harrived
    rw [yields_pure h]
    exact hsample.perm (shuffleDown_perm hshuffled)

theorem sampleByRejection_isSample {next : Draw σ Nat} {length amount n : Nat}
    {sample : Array Nat} {places : List Nat} (hnext : ∀ v, Yields next v → v < length)
    (hsample : IsSample length amount sample.toList)
    (h : Yields (sampleByRejection next sample n) places) :
    IsSample length (amount + n) places := by
  induction n generalizing sample amount with
  | zero => rwa [yields_pure h]
  | succ n ih =>
      obtain ⟨fresh, hfresh, h⟩ := yields_bind h
      obtain ⟨drawn, hdrawn, hfresh⟩ := yields_bind (yields_retry hfresh)
      have hnew := yields_pure hfresh
      by_cases hmem : drawn ∈ sample
      · simp [hmem] at hnew
      · simp only [Array.contains_iff_mem, hmem, if_false, Option.some.injEq] at hnew
        rw [hnew] at h
        have hpush : IsSample length (amount + 1) (sample.push drawn).toList := by
          refine (hsample.cons (by simpa using hmem) (hnext drawn hdrawn)).perm ?_
          rw [Array.toList_push]
          exact List.perm_append_singleton _ _
        simpa [Nat.add_assoc, Nat.add_comm 1 n] using ih hpush h

/-- Whatever method the estimate picks, the positions are distinct and below the
length. -/
theorem positions_isSample {length amount : Nat} {places : List Nat}
    (hpositive : 0 < length) (hamount : amount ≤ length)
    (h : Yields (positions length amount : Draw σ (List Nat)) places) :
    IsSample length amount places := by
  unfold positions at h
  split at h
  · split at h
    · exact sampleByShuffle_isSample hamount h
    · exact sampleByFloyd_isSample hamount h
    · simpa using sampleByRejection_isSample (fun _ => evenBelow32_lt hpositive)
        (IsSample.nil _) h
  · simpa using sampleByRejection_isSample (fun _ => evenBelow64_lt hpositive)
      (IsSample.nil _) h

end Draw

namespace Choose

open Draw

variable {σ α : Type}

theorem mapM_getElem?_eq_some (items : List α) {places : List Nat}
    (h : ∀ place ∈ places, place < items.length) :
    places.mapM (items.toArray[·]?) = some (places.filterMap (items[·]?)) := by
  induction places with
  | nil => rfl
  | cons place places ih =>
      have hplace : place < items.length := h place List.mem_cons_self
      have hplaces := ih fun other hother => h other (List.mem_cons_of_mem _ hother)
      rw [List.mapM_cons, hplaces]
      simp [List.getElem?_eq_getElem hplace]

theorem filterMap_getElem?_range (items : List α) :
    (List.range items.length).filterMap (items[·]?) = items := by
  induction items with
  | nil => rfl
  | cons a items ih =>
      rw [List.length_cons, List.range_succ_eq_map, List.filterMap_cons, List.filterMap_map]
      exact congrArg (a :: ·) ih

theorem filterMap_subperm_of_isSample {items : List α} {amount : Nat} {places : List Nat}
    (h : IsSample items.length amount places) :
    (places.filterMap (items[·]?)).Subperm items := by
  obtain ⟨listed, hperm, hsublist⟩ :=
    List.subperm_of_subset h.nodup fun place hplace => List.mem_range.mpr (h.lt place hplace)
  have hpart := hsublist.filterMap (items[·]?)
  rw [filterMap_getElem?_range] at hpart
  exact ⟨_, hperm.filterMap _, hpart⟩

variable [WordSource σ]

/-- The items at drawn places are all there. -/
theorem exists_mapM_eq_some {items : List α} {amount : Nat} {places : List Nat}
    (hitems : 0 < items.length) (hamount : amount < items.length)
    (hplaces : Yields (positions items.length (amount + 1) : Draw σ (List Nat)) places) :
    ∃ taken, places.mapM (items.toArray[·]?) = some taken ∧ taken.Subperm items ∧
      taken ≠ [] := by
  have hsample := positions_isSample hitems hamount hplaces
  refine ⟨_, mapM_getElem?_eq_some items hsample.lt, filterMap_subperm_of_isSample hsample, ?_⟩
  have hlength := hsample.length_eq
  -- one position more than the drawn amount, so there is a first one
  cases places with
  | nil => simp at hlength
  | cons place places =>
      rw [List.filterMap_cons_some (List.getElem?_eq_getElem (hsample.lt place List.mem_cons_self))]
      exact List.cons_ne_nil _ _

theorem succeeds_subset {items taken : List α}
    (h : Succeeds (subset items : Choose σ (List α)) taken) :
    taken.Subperm items ∧ (items ≠ [] → taken ≠ []) := by
  unfold subset at h
  split at h
  · next hempty =>
    cases succeeds_pure h
    exact ⟨List.nil_subperm, fun hitems => absurd (List.isEmpty_iff.mp hempty) hitems⟩
  · next hempty =>
    have hitems : 0 < items.length := List.length_pos_iff.mpr (by simpa using hempty)
    obtain ⟨amount, hamount, h⟩ := succeeds_bind h
    obtain ⟨places, hplaces, h⟩ := succeeds_bind h
    obtain ⟨found, hfound, hsubperm, hne⟩ :=
      exists_mapM_eq_some hitems (succeeds_below hamount) (succeeds_lift hplaces)
    cases hfound.symm.trans (succeeds_inRange h)
    exact ⟨hsubperm, fun _ => hne⟩

theorem not_fails_subset {items : List α} {e : ChoiceError} :
    ¬ Fails (subset items : Choose σ (List α)) e := by
  intro h
  unfold subset at h
  split at h
  · exact not_fails_pure h
  · next hempty =>
    have hitems : 0 < items.length := List.length_pos_iff.mpr (by simpa using hempty)
    rcases fails_bind h with h | ⟨amount, hamount, h⟩
    · exact not_fails_below hitems h
    rcases fails_bind h with h | ⟨places, hplaces, h⟩
    · exact not_fails_lift h
    obtain ⟨found, hfound, -, -⟩ :=
      exists_mapM_eq_some hitems (succeeds_below hamount) (succeeds_lift hplaces)
    cases hfound.symm.trans (fails_inRange h).1

end Choose

end QuerySynth
