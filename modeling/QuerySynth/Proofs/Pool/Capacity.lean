import Mathlib.Algebra.BigOperators.Intervals
import Mathlib.Data.List.Perm.Subperm
import QuerySynth.Proofs.Pool

/-!
# How many names there are

The names under a limit are listed and counted; their number is the sum of the
powers of sixty-two.

* Counting in words of 64 bits ends with that sum or, where the sum is too large for
  a word, with the largest word.  Stopping there early changes nothing.
* So a number that fits a word exceeds the count in words just where it exceeds the
  sum.
* Where fewer names are taken than there are, one of them is left.
-/

namespace QuerySynth.Pool

theorem length_alphabet : alphabet.length = 62 := rfl

theorem alphabet_nodup : alphabet.Nodup := by decide +kernel

/-- The number of names of length one up to the limit. -/
def nameCount (limit : Nat) : Nat := ∑ length ∈ Finset.Icc 1 limit, 62 ^ length

theorem nameCount_zero : nameCount 0 = 0 := rfl

theorem nameCount_concat (limit : Nat) :
    nameCount (limit + 1) = nameCount limit + 62 ^ (limit + 1) :=
  Finset.sum_Icc_succ_top (Nat.succ_pos limit) _

/-- A name is a letter, or a letter in front of a shorter name. -/
theorem nameCount_succ (limit : Nat) : nameCount (limit + 1) = 62 + 62 * nameCount limit := by
  induction limit with
  | zero => rfl
  | succ limit ih =>
      have hconcat := nameCount_concat limit
      rw [nameCount_concat (limit + 1), Nat.pow_succ]
      omega

/-! ## Counting in words -/

/-- The count from any width and any total on, if neither has been cut before. -/
theorem capacityFrom_eq_min (width total n : Nat) :
    capacityFrom (min width maxCount) (min total maxCount) n =
      min (total + width * nameCount n) maxCount := by
  induction n generalizing width total with
  | zero => rw [capacityFrom, nameCount_zero, Nat.mul_zero, Nat.add_zero]
  | succ n ih =>
      have hwidth : min (min width maxCount * 62) maxCount = min (width * 62) maxCount := by omega
      have htotal : min (min total maxCount + min (width * 62) maxCount) maxCount =
          min (total + width * 62) maxCount := by omega
      have hsplit : total + width * nameCount (n + 1) =
          total + width * 62 + width * 62 * nameCount n := by
        rw [nameCount_succ, Nat.mul_add, Nat.add_assoc, Nat.mul_assoc]
      simp only [capacityFrom, length_alphabet, hwidth, htotal, hsplit]
      split
      -- a total that has reached the largest word stays there
      · omega
      · exact ih (width * 62) (total + width * 62)

/-- The count in words is the number of names, as far as a word can hold it. -/
theorem capacity_eq_min (limit : Nat) : capacity limit = min (nameCount limit) maxCount := by
  have h := capacityFrom_eq_min 1 0 limit
  rwa [Nat.zero_add, Nat.one_mul] at h

/-- For a number that fits a word the cut makes no difference. -/
theorem capacity_lt_iff (limit : Nat) (count : UInt64) :
    capacity limit < count.toNat ↔ nameCount limit < count.toNat := by
  have hcount : count.toNat ≤ maxCount := Nat.le_pred_of_lt count.toNat_lt
  rw [capacity_eq_min]
  omega

/-! ## Names that are left -/

/-- The texts of a given length. -/
def texts : Nat → List (List Char)
  | 0 => [[]]
  | n + 1 => alphabet.flatMap fun c => (texts n).map (c :: ·)

/-- Every name under the limit. -/
def everyName (limit : Nat) : List String :=
  (List.range limit).flatMap fun length => (texts (length + 1)).map String.ofList

theorem mem_texts {n : Nat} {text : List Char} (h : text ∈ texts n) :
    text.length = n ∧ ∀ c ∈ text, c ∈ alphabet := by
  induction n generalizing text with
  | zero =>
      rw [List.mem_singleton.mp h]
      exact ⟨rfl, nofun⟩
  | succ n ih =>
      obtain ⟨c, hc, h⟩ := List.mem_flatMap.mp h
      obtain ⟨rest, hrest, rfl⟩ := List.mem_map.mp h
      obtain ⟨hlength, hletters⟩ := ih hrest
      exact ⟨congrArg Nat.succ hlength, List.forall_mem_cons.mpr ⟨hc, hletters⟩⟩

theorem length_texts (n : Nat) : (texts n).length = 62 ^ n := by
  induction n with
  | zero => rfl
  | succ n ih =>
      simp only [texts, List.length_flatMap, List.length_map, ih, List.map_const',
        List.sum_replicate_nat, length_alphabet]
      rw [Nat.pow_succ, Nat.mul_comm]

theorem texts_nodup (n : Nat) : (texts n).Nodup := by
  induction n with
  | zero => simp [texts]
  | succ n ih =>
      refine List.nodup_flatMap.mpr ⟨fun c _ => ih.map List.cons_injective, ?_⟩
      refine alphabet_nodup.imp fun hne text hfront hback => ?_
      obtain ⟨_, -, rfl⟩ := List.mem_map.mp hfront
      obtain ⟨_, -, heq⟩ := List.mem_map.mp hback
      exact hne (List.cons.inj heq).1.symm

theorem mem_everyName {limit : Nat} {name : String} (h : name ∈ everyName limit) :
    IsName limit name := by
  obtain ⟨length, hlength, h⟩ := List.mem_flatMap.mp h
  obtain ⟨text, htext, rfl⟩ := List.mem_map.mp h
  obtain ⟨hcount, hletters⟩ := mem_texts htext
  have hlt := List.mem_range.mp hlength
  constructor
  all_goals rw [String.toList_ofList]
  · omega
  · omega
  · exact hletters

theorem length_everyName (limit : Nat) : (everyName limit).length = nameCount limit := by
  induction limit with
  | zero => rfl
  | succ limit ih =>
      rw [nameCount_concat, ← ih, everyName, everyName, List.range_succ, List.flatMap_append]
      simp [length_texts]

theorem everyName_nodup (limit : Nat) : (everyName limit).Nodup := by
  refine List.nodup_flatMap.mpr ⟨fun length _ => ?_, ?_⟩
  · exact (texts_nodup _).map fun _ _ heq => String.ofList_injective heq
  · refine List.nodup_range.imp fun hne name hfront hback => ?_
    obtain ⟨text, htext, rfl⟩ := List.mem_map.mp hfront
    obtain ⟨other, hother, heq⟩ := List.mem_map.mp hback
    rw [String.ofList_injective heq] at hother
    exact hne (Nat.succ.inj ((mem_texts htext).1.symm.trans (mem_texts hother).1))

/-- Where fewer names are taken than there are, there is one that is not taken. -/
theorem exists_isName_not_mem {limit : Nat} {taken : List String}
    (h : taken.length < nameCount limit) : ∃ name, IsName limit name ∧ name ∉ taken := by
  by_contra hnone
  have hsubset : everyName limit ⊆ taken := fun name hname =>
    by_contra fun hnot => hnone ⟨name, mem_everyName hname, hnot⟩
  have hle := (List.subperm_of_subset (everyName_nodup limit) hsubset).length_le
  rw [length_everyName] at hle
  omega

end QuerySynth.Pool
