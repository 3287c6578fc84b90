import QuerySynth.Proofs.Random.Run
import QuerySynth.Proofs.Random.Zone
import QuerySynth.Random.Subset

/-!
# Outcomes that a tape can bring about

The converse of the statements on outcomes: not what every run ends with, but
what some run does end with.  A run is given by the words that it reads, and
reads no further, so runs are put together by writing their words one after the
other.

* Every number below a bound is the value of a word that no test refuses.
* Every possible option can be drawn, and every item of a list, or at least the first
  one where the list is too long for the words.
* A tape of zeros keeps every retry to one round, whatever the bound.
-/

namespace QuerySynth

namespace Draw

variable {ε α β : Type}

/-- Some words make the draw end with the value, whatever is written behind
them. -/
def Reaches (draw : Draw Tape α) (a : α) : Prop :=
  ∃ words, ∀ rest, draw ⟨words ++ rest⟩ = some (a, ⟨rest⟩)

/-- The draw reads just the words, and ends with the value. -/
def BringsAbout (draw : Draw Tape α) (words : List UInt64) (a : α) : Prop :=
  ∀ rest, draw.run ⟨words ++ rest⟩ = some (a, ⟨rest⟩)

/-! ## Putting runs together -/

theorem bringsAbout_pure (a : α) : BringsAbout (pure a) [] a := fun _ => rfl

theorem bringsAbout_bind {draw : Draw Tape α} {next : α → Draw Tape β} {front back : List UInt64}
    {a : α} {b : β} (hfront : BringsAbout draw front a) (hback : BringsAbout (next a) back b) :
    BringsAbout (draw >>= next) (front ++ back) b := by
  intro rest
  -- to the first draw, the words of the second are part of what it leaves
  rw [List.append_assoc, run_bind_of_some (hfront (back ++ rest))]
  exact hback rest

theorem reaches_pure (a : α) : Reaches (pure a) a := ⟨[], fun _ => rfl⟩

theorem reaches_bind {draw : Draw Tape α} {next : α → Draw Tape β} {a : α} {b : β}
    (ha : Reaches draw a) (hb : Reaches (next a) b) : Reaches (draw >>= next) b := by
  obtain ⟨front, hfront⟩ := ha
  obtain ⟨back, hback⟩ := hb
  exact ⟨front ++ back, bringsAbout_bind hfront hback⟩

theorem reaches_lift {draw : Draw Tape α} {a : α} (h : Reaches draw a) :
    Reaches (ExceptT.lift draw : ExceptT ε (Draw Tape) α).run (.ok a) := by
  show Reaches (draw >>= fun a => pure (Except.ok a)) (Except.ok a)
  exact reaches_bind h (reaches_pure _)

theorem reaches_bind_of_ok {draw : ExceptT ε (Draw Tape) α}
    {next : α → ExceptT ε (Draw Tape) β} {a : α} {outcome : Except ε β}
    (ha : Reaches draw.run (.ok a)) (hnext : Reaches (next a).run outcome) :
    Reaches (draw >>= next).run outcome :=
  reaches_bind ha hnext

theorem reaches_bind_of_error {draw : ExceptT ε (Draw Tape) α}
    {next : α → ExceptT ε (Draw Tape) β} {e : ε} (h : Reaches draw.run (.error e)) :
    Reaches (draw >>= next).run (.error e) :=
  reaches_bind h (reaches_pure _)

/-- Where an attempt needs a word, one accepted attempt ends the retries. -/
theorem reaches_retry {attempt : Draw Tape (Option α)} {a : α} (hdry : attempt ⟨[]⟩ = none)
    (h : Reaches attempt (some a)) : Reaches (retry attempt) a := by
  obtain ⟨words, hwords⟩ := h
  cases words with
  | nil =>
      have hempty : attempt ⟨[]⟩ = some (some a, ⟨[]⟩) := hwords []
      rw [hdry] at hempty
      cases hempty
  | cons word words =>
      refine ⟨word :: words, fun rest => ?_⟩
      -- the tape is not empty, so there is a first round
      show retryUpTo attempt ((words ++ rest).length + 1) ⟨word :: words ++ rest⟩ = _
      rw [retryUpTo]
      show (attempt ⟨word :: words ++ rest⟩).bind _ = _
      rw [hwords rest]
      rfl

/-! ## Words and numbers -/

theorem reaches_word32 {w : Nat} (hw : w < 2 ^ 32) : Reaches word32 w := by
  refine ⟨[UInt64.ofNat w], fun rest => ?_⟩
  show some ((UInt64.ofNat w).toUInt32.toNat, (⟨rest⟩ : Tape)) = _
  have hread : (UInt64.ofNat w).toUInt32.toNat = w := by
    rw [UInt64.toNat_toUInt32, UInt64.toNat_ofNat']
    omega
  rw [hread]

theorem reaches_word64 {w : Nat} (hw : w < 2 ^ 64) : Reaches word64 w := by
  refine ⟨[UInt64.ofNat w], fun rest => ?_⟩
  show some ((UInt64.ofNat w).toNat, (⟨rest⟩ : Tape)) = _
  rw [UInt64.toNat_ofNat', Nat.mod_eq_of_lt hw]

theorem reaches_scaled {bits n zone w v : Nat} {word : Draw Tape Nat} (hdry : word ⟨[]⟩ = none)
    (hword : Reaches word w) (hv : scale? bits n zone w = some v) :
    Reaches (scaled bits n zone word) v := by
  refine reaches_retry ?_ (reaches_bind hword ?_)
  · show (word ⟨[]⟩).bind _ = none
    rw [hdry]
    rfl
  · rw [hv]
    exact reaches_pure _

theorem scale?_zero (bits n zone : Nat) : scale? bits n zone 0 = some 0 := by
  simp [scale?]

theorem reaches_below64 {n d : Nat} (hd : d < n) (hn : n ≤ 2 ^ 64) : Reaches (below64 n) d := by
  unfold below64
  split
  · exact reaches_word64 (by omega)
  · obtain ⟨w, hw, hv⟩ := exists_scale?_coarse hd hn
    exact reaches_scaled rfl (reaches_word64 hw) hv

theorem reaches_below32 {n d : Nat} (hd : d < n) (hn : n ≤ 2 ^ 32) : Reaches (below32 n) d := by
  obtain ⟨w, hw, hv⟩ := exists_scale?_coarse hd hn
  exact reaches_scaled rfl (reaches_word32 hw) hv

/-- Every place of a list can be drawn, if 64-bit words can tell them apart. -/
theorem reaches_place {length d : Nat} (hd : d < length) (hlength : length ≤ 2 ^ 64) :
    Reaches (place length) d := by
  unfold place
  split
  · next hshort => exact reaches_below32 hd (Nat.le_of_lt hshort)
  · exact reaches_below64 hd hlength

theorem reaches_evenBelow64 {n d : Nat} (hd : d < n) (hn : n ≤ 2 ^ 64) :
    Reaches (evenBelow64 n) d := by
  obtain ⟨w, hw, hv⟩ := exists_scale?_even hd hn
  exact reaches_scaled rfl (reaches_word64 hw) hv

/-! ## Zero, below any bound

The word zero has the value zero, also for bounds beyond the words. -/

theorem reaches_below32_zero (n : Nat) : Reaches (below32 n) 0 :=
  reaches_scaled rfl (reaches_word32 (by decide)) (scale?_zero _ _ _)

theorem reaches_below64_zero (n : Nat) : Reaches (below64 n) 0 := by
  unfold below64
  split
  · exact reaches_word64 (by decide)
  · exact reaches_scaled rfl (reaches_word64 (by decide)) (scale?_zero _ _ _)

theorem reaches_place_zero (length : Nat) : Reaches (place length) 0 := by
  unfold place
  split
  · exact reaches_below32_zero length
  · exact reaches_below64_zero length

theorem reaches_evenBelow64_zero (n : Nat) : Reaches (evenBelow64 n) 0 :=
  reaches_scaled rfl (reaches_word64 (by decide)) (scale?_zero _ _ _)

/-- A sample of one position can be the first one. -/
theorem reaches_positions_one (length : Nat) : Reaches (positions length 1) [0] := by
  unfold positions
  split
  · have hmethod : SampleMethod.choose length 1 = .floyd := by simp [SampleMethod.choose]
    rw [hmethod]
    exact reaches_bind (reaches_below32_zero _) (reaches_pure _)
  · refine reaches_bind (reaches_retry rfl ?_) (reaches_pure _)
    refine reaches_bind (reaches_evenBelow64_zero length) ?_
    simpa using reaches_pure (some 0)

end Draw

open Draw

/-! ## Choices -/

namespace Options

variable {α : Type} {options : Options α}

/-- Some number below the total falls to any possible option. -/
theorem exists_lt_total_of_possible {a : α} (h : options.Possible a) :
    ∃ drawn, drawn < options.total ∧ options.at? drawn = some a := by
  obtain ⟨weight, hmem, hweight⟩ := h
  rw [UInt32.lt_iff_toNat_lt, UInt32.toNat_zero] at hweight
  induction options with
  | nil => cases hmem
  | cons head rest ih =>
      obtain ⟨b, w⟩ := head
      rcases List.mem_cons.mp hmem with heq | hmem
      · cases heq
        exact ⟨0, by rw [total]; omega, by rw [at?, if_pos hweight]⟩
      · obtain ⟨drawn, hdrawn, hat⟩ := ih hmem
        refine ⟨w.toNat + drawn, by rw [total]; omega, ?_⟩
        rw [at?, if_neg (by omega), Nat.add_sub_cancel_left, hat]

theorem total_le (options : Options α) : options.total ≤ options.length * 2 ^ 32 := by
  induction options with
  | nil => simp [total]
  | cons head rest ih =>
      have hlt := head.2.toNat_lt
      rw [total, List.length_cons]
      omega

end Options

namespace Choose

variable {α : Type}

theorem reaches_inRange {found : Option α} {a : α} (h : found = some a) :
    Reaches (inRange found : Choose Tape α).run (.ok a) := by
  rw [h]
  exact reaches_pure _

theorem reaches_below {n d : Nat} (hn : 0 < n) (h : Reaches (below64 n) d) :
    Reaches (below n : Choose Tape Nat).run (.ok d) := by
  have hne : ¬ n = 0 := by omega
  unfold below
  simp only [hne, if_false]
  exact reaches_lift h

/-- Every possible option of a short list can be drawn. -/
theorem reaches_weighted {group : String} {options : Options α} {a : α}
    (hlength : options.length ≤ 2 ^ 32) (h : options.Possible a) :
    Reaches (weighted group options : Choose Tape α).run (.ok a) := by
  obtain ⟨drawn, hdrawn, hat⟩ := Options.exists_lt_total_of_possible h
  have htotal := options.total_le
  rw [weighted_eq_bind (by omega)]
  exact reaches_bind_of_ok (reaches_lift (reaches_evenBelow64 hdrawn (by omega)))
    (reaches_inRange hat)

/-- Where no option is possible, the choice fails. -/
theorem reaches_weighted_error {group : String} {options : Options α}
    (h : ∀ a, ¬ options.Possible a) :
    Reaches (weighted group options : Choose Tape α).run (.error (.zeroWeights group)) :=
  ⟨[], fun rest => run_weighted_of_not_possible h (⟨rest⟩ : Tape)⟩

theorem reaches_uniform_of_place {what : String} {items : List α} {d : Nat} {a : α}
    (hplace : Reaches (place items.length) d) (ha : items[d]? = some a) :
    Reaches (uniform what items : Choose Tape α).run (.ok a) := by
  have hempty : items ≠ [] := by
    rintro rfl
    cases ha
  rw [uniform_eq_bind hempty]
  exact reaches_bind_of_ok (reaches_lift hplace) (reaches_inRange ha)

/-- Every item of a list can be drawn, if 64-bit words can tell them apart. -/
theorem reaches_uniform {what : String} {items : List α} {a : α} (hlength : items.length ≤ 2 ^ 64)
    (ha : a ∈ items) : Reaches (uniform what items : Choose Tape α).run (.ok a) := by
  obtain ⟨d, hd⟩ := List.mem_iff_getElem?.mp ha
  have hlt : d < items.length := (List.getElem?_eq_some_iff.mp hd).1
  exact reaches_uniform_of_place (reaches_place hlt hlength) hd

/-- The first item of a list can be drawn from lists of any length. -/
theorem reaches_uniform_cons (what : String) (a : α) (items : List α) :
    Reaches (uniform what (a :: items) : Choose Tape α).run (.ok a) :=
  reaches_uniform_of_place (reaches_place_zero _) rfl

/-- Something can be taken from any list. -/
theorem exists_reaches_subset (items : List α) :
    ∃ taken, Reaches (subset items : Choose Tape (List α)).run (.ok taken) := by
  cases items with
  | nil => exact ⟨[], reaches_pure _⟩
  | cons a items =>
      refine ⟨[a], ?_⟩
      exact reaches_bind_of_ok (reaches_below (Nat.succ_pos _) (reaches_below64_zero _))
        (reaches_bind_of_ok (reaches_lift (reaches_positions_one _))
          (reaches_inRange (by simp)))

end Choose

end QuerySynth
