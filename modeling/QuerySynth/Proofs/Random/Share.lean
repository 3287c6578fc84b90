import Mathlib.Algebra.Order.BigOperators.Group.Finset
import Mathlib.Data.Nat.Count
import Mathlib.Order.Interval.Finset.Nat
import QuerySynth.Proofs.Random.Reach
import QuerySynth.Proofs.Random.Retry

/-!
# Shares of the words

How many words lead to each outcome of a choice.

* Where the zone is a multiple of the bound, less one, every number has as many words as
  any other, and what becomes of the numbers is shared out as they are.
* An option owns the numbers of an interval as long as its weight, so its share of the
  words is in proportion to its weight.  The even test refuses only what is left over
  when the words are dealt out in rounds; the coarse test gives every item a power of two.
* A word that is refused is passed over.
-/

namespace QuerySynth

namespace Draw

/-! ## Counting words -/

theorem count_between {low high n : Nat} (h : high ≤ n) :
    Nat.count (fun k => low ≤ k ∧ k < high) n = high - low := by
  have hinterval : (Finset.range n).filter (fun k => low ≤ k ∧ k < high) =
      Finset.Ico low high := by
    ext k
    rw [Finset.mem_filter, Finset.mem_range, Finset.mem_Ico]
    omega
  rw [Nat.count_eq_card_filter_range, hinterval, Nat.card_Ico]

theorem count_some_eq {place n : Nat} (h : place < n) :
    Nat.count (fun k => some k = some place) n = 1 := by
  have hle : place + 1 ≤ n := h
  have hiff : ∀ k, some k = some place ↔ place ≤ k ∧ k < place + 1 := by
    intro k
    rw [Option.some.injEq]
    omega
  simp only [hiff]
  rw [count_between hle, Nat.add_sub_cancel_left]

section Scaled

variable {bits n zone q : Nat}

/-- Every number has the same share of the words. -/
theorem count_scale?_eq {d : Nat} (hd : d < n) (hzone : zone + 1 = n * q)
    (hfit : n * q ≤ 2 ^ bits) :
    Nat.count (fun word => scale? bits n zone word = some d) (2 ^ bits) = q := by
  obtain ⟨first, hle, hfirst⟩ := exists_scale?_interval hd hzone hfit
  simp only [hfirst]
  rw [count_between hle, Nat.add_sub_cancel_left]

/-- What becomes of the numbers is shared out as they are. -/
theorem count_scale?_bind {ι : Type} [DecidableEq ι] (hn : 0 < n) (hzone : zone + 1 = n * q)
    (hfit : n * q ≤ 2 ^ bits) (become : Nat → Option ι) (i : ι) :
    Nat.count (fun word => (scale? bits n zone word).bind become = some i) (2 ^ bits) =
      Nat.count (fun d => become d = some i) n * q := by
  have hunion : (Finset.range (2 ^ bits)).filter
        (fun word => (scale? bits n zone word).bind become = some i) =
      ((Finset.range n).filter fun d => become d = some i).biUnion fun d =>
        (Finset.range (2 ^ bits)).filter fun word => scale? bits n zone word = some d := by
    ext word
    simp only [Finset.mem_filter, Finset.mem_range, Finset.mem_biUnion, Option.bind_eq_some_iff]
    constructor
    · rintro ⟨hword, d, hd, hi⟩
      exact ⟨d, ⟨scale?_lt hn hword hd, hi⟩, hword, hd⟩
    · rintro ⟨d, ⟨-, hi⟩, hword, hd⟩
      exact ⟨hword, d, hd, hi⟩
  rw [Nat.count_eq_card_filter_range, Nat.count_eq_card_filter_range, hunion,
    Finset.card_biUnion]
  · refine Finset.sum_const_nat fun d hd => ?_
    rw [← Nat.count_eq_card_filter_range]
    exact count_scale?_eq (Finset.mem_range.mp (Finset.mem_filter.mp hd).1) hzone hfit
  · intro d _ other _ hne
    refine Finset.disjoint_filter.mpr fun word _ hd hother => hne ?_
    exact Option.some.inj (hd.symm.trans hother)

/-- The words that are refused are those that no number has. -/
theorem count_scale?_none (hn : 0 < n) (hzone : zone + 1 = n * q) (hfit : n * q ≤ 2 ^ bits) :
    Nat.count (fun word => scale? bits n zone word = none) (2 ^ bits) = 2 ^ bits - n * q := by
  have haccepted := count_scale?_bind hn hzone hfit (fun _ => some ()) ()
  have hall : Nat.count (fun _ => some () = some ()) n = n := Nat.count_of_forall fun _ _ => rfl
  have hsplit := Finset.card_filter_add_card_filter_not (s := Finset.range (2 ^ bits))
    (fun word => scale? bits n zone word = none)
  rw [Finset.card_range, ← Nat.count_eq_card_filter_range, ← Nat.count_eq_card_filter_range]
    at hsplit
  have hnot : ∀ word, (¬ scale? bits n zone word = none) ↔
      (scale? bits n zone word).bind (fun _ => some ()) = some () := by
    intro word
    cases scale? bits n zone word <;> simp
  simp only [hnot] at hsplit
  rw [hall] at haccepted
  omega

/-- Where every number becomes something, only the refused words become nothing. -/
theorem count_scale?_bind_none {ι : Type} [DecidableEq ι] (hn : 0 < n) (hzone : zone + 1 = n * q)
    (hfit : n * q ≤ 2 ^ bits) {become : Nat → Option ι} (hbecome : ∀ d < n, become d ≠ none) :
    Nat.count (fun word => (scale? bits n zone word).bind become = none) (2 ^ bits) =
      2 ^ bits - n * q := by
  rw [← count_scale?_none hn hzone hfit]
  have hiff : ∀ word < 2 ^ bits,
      (scale? bits n zone word).bind become = none ↔ scale? bits n zone word = none := by
    intro word hword
    cases hd : scale? bits n zone word with
    | none => simp
    | some d => simpa using hbecome d (scale?_lt hn hword hd)
  exact Nat.le_antisymm (Nat.count_mono_left fun word hword => (hiff word hword).mp)
    (Nat.count_mono_left fun word hword => (hiff word hword).mpr)

end Scaled

end Draw

/-! ## Shares of options -/

namespace Options

variable {α : Type} {options : Options α}

/-- The place of the first option whose running sum exceeds the drawn number. -/
def place? : Options α → Nat → Option Nat
  | [], _ => none
  | (_, weight) :: rest, drawn =>
      if drawn < weight.toNat then some 0 else (place? rest (drawn - weight.toNat)).map (· + 1)

theorem at?_eq_bind_place? (options : Options α) (drawn : Nat) :
    options.at? drawn = (options.place? drawn).bind fun place => options[place]?.map Prod.fst := by
  induction options generalizing drawn with
  | nil => rfl
  | cons head rest ih =>
      obtain ⟨a, weight⟩ := head
      rw [at?, place?]
      split
      · rfl
      · rw [ih]
        cases place? rest (drawn - weight.toNat) <;> rfl

theorem exists_place?_of_lt_total {drawn : Nat} (h : drawn < options.total) :
    ∃ place, options.place? drawn = some place := by
  obtain ⟨a, ha, -⟩ := exists_at?_of_lt_total h
  rw [at?_eq_bind_place?] at ha
  obtain ⟨place, hplace, -⟩ := Option.bind_eq_some_iff.mp ha
  exact ⟨place, hplace⟩

/-- As many numbers fall to a place as the weight there says. -/
theorem count_place? {place : Nat} {a : α} {weight : UInt32}
    (h : options[place]? = some (a, weight)) :
    Nat.count (fun drawn => options.place? drawn = some place) options.total = weight.toNat := by
  induction options generalizing place with
  | nil => cases h
  | cons head rest ih =>
      obtain ⟨b, front⟩ := head
      have hfront : ∀ k < front.toNat, place? ((b, front) :: rest) k = some 0 :=
        fun k hk => if_pos hk
      have hback : ∀ k, place? ((b, front) :: rest) (front.toNat + k) =
          (place? rest k).map (· + 1) := by
        intro k
        rw [place?, if_neg (by omega), Nat.add_sub_cancel_left]
      rw [total, Nat.count_add]
      simp only [hback]
      cases place with
      | zero =>
          cases h
          rw [Nat.count_of_forall hfront, Nat.count_of_forall_not (by simp), Nat.add_zero]
      | succ place =>
          have hnot : ∀ k < front.toNat, ¬ place? ((b, front) :: rest) k = some (place + 1) := by
            intro k hk
            rw [hfront k hk]
            simp
          rw [Nat.count_of_forall_not hnot, Nat.zero_add, ← ih h]
          simp

end Options

/-! ## Shares of choices -/

namespace Choose

open Draw

/-- The first word decides a draw from a list.  Where the word lands on a place, the draw
ends with the item there and takes no other word; where it lands on none, the draw begins
again behind it. -/
structure Decides {σ α : Type} (word : Draw σ Nat) (draw : Choose σ α) (items : List α)
    (landing : Nat → Option Nat) : Prop where
  lands : ∀ {s t : σ} {w place : Nat}, word.run s = some (w, t) → landing w = some place →
    ∃ item, items[place]? = some item ∧ draw.run s = some (.ok item, t)
  refused : ∀ {s t : σ} {w : Nat}, word.run s = some (w, t) → landing w = none →
    draw.run s = draw.run t

variable {σ α : Type} [WordSource σ]

/-- Where every number finds the item at a place, the first word decides. -/
theorem decides_of_scaled {bits n zone : Nat} {word : Draw σ Nat} {found : Nat → Option α}
    {items : List α} {place? : Nat → Option Nat} (hn : 0 < n) (hspends : Spends word)
    (hword : ∀ w, Yields word w → w < 2 ^ bits)
    (hfound : ∀ d < n, ∃ place item,
      place? d = some place ∧ items[place]? = some item ∧ found d = some item) :
    Decides word (ExceptT.lift (scaled bits n zone word) >>= fun d => inRange (found d)) items
      fun w => (scale? bits n zone w).bind place? where
  lands {s t w place} hrun hlanding := by
    obtain ⟨d, hd, hplace⟩ := Option.bind_eq_some_iff.mp hlanding
    obtain ⟨place', item, hplace', hitem, hat⟩ := hfound d (scale?_lt hn (hword w ⟨s, t, hrun⟩) hd)
    cases hplace.symm.trans hplace'
    refine ⟨item, hitem, ?_⟩
    rw [run_lift_bind_of_some (run_scaled_of_some hspends hrun hd), hat]
    rfl
  refused {s t w} hrun hlanding := by
    cases hd : scale? bits n zone w with
    | none => exact run_lift_bind_congr (run_scaled_of_none hspends hrun hd)
    | some d =>
        -- a word that is accepted lands on the place of its number
        obtain ⟨place, item, hplace, -⟩ := hfound d (scale?_lt hn (hword w ⟨s, t, hrun⟩) hd)
        rw [hd] at hlanding
        cases hplace.symm.trans hlanding

theorem weighted_decides {group : String} {options : Options α} (h : 0 < options.total) :
    Decides (word64 : Draw σ Nat) (weighted group options) (options.map Prod.fst) fun w =>
      (scale? 64 options.total (evenZone 64 options.total) w).bind options.place? := by
  rw [weighted_eq_bind h]
  refine decides_of_scaled h spends_word64 (fun _ => word64_lt) fun d hd => ?_
  obtain ⟨a, ha, -⟩ := Options.exists_at?_of_lt_total hd
  obtain ⟨place, hplace, hoption⟩ := Option.bind_eq_some_iff.mp
    ((options.at?_eq_bind_place? d).symm.trans ha)
  exact ⟨place, a, hplace, by rw [List.getElem?_map, hoption], ha⟩

theorem uniform_decides {what : String} {items : List α} (h : 0 < items.length)
    (hshort : items.length < 2 ^ 32) :
    Decides (word32 : Draw σ Nat) (uniform what items) items fun w =>
      (scale? 32 items.length (coarseZone 32 items.length) w).bind some := by
  have hplace : (place items.length : Draw σ Nat) = below32 items.length := if_pos hshort
  rw [uniform_eq_bind (List.length_pos_iff.mp h), hplace]
  refine decides_of_scaled h spends_word32 (fun _ => word32_lt) fun d hd => ?_
  exact ⟨d, items[d], rfl, List.getElem?_eq_getElem hd, List.getElem?_eq_getElem hd⟩

/-- Dealt out in rounds of the total, the `2 ^ 64` words give every option its weight in
every round, and the words of the last, broken round are passed over.  Of the `2 ^ 32` words
every item of a list gets `2 ^ c`, where `c` counts the zeros in front of the length.  Where
there is nothing to choose from, no word is taken. -/
theorem choices_proportional {α : Type} (group what : String) :
    (∀ options : Options α, options.length < 2 ^ 32 → 0 < options.total →
      ∃ landing : Nat → Option Nat,
        (∀ (σ : Type) [WordSource σ],
          Decides (word64 : Draw σ Nat) (weighted group options) (options.map Prod.fst) landing) ∧
        (∀ place a weight, options[place]? = some (a, weight) →
          Nat.count (fun word => landing word = some place) (2 ^ 64) =
            weight.toNat * (2 ^ 64 / options.total)) ∧
        Nat.count (fun word => landing word = none) (2 ^ 64) = 2 ^ 64 % options.total) ∧
    (∀ items : List α, 0 < items.length → items.length < 2 ^ 32 →
      ∃ landing : Nat → Option Nat,
        (∀ (σ : Type) [WordSource σ],
          Decides (word32 : Draw σ Nat) (uniform what items) items landing) ∧
        ∀ place < items.length,
          Nat.count (fun word => landing word = some place) (2 ^ 32) =
            2 ^ (BitVec.ofNat 32 items.length).clz.toNat) ∧
    (∀ options : Options α, (∀ option ∈ options, option.2 = 0) →
      ∀ (σ : Type) [WordSource σ] (s : σ), (weighted group options : Choose σ α).run s =
        some (.error (.zeroWeights group), s)) ∧
    ∀ (σ : Type) [WordSource σ] (s : σ), (uniform what [] : Choose σ α).run s =
      some (.error (.emptyCandidates what), s) := by
  refine ⟨fun options hlength htotal => ?_, fun items hpos hlength => ?_, ?_, fun σ _ s => rfl⟩
  · have hle : options.total ≤ 2 ^ 64 := by
      have htotal := options.total_le
      omega
    have hzone := evenZone_add_one htotal hle
    have hfit := Nat.mul_div_le (2 ^ 64) options.total
    refine ⟨_, fun σ _ => weighted_decides htotal, fun place a weight h => ?_, ?_⟩
    · rw [count_scale?_bind htotal hzone hfit, Options.count_place? h]
    · rw [count_scale?_bind_none htotal hzone hfit]
      · exact Nat.mod_eq_sub_mul_div.symm
      · intro d hd hnone
        obtain ⟨place, hplace⟩ := Options.exists_place?_of_lt_total hd
        cases hplace.symm.trans hnone
  · refine ⟨_, fun σ _ => uniform_decides hpos hlength, fun place hplace => ?_⟩
    rw [count_scale?_bind hpos (coarseZone_add_one hpos) (mul_two_pow_le hpos (Nat.le_of_lt hlength)),
      count_some_eq hplace, toNat_clz_ofNat hpos hlength, Nat.one_mul]
  · intro options hzero σ _ s
    refine run_weighted_of_not_possible (fun a ⟨weight, hmem, hweight⟩ => ?_) s
    cases hzero _ hmem
    exact absurd hweight (by decide)

/-- Three options, the second without weight. -/
def thirds : Options Char := [('a', 1), ('b', 0), ('c', 2)]

/-- Of the words, one is passed over, and the third option gets twice the share of the
first.  Three items have thirty zeros in front of their number. -/
theorem choices_proportional_thirds :
    (thirds.length < 2 ^ 32 ∧ 0 < thirds.total) ∧
      (∃ landing : Nat → Option Nat,
        (∀ (σ : Type) [WordSource σ],
          Decides (word64 : Draw σ Nat) (weighted "result" thirds) ['a', 'b', 'c'] landing) ∧
        Nat.count (fun word => landing word = some 0) (2 ^ 64) = 6148914691236517205 ∧
        Nat.count (fun word => landing word = some 1) (2 ^ 64) = 0 ∧
        Nat.count (fun word => landing word = some 2) (2 ^ 64) = 12297829382473034410 ∧
        Nat.count (fun word => landing word = none) (2 ^ 64) = 1) ∧
      (∃ landing : Nat → Option Nat,
        (∀ (σ : Type) [WordSource σ],
          Decides (word32 : Draw σ Nat) (uniform "operand" ['a', 'b', 'c']) ['a', 'b', 'c']
            landing) ∧
        Nat.count (fun word => landing word = some 2) (2 ^ 32) = 1073741824) ∧
      ∀ (σ : Type) [WordSource σ] (s : σ), (weighted "result" [('a', 0)] : Choose σ Char).run s =
        some (.error (.zeroWeights "result"), s) := by
  have hlength : thirds.length < 2 ^ 32 := by decide
  have htotal : 0 < thirds.total := by decide
  obtain ⟨hweighted, huniform, hnone, -⟩ := choices_proportional (α := Char) "result" "operand"
  refine ⟨⟨hlength, htotal⟩, ?_, ?_, hnone _ (by decide)⟩
  · obtain ⟨landing, hdecides, hshares, hrefused⟩ := hweighted thirds hlength htotal
    exact ⟨landing, hdecides, hshares 0 'a' 1 rfl, hshares 1 'b' 0 rfl, hshares 2 'c' 2 rfl,
      hrefused⟩
  · obtain ⟨landing, hdecides, hshares⟩ := huniform ['a', 'b', 'c'] (by decide) (by decide)
    exact ⟨landing, hdecides, hshares 2 (by decide)⟩

end Choose

end QuerySynth
