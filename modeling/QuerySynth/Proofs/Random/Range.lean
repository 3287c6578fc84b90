import Mathlib.Algebra.Group.Nat.Defs
import QuerySynth.Proofs.Random.Outcome

/-!
# Drawn numbers stay below their bound

Whatever a source hands out, a number drawn below `n` is less than `n`, by
either test and either width of word.  The tests themselves only decide which
words are refused, so they play no part here.
-/

namespace QuerySynth.Draw

variable {σ α : Type}

theorem yields_retryUpTo {attempt : Draw σ (Option α)} {rounds : Nat} {a : α}
    (h : Yields (retryUpTo attempt rounds) a) : Yields attempt (some a) := by
  induction rounds with
  | zero => exact absurd h not_yields_failure
  | succ rounds ih =>
      rw [retryUpTo] at h
      obtain ⟨found, hfound, h⟩ := yields_bind h
      -- a refused word leaves the matter to the rounds that remain
      cases found with
      | none => exact ih h
      | some b =>
          cases yields_pure h
          exact hfound

theorem scale?_lt {bits n zone word v : Nat} (hn : 0 < n) (hword : word < 2 ^ bits)
    (h : scale? bits n zone word = some v) : v < n := by
  unfold scale? at h
  split at h
  · cases h
    have hproduct : word * n < 2 ^ bits * n := Nat.mul_lt_mul_of_pos_right hword hn
    exact Nat.div_lt_of_lt_mul hproduct
  · cases h

variable [WordSource σ]

theorem yields_retry {attempt : Draw σ (Option α)} {a : α} (h : Yields (retry attempt) a) :
    Yields attempt (some a) := by
  obtain ⟨s, t, h⟩ := h
  exact yields_retryUpTo ⟨s, t, h⟩

theorem word32_lt {w : Nat} (h : Yields (word32 : Draw σ Nat) w) : w < 2 ^ 32 := by
  obtain ⟨s, t, h⟩ := h
  obtain ⟨⟨word, u⟩, -, hw⟩ := Option.map_eq_some_iff.mp h
  cases hw
  exact word.toNat_lt

theorem word64_lt {w : Nat} (h : Yields (word64 : Draw σ Nat) w) : w < 2 ^ 64 := by
  obtain ⟨s, t, h⟩ := h
  obtain ⟨⟨word, u⟩, -, hw⟩ := Option.map_eq_some_iff.mp h
  cases hw
  exact word.toNat_lt

theorem scaled_lt {bits n zone v : Nat} {word : Draw σ Nat} (hn : 0 < n)
    (hword : ∀ w, Yields word w → w < 2 ^ bits) (h : Yields (scaled bits n zone word) v) :
    v < n := by
  obtain ⟨w, hw, h⟩ := yields_bind (yields_retry h)
  exact scale?_lt hn (hword w hw) (yields_pure h).symm

theorem below32_lt {n v : Nat} (hn : 0 < n) (h : Yields (below32 n : Draw σ Nat) v) : v < n :=
  scaled_lt hn (fun _ => word32_lt) h

theorem below64_lt {n v : Nat} (hn : 0 < n) (h : Yields (below64 n : Draw σ Nat) v) : v < n := by
  unfold below64 at h
  split at h
  · next hsize =>
    rw [hsize]
    exact word64_lt h
  · exact scaled_lt hn (fun _ => word64_lt) h

theorem place_lt {length v : Nat} (hlength : 0 < length)
    (h : Yields (place length : Draw σ Nat) v) : v < length := by
  unfold place at h
  split at h
  · exact below32_lt hlength h
  · exact below64_lt hlength h

theorem evenBelow32_lt {n v : Nat} (hn : 0 < n) (h : Yields (evenBelow32 n : Draw σ Nat) v) :
    v < n :=
  scaled_lt hn (fun _ => word32_lt) h

theorem evenBelow64_lt {n v : Nat} (hn : 0 < n) (h : Yields (evenBelow64 n : Draw σ Nat) v) :
    v < n :=
  scaled_lt hn (fun _ => word64_lt) h

end QuerySynth.Draw
