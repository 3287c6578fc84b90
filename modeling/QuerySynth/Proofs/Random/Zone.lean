import Mathlib.Algebra.Order.Floor.Div
import QuerySynth.Random.Range

/-!
# Words of one number

Which words are scaled to a number `d` below `n`: those whose product with `n` lies in the
accepted part of the stretch `[2 ^ bits * d, 2 ^ bits * (d + 1))`.

* Where the part is `n * q` long, `q` words following each other have their products in it.
* Both tests have such parts.  The even one takes the largest `q` there is, and the coarse
  one takes a power of two.
-/

namespace QuerySynth.Draw

variable {bits n zone q d : Nat}

/-! ## Intervals of words -/

/-- The products of a number's words lie in the first part of its stretch, which is as
long as the zone allows. -/
theorem scale?_eq_some_iff {word : Nat} (hzone : zone + 1 = n * q) (hfit : n * q ≤ 2 ^ bits) :
    scale? bits n zone word = some d ↔
      2 ^ bits * d ≤ word * n ∧ word * n < 2 ^ bits * d + n * q := by
  have hdiv := Nat.div_add_mod (word * n) (2 ^ bits)
  show (if word * n % 2 ^ bits ≤ zone then some (word * n / 2 ^ bits) else none) = some d ↔ _
  constructor
  · intro h
    split at h
    · next hlow =>
      cases h
      omega
    · cases h
  · rintro ⟨hfrom, hto⟩
    obtain ⟨low, hlow⟩ := Nat.exists_eq_add_of_le hfrom
    have hover : low < 2 ^ bits := by omega
    rw [hlow, Nat.mul_add_mod, Nat.mod_eq_of_lt hover, Nat.mul_add_div (by omega),
      Nat.div_eq_of_lt hover, Nat.add_zero, if_pos (by omega)]

/-- The words of a number follow each other, from the first one whose product reaches
the stretch of the number. -/
theorem exists_scale?_interval (hd : d < n) (hzone : zone + 1 = n * q)
    (hfit : n * q ≤ 2 ^ bits) : ∃ first, first + q ≤ 2 ^ bits ∧
      ∀ word, scale? bits n zone word = some d ↔ first ≤ word ∧ word < first + q := by
  have hn : 0 < n := by omega
  obtain ⟨first, hfirst⟩ : ∃ first, ∀ word, first ≤ word ↔ 2 ^ bits * d ≤ word * n :=
    ⟨(2 ^ bits * d) ⌈/⌉ n, fun word => by rw [ceilDiv_le_iff_le_mul hn, Nat.mul_comm word]⟩
  -- `q` words further on, the products have left the part that the zone allows
  have hlast : ∀ word, word < first + q ↔ word * n < 2 ^ bits * d + n * q := by
    intro word
    by_cases hword : q ≤ word
    · obtain ⟨beyond, rfl⟩ := Nat.exists_eq_add_of_le hword
      have hbeyond := hfirst beyond
      rw [Nat.add_mul, Nat.mul_comm q n]
      omega
    · have hproduct : word * n < q * n := Nat.mul_lt_mul_of_pos_right (by omega) hn
      rw [Nat.mul_comm n q]
      omega
  refine ⟨first, ?_, fun word => ?_⟩
  · have hstretch : 2 ^ bits * (d + 1) ≤ 2 ^ bits * n := Nat.mul_le_mul_left _ hd
    have hbeyond := hlast (2 ^ bits)
    rw [Nat.mul_add] at hstretch
    omega
  · rw [scale?_eq_some_iff hzone hfit, hfirst, hlast]

/-- Some word is scaled to the number, wherever the zone has room for one. -/
theorem exists_scale?_eq_some (hd : d < n) (hq : 0 < q) (hzone : zone + 1 = n * q)
    (hfit : n * q ≤ 2 ^ bits) : ∃ word < 2 ^ bits, scale? bits n zone word = some d := by
  obtain ⟨first, hle, hfirst⟩ := exists_scale?_interval hd hzone hfit
  exact ⟨first, by omega, (hfirst first).mpr ⟨Nat.le_refl _, by omega⟩⟩

/-! ## Zones -/

theorem evenZone_add_one (hn : 0 < n) (hle : n ≤ 2 ^ bits) :
    evenZone bits n + 1 = n * (2 ^ bits / n) := by
  have hdiv := Nat.div_add_mod (2 ^ bits) n
  have hmod := Nat.mod_lt (2 ^ bits) hn
  show 2 ^ bits - 1 - (2 ^ bits - n) % n + 1 = n * (2 ^ bits / n)
  rw [← Nat.mod_eq_sub_mod hle]
  omega

theorem coarseZone_add_one (hn : 0 < n) :
    coarseZone bits n + 1 = n * 2 ^ (bits - 1 - n.log2) := by
  have hpos : 0 < n * 2 ^ (bits - 1 - n.log2) := Nat.mul_pos hn (Nat.two_pow_pos _)
  rw [coarseZone, Nat.shiftLeft_eq]
  omega

theorem mul_two_pow_le (hn : 0 < n) (hle : n ≤ 2 ^ bits) :
    n * 2 ^ (bits - 1 - n.log2) ≤ 2 ^ bits := by
  rcases Nat.lt_or_eq_of_le hle with hlt | rfl
  · have hlog : n.log2 < bits := (Nat.log2_lt (Nat.ne_of_gt hn)).mpr hlt
    calc n * 2 ^ (bits - 1 - n.log2)
        ≤ 2 ^ (n.log2 + 1) * 2 ^ (bits - 1 - n.log2) :=
          Nat.mul_le_mul_right _ (Nat.le_of_lt Nat.lt_log2_self)
      _ = 2 ^ bits := by
          rw [← Nat.pow_add]
          congr 1
          omega
  -- no bit is left to shift over
  · have hnone : bits - 1 - bits = 0 := by omega
    rw [Nat.log2_two_pow, hnone, Nat.pow_zero, Nat.mul_one]

theorem exists_scale?_even (hd : d < n) (hle : n ≤ 2 ^ bits) :
    ∃ word < 2 ^ bits, scale? bits n (evenZone bits n) word = some d := by
  have hn : 0 < n := by omega
  exact exists_scale?_eq_some hd (Nat.div_pos hle hn) (evenZone_add_one hn hle)
    (Nat.mul_div_le _ _)

theorem exists_scale?_coarse (hd : d < n) (hle : n ≤ 2 ^ bits) :
    ∃ word < 2 ^ bits, scale? bits n (coarseZone bits n) word = some d := by
  have hn : 0 < n := by omega
  exact exists_scale?_eq_some hd (Nat.two_pow_pos _) (coarseZone_add_one hn)
    (mul_two_pow_le hn hle)

/-- The zeros in front of a number, written with so many bits. -/
theorem toNat_clz_ofNat (hn : 0 < n) (hlt : n < 2 ^ bits) :
    (BitVec.ofNat bits n).clz.toNat = bits - 1 - n.log2 := by
  have hvalue : (BitVec.ofNat bits n).toNat = n := by
    rw [BitVec.toNat_ofNat, Nat.mod_eq_of_lt hlt]
  have hupper := BitVec.toNat_lt_two_pow_sub_clz (x := BitVec.ofNat bits n)
  rw [hvalue] at hupper
  have hclz : (BitVec.ofNat bits n).clz.toNat < bits := by
    by_contra hge
    rw [Nat.sub_eq_zero_of_le (Nat.le_of_not_lt hge)] at hupper
    omega
  have hlower := BitVec.two_pow_sub_clz_le_toNat_of_ne_zero (x := BitVec.ofNat bits n)
    (by omega) (fun hzero => by rw [hzero, BitVec.toNat_ofNat, Nat.zero_mod] at hvalue; omega)
  rw [hvalue] at hlower
  have hlog : n.log2 = bits - 1 - (BitVec.ofNat bits n).clz.toNat := by
    refine (Nat.log2_eq_iff (by omega)).mpr ⟨hlower, ?_⟩
    rwa [show bits - 1 - (BitVec.ofNat bits n).clz.toNat + 1 =
      bits - (BitVec.ofNat bits n).clz.toNat by omega]
  omega

end QuerySynth.Draw
