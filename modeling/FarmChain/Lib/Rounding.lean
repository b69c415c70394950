import Mathlib.Data.Int.Log
import Mathlib.Data.Rat.Floor
import Mathlib.Algebra.Order.Field.Power
import Mathlib.Tactic.Linarith

/-! Rounding to a number of bits.

`nearest p q` is the number with `p` significant bits that is nearest to `q`, the even one of
two: what an operation of IEEE arithmetic makes of an exact result, as long as that is neither
too large nor too small. A number whose last bit is zero is reached from half of that bit
below (`le_nearest_iff`). -/
namespace FarmChain.Rounding

section
variable {K : Type} [Field K] [LinearOrder K] [FloorRing K]

/-- The integer nearest to a number, the even one of two. -/
def halfEven (q : K) : Int :=
  if q - ⌊q⌋ < 1 / 2 then ⌊q⌋
  else if 1 / 2 < q - ⌊q⌋ then ⌊q⌋ + 1
  else if Even ⌊q⌋ then ⌊q⌋
  else ⌊q⌋ + 1

/-- The exponent of the last of the `p` bits that are kept. -/
def lastBit (p : Nat) (q : K) : Int := Int.log 2 |q| + 1 - p

def nearest (p : Nat) (q : K) : K :=
  halfEven (q / 2 ^ lastBit p q) * 2 ^ lastBit p q

/-! ### Powers of two -/

theorem two_zpow_add_natCast (e : Int) (p : Nat) : (2 : K) ^ (e + p) = 2 ^ p * 2 ^ e := by
  rw [zpow_add₀ two_ne_zero, zpow_natCast, mul_comm]

/-- A power of two is a multiple of the smaller ones. -/
theorem exists_zpow_eq {e e' : Int} (h : e ≤ e') : ∃ n : Int, (2 : K) ^ e' = n * 2 ^ e := by
  obtain ⟨d, rfl⟩ := Int.exists_add_of_le h
  exact ⟨2 ^ d, by rw [two_zpow_add_natCast]; push_cast; rfl⟩

/-! ### To an integer -/

theorem le_halfEven {n : Int} {q : K} (h : n ≤ q) : n ≤ halfEven q := by
  have hfloor : n ≤ ⌊q⌋ := Int.le_floor.mpr h
  unfold halfEven
  split_ifs <;> omega

variable [IsStrictOrderedRing K]

theorem halfEven_le {n : Int} {q : K} (h : q ≤ n) : halfEven q ≤ n := by
  rcases h.lt_or_eq with hlt | rfl
  · have hfloor : ⌊q⌋ < n := Int.floor_lt.mpr hlt
    unfold halfEven
    split_ifs <;> omega
  · simp [halfEven]

/-- Among the integers half makes no difference. -/
theorem sub_half_le_intCast {k z : Int} : (k : K) - 1 / 2 ≤ z ↔ k ≤ z := by
  constructor
  · intro h
    by_contra hless
    have hcast : (z : K) + 1 ≤ k := by exact_mod_cast not_le.mp hless
    linarith
  · intro h
    have hcast : (k : K) ≤ z := Int.cast_le.mpr h
    linarith

/-- An even integer is reached half below it. -/
theorem le_halfEven_iff {k : Int} (hk : Even k) {q : K} :
    k ≤ halfEven q ↔ (k : K) - 1 / 2 ≤ q := by
  have hfloor := Int.floor_le q
  have hlt := Int.lt_floor_add_one q
  rcases lt_trichotomy (⌊q⌋ + 1) k with hbelow | hnext | habove
  · have hcast : ((⌊q⌋ : K) + 1) + 1 ≤ k := by exact_mod_cast hbelow
    refine iff_of_false (fun h => ?_) (fun h => by linarith)
    unfold halfEven at h
    split_ifs at h <;> omega
  · have hcast : (⌊q⌋ : K) + 1 = k := by exact_mod_cast hnext
    have hodd : ¬Even ⌊q⌋ := by
      rw [← hnext, Int.even_add_one] at hk
      exact hk
    unfold halfEven
    rw [if_neg hodd]
    split_ifs with hless hmore
    · exact iff_of_false (by omega) (by linarith)
    · exact iff_of_true hnext.symm.le (by linarith)
    · exact iff_of_true hnext.symm.le (by linarith)
  · have hcast : (k : K) ≤ ⌊q⌋ := by exact_mod_cast Int.lt_add_one_iff.mp habove
    exact iff_of_true (le_halfEven (hcast.trans hfloor)) (by linarith)

/-! ### To some bits -/

/-- The bits that are kept start at the first. -/
theorem lastBit_bounds {p : Nat} {q : K} (h : 0 < q) :
    (2 : K) ^ (lastBit (p + 1) q + p) ≤ q ∧ q < 2 ^ (lastBit (p + 1) q + (p + 1 : Nat)) := by
  have hlog : lastBit (p + 1) q + p = Int.log 2 q := by
    rw [lastBit, abs_of_pos h]
    push_cast
    ring
  have hnext : lastBit (p + 1) q + (p + 1 : Nat) = Int.log 2 q + 1 := by
    rw [← hlog]
    push_cast
    ring
  rw [hlog, hnext]
  exact ⟨Int.zpow_log_le_self one_lt_two h, Int.lt_zpow_succ_log_self one_lt_two q⟩

section
variable {p : Nat} {q : K} {e : Int}

/-- Rounding does not pass a power of two. -/
theorem zpow_le_nearest (he : lastBit p q ≤ e) (h : 2 ^ e ≤ q) : 2 ^ e ≤ nearest p q := by
  have hpos : (0 : K) < 2 ^ lastBit p q := zpow_pos two_pos _
  obtain ⟨n, hn⟩ := exists_zpow_eq (K := K) he
  rw [hn] at h ⊢
  have hle : n ≤ halfEven (q / 2 ^ lastBit p q) := le_halfEven ((le_div_iff₀ hpos).mpr h)
  exact mul_le_mul_of_nonneg_right (Int.cast_le.mpr hle) hpos.le

theorem nearest_le_zpow (he : lastBit p q ≤ e) (h : q ≤ 2 ^ e) : nearest p q ≤ 2 ^ e := by
  have hpos : (0 : K) < 2 ^ lastBit p q := zpow_pos two_pos _
  obtain ⟨n, hn⟩ := exists_zpow_eq (K := K) he
  rw [hn] at h ⊢
  have hle : halfEven (q / 2 ^ lastBit p q) ≤ n := halfEven_le ((div_le_iff₀ hpos).mpr h)
  exact mul_le_mul_of_nonneg_right (Int.cast_le.mpr hle) hpos.le

theorem nearest_nonpos (h : q ≤ 0) : nearest p q ≤ 0 := by
  have hpos : (0 : K) < 2 ^ lastBit p q := zpow_pos two_pos _
  have hle : halfEven (q / 2 ^ lastBit p q) ≤ 0 :=
    halfEven_le (by rw [Int.cast_zero]; exact div_nonpos_of_nonpos_of_nonneg h hpos.le)
  exact mul_nonpos_of_nonpos_of_nonneg (Int.cast_nonpos.mpr hle) hpos.le

/-- **What rounds up to a number.** A number of `p + 1` bits, of which the last is zero and
another than the first is not, is reached from half of its last bit below. -/
theorem le_nearest_iff {k : Int} (hk : Even k) (hlow : 2 ^ p < k) (hhigh : k < 2 ^ (p + 1)) :
    (k : K) * 2 ^ e ≤ nearest (p + 1) q ↔ ((k : K) - 1 / 2) * 2 ^ e ≤ q := by
  have hpos : (0 : K) < 2 ^ e := zpow_pos two_pos _
  have hlow' : (2 : K) ^ p + 1 ≤ k := by exact_mod_cast hlow
  have hhigh' : (k : K) ≤ 2 ^ (p + 1) := by exact_mod_cast hhigh.le
  have hfirst : (2 : K) ^ (e + p) < ((k : K) - 1 / 2) * 2 ^ e := by
    rw [two_zpow_add_natCast]
    exact mul_lt_mul_of_pos_right (by linarith) hpos
  have hlast : ((k : K) - 1 / 2) * 2 ^ e < k * 2 ^ e :=
    mul_lt_mul_of_pos_right (by linarith) hpos
  have hnext : (k : K) * 2 ^ e ≤ 2 ^ (e + (p + 1 : Nat)) := by
    rw [two_zpow_add_natCast]
    exact mul_le_mul_of_nonneg_right hhigh' hpos.le
  rcases le_or_gt q 0 with hq | hq
  · have hnearest := nearest_nonpos (p := p + 1) hq
    have hpositive : (0 : K) < 2 ^ (e + p) := zpow_pos two_pos _
    exact iff_of_false (by linarith) (by linarith)
  · obtain ⟨hstart, hend⟩ := lastBit_bounds (p := p) hq
    rcases lt_trichotomy (lastBit (p + 1) q) e with hless | heq | hmore
    · -- all its bits are below those of `k`
      have hbelow : (2 : K) ^ (lastBit (p + 1) q + (p + 1 : Nat)) ≤ 2 ^ (e + p) :=
        zpow_le_zpow_right₀ one_le_two (by omega)
      have hnearest := nearest_le_zpow (p := p + 1) (by omega) (hend.le.trans hbelow)
      exact iff_of_false (by linarith) (by linarith)
    · rw [nearest, heq, mul_le_mul_iff_left₀ hpos, Int.cast_le, le_halfEven_iff hk,
        le_div_iff₀ hpos]
    · -- its first bit is above
      have habove : (2 : K) ^ (e + (p + 1 : Nat)) ≤ 2 ^ (lastBit (p + 1) q + p) :=
        zpow_le_zpow_right₀ one_le_two (by omega)
      have hnearest := zpow_le_nearest (p := p + 1) (by omega) hstart
      exact iff_of_true (by linarith) (by linarith)

/-- A number that needs no rounding has no bits below its last. -/
theorem exists_multiple (h : nearest (p + 1) q = q) (hq : 2 ^ (e + p) ≤ q) :
    ∃ z : Int, q = z * 2 ^ e := by
  have hpos : (0 : K) < q := lt_of_lt_of_le (zpow_pos two_pos _) hq
  have hlt := hq.trans_lt (lastBit_bounds (p := p) hpos).2
  have hlast : e ≤ lastBit (p + 1) q := by
    have hexp := (zpow_lt_zpow_iff_right₀ one_lt_two).mp hlt
    omega
  obtain ⟨n, hn⟩ := exists_zpow_eq (K := K) hlast
  rw [nearest, hn] at h
  exact ⟨halfEven (q / (n * 2 ^ e)) * n, by rw [Int.cast_mul, mul_assoc, h]⟩

end

end

end FarmChain.Rounding
