import Mathlib.Algebra.Group.Nat.Defs

/-! Numbers as bytes, the lowest first or the highest first, and back. -/
namespace FarmChain.Endian

/-- The first `n` bytes of a number, the lowest first. -/
def little : Nat → Nat → List UInt8
  | 0, _ => []
  | n + 1, value => UInt8.ofNat value :: little n (value / 256)

def ofLittle : List UInt8 → Nat
  | [] => 0
  | byte :: rest => byte.toNat + 256 * ofLittle rest

/-- The highest first. -/
def big (n value : Nat) : List UInt8 := (little n value).reverse

def ofBig (bytes : List UInt8) : Nat := ofLittle bytes.reverse

@[simp] theorem length_little (n value : Nat) : (little n value).length = n := by
  induction n generalizing value with
  | zero => rfl
  | succ n ih => rw [little, List.length_cons, ih]

@[simp] theorem length_big (n value : Nat) : (big n value).length = n := by
  rw [big, List.length_reverse, length_little]

/-- What the bytes lose of a number is what they have no room for. -/
theorem ofLittle_little (n value : Nat) : ofLittle (little n value) = value % 256 ^ n := by
  induction n generalizing value with
  | zero => exact (Nat.mod_one value).symm
  | succ n ih =>
    have hbyte : (UInt8.ofNat value).toNat = value % 256 := UInt8.toNat_ofNat'
    rw [little, ofLittle, ih, hbyte, Nat.pow_succ', Nat.mod_mul]

theorem little_injective {n value value' : Nat} (hvalue : value < 256 ^ n)
    (hvalue' : value' < 256 ^ n) (h : little n value = little n value') : value = value' := by
  have heq := congrArg ofLittle h
  rwa [ofLittle_little, ofLittle_little, Nat.mod_eq_of_lt hvalue, Nat.mod_eq_of_lt hvalue'] at heq

theorem ofBig_big {n value : Nat} (h : value < 256 ^ n) : ofBig (big n value) = value := by
  rw [ofBig, big, List.reverse_reverse, ofLittle_little, Nat.mod_eq_of_lt h]

end FarmChain.Endian
