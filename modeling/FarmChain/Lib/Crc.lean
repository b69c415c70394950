import Mathlib.Data.List.Basic

/-! Cyclic redundancy checks, reflected.

The register takes the message one bit at a time, a byte's lowest first, and shifts right;
what falls out decides whether the polynomial is added. A register whose polynomial has its
top bit forgets nothing, so two messages that differ in no more consecutive bits than the
register has, and are otherwise the same, leave it different (`burst_detected`). -/
namespace FarmChain.Crc

variable {w : Nat}

/-- A bit as it enters the register. -/
def entering (b : Bool) : BitVec w := if b then 1#w else 0#w

/-- A shift without input. -/
def shift (poly s : BitVec w) : BitVec w :=
  (s >>> 1) ^^^ (if s.getLsbD 0 then poly else 0#w)

def step (poly s : BitVec w) (b : Bool) : BitVec w := shift poly (s ^^^ entering b)

/-- The register after a message. -/
def feed (poly : BitVec w) : BitVec w → List Bool → BitVec w
  | s, [] => s
  | s, b :: rest => feed poly (step poly s b) rest

/-- The bits of a message in the order they are taken. -/
def bits (bytes : List UInt8) : List Bool :=
  bytes.flatMap fun b => (List.range 8).map b.toBitVec.getLsbD

/-- Two messages that are the same but for at most `n` consecutive bits, and are not the same. -/
def Burst (n : Nat) (l m : List Bool) : Prop :=
  ∃ before x y after, l = before ++ x ++ after ∧ m = before ++ y ++ after ∧
    x.length = y.length ∧ x.length ≤ n ∧ x ≠ y

variable {poly : BitVec w}

theorem feed_append (s : BitVec w) (l m : List Bool) :
    feed poly s (l ++ m) = feed poly (feed poly s l) m := by
  induction l generalizing s with
  | nil => rfl
  | cons b rest ih => exact ih _

theorem getLsbD_shift (s : BitVec w) (i : Nat) :
    (shift poly s).getLsbD i = (s.getLsbD (i + 1) ^^ (s.getLsbD 0 && poly.getLsbD i)) := by
  unfold shift
  rw [BitVec.getLsbD_xor, BitVec.getLsbD_ushiftRight, Nat.add_comm 1 i]
  cases s.getLsbD 0 <;> simp

theorem shift_xor (s t : BitVec w) : shift poly (s ^^^ t) = shift poly s ^^^ shift poly t := by
  refine BitVec.eq_of_getLsbD_eq fun i _ => ?_
  simp only [getLsbD_shift, BitVec.getLsbD_xor]
  generalize s.getLsbD (i + 1) = a
  generalize t.getLsbD (i + 1) = b
  cases s.getLsbD 0 <;> cases t.getLsbD 0 <;> cases poly.getLsbD i <;> cases a <;> cases b <;> rfl

/-- Nothing but zero shifts to zero. -/
theorem shift_eq_zero (hpoly : poly.msb = true) {s : BitVec w} (h : shift poly s = 0#w) :
    s = 0#w := by
  have hbit (i : Nat) : (s.getLsbD (i + 1) ^^ (s.getLsbD 0 && poly.getLsbD i)) = false := by
    rw [← getLsbD_shift, h, BitVec.getLsbD_zero]
  -- the polynomial's top bit would be left over
  have hlow : s.getLsbD 0 = false := by
    have htop := hbit (w - 1)
    have hout : s.getLsbD (w - 1 + 1) = false := BitVec.getLsbD_of_ge s _ (by omega)
    rw [hout, ← BitVec.msb_eq_getLsbD_last, hpoly] at htop
    simpa using htop
  refine BitVec.eq_of_getLsbD_eq fun i _ => ?_
  rw [BitVec.getLsbD_zero]
  cases i with
  | zero => exact hlow
  | succ i =>
    have hnext := hbit i
    rw [hlow] at hnext
    simpa using hnext

theorem shift_injective (hpoly : poly.msb = true) {s t : BitVec w}
    (h : shift poly s = shift poly t) : s = t := by
  have hzero : shift poly (s ^^^ t) = 0#w := by
    rw [shift_xor, h, BitVec.xor_self]
  exact BitVec.xor_eq_zero_iff.mp (shift_eq_zero hpoly hzero)

/-- The register forgets nothing. -/
theorem feed_injective (hpoly : poly.msb = true) {s t : BitVec w} {l : List Bool}
    (h : feed poly s l = feed poly t l) : s = t := by
  induction l generalizing s t with
  | nil => exact h
  | cons b rest ih =>
    have hentered := shift_injective hpoly (ih h)
    simpa [BitVec.xor_assoc] using congrArg (· ^^^ entering b) hentered

/-! ### As many bits as the register has -/

/-- Bits laid out in a register, the first lowest. -/
def pack : List Bool → BitVec w
  | [] => 0#w
  | b :: rest => (pack rest <<< 1) ^^^ entering b

def shifts (poly : BitVec w) : Nat → BitVec w → BitVec w
  | 0, s => s
  | n + 1, s => shifts poly n (shift poly s)

theorem shifts_injective (hpoly : poly.msb = true) {n : Nat} {s t : BitVec w}
    (h : shifts poly n s = shifts poly n t) : s = t := by
  induction n generalizing s t with
  | zero => exact h
  | succ n ih => exact shift_injective hpoly (ih h)

theorem getLsbD_pack {l : List Bool} {i : Nat} (hi : i < w) :
    (pack l : BitVec w).getLsbD i = l.getD i false := by
  induction l generalizing i with
  | nil => simp [pack]
  | cons b rest ih =>
    rw [pack, BitVec.getLsbD_xor, BitVec.getLsbD_shiftLeft]
    cases i with
    | zero => cases b <;> simp [entering, hi]
    | succ i =>
      have hrest := ih (show i < w by omega)
      cases b <;> simp [entering, hi, hrest]

/-- Laid out one place higher, bits reach their place by one shift. -/
theorem shift_pack {l : List Bool} (hl : l.length < w) :
    shift poly (pack l <<< 1 : BitVec w) = pack l := by
  refine BitVec.eq_of_getLsbD_eq fun i hi => ?_
  rw [getLsbD_shift, BitVec.getLsbD_shiftLeft, BitVec.getLsbD_shiftLeft, getLsbD_pack hi]
  by_cases hlast : i + 1 < w
  · simp [hlast, getLsbD_pack hi]
  · have hout : l[i]? = none := List.getElem?_eq_none (by omega)
    simp [hlast, hout]

/-- Feeding bits is laying them out first and shifting then. -/
theorem feed_eq_shifts {l : List Bool} (hl : l.length ≤ w) (s : BitVec w) :
    feed poly s l = shifts poly l.length (s ^^^ pack l) := by
  induction l generalizing s with
  | nil => simp [feed, shifts, pack]
  | cons b rest ih =>
    rw [List.length_cons] at hl
    have hlaid : s ^^^ pack (b :: rest) = (s ^^^ entering b) ^^^ pack rest <<< 1 := by
      rw [pack, BitVec.xor_comm (pack rest <<< 1), BitVec.xor_assoc]
    rw [feed, ih (by omega), List.length_cons, shifts, hlaid, shift_xor _ (pack rest <<< 1),
      shift_pack (by omega), step]

/-- As many bits as the register has are told apart. -/
theorem feed_inj_bits (hpoly : poly.msb = true) {s : BitVec w} {x y : List Bool}
    (hlength : x.length = y.length) (hle : x.length ≤ w) (h : feed poly s x = feed poly s y) :
    x = y := by
  rw [feed_eq_shifts hle, feed_eq_shifts (hlength ▸ hle), ← hlength] at h
  have hpack : (pack x : BitVec w) = pack y := BitVec.xor_right_inj s |>.mp (shifts_injective hpoly h)
  refine List.ext_getElem hlength fun i hx hy => ?_
  have hbit := congrArg (fun v : BitVec w => v.getLsbD i) hpack
  simpa [getLsbD_pack (Nat.lt_of_lt_of_le hx hle), hx, hy] using hbit

/-- **A burst no longer than the register changes what is left in it.** -/
theorem burst_detected (hpoly : poly.msb = true) (s : BitVec w) {l m : List Bool}
    (h : Burst w l m) : feed poly s l ≠ feed poly s m := by
  obtain ⟨before, x, y, after, rfl, rfl, hlength, hle, hne⟩ := h
  intro hsame
  rw [feed_append, feed_append, feed_append, feed_append] at hsame
  exact hne (feed_inj_bits hpoly hlength hle (feed_injective hpoly hsame))

/-- The check value of CRC-32, from the nine digits. -/
example : ~~~feed 0xEDB88320#32 (BitVec.allOnes 32) (bits "123456789".toUTF8.data.toList) =
    0xCBF43926#32 := by decide +kernel

/-- What comes before does not matter. -/
theorem Burst.append_left {n : Nat} {l m : List Bool} (h : Burst n l m) (front : List Bool) :
    Burst n (front ++ l) (front ++ m) := by
  obtain ⟨before, x, y, after, rfl, rfl, hburst⟩ := h
  exact ⟨front ++ before, x, y, after, by simp, by simp, hburst⟩

end FarmChain.Crc
