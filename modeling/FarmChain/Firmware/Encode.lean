import Mathlib.Data.Int.DivMod

/-! The firmware's side of a reading.

`encodeSensorValue` packs a soil count and a temperature bucket into one number, and
`crtEncode` splits the number into the residues that go out one packet each. The
arithmetic is the C code's, on its own fixed-width integers. -/
namespace FarmChain.Firmware

/-- `sensor_reading_t`. -/
structure SensorReading where
  soilMoistureRaw : UInt16
  temperatureCentiC : Int16
  deriving DecidableEq, Repr

def READING_TEMP_BUCKETS : UInt32 := 201

def CRT_MODULUS_0 : UInt16 := 97
def CRT_MODULUS_1 : UInt16 := 101
def CRT_MODULUS_2 : UInt16 := 103
def CRT_RESIDUE_COUNT : UInt8 := 3
/-- The header's literal. The moduli multiply to 1009091, so the static assertion of
`crt_encode.c` that it is their product does not hold. -/
def CRT_MAX_VALUE : UInt32 := 1009591

/-- The temperature's bucket, kept within the buckets there are. -/
def tempBucket (reading : SensorReading) : Int32 :=
  let tempBucket := (reading.temperatureCentiC.toInt32 + 5500) / 100
  if tempBucket < 0 then 0
  else if tempBucket ≥ READING_TEMP_BUCKETS.toInt32 then (READING_TEMP_BUCKETS - 1).toInt32
  else tempBucket

def encodeSensorValue (reading : SensorReading) : UInt32 :=
  let soil := reading.soilMoistureRaw.toUInt32
  let soil := if soil > 4095 then 4095 else soil
  soil * READING_TEMP_BUCKETS + (tempBucket reading).toUInt32

/-! ### Residues -/

inductive EspErr where
  | ESP_ERR_INVALID_ARG | ESP_ERR_INVALID_SIZE | ESP_ERR_NOT_FOUND
  deriving DecidableEq, Repr

/-- `crt_residue_t`. -/
structure CrtResidue where
  index : UInt8
  value : UInt8
  deriving DecidableEq, Repr

def moduli : List UInt16 := [CRT_MODULUS_0, CRT_MODULUS_1, CRT_MODULUS_2]

def crtModulusForIndex (index : UInt8) : UInt16 :=
  if index < CRT_RESIDUE_COUNT then moduli.getD index.toNat 0 else 0

/-- The residue the loop writes at `i`. -/
def residueAt (reading : UInt32) (i : UInt8) : CrtResidue where
  index := i
  value := (reading % (moduli.getD i.toNat 0).toUInt32).toUInt8

/-- A pointer argument; `none` is `NULL`. -/
abbrev Pointer (α : Type) := Option α

/-- What `residues` points at afterwards. -/
def crtEncode (reading : UInt32) (residues : Pointer (List CrtResidue)) :
    Except EspErr (List CrtResidue) :=
  if residues = none then .error .ESP_ERR_INVALID_ARG
  else if reading ≥ CRT_MAX_VALUE then .error .ESP_ERR_INVALID_SIZE
  else .ok ([0, 1, 2].map (residueAt reading))

/-- C's division truncates: below zero it is the negative of a floored quotient. -/
theorem tdiv_cases (a d : Int) :
    (0 ≤ a ∧ a.tdiv d = a / d) ∨ (a < 0 ∧ a.tdiv d = -(-a / d)) := by
  rcases Int.lt_or_le a 0 with hneg | hnonneg
  · refine .inr ⟨hneg, ?_⟩
    rw [← Int.tdiv_eq_ediv_of_nonneg (by omega), Int.neg_tdiv, Int.neg_neg]
  · exact .inl ⟨hnonneg, Int.tdiv_eq_ediv_of_nonneg hnonneg⟩

/-! ### The packed value is in range -/

theorem tempBucket_range (reading : SensorReading) :
    0 ≤ (tempBucket reading).toInt ∧ (tempBucket reading).toInt ≤ 200 := by
  unfold tempBucket
  dsimp only
  generalize (reading.temperatureCentiC.toInt32 + 5500) / 100 = bucket
  split
  · decide
  · rename_i hneg
    split
    · decide
    · rename_i hlarge
      rw [Int32.lt_iff_toInt_lt] at hneg
      rw [ge_iff_le, Int32.le_iff_toInt_le] at hlarge
      have hzero : (0 : Int32).toInt = 0 := by decide
      have hbuckets : READING_TEMP_BUCKETS.toInt32.toInt = 201 := by decide
      omega

theorem toNat_tempBucket (reading : SensorReading) :
    (tempBucket reading).toUInt32.toNat = (tempBucket reading).toInt.toNat := by
  have hrange := tempBucket_range reading
  have hnonneg : (0 : Int32) ≤ tempBucket reading := by
    rw [Int32.le_iff_toInt_le]
    exact hrange.1
  rw [Int32.toNat_toUInt32_of_le hnonneg]
  rfl

/-- Nothing overflows: the packed value is the clamped soil count's share plus the bucket. -/
theorem toNat_encodeSensorValue (reading : SensorReading) :
    (encodeSensorValue reading).toNat =
      min reading.soilMoistureRaw.toNat 4095 * 201 + (tempBucket reading).toInt.toNat := by
  have hrange := tempBucket_range reading
  have hsoil : (if reading.soilMoistureRaw.toUInt32 > 4095 then 4095
      else reading.soilMoistureRaw.toUInt32).toNat = min reading.soilMoistureRaw.toNat 4095 := by
    split
    · rename_i h
      have h : 4095 < reading.soilMoistureRaw.toNat := UInt32.lt_iff_toNat_lt.mp h
      rw [Nat.min_eq_right (Nat.le_of_lt h)]
      rfl
    · rename_i h
      have h : ¬4095 < reading.soilMoistureRaw.toNat := fun hlt => h (UInt32.lt_iff_toNat_lt.mpr hlt)
      rw [UInt16.toNat_toUInt32]
      omega
  have hbuckets : READING_TEMP_BUCKETS.toNat = 201 := rfl
  unfold encodeSensorValue
  rw [UInt32.toNat_add, UInt32.toNat_mul, hsoil, toNat_tempBucket, hbuckets]
  omega

theorem encodeSensorValue_lt (reading : SensorReading) :
    (encodeSensorValue reading).toNat < CRT_MAX_VALUE.toNat := by
  have hrange := tempBucket_range reading
  have hmax : CRT_MAX_VALUE.toNat = 1009591 := rfl
  rw [toNat_encodeSensorValue, hmax]
  omega

/-- The firmware's encoder never rejects what the firmware packs. -/
theorem crtEncode_encodeSensorValue (reading : SensorReading) (residues : List CrtResidue) :
    crtEncode (encodeSensorValue reading) (some residues) =
      .ok ([0, 1, 2].map (residueAt (encodeSensorValue reading))) := by
  have hlt := encodeSensorValue_lt reading
  unfold crtEncode
  rw [if_neg (by simp), if_neg]
  rw [ge_iff_le, UInt32.le_iff_toNat_le]
  omega

/-- The residues are those of the value, each at its modulus. -/
theorem residueAt_value (reading : UInt32) {i : UInt8} (hi : i ∈ [0, 1, 2]) :
    (residueAt reading i).value.toNat = reading.toNat % (crtModulusForIndex i).toNat := by
  have hmodulus : (crtModulusForIndex i).toNat ≤ 103 ∧ 0 < (crtModulusForIndex i).toNat ∧
      crtModulusForIndex i = moduli.getD i.toNat 0 := by
    simp only [List.mem_cons, List.not_mem_nil, or_false] at hi
    rcases hi with rfl | rfl | rfl <;> decide
  obtain ⟨hle, hpos, heq⟩ := hmodulus
  unfold residueAt
  have hlt := Nat.mod_lt reading.toNat hpos
  rw [← heq, UInt32.toNat_toUInt8, UInt32.toNat_mod, UInt16.toNat_toUInt32]
  exact Nat.mod_eq_of_lt (by omega)

end FarmChain.Firmware
