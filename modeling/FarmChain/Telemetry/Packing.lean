import Mathlib.Order.Lattice
import FarmChain.Firmware.WakeCycle

/-! Packing, in the firmware and in the analysis.

The firmware truncates the temperature's quotient and then clamps it, the analysis script
floors and clips. They differ only below the range, where both give bucket 0, so they pack
every reading into the same number (`packing_exact`). -/
namespace FarmChain.Telemetry
open Firmware

/-! ### The analysis script

Its arrays are of 64-bit integers, and its operators work on one element at a time. -/

def TEMP_BUCKETS : Int64 := 201

/-- `np.clip`. -/
def clip (x lo hi : Int64) : Int64 := min (max x lo) hi

/-- `//`. -/
def floorDiv (x d : Int64) : Int64 := Int64.ofInt (x.toInt.fdiv d.toInt)

/-- On arrays of the same length. -/
def encodePacked (soilRaw tempCentiC : List Int64) : List Int64 :=
  let soil := soilRaw.map fun s => clip s 0 4095
  let bucket := tempCentiC.map fun t => clip (floorDiv (t + 5500) 100) 0 (TEMP_BUCKETS - 1)
  List.zipWith (fun s b => s * TEMP_BUCKETS + b) soil bucket

/-- The bucket of a temperature, in exact arithmetic. -/
def bucketOf (temperature : Int) : Int := max 0 (min ((temperature + 5500).fdiv 100) 200)

/-! ### The firmware's bucket -/

theorem toInt_tempBucket (reading : SensorReading) :
    (tempBucket reading).toInt = bucketOf reading.temperatureCentiC.toInt := by
  have hlow := reading.temperatureCentiC.le_toInt
  have hhigh := reading.temperatureCentiC.toInt_lt
  have htruncated := tdiv_cases (reading.temperatureCentiC.toInt + 5500) 100
  have hsum : (reading.temperatureCentiC.toInt32 + 5500).toInt =
      reading.temperatureCentiC.toInt + 5500 := by
    have hoffset : (5500 : Int32).toInt = 5500 := by decide
    rw [Int32.toInt_add, Int16.toInt_toInt32, hoffset, Int.bmod_eq_of_le] <;> omega
  have hquot : ((reading.temperatureCentiC.toInt32 + 5500) / 100).toInt =
      (reading.temperatureCentiC.toInt + 5500).tdiv 100 := by
    have hhundred : (100 : Int32).toInt = 100 := by decide
    rw [Int32.toInt_div, hsum, hhundred, Int.bmod_eq_of_le] <;> omega
  have hbuckets : READING_TEMP_BUCKETS.toInt32.toInt = 201 := by decide
  have hlast : (READING_TEMP_BUCKETS - 1).toInt32.toInt = 200 := by decide
  have hzero : (0 : Int32).toInt = 0 := by decide
  unfold tempBucket bucketOf
  rw [Int.fdiv_eq_ediv_of_nonneg _ (by decide)]
  dsimp only
  split
  · rename_i hlt
    rw [Int32.lt_iff_toInt_lt, hquot, hzero] at hlt
    rw [hzero]
    omega
  · rename_i hge
    rw [Int32.lt_iff_toInt_lt, hquot, hzero] at hge
    split
    · rename_i hlarge
      rw [ge_iff_le, Int32.le_iff_toInt_le, hquot, hbuckets] at hlarge
      rw [hlast]
      omega
    · rename_i hsmall
      rw [ge_iff_le, Int32.le_iff_toInt_le, hquot, hbuckets] at hsmall
      rw [hquot]
      omega

/-! ### The analysis script's number -/

theorem toInt_clip (x lo hi : Int64) :
    (clip x lo hi).toInt = min (max x.toInt lo.toInt) hi.toInt := by
  have hmax : (max x lo).toInt = max x.toInt lo.toInt := by
    show (if x ≤ lo then lo else x).toInt = _
    split
    · rename_i h
      rw [max_eq_right (Int64.le_iff_toInt_le.mp h)]
    · rename_i h
      rw [Int64.le_iff_toInt_le, not_le] at h
      rw [max_eq_left (le_of_lt h)]
  rw [← hmax]
  show (if max x lo ≤ hi then max x lo else hi).toInt = _
  split
  · rename_i h
    rw [min_eq_left (Int64.le_iff_toInt_le.mp h)]
  · rename_i h
    rw [Int64.le_iff_toInt_le, not_le] at h
    rw [min_eq_right (le_of_lt h)]

/-- A soil count is clipped as the firmware clamps it. -/
theorem toInt_clip_soil (soil : UInt16) :
    (clip (.ofNat soil.toNat) 0 4095).toInt = (min soil.toNat 4095 : Nat) := by
  have hlt := soil.toNat_lt
  have hsoil : (Int64.ofNat soil.toNat).toInt = soil.toNat := by
    rw [Int64.toInt_ofNat_of_lt (by omega)]
  have hzero : (0 : Int64).toInt = 0 := by decide
  have hmost : (4095 : Int64).toInt = 4095 := by decide
  rw [toInt_clip, hsoil, hzero, hmost]
  omega

/-- A temperature is floored and clipped to its bucket. -/
theorem toInt_clip_bucket (temperature : Int16) :
    (clip (floorDiv (temperature.toInt64 + 5500) 100) 0 (TEMP_BUCKETS - 1)).toInt =
      bucketOf temperature.toInt := by
  have hlow := temperature.le_toInt
  have hhigh := temperature.toInt_lt
  have hsum : (temperature.toInt64 + 5500).toInt = temperature.toInt + 5500 := by
    have hoffset : (5500 : Int64).toInt = 5500 := by decide
    rw [Int64.toInt_add, Int16.toInt_toInt64, hoffset, Int.bmod_eq_of_le] <;> omega
  have hfloor : (floorDiv (temperature.toInt64 + 5500) 100).toInt =
      (temperature.toInt + 5500).fdiv 100 := by
    have hhundred : (100 : Int64).toInt = 100 := by decide
    have hsize : Int64.size = 2 ^ 64 := by decide
    rw [floorDiv, hsum, hhundred, Int64.toInt_ofInt, Int.fdiv_eq_ediv_of_nonneg _ (by decide),
      hsize, Int.bmod_eq_of_le] <;> omega
  have hzero : (0 : Int64).toInt = 0 := by decide
  have hlast : (TEMP_BUCKETS - 1).toInt = 200 := by decide
  rw [toInt_clip, hfloor, hzero, hlast, bucketOf]
  omega

theorem bucketOf_range (temperature : Int) :
    0 ≤ bucketOf temperature ∧ bucketOf temperature ≤ 200 := by
  unfold bucketOf
  omega

/-- One element of the script's array is the firmware's number. -/
theorem packed_element (reading : SensorReading) :
    clip (.ofNat reading.soilMoistureRaw.toNat) 0 4095 * TEMP_BUCKETS +
        clip (floorDiv (reading.temperatureCentiC.toInt64 + 5500) 100) 0 (TEMP_BUCKETS - 1) =
      .ofNat (encodeSensorValue reading).toNat := by
  have hbucket := bucketOf_range reading.temperatureCentiC.toInt
  have hbuckets : TEMP_BUCKETS.toInt = 201 := by decide
  have hproduct : (clip (.ofNat reading.soilMoistureRaw.toNat) 0 4095 * TEMP_BUCKETS).toInt =
      (min reading.soilMoistureRaw.toNat 4095 : Nat) * 201 := by
    rw [Int64.toInt_mul, toInt_clip_soil, hbuckets, Int.bmod_eq_of_le] <;> omega
  have hvalue := toNat_encodeSensorValue reading
  rw [toInt_tempBucket] at hvalue
  refine Int64.toInt_inj.mp ?_
  rw [Int64.toInt_add, hproduct, toInt_clip_bucket, Int64.toInt_ofNat_of_lt (by omega), hvalue,
    Int.bmod_eq_of_le] <;> omega

/-- The script packs an array of readings as the firmware packs each. -/
theorem encodePacked_readings (readings : List SensorReading) :
    encodePacked (readings.map fun r => .ofNat r.soilMoistureRaw.toNat)
        (readings.map fun r => r.temperatureCentiC.toInt64) =
      readings.map fun r => .ofNat (encodeSensorValue r).toNat := by
  induction readings with
  | nil => rfl
  | cons r rest ih => exact congrArg₂ List.cons (packed_element r) ih

/-- **The packed value is exact and in range, gives back what it packs, and is the same in
the firmware and in the analysis.** -/
theorem packing_exact (reading : SensorReading) :
    ((encodeSensorValue reading).toNat : Int) =
        201 * (min reading.soilMoistureRaw.toNat 4095 : Nat) +
          bucketOf reading.temperatureCentiC.toInt ∧
      (encodeSensorValue reading).toNat / 201 = min reading.soilMoistureRaw.toNat 4095 ∧
      (((encodeSensorValue reading).toNat % 201 : Nat) : Int) =
        bucketOf reading.temperatureCentiC.toInt ∧
      encodeSensorValue reading < CRT_MAX_VALUE ∧
      (∀ residues, ∃ written, espErrorCheck
        (crtEncode (encodeSensorValue reading) (some residues)) = .ok written) ∧
      ∀ readings : List SensorReading,
        encodePacked (readings.map fun r => .ofNat r.soilMoistureRaw.toNat)
            (readings.map fun r => r.temperatureCentiC.toInt64) =
          readings.map fun r => .ofNat (encodeSensorValue r).toNat := by
  have hbucket := bucketOf_range reading.temperatureCentiC.toInt
  have hvalue := toNat_encodeSensorValue reading
  rw [toInt_tempBucket] at hvalue
  refine ⟨by omega, by omega, by omega, ?_, fun residues => ?_, encodePacked_readings⟩
  · exact UInt32.lt_iff_toNat_lt.mpr (encodeSensorValue_lt reading)
  · rw [crtEncode_encodeSensorValue]
    exact ⟨_, rfl⟩

end FarmChain.Telemetry
