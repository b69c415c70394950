import FarmChain.Firmware.Sensor
import FarmChain.Telemetry.Packing

/-! Temperatures out of range.

The buckets saturate, but they are taken of a number that `read_ds18b20` has already cast
to 16 bits. A raw value whose hundredths of a degree do not fit there comes back from the
other side; it is packed as it should be only where it wraps around to the end of the range
it left by (`saturation_iff`). -/
namespace FarmChain.Telemetry
open Firmware

/-- The bucket of a raw value, in exact arithmetic. -/
def rawBucket (raw : Int16) : Int := bucketOf ((100 * raw.toInt).tdiv 16)

/-- Raw values that are packed into their bucket: those from -5243 to 5242, whose hundredths
of a degree fit 16 bits, and those that wrap around to the end they left by. -/
def keptRanges : List (Int × Int) :=
  [(-32768, -32322), (-26214, -21836), (-15728, -11350), (-5243, 5242), (12806, 15728),
    (23292, 26214)]

def Kept (raw : Int16) : Prop := ∃ r ∈ keptRanges, r.1 ≤ raw.toInt ∧ raw.toInt ≤ r.2

instance (raw : Int16) : Decidable (Kept raw) :=
  inferInstanceAs (Decidable (∃ r ∈ keptRanges, r.1 ≤ raw.toInt ∧ raw.toInt ≤ r.2))

/-! ### The ends of the range -/

theorem bucketOf_eq_highest {t : Int} : bucketOf t = 200 ↔ 14500 ≤ t := by
  rw [bucketOf, Int.fdiv_eq_ediv_of_nonneg _ (by decide)]
  omega

theorem bucketOf_eq_lowest {t : Int} : bucketOf t = 0 ↔ t < -5400 := by
  rw [bucketOf, Int.fdiv_eq_ediv_of_nonneg _ (by decide)]
  omega

theorem bucketOf_mono {t t' : Int} (h : t ≤ t') : bucketOf t ≤ bucketOf t' := by
  rw [bucketOf, bucketOf, Int.fdiv_eq_ediv_of_nonneg _ (by decide),
    Int.fdiv_eq_ediv_of_nonneg _ (by decide)]
  omega

theorem rawBucket_mono {raw raw' : Int16} (h : raw ≤ raw') : rawBucket raw ≤ rawBucket raw' := by
  have hle := Int16.le_iff_toInt_le.mp h
  have htruncated := tdiv_cases (100 * raw.toInt) 16
  have htruncated' := tdiv_cases (100 * raw'.toInt) 16
  exact bucketOf_mono (by omega)

/-! ### Wrapping -/

theorem kept_iff {raw : Int16} : Kept raw ↔
    (-32768 ≤ raw.toInt ∧ raw.toInt ≤ -32322) ∨ (-26214 ≤ raw.toInt ∧ raw.toInt ≤ -21836) ∨
      (-15728 ≤ raw.toInt ∧ raw.toInt ≤ -11350) ∨ (-5243 ≤ raw.toInt ∧ raw.toInt ≤ 5242) ∨
      (12806 ≤ raw.toInt ∧ raw.toInt ≤ 15728) ∨ (23292 ≤ raw.toInt ∧ raw.toInt ≤ 26214) := by
  simp only [Kept, keptRanges, List.mem_cons, List.not_mem_nil, or_false, exists_eq_or_imp,
    exists_eq_left]

/-- The cast takes off some turns of 65536. -/
theorem centiDegrees_turns (raw : Int16) : ∃ turns : Int,
    (turns = -3 ∨ turns = -2 ∨ turns = -1 ∨ turns = 0 ∨ turns = 1 ∨ turns = 2 ∨ turns = 3) ∧
      (centiDegrees raw).toInt = (100 * raw.toInt).tdiv 16 - 65536 * turns := by
  have hlow := raw.le_toInt
  have hhigh := raw.toInt_lt
  have htruncated := tdiv_cases (100 * raw.toInt) 16
  have hcast := (centiDegrees raw).le_toInt
  have hcast' := (centiDegrees raw).toInt_lt
  obtain ⟨turns, hturns⟩ : ∃ turns,
      (centiDegrees raw).toInt = (100 * raw.toInt).tdiv 16 - 65536 * turns := by
    have hsplit := Int.bdiv_add_bmod ((100 * raw.toInt).tdiv 16) 65536
    rw [toInt_centiDegrees]
    exact ⟨((100 * raw.toInt).tdiv 16).bdiv 65536, by omega⟩
  exact ⟨turns, by omega, hturns⟩

/-- What is packed is the raw value's bucket exactly for the values kept. -/
theorem bucket_eq_iff (raw : Int16) :
    bucketOf (centiDegrees raw).toInt = rawBucket raw ↔ Kept raw := by
  have hlow := raw.le_toInt
  have hhigh := raw.toInt_lt
  have hcast := (centiDegrees raw).le_toInt
  have hcast' := (centiDegrees raw).toInt_lt
  have htruncated := tdiv_cases (100 * raw.toInt) 16
  obtain ⟨turns, hcases, hturns⟩ := centiDegrees_turns raw
  rw [kept_iff, rawBucket]
  by_cases habove : 5242 < raw.toInt
  · -- too hot: the number must wrap around to where the bucket is the highest again
    rw [bucketOf_eq_highest.mpr (by omega : 14500 ≤ (100 * raw.toInt).tdiv 16), bucketOf_eq_highest]
    rcases hcases with rfl | rfl | rfl | rfl | rfl | rfl | rfl <;> omega
  · by_cases hbelow : raw.toInt < -5243
    · -- too cold: likewise at the lowest
      rw [bucketOf_eq_lowest.mpr (by omega : (100 * raw.toInt).tdiv 16 < -5400), bucketOf_eq_lowest]
      rcases hcases with rfl | rfl | rfl | rfl | rfl | rfl | rfl <;> omega
    · have hnone : turns = 0 := by omega
      have hsame : (centiDegrees raw).toInt = (100 * raw.toInt).tdiv 16 := by omega
      rw [hsame]
      exact iff_of_true rfl (by omega)

/-! ### Two readings -/

/-- A higher bucket is packed no lower. -/
theorem encodeSensorValue_mono (soil : UInt16) {t t' : Int16}
    (h : bucketOf t.toInt ≤ bucketOf t'.toInt) :
    encodeSensorValue ⟨soil, t⟩ ≤ encodeSensorValue ⟨soil, t'⟩ := by
  rw [UInt32.le_iff_toNat_le, toNat_encodeSensorValue, toNat_encodeSensorValue, toInt_tempBucket,
    toInt_tempBucket]
  exact Nat.add_le_add_left (Int.toNat_le_toNat h) _

/-- **Two readings of one soil count are packed in the order of their temperatures, each in
its bucket, exactly when both raw values are kept.** -/
theorem saturation_iff {adcOneshotRead : Except Int Int32} {wire wire' : OneWire}
    {buffer buffer' reading reading' : SensorReading}
    (h : sensorRead adcOneshotRead wire (some buffer) = (.ok (), some reading))
    (h' : sensorRead adcOneshotRead wire' (some buffer') = (.ok (), some reading'))
    (hle : wire.raw ≤ wire'.raw) :
    (encodeSensorValue reading ≤ encodeSensorValue reading' ∧
      (tempBucket reading).toInt = rawBucket wire.raw ∧
      (tempBucket reading').toInt = rawBucket wire'.raw) ↔ Kept wire.raw ∧ Kept wire'.raw := by
  obtain ⟨adcRaw, hadc, _, _, rfl⟩ := sensorRead_eq_ok.mp h
  obtain ⟨adcRaw', hadc', _, _, rfl⟩ := sensorRead_eq_ok.mp h'
  cases hadc.symm.trans hadc'
  rw [toInt_tempBucket, toInt_tempBucket, bucket_eq_iff, bucket_eq_iff]
  refine and_iff_right_of_imp fun hkept => ?_
  have hbuckets := rawBucket_mono hle
  rw [← (bucket_eq_iff _).mpr hkept.1, ← (bucket_eq_iff _).mpr hkept.2] at hbuckets
  exact encodeSensorValue_mono _ hbuckets

/-- The coldest and the hottest value the thermometer measures are packed as they should be. -/
theorem measured_range_kept :
    encodeSensorValue ⟨1000, -5500⟩ ≤ encodeSensorValue ⟨1000, 12500⟩ ∧
      (tempBucket ⟨1000, -5500⟩).toInt = rawBucket (OneWire.of (-880)).raw ∧
      (tempBucket ⟨1000, 12500⟩).toInt = rawBucket (OneWire.of 2000).raw := by
  have hread : sensorRead (.ok 1000) (.of (-880)) (some ⟨0, 0⟩) = (.ok (), some ⟨1000, -5500⟩) := by
    decide +kernel
  have hread' : sensorRead (.ok 1000) (.of 2000) (some ⟨0, 0⟩) = (.ok (), some ⟨1000, 12500⟩) := by
    decide +kernel
  have hle : (OneWire.of (-880)).raw ≤ (OneWire.of 2000).raw := by
    rw [OneWire.raw_of, OneWire.raw_of]
    decide
  refine (saturation_iff hread hread' hle).mpr ?_
  rw [OneWire.raw_of, OneWire.raw_of]
  decide

/-- Of 125 degrees and a faulty 327.6875, the second is packed as if it were the coldest. -/
theorem faulty_reading_wraps :
    sensorRead (.ok 1000) (.of 2000) (some ⟨0, 0⟩) = (.ok (), some ⟨1000, 12500⟩) ∧
      sensorRead (.ok 1000) (.of 5243) (some ⟨0, 0⟩) = (.ok (), some ⟨1000, -32768⟩) ∧
      (OneWire.of 2000).raw ≤ (OneWire.of 5243).raw ∧
      ¬encodeSensorValue ⟨1000, 12500⟩ ≤ encodeSensorValue ⟨1000, -32768⟩ ∧
      (tempBucket ⟨1000, -32768⟩).toInt = 0 ∧ rawBucket 5243 = 200 := by
  decide +kernel

end FarmChain.Telemetry
