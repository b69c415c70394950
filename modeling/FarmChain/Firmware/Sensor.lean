import FarmChain.Firmware.Encode

/-! The sensor (`sensor.c`).

`read_ds18b20` takes two bytes of the thermometer's scratchpad from the wire, a bit at a
time, as one signed number of sixteenths of a degree, and converts it to hundredths. The
conversion is on 32-bit integers and its result is cast to 16 bits, where it wraps
(`toInt_centiDegrees`). -/
namespace FarmChain.Firmware

inductive SensorErr where
  | ESP_ERR_INVALID_ARG | ESP_ERR_NOT_FOUND
  /-- What `adc_oneshot_read` returns. -/
  | adc (err : Int)
  deriving DecidableEq, Repr

/-- What the wire shows while the thermometer is read. -/
structure OneWire where
  /-- Whether the thermometer answers the first reset, and the second. -/
  present : Bool
  presentAgain : Bool
  /-- The bits sampled for each byte, the lowest first. -/
  lsb : Nat → Bool
  msb : Nat → Bool

def owReadByte (bits : Nat → Bool) : UInt8 :=
  (List.range 8).foldl (fun value i => if bits i then value ||| .ofNat (1 <<< i) else value) 0

/-- `raw`. -/
def OneWire.raw (wire : OneWire) : Int16 :=
  let lsb := owReadByte wire.lsb
  let msb := owReadByte wire.msb
  ((msb.toUInt32.toInt32 <<< 8) ||| lsb.toUInt32.toInt32).toInt16

/-- The conversion's last line, cast included. -/
def centiDegrees (raw : Int16) : Int16 := (raw.toInt32 * 100 / 16).toInt16

def readDs18b20 (wire : OneWire) : Except SensorErr Int16 :=
  if !wire.present then .error .ESP_ERR_NOT_FOUND
  else if !wire.presentAgain then .error .ESP_ERR_NOT_FOUND
  else .ok (centiDegrees wire.raw)

/-- With what `reading` points at afterwards. -/
def sensorRead (adcOneshotRead : Except Int Int32) (wire : OneWire)
    (reading : Pointer SensorReading) : Except SensorErr Unit × Pointer SensorReading :=
  match reading with
  | none => (.error .ESP_ERR_INVALID_ARG, none)
  | some reading =>
    match adcOneshotRead with
    | .error err => (.error (.adc err), some reading)
    | .ok adcRaw =>
      let reading := { reading with soilMoistureRaw := adcRaw.toUInt32.toUInt16 }
      match readDs18b20 wire with
      | .error err => (.error err, some reading)
      | .ok temperatureCentiC => (.ok (), some { reading with temperatureCentiC })

theorem sensorRead_eq_ok {adcOneshotRead : Except Int Int32} {wire : OneWire}
    {buffer reading : SensorReading} :
    sensorRead adcOneshotRead wire (some buffer) = (.ok (), some reading) ↔
      ∃ adcRaw, adcOneshotRead = .ok adcRaw ∧ wire.present = true ∧ wire.presentAgain = true ∧
        reading = ⟨adcRaw.toUInt32.toUInt16, centiDegrees wire.raw⟩ := by
  unfold sensorRead readDs18b20
  cases adcOneshotRead with
  | error err => simp
  | ok adcRaw => cases wire.present <;> cases wire.presentAgain <;> simp [eq_comm]

/-! ### The bytes -/

/-- After so many samples, those bits are in place. -/
theorem getLsbD_samples (bits : Nat → Bool) {n : Nat} (hn : n ≤ 8) (j : Nat) :
    ((List.range n).foldl (fun value i => if bits i then value ||| .ofNat (1 <<< i) else value)
      (0 : UInt8)).toBitVec.getLsbD j = (decide (j < n) && bits j) := by
  induction n with
  | zero => simp
  | succ n ih =>
    rw [List.range_succ, List.foldl_append, List.foldl_cons, List.foldl_nil]
    have hbit : (UInt8.ofNat (1 <<< n)).toBitVec.getLsbD j = decide (j = n) := by
      show (BitVec.ofNat 8 (1 <<< n)).getLsbD j = _
      rw [BitVec.getLsbD_ofNat, Nat.one_shiftLeft, Nat.testBit_two_pow]
      by_cases hj : j = n
      · simp [hj, show n < 8 by omega]
      · simp [hj, Ne.symm hj]
    have hother (hj : j ≠ n) : j < n + 1 ↔ j < n := by omega
    split
    · rename_i hset
      rw [UInt8.toBitVec_or, BitVec.getLsbD_or, ih (by omega), hbit]
      by_cases hj : j = n
      · simp [hj, hset]
      · simp [hj, hother hj]
    · rename_i hclear
      rw [ih (by omega)]
      by_cases hj : j = n
      · simp [hj, hclear]
      · simp [hother hj]

theorem getLsbD_owReadByte (bits : Nat → Bool) {i : Nat} (hi : i < 8) :
    (owReadByte bits).toBitVec.getLsbD i = bits i := by
  rw [owReadByte, getLsbD_samples bits (Nat.le_refl 8), decide_eq_true hi, Bool.true_and]

/-- A wire that shows these 16 bits. -/
def OneWire.of (raw : Int16) : OneWire where
  present := true
  presentAgain := true
  lsb i := raw.toBitVec.getLsbD i
  msb i := raw.toBitVec.getLsbD (8 + i)

/-- The low byte's bits come first. -/
theorem OneWire.getLsbD_raw (wire : OneWire) {i : Nat} (hi : i < 16) :
    wire.raw.toBitVec.getLsbD i = if i < 8 then wire.lsb i else wire.msb (i - 8) := by
  have hraw : wire.raw.toBitVec = (((owReadByte wire.msb).toBitVec.setWidth 32 <<< 8) |||
      (owReadByte wire.lsb).toBitVec.setWidth 32).signExtend 16 := rfl
  rw [hraw, BitVec.getLsbD_signExtend, if_pos (by omega), BitVec.getLsbD_or,
    BitVec.getLsbD_shiftLeft, BitVec.getLsbD_setWidth, BitVec.getLsbD_setWidth]
  split
  · rename_i hlow
    rw [getLsbD_owReadByte wire.lsb hlow]
    simp [hi, hlow, show i < 32 by omega]
  · rename_i hhigh
    have hout : (owReadByte wire.lsb).toBitVec.getLsbD i = false :=
      BitVec.getLsbD_of_ge _ _ (by omega)
    rw [hout, getLsbD_owReadByte wire.msb (show i - 8 < 8 by omega)]
    simp [hi, hhigh, show i < 32 by omega, show i - 8 < 32 by omega]

/-- Every 16-bit value can be read. -/
theorem OneWire.raw_of (raw : Int16) : (OneWire.of raw).raw = raw := by
  refine Int16.toBitVec_inj.mp (BitVec.eq_of_getLsbD_eq fun i hi => ?_)
  rw [OneWire.getLsbD_raw _ hi]
  split
  · rfl
  · show raw.toBitVec.getLsbD (8 + (i - 8)) = _
    rw [Nat.add_sub_cancel' (by omega)]

/-! ### The conversion -/

/-- The hundredths of a degree, truncated, wrap to 16 bits. -/
theorem toInt_centiDegrees (raw : Int16) :
    (centiDegrees raw).toInt = ((100 * raw.toInt).tdiv 16).bmod 65536 := by
  have hlow := raw.le_toInt
  have hhigh := raw.toInt_lt
  have hproduct : (raw.toInt32 * 100).toInt = 100 * raw.toInt := by
    have hhundred : (100 : Int32).toInt = 100 := by decide
    rw [Int32.toInt_mul, Int16.toInt_toInt32, hhundred, Int.bmod_eq_of_le] <;> omega
  have hquot : (raw.toInt32 * 100 / 16).toInt = (100 * raw.toInt).tdiv 16 := by
    have hsixteen : (16 : Int32).toInt = 16 := by decide
    have htruncated := tdiv_cases (100 * raw.toInt) 16
    rw [Int32.toInt_div, hproduct, hsixteen, Int.bmod_eq_of_le] <;> omega
  rw [centiDegrees, Int32.toInt_toInt16, hquot]

end FarmChain.Firmware
