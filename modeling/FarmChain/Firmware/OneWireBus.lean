import FarmChain.Lib.Script
import FarmChain.Firmware.Sensor

/-! The thermometer's driver, down to the pin (`sensor.c`).

The firmware drives the one wire itself: it pulls the pin low for so many microseconds, lets
go, and looks at the level. Every function uses the line in whole slots, and `sensor_read` over
any drivers returns what `sensorRead` returns of some wire, and uses the pin for that wire's
session (`sensorRead_bus`). -/
namespace FarmChain.Firmware.OneWireBus
open Script (Program exec exec_bind Leaves Returns)

inductive GpioMode where
  | OUTPUT_OD | INPUT_OUTPUT_OD
  deriving DecidableEq, Repr

/-- The drivers that the sensor calls, on the state `D` of what is behind them. The pin is
`DS18B20_GPIO`. -/
structure Board (D : Type) where
  adcOneshotRead : D → Except Int Int32 × D
  gpioSetDirection : GpioMode → D → D
  gpioSetLevel : Bool → D → D
  gpioGetLevel : D → Bool × D
  espRomDelayUs : Nat → D → D
  /-- `vTaskDelay(pdMS_TO_TICKS(ms))`. -/
  vTaskDelay : Nat → D → D

/-- What the firmware did at the pin. -/
inductive PinEvent where
  | direction (mode : GpioMode)
  | level (high : Bool)
  | delay (us : Nat)
  | taskDelay (ms : Nat)
  | sample (high : Bool)
  deriving DecidableEq, Repr

/-- The device, and what was done at the pin so far. -/
structure Bus (D : Type) where
  device : D
  trace : List PinEvent := []

abbrev OnBus (D : Type) := Program (Bus D) SensorErr

/-! ### The driver -/

section
variable {D : Type} (board : Board D)

def pinDo (f : D → D) (event : PinEvent) : OnBus D Unit :=
  fun bus => (.ok (), {device := f bus.device, trace := bus.trace ++ [event]})

def gpioSetDirection (mode : GpioMode) : OnBus D Unit :=
  pinDo (board.gpioSetDirection mode) (.direction mode)

def gpioSetLevel (high : Bool) : OnBus D Unit := pinDo (board.gpioSetLevel high) (.level high)

def espRomDelayUs (us : Nat) : OnBus D Unit := pinDo (board.espRomDelayUs us) (.delay us)

def vTaskDelayMs (ms : Nat) : OnBus D Unit := pinDo (board.vTaskDelay ms) (.taskDelay ms)

def gpioGetLevel : OnBus D Bool := fun bus =>
  let (high, device) := board.gpioGetLevel bus.device
  (.ok high, {device, trace := bus.trace ++ [.sample high]})

def owDriveLow : OnBus D Unit := do
  gpioSetDirection board .OUTPUT_OD
  gpioSetLevel board false

def owRelease : OnBus D Unit := do
  gpioSetDirection board .INPUT_OUTPUT_OD
  gpioSetLevel board true

def owReset : OnBus D Bool := do
  owDriveLow board
  espRomDelayUs board 480
  owRelease board
  espRomDelayUs board 70
  let present := !(← gpioGetLevel board)
  espRomDelayUs board 410
  return present

def owWriteBit (bit : Bool) : OnBus D Unit := do
  owDriveLow board
  if bit then
    espRomDelayUs board 6
    owRelease board
    espRomDelayUs board 64
  else
    espRomDelayUs board 60
    owRelease board
    espRomDelayUs board 10

def owReadBit : OnBus D Bool := do
  owDriveLow board
  espRomDelayUs board 6
  owRelease board
  espRomDelayUs board 9
  let bit ← gpioGetLevel board
  espRomDelayUs board 55
  return bit

/-- `BIT(i)`, cut to the byte it is used on. -/
def BIT (i : Nat) : UInt8 := .ofNat (1 <<< i)

def owWriteByte (value : UInt8) : OnBus D Unit :=
  (List.range 8).forM fun i => owWriteBit board (value &&& BIT i != 0)

def owReadByte : OnBus D UInt8 :=
  (List.range 8).foldlM (fun value i => do
    if ← owReadBit board then return value ||| BIT i else return value) 0

def readDs18b20 : OnBus D Int16 := do
  if !(← owReset board) then
    throw .ESP_ERR_NOT_FOUND
  owWriteByte board 0xCC
  owWriteByte board 0x44
  vTaskDelayMs board 750
  if !(← owReset board) then
    throw .ESP_ERR_NOT_FOUND
  owWriteByte board 0xCC
  owWriteByte board 0xBE
  let lsb ← owReadByte board
  let msb ← owReadByte board
  let raw := ((msb.toUInt32.toInt32 <<< 8) ||| lsb.toUInt32.toInt32).toInt16
  return centiDegrees raw

/-- With what `reading` points at afterwards. -/
def sensorRead (reading : Pointer SensorReading) (bus : Bus D) :
    (Except SensorErr Unit × Pointer SensorReading) × Bus D :=
  match reading with
  | none => ((.error .ESP_ERR_INVALID_ARG, none), bus)
  | some reading =>
    match board.adcOneshotRead bus.device with
    | (.error err, device) => ((.error (.adc err), some reading), {bus with device})
    | (.ok adcRaw, device) =>
      let reading := { reading with soilMoistureRaw := adcRaw.toUInt32.toUInt16 }
      match exec (readDs18b20 board) {bus with device} with
      | (.error err, bus) => ((.error err, some reading), bus)
      | (.ok temperatureCentiC, bus) => ((.ok (), some { reading with temperatureCentiC }), bus)

end

/-! ### Slots -/

/-- The line's use is divided into slots. -/
inductive Slot where
  | reset (present : Bool)
  | write (bit : Bool)
  | read (bit : Bool)
  | pause (ms : Nat)
  deriving DecidableEq, Repr

def pullLow : List PinEvent := [.direction .OUTPUT_OD, .level false]

def letGo : List PinEvent := [.direction .INPUT_OUTPUT_OD, .level true]

/-- What the firmware does in a slot. -/
def Slot.events : Slot → List PinEvent
  | .reset present =>
    pullLow ++ .delay 480 :: letGo ++ [.delay 70, .sample !present, .delay 410]
  | .write true => pullLow ++ .delay 6 :: letGo ++ [.delay 64]
  | .write false => pullLow ++ .delay 60 :: letGo ++ [.delay 10]
  | .read bit => pullLow ++ .delay 6 :: letGo ++ [.delay 9, .sample bit, .delay 55]
  | .pause ms => [.taskDelay ms]

/-- A byte's slots, for its lowest bit first. -/
def writes (value : UInt8) : List Slot :=
  (List.range 8).map fun i => .write (value.toBitVec.getLsbD i)

def reads (bits : Nat → Bool) : List Slot := (List.range 8).map fun i => .read (bits i)

/-- The slots in which the thermometer is read. -/
def session (wire : OneWire) : List Slot :=
  .reset wire.present ::
    if wire.present then
      writes 0xCC ++ writes 0x44 ++ .pause 750 :: .reset wire.presentAgain ::
        if wire.presentAgain then
          writes 0xCC ++ writes 0xBE ++ reads wire.lsb ++ reads wire.msb
        else []
    else []

/-! ### What the driver does in each slot -/

section
variable {D : Type} (board : Board D)

@[simp] theorem exec_espRomDelayUs (us : Nat) (bus : Bus D) : exec (espRomDelayUs board us) bus =
    (.ok (), ⟨board.espRomDelayUs us bus.device, bus.trace ++ [.delay us]⟩) := rfl

@[simp] theorem exec_gpioGetLevel (bus : Bus D) : exec (gpioGetLevel board) bus =
    (.ok (board.gpioGetLevel bus.device).1, ⟨(board.gpioGetLevel bus.device).2,
      bus.trace ++ [.sample (board.gpioGetLevel bus.device).1]⟩) := rfl

@[simp] theorem exec_owDriveLow (bus : Bus D) : exec (owDriveLow board) bus =
    (.ok (), ⟨board.gpioSetLevel false (board.gpioSetDirection .OUTPUT_OD bus.device),
      bus.trace ++ pullLow⟩) := by
  show (_, Bus.mk _ (bus.trace ++ [_] ++ [_])) = _
  rw [List.append_assoc]
  rfl

@[simp] theorem exec_owRelease (bus : Bus D) : exec (owRelease board) bus =
    (.ok (), ⟨board.gpioSetLevel true (board.gpioSetDirection .INPUT_OUTPUT_OD bus.device),
      bus.trace ++ letGo⟩) := by
  show (_, Bus.mk _ (bus.trace ++ [_] ++ [_])) = _
  rw [List.append_assoc]
  rfl

theorem returns_owReset : Returns Bus.trace (owReset board) fun present added =>
    added = (Slot.reset present).events := by
  intro bus
  refine ⟨_, ?_, _, rfl, rfl⟩
  simp [owReset, exec_bind, Slot.events, -bind_pure_comp]

theorem returns_owWriteBit (bit : Bool) : Returns Bus.trace (owWriteBit board bit) fun _ added =>
    added = (Slot.write bit).events := by
  intro bus
  refine ⟨_, ?_, (), ?_, rfl⟩
  · cases bit <;> simp [owWriteBit, exec_bind, Slot.events]
  · cases bit <;> rfl

theorem returns_owReadBit : Returns Bus.trace (owReadBit board) fun bit added =>
    added = (Slot.read bit).events := by
  intro bus
  refine ⟨_, ?_, _, rfl, rfl⟩
  simp [owReadBit, exec_bind, Slot.events, -bind_pure_comp]

/-! ### Bytes -/

theorem getLsbD_BIT {i : Nat} (hi : i < 8) (j : Nat) :
    (BIT i).toBitVec.getLsbD j = decide (j = i) := by
  show (BitVec.ofNat 8 (1 <<< i)).getLsbD j = _
  rw [BitVec.getLsbD_ofNat, Nat.one_shiftLeft, Nat.testBit_two_pow]
  by_cases hj : j = i
  · simp [hj, hi]
  · simp [hj, Ne.symm hj]

/-- The bit that is tested for. -/
theorem and_BIT (value : UInt8) {i : Nat} (hi : i < 8) :
    (value &&& BIT i != 0) = value.toBitVec.getLsbD i := by
  have hand (j : Nat) : (value &&& BIT i).toBitVec.getLsbD j =
      (value.toBitVec.getLsbD j && decide (j = i)) := by
    rw [UInt8.toBitVec_and, BitVec.getLsbD_and, getLsbD_BIT hi]
  cases hbit : value.toBitVec.getLsbD i with
  | true =>
    refine bne_iff_ne.mpr fun hzero => ?_
    have hset := hand i
    rw [hzero, hbit] at hset
    simp at hset
  | false =>
    rw [bne_eq_false_iff_eq]
    refine UInt8.toBitVec_inj.mp (BitVec.eq_of_getLsbD_eq fun j _ => ?_)
    rw [hand j]
    by_cases hj : j = i
    · simp [hj, hbit]
    · simp [hj]

/-- A bit is put in its place, which was clear. -/
theorem getLsbD_or_BIT {value : UInt8} {i : Nat} (hi : i < 8)
    (hclear : value.toBitVec.getLsbD i = false) (bit : Bool) (j : Nat) :
    (if bit then value ||| BIT i else value).toBitVec.getLsbD j =
      if j = i then bit else value.toBitVec.getLsbD j := by
  by_cases hj : j = i
  · cases bit <;> simp [getLsbD_BIT hi, hj, hclear]
  · cases bit <;> simp [getLsbD_BIT hi, hj]

theorem returns_owWriteByte (value : UInt8) : Returns Bus.trace (owWriteByte board value)
    fun _ added => added = (writes value).flatMap Slot.events := by
  rw [writes, List.flatMap_map]
  refine Script.returns_forM _ fun i hi => ?_
  rw [and_BIT value (List.mem_range.mp hi)]
  exact returns_owWriteBit board _

/-- The loop has put its bits in place and left the others clear. -/
theorem returns_owReadByte : Returns Bus.trace (owReadByte board) fun value added =>
    ∃ bits, value = Firmware.owReadByte bits ∧ added = (reads bits).flatMap Slot.events := by
  let inv (i : Nat) (value : UInt8) (added : List PinEvent) : Prop :=
    (∀ j, i ≤ j → value.toBitVec.getLsbD j = false) ∧
      added = (List.range i).flatMap fun j => (Slot.read (value.toBitVec.getLsbD j)).events
  have hloop : Returns Bus.trace (owReadByte board) (inv 8) := by
    refine Script.returns_foldlM_range 8 ⟨fun j _ => ?_, rfl⟩ fun i hi value before hinv => ?_
    · simp
    · obtain ⟨hclear, hbefore⟩ := hinv
      have hbits := getLsbD_or_BIT hi (hclear i (Nat.le_refl i))
      refine (returns_owReadBit board).bind fun bit added hadded => ?_
      have hnext : inv (i + 1) (if bit then value ||| BIT i else value) (before ++ added) := by
        refine ⟨fun j hj => ?_, ?_⟩
        · rw [hbits, if_neg (by omega), hclear j (by omega)]
        · rw [hbefore, hadded, List.range_succ, List.flatMap_append, List.flatMap_singleton, hbits,
            if_pos rfl]
          congr 1
          refine List.flatMap_congr fun j hj => ?_
          rw [hbits, if_neg (Nat.ne_of_lt (List.mem_range.mp hj))]
      rw [← List.append_nil added] at hnext
      split
      · rename_i hset
        rw [if_pos hset] at hnext
        exact Script.returns_pure hnext
      · rename_i hunset
        rw [if_neg hunset] at hnext
        exact Script.returns_pure hnext
  refine hloop.mono fun value added hinv => ⟨value.toBitVec.getLsbD, ?_, ?_⟩
  · refine UInt8.toBitVec_inj.mp (BitVec.eq_of_getLsbD_eq fun i hi => ?_)
    rw [getLsbD_owReadByte _ hi]
  · rw [reads, List.flatMap_map]
    exact hinv.2

/-! ### A reading -/

theorem returns_vTaskDelayMs (ms : Nat) : Returns Bus.trace (vTaskDelayMs board ms)
    fun _ added => added = (Slot.pause ms).events :=
  fun _ => ⟨_, rfl, (), rfl, rfl⟩

theorem leaves_readDs18b20 : Leaves Bus.trace (readDs18b20 board) fun result added =>
    ∃ wire, result = Firmware.readDs18b20 wire ∧ added = (session wire).flatMap Slot.events := by
  refine (returns_owReset board).bind fun present first hfirst => ?_
  cases present with
  | false =>
    refine Script.leaves_throw ⟨⟨false, false, fun _ => false, fun _ => false⟩, rfl, ?_⟩
    rw [hfirst]
    rfl
  | true =>
    refine (returns_owWriteByte board 0xCC).bind fun _ skip hskip => ?_
    refine (returns_owWriteByte board 0x44).bind fun _ convert hconvert => ?_
    refine (returns_vTaskDelayMs board 750).bind fun _ pause hpause => ?_
    refine (returns_owReset board).bind fun presentAgain second hsecond => ?_
    cases presentAgain with
    | false =>
      refine Script.leaves_throw ⟨⟨true, false, fun _ => false, fun _ => false⟩, rfl, ?_⟩
      simp [session, hfirst, hskip, hconvert, hpause, hsecond]
    | true =>
      refine (returns_owWriteByte board 0xCC).bind fun _ skipAgain hskipAgain => ?_
      refine (returns_owWriteByte board 0xBE).bind fun _ ask hask => ?_
      refine (returns_owReadByte board).bind fun lsb low hlow => ?_
      refine (returns_owReadByte board).bind fun msb high hhigh => ?_
      obtain ⟨lsbBits, hlsb, hlow⟩ := hlow
      obtain ⟨msbBits, hmsb, hhigh⟩ := hhigh
      refine Script.leaves_pure ⟨⟨true, true, lsbBits, msbBits⟩, ?_, ?_⟩
      · rw [hlsb, hmsb]
        rfl
      · simp [session, hfirst, hskip, hconvert, hpause, hsecond, hskipAgain, hask, hlow, hhigh]

/-- The wire is looked at when the soil's moisture was read into a buffer. -/
def reachesWire (reading : Pointer SensorReading) (bus : Bus D) : Bool :=
  reading.isSome && (board.adcOneshotRead bus.device).1.isOk

/-- **Over any drivers, `sensor_read` returns what it returns of some wire, and has used the pin
for that wire's session, slot by slot.** -/
theorem sensorRead_bus (reading : Pointer SensorReading) (bus : Bus D) :
    ∃ wire, (sensorRead board reading bus).1 =
        Firmware.sensorRead (board.adcOneshotRead bus.device).1 wire reading ∧
      (sensorRead board reading bus).2.trace = bus.trace ++
        if reachesWire board reading bus then (session wire).flatMap Slot.events else [] := by
  let silent : OneWire := ⟨false, false, fun _ => false, fun _ => false⟩
  cases reading with
  | none => exact ⟨silent, rfl, (List.append_nil _).symm⟩
  | some reading =>
    rcases hadc : board.adcOneshotRead bus.device with ⟨err | adcRaw, device⟩
    · refine ⟨silent, ?_, ?_⟩
      · simp [sensorRead, Firmware.sensorRead, hadc]
      · simp [sensorRead, reachesWire, hadc, Except.isOk, Except.toBool]
    · obtain ⟨added, hlog, wire, hresult, hadded⟩ := leaves_readDs18b20 board {bus with device}
      refine ⟨wire, ?_, ?_⟩
      · simp only [sensorRead, Firmware.sensorRead, hadc, ← hresult]
        rcases exec (readDs18b20 board) {bus with device} with ⟨_ | _, _⟩ <;> rfl
      · have hreaches : reachesWire board (some reading) bus = true := by
          simp [reachesWire, hadc, Except.isOk, Except.toBool]
        rw [if_pos hreaches, ← hadded, ← hlog]
        simp only [sensorRead, hadc]
        rcases exec (readDs18b20 board) {bus with device} with ⟨_ | _, _⟩ <;> rfl

end

end FarmChain.Firmware.OneWireBus
