import FarmChain.Lib.Script
import FarmChain.Firmware.Signing

/-! The firmware's LoRa transmitter.

The radio is behind SPI: a register is written or read by one transaction of two bytes, and
any transaction can fail. A reading goes out as three packets on three channels. What the
firmware writes does not depend on what the radio answers but for where it stops
(`transmit_scripted`), so no packet is sent that was not loaded whole
(`tx_only_loaded`). The drivers of ESP-IDF are a parameter. -/
namespace FarmChain.Firmware
open Script (Program exec Scripted Avoids Extends)

def LORA_PACKET_LEN : Nat := 72

def REG_FIFO : UInt8 := 0x00
def REG_OP_MODE : UInt8 := 0x01
def REG_FRF_MSB : UInt8 := 0x06
def REG_FRF_MID : UInt8 := 0x07
def REG_FRF_LSB : UInt8 := 0x08
def REG_PA_CONFIG : UInt8 := 0x09
def REG_LNA : UInt8 := 0x0C
def REG_FIFO_ADDR_PTR : UInt8 := 0x0D
def REG_FIFO_TX_BASE_ADDR : UInt8 := 0x0E
def REG_IRQ_FLAGS : UInt8 := 0x12
def REG_MODEM_CONFIG_1 : UInt8 := 0x1D
def REG_MODEM_CONFIG_2 : UInt8 := 0x1E
def REG_PREAMBLE_MSB : UInt8 := 0x20
def REG_PREAMBLE_LSB : UInt8 := 0x21
def REG_PAYLOAD_LENGTH : UInt8 := 0x22
def REG_MODEM_CONFIG_3 : UInt8 := 0x26
def REG_SYNC_WORD : UInt8 := 0x39
def REG_DIO_MAPPING_1 : UInt8 := 0x40
def REG_VERSION : UInt8 := 0x42

def MODE_LONG_RANGE_MODE : UInt8 := 0x80
def MODE_SLEEP : UInt8 := 0x00
def MODE_STDBY : UInt8 := 0x01
def MODE_TX : UInt8 := 0x03

def IRQ_TX_DONE_MASK : UInt8 := 0x08

def LORA_PIN_RST : UInt8 := 14
def LORA_PIN_DIO0 : UInt8 := 26

def channelsHz : Vector UInt32 3 := #v[868100000, 868300000, 868500000]

/-- `lora_packet_t`. -/
structure LoraPacket where
  deviceId : UInt32
  readingId : UInt16
  residueIndex : UInt8
  residueValue : UInt8
  signature : Vector UInt8 SIGNATURE_LEN
  deriving DecidableEq, Repr

/-- The struct as it lies in memory: packed, without padding. -/
def LoraPacket.bytes (packet : LoraPacket) : List UInt8 :=
  littleEndian 4 packet.deviceId.toNat ++ littleEndian 2 packet.readingId.toNat ++
    [packet.residueIndex, packet.residueValue] ++ packet.signature.toList

inductive SpiErr where
  | ESP_ERR_INVALID_STATE
  | other (err : Int)
  deriving DecidableEq, Repr

inductive LoraErr where
  | ESP_ERR_INVALID_ARG | ESP_ERR_TIMEOUT
  | spi (err : SpiErr)
  /-- The loop of `transmit_packet` still polls. -/
  | polling
  deriving DecidableEq, Repr

/-- The drivers the firmware calls, on the state `D` of what is behind them. -/
structure Radio (D : Type) where
  spiBusInitialize : D → Except SpiErr Unit × D
  spiBusAddDevice : D → Except SpiErr Unit × D
  /-- Two bytes out; the second of the two that come back. -/
  spiDeviceTransmit : UInt8 → UInt8 → D → Except SpiErr UInt8 × D
  gpioSetOutput : UInt8 → D → D
  gpioSetInput : UInt8 → D → D
  gpioSetLevel : UInt8 → Bool → D → D
  /-- `vTaskDelay(pdMS_TO_TICKS(ms))`. -/
  vTaskDelay : Nat → D → D
  /-- Microseconds since the start. -/
  espTimerGetTime : D → Int64 × D

/-- The device, and the transactions so far. -/
structure Line (D : Type) where
  device : D
  sent : List (UInt8 × UInt8) := []

/-- What was written to registers, and not read from them. -/
def Line.writes {D : Type} (line : Line D) : List (UInt8 × UInt8) :=
  line.sent.filter fun tx => 0x80 ≤ tx.1

abbrev Lora (D : Type) := Program (Line D) LoraErr

section
variable {D : Type} (radio : Radio D)

def onDevice (f : D → D) : Lora D Unit :=
  fun line => (.ok (), {line with device := f line.device})

def spiDeviceTransmit (first second : UInt8) : Lora D UInt8 := fun line =>
  let (answer, device) := radio.spiDeviceTransmit first second line.device
  let line := {device, sent := line.sent ++ [(first, second)]}
  match answer with
  | .ok rx => (.ok rx, line)
  | .error err => (.error (.spi err), line)

def espTimerGetTime : Lora D Int64 := fun line =>
  let (time, device) := radio.espTimerGetTime line.device
  (.ok time, {line with device})

def writeReg (reg value : UInt8) : Lora D Unit := do
  let _ ← spiDeviceTransmit radio (reg ||| 0x80) value

def readReg (reg : UInt8) : Lora D UInt8 := spiDeviceTransmit radio (reg &&& 0x7F) 0

def setFrequency (hz : UInt32) : Lora D Unit := do
  let frf := hz.toUInt64 <<< 19 / 32000000
  writeReg radio REG_FRF_MSB (frf >>> 16).toUInt8
  writeReg radio REG_FRF_MID (frf >>> 8).toUInt8
  writeReg radio REG_FRF_LSB frf.toUInt8

/-- An error of the driver, but for the one that says it is set up already. -/
def unlessInvalidState (call : D → Except SpiErr Unit × D) : Lora D Unit := fun line =>
  let (err, device) := call line.device
  match err with
  | .ok () | .error .ESP_ERR_INVALID_STATE => (.ok (), {line with device})
  | .error err => (.error (.spi err), {line with device})

def loraInit : Lora D Unit := do
  unlessInvalidState radio.spiBusInitialize
  unlessInvalidState radio.spiBusAddDevice
  onDevice (radio.gpioSetOutput LORA_PIN_RST)
  onDevice (radio.gpioSetLevel LORA_PIN_RST false)
  onDevice (radio.vTaskDelay 10)
  onDevice (radio.gpioSetLevel LORA_PIN_RST true)
  onDevice (radio.vTaskDelay 10)
  onDevice (radio.gpioSetInput LORA_PIN_DIO0)
  -- another version is only logged
  let _ ← readReg radio REG_VERSION
  writeReg radio REG_OP_MODE (MODE_LONG_RANGE_MODE ||| MODE_SLEEP)
  setFrequency radio channelsHz[0]
  writeReg radio REG_FIFO_TX_BASE_ADDR 0
  writeReg radio REG_LNA 0x23
  writeReg radio REG_MODEM_CONFIG_1 0x73
  writeReg radio REG_MODEM_CONFIG_2 0x70
  writeReg radio REG_MODEM_CONFIG_3 0x04
  writeReg radio REG_PREAMBLE_MSB 0x00
  writeReg radio REG_PREAMBLE_LSB 0x08
  writeReg radio REG_PAYLOAD_LENGTH (UInt8.ofNat LORA_PACKET_LEN)
  writeReg radio REG_SYNC_WORD 0x34
  writeReg radio REG_PA_CONFIG 0x8F
  writeReg radio REG_OP_MODE (MODE_LONG_RANGE_MODE ||| MODE_STDBY)

/-- The wait for the packet to be sent, for so many turns. -/
def waitTxDone (deadline : Int64) : Nat → Lora D Unit
  | 0 => throw .polling
  | turns + 1 => do
    if (← espTimerGetTime radio) < deadline then
      let flags ← readReg radio REG_IRQ_FLAGS
      if flags &&& IRQ_TX_DONE_MASK ≠ 0 then
        writeReg radio REG_IRQ_FLAGS IRQ_TX_DONE_MASK
        writeReg radio REG_OP_MODE (MODE_LONG_RANGE_MODE ||| MODE_STDBY)
      else
        onDevice (radio.vTaskDelay 10)
        waitTxDone deadline turns
    else throw .ESP_ERR_TIMEOUT

def transmitPacket (turns : Nat) (packet : LoraPacket) (channelHz : UInt32) : Lora D Unit := do
  writeReg radio REG_OP_MODE (MODE_LONG_RANGE_MODE ||| MODE_STDBY)
  setFrequency radio channelHz
  writeReg radio REG_IRQ_FLAGS 0xFF
  writeReg radio REG_DIO_MAPPING_1 0x40
  writeReg radio REG_FIFO_ADDR_PTR 0
  packet.bytes.forM (writeReg radio REG_FIFO)
  writeReg radio REG_PAYLOAD_LENGTH (UInt8.ofNat LORA_PACKET_LEN)
  writeReg radio REG_OP_MODE (MODE_LONG_RANGE_MODE ||| MODE_TX)
  let deadline := (← espTimerGetTime radio) + 2000000
  waitTxDone radio deadline turns

end

/-- The packet of the loop's turn `i`. -/
def residuePacket (deviceId : UInt32) (readingId : UInt16) (residueValues : Vector UInt8 3)
    (signature : Vector UInt8 SIGNATURE_LEN) (i : Fin 3) : LoraPacket where
  deviceId := deviceId
  readingId := readingId
  residueIndex := UInt8.ofNat i
  residueValue := residueValues[i]
  signature := signature

def loraTransmitResiduePackets {D : Type} (radio : Radio D) (turns : Nat) (deviceId : UInt32)
    (readingId : UInt16) (residueValues : Pointer (Vector UInt8 3))
    (signature : Pointer (Vector UInt8 SIGNATURE_LEN)) : Lora D Unit :=
  match residueValues, signature with
  | some residueValues, some signature =>
    (List.finRange 3).forM fun i =>
      transmitPacket radio turns (residuePacket deviceId readingId residueValues signature i)
        channelsHz[i]
  | _, _ => throw .ESP_ERR_INVALID_ARG

/-! ### What is written -/

/-- A write of a register, as it goes over the line. -/
def written (reg value : UInt8) : UInt8 × UInt8 := (reg ||| 0x80, value)

def frequencyScript (hz : UInt32) : List (UInt8 × UInt8) :=
  let frf := hz.toUInt64 <<< 19 / 32000000
  [written REG_FRF_MSB (frf >>> 16).toUInt8, written REG_FRF_MID (frf >>> 8).toUInt8,
    written REG_FRF_LSB frf.toUInt8]

/-- The radio set up and loaded for a packet. -/
def loadScript (packet : LoraPacket) (channelHz : UInt32) : List (UInt8 × UInt8) :=
  written REG_OP_MODE (MODE_LONG_RANGE_MODE ||| MODE_STDBY) :: frequencyScript channelHz ++
    [written REG_IRQ_FLAGS 0xFF, written REG_DIO_MAPPING_1 0x40, written REG_FIFO_ADDR_PTR 0] ++
    packet.bytes.map (written REG_FIFO) ++
    [written REG_PAYLOAD_LENGTH (UInt8.ofNat LORA_PACKET_LEN)]

/-- The command to send what is loaded. -/
def txCommand : UInt8 × UInt8 := written REG_OP_MODE (MODE_LONG_RANGE_MODE ||| MODE_TX)

def doneScript : List (UInt8 × UInt8) :=
  [written REG_IRQ_FLAGS IRQ_TX_DONE_MASK,
    written REG_OP_MODE (MODE_LONG_RANGE_MODE ||| MODE_STDBY)]

def packetScript (packet : LoraPacket) (channelHz : UInt32) : List (UInt8 × UInt8) :=
  loadScript packet channelHz ++ txCommand :: doneScript

section
variable {D : Type} {radio : Radio D}

theorem writes_snoc (line : Line D) (tx : UInt8 × UInt8) (device : D) :
    Line.writes {device, sent := line.sent ++ [tx]} =
      line.writes ++ if 0x80 ≤ tx.1 then [tx] else [] := by
  unfold Line.writes
  rw [List.filter_append]
  split
  · rename_i h
    rw [List.filter_cons_of_pos (by simpa using h)]
    rfl
  · rename_i h
    rw [List.filter_cons_of_neg (by simpa using h)]
    rfl

theorem exec_spiDeviceTransmit (first second : UInt8) (line : Line D) :
    (exec (spiDeviceTransmit radio first second) line).2.writes =
      line.writes ++ if 0x80 ≤ first then [(first, second)] else [] := by
  rw [← writes_snoc line (first, second) (radio.spiDeviceTransmit first second line.device).2]
  unfold exec spiDeviceTransmit
  dsimp only
  split <;> rfl

/-- The top bit tells a write from a read. -/
theorem write_bit (reg : UInt8) : 0x80 ≤ reg ||| 0x80 := by
  rw [UInt8.le_iff_toNat_le, UInt8.toNat_or]
  exact Nat.right_le_or

theorem read_bit (reg : UInt8) : ¬0x80 ≤ reg &&& 0x7F := by
  rw [UInt8.le_iff_toNat_le, UInt8.toNat_and]
  have hle : reg.toNat &&& (0x7F : UInt8).toNat ≤ (0x7F : UInt8).toNat := Nat.and_le_right
  exact Nat.not_le.mpr (Nat.lt_of_le_of_lt hle (by decide))

theorem scripted_writeReg (reg value : UInt8) :
    Scripted Line.writes (writeReg radio reg value) [written reg value] := by
  have hsent : Scripted Line.writes (spiDeviceTransmit radio (reg ||| 0x80) value)
      [written reg value] := by
    refine Script.scripted_single fun line => ?_
    rw [exec_spiDeviceTransmit, if_pos (write_bit reg)]
    rfl
  exact hsent.bind fun _ => Script.scripted_pure _

theorem scripted_readReg (reg : UInt8) : Scripted Line.writes (readReg radio reg) [] := by
  refine Script.scripted_silent fun line => ?_
  rw [readReg, exec_spiDeviceTransmit, if_neg (read_bit reg), List.append_nil]

theorem scripted_onDevice (f : D → D) : Scripted Line.writes (onDevice f) [] :=
  Script.scripted_silent fun _ => rfl

theorem scripted_espTimerGetTime : Scripted Line.writes (espTimerGetTime radio) [] :=
  Script.scripted_silent fun _ => rfl

theorem scripted_setFrequency (hz : UInt32) :
    Scripted Line.writes (setFrequency radio hz) (frequencyScript hz) := by
  unfold setFrequency
  refine (scripted_writeReg _ _).bind fun _ => ?_
  refine (scripted_writeReg _ _).bind fun _ => ?_
  exact scripted_writeReg _ _

/-- However the wait ends, it only ever leaves the radio in standby, the flag cleared. -/
theorem scripted_waitTxDone (deadline : Int64) (turns : Nat) :
    Scripted Line.writes (waitTxDone radio deadline turns) doneScript := by
  induction turns with
  | zero => exact Script.scripted_throw _ _
  | succ turns ih =>
    refine scripted_espTimerGetTime.bind_silent fun time => ?_
    split
    · refine (scripted_readReg _).bind_silent fun flags => ?_
      split
      · exact (scripted_writeReg _ _).bind fun _ => scripted_writeReg _ _
      · exact (scripted_onDevice _).bind_silent fun _ => ih
    · exact Script.scripted_throw _ _

theorem scripted_transmitPacket (turns : Nat) (packet : LoraPacket) (channelHz : UInt32) :
    Scripted Line.writes (transmitPacket radio turns packet channelHz)
      (packetScript packet channelHz) := by
  have hfifo : packet.bytes.map (written REG_FIFO) =
      packet.bytes.flatMap fun byte => [written REG_FIFO byte] := List.map_eq_flatMap
  have hscript : packetScript packet channelHz =
      [written REG_OP_MODE (MODE_LONG_RANGE_MODE ||| MODE_STDBY)] ++ (frequencyScript channelHz ++
        ([written REG_IRQ_FLAGS 0xFF] ++ ([written REG_DIO_MAPPING_1 0x40] ++
          ([written REG_FIFO_ADDR_PTR 0] ++
            ((packet.bytes.flatMap fun byte => [written REG_FIFO byte]) ++
              ([written REG_PAYLOAD_LENGTH (UInt8.ofNat LORA_PACKET_LEN)] ++
                ([txCommand] ++ doneScript))))))) := by
    simp [packetScript, loadScript, hfifo]
  rw [hscript]
  unfold transmitPacket
  refine (scripted_writeReg _ _).bind fun _ => ?_
  refine (scripted_setFrequency _).bind fun _ => ?_
  refine (scripted_writeReg _ _).bind fun _ => ?_
  refine (scripted_writeReg _ _).bind fun _ => ?_
  refine (scripted_writeReg _ _).bind fun _ => ?_
  refine (Script.scripted_forM _ fun _ => scripted_writeReg _ _).bind fun _ => ?_
  refine (scripted_writeReg _ _).bind fun _ => ?_
  refine (scripted_writeReg _ _).bind fun _ => ?_
  exact scripted_espTimerGetTime.bind_silent fun _ => scripted_waitTxDone _ _

end

/-- What a transmission writes when it runs to its end. -/
def transmissionScript (deviceId : UInt32) (readingId : UInt16) (residueValues : Vector UInt8 3)
    (signature : Vector UInt8 SIGNATURE_LEN) : List (UInt8 × UInt8) :=
  (List.finRange 3).flatMap fun i =>
    packetScript (residuePacket deviceId readingId residueValues signature i) channelsHz[i]

section
variable {D : Type} (radio : Radio D) (turns : Nat) (deviceId : UInt32) (readingId : UInt16)
  (residueValues : Vector UInt8 3) (signature : Vector UInt8 SIGNATURE_LEN)

theorem scripted_transmission :
    Scripted Line.writes
      (loraTransmitResiduePackets radio turns deviceId readingId (some residueValues)
        (some signature)) (transmissionScript deviceId readingId residueValues signature) :=
  Script.scripted_forM _ fun _ => scripted_transmitPacket _ _ _

/-- **Whatever the radio answers, a transmission writes the three packets in order, each on
its channel, and nothing else: all of it when it returns, and a part from the start when it
stops.** -/
theorem transmit_scripted (line : Line D) :
    ∃ added, (exec (loraTransmitResiduePackets radio turns deviceId readingId (some residueValues)
        (some signature)) line).2.writes = line.writes ++ added ∧
      added <+: transmissionScript deviceId readingId residueValues signature ∧
      ((exec (loraTransmitResiduePackets radio turns deviceId readingId (some residueValues)
        (some signature)) line).1 = .ok () →
          added = transmissionScript deviceId readingId residueValues signature) := by
  obtain ⟨added, hlog, hadded, hok⟩ :=
    scripted_transmission radio turns deviceId readingId residueValues signature line
  exact ⟨added, hlog, hadded, hok ()⟩

/-- A radio that answers at once that the packet is sent. -/
def promptRadio : Radio Unit where
  spiBusInitialize d := (.ok (), d)
  spiBusAddDevice d := (.ok (), d)
  spiDeviceTransmit _ _ d := (.ok IRQ_TX_DONE_MASK, d)
  gpioSetOutput _ d := d
  gpioSetInput _ d := d
  gpioSetLevel _ _ d := d
  vTaskDelay _ d := d
  espTimerGetTime d := (0, d)

/-- The command to send is in no other place of a packet's script. -/
theorem txCommand_notMem (packet : LoraPacket) (channelHz : UInt32) :
    txCommand ∉ loadScript packet channelHz ∧ txCommand ∉ doneScript := by
  refine ⟨fun h => ?_, by decide⟩
  simp only [loadScript, frequencyScript, List.cons_append, List.nil_append,
    List.mem_cons, List.mem_append, List.mem_map, List.not_mem_nil, or_false] at h
  have hfst (reg value : UInt8) (hreg : reg ||| 0x80 ≠ REG_OP_MODE ||| 0x80) :
      txCommand ≠ written reg value := fun heq => hreg (congrArg Prod.fst heq).symm
  rcases h with h | h | h | h | h | h | h | ⟨byte, _, h⟩ | h
  · exact absurd h (by decide)
  all_goals first
    | exact hfst _ _ (by decide) h
    | exact hfst _ _ (by decide) h.symm

variable {deviceId readingId residueValues signature}

/-- A command to send, in a transmission after something that holds none. -/
theorem transmission_split {first before after : List (UInt8 × UInt8)} (hfirst : txCommand ∉ first)
    (h : before ++ txCommand :: after =
      first ++ transmissionScript deviceId readingId residueValues signature) :
    ∃ i : Fin 3, before = first ++ (((List.finRange 3).take i).flatMap fun j =>
        packetScript (residuePacket deviceId readingId residueValues signature j) channelsHz[j]) ++
      loadScript (residuePacket deviceId readingId residueValues signature i) channelsHz[i] := by
  obtain ⟨more, rfl, hmore⟩ := Script.split_past hfirst h
  let block (i : Fin 3) := (loadScript (residuePacket deviceId readingId residueValues signature i)
    channelsHz[i], doneScript)
  have hsplit : more ++ txCommand :: after =
      ((List.finRange 3).map block).flatMap fun b => b.1 ++ txCommand :: b.2 := by
    rw [hmore, List.flatMap_map]
    rfl
  have hmarker : ∀ b ∈ (List.finRange 3).map block, txCommand ∉ b.1 ∧ txCommand ∉ b.2 := by
    intro b hb
    obtain ⟨i, _, rfl⟩ := List.mem_map.mp hb
    exact txCommand_notMem _ _
  obtain ⟨sent, b, later, hblocks, rfl⟩ := Script.split_at_marker hmarker hsplit
  obtain ⟨earlier, rest, hrange, rfl, hmap⟩ := List.map_eq_append_iff.mp hblocks
  obtain ⟨i, laters, rfl, rfl, _⟩ := List.map_eq_cons_iff.mp hmap
  have hi : (List.finRange 3).take i = earlier := by
    have hget : (List.finRange 3)[earlier.length]? = some i := by
      rw [hrange, List.getElem?_append_right (Nat.le_refl _), Nat.sub_self]
      rfl
    have hlength : earlier.length = i := by
      obtain ⟨hlt, hget⟩ := List.getElem?_eq_some_iff.mp hget
      rw [← hget, List.getElem_finRange]
      rfl
    rw [hrange, ← hlength, List.take_left]
  refine ⟨i, ?_⟩
  rw [hi, List.flatMap_map, List.append_assoc]
  rfl

/-- **No packet is sent that is not loaded: at every command to send, what was written since
the transmission began is the earlier packets, whole, and then one packet, all 72 bytes, with
its channel set.** -/
theorem tx_only_loaded (line : Line D) (before after : List (UInt8 × UInt8))
    (h : (exec (loraTransmitResiduePackets radio turns deviceId readingId (some residueValues)
      (some signature)) line).2.writes = line.writes ++ (before ++ txCommand :: after)) :
    ∃ i : Fin 3, before = (((List.finRange 3).take i).flatMap fun j =>
        packetScript (residuePacket deviceId readingId residueValues signature j) channelsHz[j]) ++
      loadScript (residuePacket deviceId readingId residueValues signature i) channelsHz[i] := by
  obtain ⟨added, hlog, ⟨unsent, hunsent⟩, _⟩ :=
    transmit_scripted radio turns deviceId readingId residueValues signature line
  obtain rfl : added = before ++ txCommand :: after := List.append_cancel_left (hlog.symm.trans h)
  have hsplit : before ++ txCommand :: (after ++ unsent) =
      [] ++ transmissionScript deviceId readingId residueValues signature := by
    rw [← List.cons_append, ← List.append_assoc, hunsent, List.nil_append]
  exact transmission_split List.not_mem_nil hsplit

end

/-- A packet to try the radio with. -/
def probePacket (i : Fin 3) : LoraPacket :=
  residuePacket 7 42 #v[11, 96, 67] (Vector.replicate SIGNATURE_LEN 3) i

/-- The first packet a prompt radio is told to send. -/
theorem promptRadio_loaded :
    ∃ i : Fin 3, loadScript (probePacket 0) 868100000 =
      (((List.finRange 3).take i).flatMap fun j => packetScript (probePacket j) channelsHz[j]) ++
        loadScript (probePacket i) channelsHz[i] :=
  tx_only_loaded promptRadio 1 {device := ()} _
    (doneScript ++ packetScript (probePacket 1) 868300000 ++
      packetScript (probePacket 2) 868500000) (by decide +kernel)

/-! ### The wait ends -/

/-- A clock the timer shows: nothing sets it back, and a delay takes time, until the clock is at
its end. -/
structure Radio.Clocked {D : Type} (radio : Radio D) (clock : D → Int64) : Prop where
  shows : ∀ d, (radio.espTimerGetTime d).1 = clock d
  reading : ∀ d, clock d ≤ clock (radio.espTimerGetTime d).2
  transmitting : ∀ first second d, clock d ≤ clock (radio.spiDeviceTransmit first second d).2
  delaying : ∀ ms d, 0 < ms →
    clock d < clock (radio.vTaskDelay ms d) ∨ clock (radio.vTaskDelay ms d) = Int64.maxValue

section
variable {D : Type} {radio : Radio D} {clock : D → Int64}

/-- The clock is at `t` or later. -/
def Since (clock : D → Int64) (t : Int) (line : Line D) : Prop := t ≤ (clock line.device).toInt

theorem avoids_spiDeviceTransmit (h : radio.Clocked clock) (t : Int) (first second : UInt8) :
    Avoids (Since clock t) .polling (spiDeviceTransmit radio first second)
      fun _ => Since clock t := by
  intro line hline
  have hlater := Int64.le_iff_toInt_le.mp (h.transmitting first second line.device)
  unfold exec spiDeviceTransmit
  dsimp only
  split
  · refine ⟨fun heq => ?_, fun _ _ => Int.le_trans hline hlater⟩
    cases heq
  · refine ⟨fun heq => ?_, fun _ heq => ?_⟩
    · cases heq
    · cases heq

theorem avoids_writeReg (h : radio.Clocked clock) (t : Int) (reg value : UInt8) :
    Avoids (Since clock t) .polling (writeReg radio reg value) fun _ => Since clock t :=
  (avoids_spiDeviceTransmit h t _ _).bind fun _ => Script.avoids_pure fun _ hline => hline

theorem avoids_setFrequency (h : radio.Clocked clock) (t : Int) (hz : UInt32) :
    Avoids (Since clock t) .polling (setFrequency radio hz) fun _ => Since clock t :=
  (avoids_writeReg h t _ _).bind fun _ => (avoids_writeReg h t _ _).bind fun _ =>
    avoids_writeReg h t _ _

theorem avoids_espTimerGetTime (h : radio.Clocked clock) (t : Int) :
    Avoids (Since clock t) .polling (espTimerGetTime radio)
      fun time line => t ≤ time.toInt ∧ Since clock time.toInt line := by
  intro line hline
  refine ⟨fun heq => ?_, fun time heq => ?_⟩
  · cases heq
  · have htime : time = clock line.device := (Except.ok.inj heq).symm.trans (h.shows _)
    rw [htime]
    exact ⟨hline, Int64.le_iff_toInt_le.mp (h.reading line.device)⟩

theorem avoids_delay (h : radio.Clocked clock) {t : Int} (ht : t < Int64.maxValue.toInt) :
    Avoids (Since clock t) .polling (onDevice (radio.vTaskDelay 10))
      fun _ => Since clock (t + 1) := by
  intro line hline
  refine ⟨fun heq => ?_, fun _ _ => ?_⟩
  · cases heq
  · rcases h.delaying 10 line.device (by decide) with hlater | hend
    · exact Int.le_trans (Int.add_le_add_right hline 1) (Int64.lt_iff_toInt_lt.mp hlater)
    · show t + 1 ≤ (clock (radio.vTaskDelay 10 line.device)).toInt
      rw [hend]
      exact ht

/-- Every turn takes a delay, so the deadline is reached within as many turns. -/
theorem avoids_waitTxDone (h : radio.Clocked clock) (deadline : Int64) (turns : Nat) (t : Int)
    (hturns : deadline.toInt ≤ t + turns) :
    Avoids (Since clock t) .polling (waitTxDone radio deadline (turns + 1)) fun _ _ => True := by
  induction turns generalizing t with
  | zero =>
    refine (avoids_espTimerGetTime h t).bind fun time => ?_
    refine Script.avoids_from fun line hline => ?_
    have hlate : ¬time < deadline := by
      rw [Int64.lt_iff_toInt_lt]
      have hle := hline.1
      omega
    rw [if_neg hlate]
    exact Script.avoids_throw fun heq => by cases heq
  | succ turns ih =>
    refine (avoids_espTimerGetTime h t).bind fun time => ?_
    refine Script.avoids_from fun line hline => ?_
    refine Avoids.mono (p := Since clock time.toInt) ?_ (fun _ heq => heq ▸ hline.2) fun _ _ hq => hq
    split
    · rename_i hearly
      refine (avoids_spiDeviceTransmit h time.toInt _ _).bind fun flags => ?_
      split
      · refine (avoids_writeReg h time.toInt _ _).bind fun _ => ?_
        exact (avoids_writeReg h time.toInt _ _).mono (fun _ hline => hline) fun _ _ _ => trivial
      · have hend : time.toInt < Int64.maxValue.toInt :=
          Int.lt_of_lt_of_le (Int64.lt_iff_toInt_lt.mp hearly) (Int64.toInt_le deadline)
        refine (avoids_delay h hend).bind fun _ => ih (time.toInt + 1) ?_
        have hle := hline.1
        omega
    · exact Script.avoids_throw fun heq => by cases heq

/-- The deadline is two seconds away, or it wrapped and has passed. -/
theorem deadline_le (time : Int64) : (time + 2000000).toInt ≤ time.toInt + 2000000 := by
  have hlow := Int64.le_toInt time
  have hadd : (time + 2000000).toInt = (time.toInt + 2000000).bmod (2 ^ 64) := Int64.toInt_add ..
  rw [hadd, Int.bmod_def]
  omega

theorem avoids_transmitPacket (h : radio.Clocked clock) {turns : Nat} (hturns : 2000000 < turns)
    (packet : LoraPacket) (channelHz : UInt32) :
    Avoids (fun _ => True) .polling (transmitPacket radio turns packet channelHz)
      fun _ _ => True := by
  intro line _
  -- the clock when the transmission of the packet starts
  have hstart : Avoids (Since clock (clock line.device).toInt) .polling
      (transmitPacket radio turns packet channelHz) fun _ _ => True := by
    obtain ⟨more, rfl⟩ : ∃ more, turns = more + 1 := ⟨turns - 1, by omega⟩
    unfold transmitPacket
    refine (avoids_writeReg h _ _ _).bind fun _ => ?_
    refine (avoids_setFrequency h _ _).bind fun _ => ?_
    refine (avoids_writeReg h _ _ _).bind fun _ => ?_
    refine (avoids_writeReg h _ _ _).bind fun _ => ?_
    refine (avoids_writeReg h _ _ _).bind fun _ => ?_
    refine (Script.avoids_forM _ fun _ => avoids_writeReg h _ _ _).bind fun _ => ?_
    refine (avoids_writeReg h _ _ _).bind fun _ => ?_
    refine (avoids_writeReg h _ _ _).bind fun _ => ?_
    refine (avoids_espTimerGetTime h _).bind fun time => ?_
    have hdeadline := deadline_le time
    exact (avoids_waitTxDone h _ more time.toInt (by omega)).mono (fun _ hline => hline.2)
      fun _ _ _ => trivial
  exact hstart line (Int.le_refl _)

/-- More turns change nothing for a wait that has ended. -/
theorem extends_waitTxDone (deadline : Int64) {turns turns' : Nat} (h : turns ≤ turns') :
    Extends .polling (waitTxDone radio deadline turns) (waitTxDone radio deadline turns') := by
  induction turns generalizing turns' with
  | zero => exact Script.extends_throw _
  | succ turns ih =>
    obtain ⟨more, rfl⟩ : ∃ more, turns' = more + 1 := ⟨turns' - 1, by omega⟩
    refine (Extends.refl _).bind fun time => ?_
    split
    · refine (Extends.refl _).bind fun flags => ?_
      split
      · exact Extends.refl _
      · exact (Extends.refl _).bind fun _ => ih (by omega)
    · exact Extends.refl _

theorem extends_transmitPacket {turns turns' : Nat} (h : turns ≤ turns') (packet : LoraPacket)
    (channelHz : UInt32) :
    Extends .polling (transmitPacket radio turns packet channelHz)
      (transmitPacket radio turns' packet channelHz) := by
  unfold transmitPacket
  refine (Extends.refl _).bind fun _ => (Extends.refl _).bind fun _ => ?_
  refine (Extends.refl _).bind fun _ => (Extends.refl _).bind fun _ => ?_
  refine (Extends.refl _).bind fun _ => (Extends.refl _).bind fun _ => ?_
  refine (Extends.refl _).bind fun _ => (Extends.refl _).bind fun _ => ?_
  exact (Extends.refl _).bind fun _ => extends_waitTxDone _ h

/-- **A transmission ends: as long as the clock moves on or is at its end, none of the three waits
polls for more than two seconds, and with so many turns the result is the one any more would
give.** -/
theorem transmit_returns (h : radio.Clocked clock) {turns turns' : Nat} (hturns : 2000000 < turns)
    (hmore : turns ≤ turns') (deviceId : UInt32) (readingId : UInt16)
    (residueValues : Pointer (Vector UInt8 3)) (signature : Pointer (Vector UInt8 SIGNATURE_LEN))
    (line : Line D) :
    (exec (loraTransmitResiduePackets radio turns deviceId readingId residueValues signature)
      line).1 ≠ .error .polling ∧
    exec (loraTransmitResiduePackets radio turns' deviceId readingId residueValues signature) line =
      exec (loraTransmitResiduePackets radio turns deviceId readingId residueValues signature)
        line := by
  have hends : (exec (loraTransmitResiduePackets radio turns deviceId readingId residueValues
      signature) line).1 ≠ .error .polling := by
    unfold loraTransmitResiduePackets
    split
    · exact (Script.avoids_forM (p := fun _ => True) _
        (fun _ => avoids_transmitPacket h hturns _ _) line trivial).1
    · exact (Script.avoids_throw (p := fun _ => True) (q := fun _ _ => True)
        (fun heq => by cases heq) line trivial).1
  refine ⟨hends, ?_⟩
  have hextends : Extends .polling
      (loraTransmitResiduePackets radio turns deviceId readingId residueValues signature)
      (loraTransmitResiduePackets radio turns' deviceId readingId residueValues signature) := by
    unfold loraTransmitResiduePackets
    split
    · exact Script.extends_forM _ fun _ => extends_transmitPacket hmore _ _
    · exact Extends.refl _
  exact hextends line hends

end

/-- A radio that is never done, on a clock that only its delays move. -/
def stuckRadio : Radio Nat where
  spiBusInitialize d := (.ok (), d)
  spiBusAddDevice d := (.ok (), d)
  spiDeviceTransmit _ _ d := (.ok 0, d)
  gpioSetOutput _ d := d
  gpioSetInput _ d := d
  gpioSetLevel _ _ d := d
  vTaskDelay ms d := d + 1000 * ms
  espTimerGetTime d := (Int64.ofNat (min d 0x7FFFFFFFFFFFFFFF), d)

theorem stuckRadio_returns :
    (exec (loraTransmitResiduePackets stuckRadio 2000001 7 42 (some #v[11, 96, 67])
      (some (Vector.replicate SIGNATURE_LEN 3))) {device := 0}).1 ≠ .error .polling := by
  have hclock : stuckRadio.Clocked fun d => Int64.ofNat (min d 0x7FFFFFFFFFFFFFFF) := by
    refine ⟨fun _ => rfl, fun _ => Int64.le_refl _, fun _ _ _ => Int64.le_refl _, fun ms d hms => ?_⟩
    show Int64.ofNat (min d 0x7FFFFFFFFFFFFFFF) <
        Int64.ofNat (min (d + 1000 * ms) 0x7FFFFFFFFFFFFFFF) ∨
      Int64.ofNat (min (d + 1000 * ms) 0x7FFFFFFFFFFFFFFF) = Int64.maxValue
    by_cases hend : 0x7FFFFFFFFFFFFFFF ≤ d + 1000 * ms
    · rw [Nat.min_eq_right hend]
      exact .inr rfl
    · refine .inl (Int64.lt_iff_toInt_lt.mpr ?_)
      rw [Int64.toInt_ofNat_of_lt (by omega), Int64.toInt_ofNat_of_lt (by omega)]
      omega
  exact (transmit_returns hclock (by decide) (Nat.le_refl _) _ _ _ _ _).1

end FarmChain.Firmware
