import FarmChain.Firmware.LoraTx

/-! What the radio is set to when it is told to send.

A register holds what was last written to it (`lastWritten`). After `lora_init` a
transmission changes the channel and loads packets, and leaves the modem as it was set
(`tx_configured`), whatever the radio answers and wherever it stops. -/
namespace FarmChain.Firmware
open Script (Program exec Scripted)

/-- The value last written to the register. -/
def lastWritten (reg : UInt8) : List (UInt8 × UInt8) → Option UInt8
  | [] => none
  | tx :: rest => (lastWritten reg rest).or (if tx.1 = reg ||| 0x80 then some tx.2 else none)

theorem lastWritten_append (reg : UInt8) (a b : List (UInt8 × UInt8)) :
    lastWritten reg (a ++ b) = (lastWritten reg b).or (lastWritten reg a) := by
  induction a with
  | nil => exact (Option.or_none).symm
  | cons tx rest ih => rw [List.cons_append, lastWritten, ih, lastWritten, Option.or_assoc]

/-- A write to another register. -/
theorem lastWritten_of_ne {reg : UInt8} {l : List (UInt8 × UInt8)}
    (h : ∀ tx ∈ l, tx.1 ≠ reg ||| 0x80) : lastWritten reg l = none := by
  induction l with
  | nil => rfl
  | cons tx rest ih =>
    rw [lastWritten, ih fun tx htx => h tx (List.mem_cons_of_mem _ htx),
      if_neg (h tx (List.mem_cons_self ..))]
    rfl

/-- What `lora_init` writes when it runs to its end. -/
def initScript : List (UInt8 × UInt8) :=
  written REG_OP_MODE (MODE_LONG_RANGE_MODE ||| MODE_SLEEP) :: frequencyScript (channelsHz.get 0) ++
    [written REG_FIFO_TX_BASE_ADDR 0, written REG_LNA 0x23, written REG_MODEM_CONFIG_1 0x73,
      written REG_MODEM_CONFIG_2 0x70, written REG_MODEM_CONFIG_3 0x04,
      written REG_PREAMBLE_MSB 0x00, written REG_PREAMBLE_LSB 0x08,
      written REG_PAYLOAD_LENGTH (UInt8.ofNat LORA_PACKET_LEN), written REG_SYNC_WORD 0x34,
      written REG_PA_CONFIG 0x8F, written REG_OP_MODE (MODE_LONG_RANGE_MODE ||| MODE_STDBY)]

section
variable {D : Type} {radio : Radio D}

theorem scripted_unlessInvalidState (call : D → Except SpiErr Unit × D) :
    Scripted Line.writes (unlessInvalidState call) [] := by
  refine Script.scripted_silent fun line => ?_
  unfold exec unlessInvalidState
  dsimp only
  split <;> rfl

theorem scripted_loraInit : Scripted Line.writes (loraInit radio) initScript := by
  have hscript : initScript =
      [written REG_OP_MODE (MODE_LONG_RANGE_MODE ||| MODE_SLEEP)] ++
        (frequencyScript (channelsHz.get 0) ++ ([written REG_FIFO_TX_BASE_ADDR 0] ++
          ([written REG_LNA 0x23] ++ ([written REG_MODEM_CONFIG_1 0x73] ++
            ([written REG_MODEM_CONFIG_2 0x70] ++ ([written REG_MODEM_CONFIG_3 0x04] ++
              ([written REG_PREAMBLE_MSB 0x00] ++ ([written REG_PREAMBLE_LSB 0x08] ++
                ([written REG_PAYLOAD_LENGTH (UInt8.ofNat LORA_PACKET_LEN)] ++
                  ([written REG_SYNC_WORD 0x34] ++ ([written REG_PA_CONFIG 0x8F] ++
                    [written REG_OP_MODE (MODE_LONG_RANGE_MODE ||| MODE_STDBY)]))))))))))) := rfl
  rw [hscript]
  unfold loraInit
  refine (scripted_unlessInvalidState _).bind_silent fun _ => ?_
  refine (scripted_unlessInvalidState _).bind_silent fun _ => ?_
  refine (scripted_onDevice _).bind_silent fun _ => (scripted_onDevice _).bind_silent fun _ => ?_
  refine (scripted_onDevice _).bind_silent fun _ => (scripted_onDevice _).bind_silent fun _ => ?_
  refine (scripted_onDevice _).bind_silent fun _ => (scripted_onDevice _).bind_silent fun _ => ?_
  refine (scripted_readReg _).bind_silent fun _ => (scripted_writeReg _ _).bind fun _ => ?_
  refine (scripted_setFrequency _).bind fun _ => (scripted_writeReg _ _).bind fun _ => ?_
  refine (scripted_writeReg _ _).bind fun _ => (scripted_writeReg _ _).bind fun _ => ?_
  refine (scripted_writeReg _ _).bind fun _ => (scripted_writeReg _ _).bind fun _ => ?_
  refine (scripted_writeReg _ _).bind fun _ => (scripted_writeReg _ _).bind fun _ => ?_
  refine (scripted_writeReg _ _).bind fun _ => (scripted_writeReg _ _).bind fun _ => ?_
  exact (scripted_writeReg _ _).bind fun _ => scripted_writeReg _ _

end

/-! ### The registers at a command to send -/

/-- What `lora_init` sets and no transmission writes. -/
def modemConfig : List (UInt8 × UInt8) :=
  [(REG_FIFO_TX_BASE_ADDR, 0), (REG_LNA, 0x23), (REG_MODEM_CONFIG_1, 0x73),
    (REG_MODEM_CONFIG_2, 0x70), (REG_MODEM_CONFIG_3, 0x04), (REG_PREAMBLE_MSB, 0x00),
    (REG_PREAMBLE_LSB, 0x08), (REG_SYNC_WORD, 0x34), (REG_PA_CONFIG, 0x8F)]

/-- What is set anew for each packet. -/
def packetConfig : List (UInt8 × UInt8) :=
  [(REG_OP_MODE, MODE_LONG_RANGE_MODE ||| MODE_STDBY), (REG_DIO_MAPPING_1, 0x40),
    (REG_FIFO_ADDR_PTR, 0), (REG_PAYLOAD_LENGTH, 72)]

/-- The registers a transmission writes. -/
def packetRegisters : List UInt8 :=
  [REG_OP_MODE, REG_FRF_MSB, REG_FRF_MID, REG_FRF_LSB, REG_IRQ_FLAGS, REG_DIO_MAPPING_1,
    REG_FIFO_ADDR_PTR, REG_FIFO, REG_PAYLOAD_LENGTH]

theorem loadScript_registers {packet : LoraPacket} {channelHz : UInt32} {tx : UInt8 × UInt8}
    (h : tx ∈ loadScript packet channelHz) : ∃ reg ∈ packetRegisters, tx.1 = reg ||| 0x80 := by
  simp only [loadScript, frequencyScript, List.cons_append, List.nil_append, List.mem_cons,
    List.mem_append, List.mem_map, List.not_mem_nil, or_false] at h
  rcases h with h | h | h | h | h | h | h | ⟨byte, _, h⟩ | h
  · exact ⟨REG_OP_MODE, by decide, congrArg Prod.fst h⟩
  · exact ⟨REG_FRF_MSB, by decide, congrArg Prod.fst h⟩
  · exact ⟨REG_FRF_MID, by decide, congrArg Prod.fst h⟩
  · exact ⟨REG_FRF_LSB, by decide, congrArg Prod.fst h⟩
  · exact ⟨REG_IRQ_FLAGS, by decide, congrArg Prod.fst h⟩
  · exact ⟨REG_DIO_MAPPING_1, by decide, congrArg Prod.fst h⟩
  · exact ⟨REG_FIFO_ADDR_PTR, by decide, congrArg Prod.fst h⟩
  · exact ⟨REG_FIFO, by decide, (congrArg Prod.fst h).symm⟩
  · exact ⟨REG_PAYLOAD_LENGTH, by decide, congrArg Prod.fst h⟩

theorem packetScript_registers {packet : LoraPacket} {channelHz : UInt32} {tx : UInt8 × UInt8}
    (h : tx ∈ packetScript packet channelHz) : ∃ reg ∈ packetRegisters, tx.1 = reg ||| 0x80 := by
  rcases List.mem_append.mp h with hload | hdone
  · exact loadScript_registers hload
  · simp only [doneScript, List.mem_cons, List.not_mem_nil, or_false] at hdone
    rcases hdone with h | h | h
    · exact ⟨REG_OP_MODE, by decide, congrArg Prod.fst h⟩
    · exact ⟨REG_IRQ_FLAGS, by decide, congrArg Prod.fst h⟩
    · exact ⟨REG_OP_MODE, by decide, congrArg Prod.fst h⟩

/-- The packet's own bytes set no register. -/
theorem lastWritten_loadScript {reg : UInt8} (hreg : REG_FIFO ||| 0x80 ≠ reg ||| 0x80)
    (packet : LoraPacket) (channelHz : UInt32) :
    lastWritten reg (loadScript packet channelHz) =
      lastWritten reg (written REG_OP_MODE (MODE_LONG_RANGE_MODE ||| MODE_STDBY) ::
        frequencyScript channelHz ++
          [written REG_IRQ_FLAGS 0xFF, written REG_DIO_MAPPING_1 0x40, written REG_FIFO_ADDR_PTR 0,
            written REG_PAYLOAD_LENGTH (UInt8.ofNat LORA_PACKET_LEN)]) := by
  have hfifo : lastWritten reg (packet.bytes.map (written REG_FIFO)) = none := by
    refine lastWritten_of_ne fun tx htx => ?_
    obtain ⟨byte, _, rfl⟩ := List.mem_map.mp htx
    exact hreg
  unfold loadScript
  rw [lastWritten_append, lastWritten_append, hfifo, Option.none_or, ← lastWritten_append]
  rfl

/-- The three bytes hold the quotient, as far as 24 bits go. -/
theorem frequencyScript_value (hz : UInt32) :
    let frf := hz.toUInt64 <<< 19 / 32000000
    (frf >>> 16).toUInt8.toNat * 65536 + (frf >>> 8).toUInt8.toNat * 256 + frf.toUInt8.toNat =
      hz.toNat * 524288 / 32000000 % 16777216 := by
  intro frf
  have hfrf : frf.toNat = hz.toNat * 524288 / 32000000 := by
    have hlt := hz.toNat_lt
    show (hz.toUInt64 <<< 19 / 32000000).toNat = _
    rw [UInt64.toNat_div, UInt64.toNat_shiftLeft, UInt32.toNat_toUInt64, Nat.shiftLeft_eq]
    have hsmall : hz.toNat * 2 ^ ((19 : UInt64).toNat % 64) % 2 ^ 64 = hz.toNat * 524288 := by
      show hz.toNat * 524288 % 2 ^ 64 = _
      omega
    rw [hsmall]
    rfl
  have hbyte (k : UInt64) (n : Nat) (hk : k.toNat % 64 = n) :
      (frf >>> k).toUInt8.toNat = frf.toNat / 2 ^ n % 256 := by
    rw [UInt64.toNat_toUInt8, UInt64.toNat_shiftRight, hk, Nat.shiftRight_eq_div_pow]
  rw [hbyte 16 16 rfl, hbyte 8 8 rfl, UInt64.toNat_toUInt8, hfrf]
  omega

section
variable {D : Type} (radio : Radio D) (turns : Nat) (deviceId : UInt32) (readingId : UInt16)
  (residueValues : Vector UInt8 3) (signature : Vector UInt8 SIGNATURE_LEN)

theorem txCommand_notMem_init : txCommand ∉ initScript := by decide

/-- No packet sets a register of the modem, and `lora_init` sets them all. -/
theorem modemConfig_set : ∀ config ∈ modemConfig,
    (∀ reg ∈ packetRegisters, reg ||| 0x80 ≠ config.1 ||| 0x80) ∧
      lastWritten config.1 initScript = some config.2 := by
  have hall : (modemConfig.all fun config =>
      (packetRegisters.all fun reg => reg ||| 0x80 != config.1 ||| 0x80) &&
        lastWritten config.1 initScript == some config.2) = true := by decide
  intro config hconfig
  have hset := List.all_eq_true.mp hall config hconfig
  rw [Bool.and_eq_true] at hset
  refine ⟨fun reg hreg => ?_, eq_of_beq hset.2⟩
  exact bne_iff_ne.mp (List.all_eq_true.mp hset.1 reg hreg)

theorem packetConfig_set (packet : LoraPacket) (channelHz : UInt32) : ∀ config ∈ packetConfig,
    lastWritten config.1 (loadScript packet channelHz) = some config.2 := by
  intro config hconfig
  simp only [packetConfig, List.mem_cons, List.not_mem_nil, or_false] at hconfig
  rcases hconfig with rfl | rfl | rfl | rfl
  · rw [lastWritten_loadScript (by decide)]
    rfl
  · rw [lastWritten_loadScript (by decide)]
    rfl
  · rw [lastWritten_loadScript (by decide)]
    rfl
  · rw [lastWritten_loadScript (by decide)]
    rfl

/-- The channels are below the 1024 MHz that the registers can hold. -/
theorem channelsHz_lt (i : Fin 3) : (channelsHz.get i).toNat < 1024000000 := by
  revert i
  decide

/-- **At every command to send, the modem is as `lora_init` set it, the radio is in standby
with the packet's length, what was written last is one packet, loaded after the earlier ones,
and the frequency is that packet's channel's, nothing of it lost.** -/
theorem tx_configured (line : Line D) (before after : List (UInt8 × UInt8))
    (h : (exec (loraInit radio >>= fun _ => loraTransmitResiduePackets radio turns deviceId
      readingId (some residueValues) (some signature)) line).2.writes =
        line.writes ++ (before ++ txCommand :: after)) :
    (∀ config ∈ modemConfig ++ packetConfig, lastWritten config.1 before = some config.2) ∧
      ∃ i : Fin 3, before = initScript ++ (((List.finRange 3).take i).flatMap fun j =>
          packetScript (residuePacket deviceId readingId residueValues signature j)
            (channelsHz.get j)) ++
          loadScript (residuePacket deviceId readingId residueValues signature i)
            (channelsHz.get i) ∧
        ∃ msb mid lsb, lastWritten REG_FRF_MSB before = some msb ∧
        lastWritten REG_FRF_MID before = some mid ∧ lastWritten REG_FRF_LSB before = some lsb ∧
        msb.toNat * 65536 + mid.toNat * 256 + lsb.toNat =
          (channelsHz.get i).toNat * 524288 / 32000000 := by
  have hscripted : Scripted Line.writes (loraInit radio >>= fun _ => loraTransmitResiduePackets radio
      turns deviceId readingId (some residueValues) (some signature))
        (initScript ++ transmissionScript deviceId readingId residueValues signature) :=
    scripted_loraInit.bind fun _ => scripted_transmission _ _ _ _ _ _
  obtain ⟨added, hlog, ⟨unsent, hunsent⟩, _⟩ := hscripted line
  obtain rfl : added = before ++ txCommand :: after := List.append_cancel_left (hlog.symm.trans h)
  have hsplit : before ++ txCommand :: (after ++ unsent) =
      initScript ++ transmissionScript deviceId readingId residueValues signature := by
    rw [← List.cons_append, ← List.append_assoc, hunsent]
  obtain ⟨i, rfl⟩ := transmission_split txCommand_notMem_init hsplit
  -- the packet being loaded is the last to have written what it writes
  have hload {reg value : UInt8}
      (hwritten : lastWritten reg (loadScript
        (residuePacket deviceId readingId residueValues signature i) channelsHz[i]) = some value) :
      lastWritten reg (initScript ++ (((List.finRange 3).take i).flatMap fun j =>
        packetScript (residuePacket deviceId readingId residueValues signature j) channelsHz[j]) ++
          loadScript (residuePacket deviceId readingId residueValues signature i) channelsHz[i]) =
        some value := by
    rw [lastWritten_append, hwritten, Option.some_or]
  let frf := (channelsHz.get i).toUInt64 <<< 19 / 32000000
  refine ⟨fun config hconfig => ?_, i, rfl, (frf >>> 16).toUInt8, (frf >>> 8).toUInt8, frf.toUInt8,
    hload ?_, hload ?_, hload ?_, ?_⟩
  · rcases List.mem_append.mp hconfig with hmodem | hpacket
    · obtain ⟨hreg, hinit⟩ := modemConfig_set config hmodem
      have hpackets : lastWritten config.1 (((List.finRange 3).take i).flatMap fun j =>
          packetScript (residuePacket deviceId readingId residueValues signature j)
            channelsHz[j]) = none := by
        refine lastWritten_of_ne fun tx htx => ?_
        obtain ⟨j, _, hj⟩ := List.mem_flatMap.mp htx
        obtain ⟨reg, hmem, heq⟩ := packetScript_registers hj
        exact heq ▸ hreg reg hmem
      have hlast : lastWritten config.1 (loadScript
          (residuePacket deviceId readingId residueValues signature i) channelsHz[i]) = none := by
        refine lastWritten_of_ne fun tx htx => ?_
        obtain ⟨reg, hmem, heq⟩ := loadScript_registers htx
        exact heq ▸ hreg reg hmem
      rw [lastWritten_append, lastWritten_append, hlast, hpackets, hinit]
      rfl
    · exact hload (packetConfig_set _ _ config hpacket)
  · rw [lastWritten_loadScript (by decide)]
    rfl
  · rw [lastWritten_loadScript (by decide)]
    rfl
  · rw [lastWritten_loadScript (by decide)]
    rfl
  · have hlt := channelsHz_lt i
    rw [frequencyScript_value]
    exact Nat.mod_eq_of_lt (by omega)

end

/-- A prompt radio when it is told to send the second packet. -/
theorem promptRadio_configured :
    let before := initScript ++ packetScript (probePacket 0) 868100000 ++
      loadScript (probePacket 1) 868300000
    (∀ config ∈ modemConfig ++ packetConfig, lastWritten config.1 before = some config.2) ∧
      ∃ i : Fin 3, before = initScript ++ (((List.finRange 3).take i).flatMap fun j =>
          packetScript (probePacket j) (channelsHz.get j)) ++
          loadScript (probePacket i) (channelsHz.get i) ∧
        ∃ msb mid lsb, lastWritten REG_FRF_MSB before = some msb ∧
        lastWritten REG_FRF_MID before = some mid ∧ lastWritten REG_FRF_LSB before = some lsb ∧
        msb.toNat * 65536 + mid.toNat * 256 + lsb.toNat =
          (channelsHz.get i).toNat * 524288 / 32000000 :=
  tx_configured promptRadio 1 7 42 #v[11, 96, 67] (Vector.replicate SIGNATURE_LEN 3) {device := ()}
    _ (doneScript ++ packetScript (probePacket 2) 868500000) (by decide +kernel)

end FarmChain.Firmware
