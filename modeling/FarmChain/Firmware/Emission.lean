import Mathlib.Data.Nat.ModEq
import FarmChain.Lib.Endian
import FarmChain.Firmware.LoraTx
import FarmChain.Firmware.WakeCycle

/-! From the sensor to the air.

A wake measures, packs, splits and signs, and its transmission loads three packets of 72
bytes. Between the reading and the bytes nothing is lost but what the packing clamps:
two completed wakes that load the same bytes have the same identifiers, the same signature
and the same packed reading (`airborne_injective`). -/
namespace FarmChain.Firmware
open Script (exec)

/-- The bytes written to the FIFO. -/
def fifoBytes (writes : List (UInt8 × UInt8)) : List UInt8 :=
  (writes.filter fun tx => tx.1 = REG_FIFO ||| 0x80).map Prod.snd

/-- The first bytes at a pointer. -/
def firstBytes (n : Nat) (bytes : List UInt8) : Vector UInt8 n :=
  Vector.ofFn fun i => bytes.getD i 0

/-- The transmission of a wake. -/
def transmission {D : Type} (radio : Radio D) (turns : Nat) (transmitted : Transmitted) :
    Lora D Unit :=
  loraTransmitResiduePackets radio turns transmitted.deviceId transmitted.readingId
    (some (firstBytes 3 transmitted.residueValues))
    (some (firstBytes SIGNATURE_LEN transmitted.signature))

/-! ### The bytes of a packet -/

theorem littleEndian_eq (n value : Nat) : littleEndian n value = Endian.little n value := by
  induction n generalizing value with
  | zero => rfl
  | succ n ih => rw [littleEndian, ih, Endian.little]

theorem length_bytes (packet : LoraPacket) : packet.bytes.length = LORA_PACKET_LEN := by
  have hsignature : packet.signature.toList.length = SIGNATURE_LEN := Vector.length_toList
  simp only [LoraPacket.bytes, littleEndian_eq, List.length_append, Endian.length_little, hsignature]
  rfl

/-- A packet can be read back from its bytes. -/
theorem bytes_injective {packet packet' : LoraPacket} (h : packet.bytes = packet'.bytes) :
    packet = packet' := by
  unfold LoraPacket.bytes at h
  simp only [littleEndian_eq] at h
  obtain ⟨hrest, hsignature⟩ := List.append_inj h (by simp)
  obtain ⟨hids, hresidue⟩ := List.append_inj hrest (by simp)
  obtain ⟨hdevice, hreading⟩ := List.append_inj hids (by simp)
  have hdevice := Endian.little_injective packet.deviceId.toNat_lt packet'.deviceId.toNat_lt hdevice
  have hreading :=
    Endian.little_injective packet.readingId.toNat_lt packet'.readingId.toNat_lt hreading
  obtain ⟨deviceId, readingId, index, value, signature⟩ := packet
  obtain ⟨deviceId', readingId', index', value', signature'⟩ := packet'
  simp only [List.cons.injEq, and_true] at hresidue
  rw [LoraPacket.mk.injEq]
  exact ⟨UInt32.toNat_inj.mp hdevice, UInt16.toNat_inj.mp hreading, hresidue.1, hresidue.2,
    Vector.toList_inj.mp hsignature⟩

theorem fifoBytes_append (a b : List (UInt8 × UInt8)) :
    fifoBytes (a ++ b) = fifoBytes a ++ fifoBytes b := by
  rw [fifoBytes, List.filter_append, List.map_append]
  rfl

/-- Of a packet's script, the FIFO gets the packet. -/
theorem fifoBytes_packetScript (packet : LoraPacket) (channelHz : UInt32) :
    fifoBytes (packetScript packet channelHz) = packet.bytes := by
  have hbytes : fifoBytes (packet.bytes.map (written REG_FIFO)) = packet.bytes := by
    have hall : ∀ tx ∈ packet.bytes.map (written REG_FIFO),
        decide (tx.1 = REG_FIFO ||| 0x80) = true := by
      intro tx htx
      obtain ⟨byte, _, rfl⟩ := List.mem_map.mp htx
      rfl
    rw [fifoBytes, List.filter_eq_self.mpr hall, List.map_map]
    exact List.map_id _
  unfold packetScript loadScript
  rw [fifoBytes_append, fifoBytes_append, fifoBytes_append, hbytes]
  show [] ++ packet.bytes ++ [] ++ [] = packet.bytes
  simp

theorem fifoBytes_transmissionScript (deviceId : UInt32) (readingId : UInt16)
    (residueValues : Vector UInt8 3) (signature : Vector UInt8 SIGNATURE_LEN) :
    fifoBytes (transmissionScript deviceId readingId residueValues signature) =
      (residuePacket deviceId readingId residueValues signature 0).bytes ++
        ((residuePacket deviceId readingId residueValues signature 1).bytes ++
          (residuePacket deviceId readingId residueValues signature 2).bytes) := by
  show fifoBytes (_ ++ (_ ++ (_ ++ []))) = _
  rw [fifoBytes_append, fifoBytes_append, List.append_nil, fifoBytes_packetScript,
    fifoBytes_packetScript, fifoBytes_packetScript]
  rfl

/-! ### The reading behind the packets -/

theorem toList_firstBytes {n : Nat} {bytes : List UInt8} (h : bytes.length = n) :
    (firstBytes n bytes).toList = bytes := by
  subst h
  refine List.ext_getElem Vector.length_toList fun i hi hbytes => ?_
  rw [Vector.getElem_toList]
  show (Vector.ofFn fun i => bytes.getD i 0)[i] = bytes[i]
  rw [Vector.getElem_ofFn]
  exact (List.getElem_eq_getD 0).symm

theorem length_signature {Key : Type} {wolfssl : Wolfssl Key}
    {privateKeyRead : Except Int (Vector UInt8 CERT_PRIVATE_KEY_LEN)}
    {payload signature : Pointer (List UInt8)} {signed : List UInt8}
    (h : signSensorData wolfssl privateKeyRead payload signature = .ok signed) :
    signed.length = SIGNATURE_LEN := by
  unfold signSensorData at h
  repeat' split at h
  all_goals cases h
  rename_i hlength
  exact not_not.mp hlength

/-- What a wake transmits is the reading it measured. -/
theorem transmitted_reading {Key : Type} {board : Board Key} {rtcCert : RtcCertData}
    {transmitted : Transmitted} (h : (appMain board rtcCert).transmitted = some transmitted) :
    ∃ reading, board.sensorRead = .ok reading ∧ transmitted.signature.length = SIGNATURE_LEN ∧
      transmitted.residueValues =
        [0, 1, 2].map fun i => (residueAt (encodeSensorValue reading) i).value := by
  have hbefore : beforeTransmission board rtcCert = .ok transmitted := by
    unfold appMain at h
    split at h
    · cases h
    · rename_i t ht
      split at h <;> (cases h; exact ht)
  unfold beforeTransmission at hbefore
  simp only [Except.bind_eq_ok] at hbefore
  obtain ⟨_, _, _, _, _, _, hbefore⟩ := hbefore
  split at hbefore
  · cases hbefore
  · obtain ⟨now, _, hmeasure⟩ := Except.bind_eq_ok.mp hbefore
    unfold measure at hmeasure
    simp only [Except.bind_eq_ok, espErrorCheck_eq_ok] at hmeasure
    obtain ⟨_, _, _, _, reading, hreading, _, _, signature, hsigned, residues, hresidues, hdone⟩ :=
      hmeasure
    rw [crtEncode_encodeSensorValue] at hresidues
    cases hresidues
    cases hdone
    exact ⟨reading, hreading, length_signature hsigned, rfl⟩

/-- The three residues determine the packed value. -/
theorem encodeSensorValue_of_residues {reading reading' : SensorReading}
    (h : ∀ i ∈ ([0, 1, 2] : List UInt8), (residueAt (encodeSensorValue reading) i).value =
      (residueAt (encodeSensorValue reading') i).value) :
    encodeSensorValue reading = encodeSensorValue reading' := by
  have hmod (i : UInt8) (hi : i ∈ ([0, 1, 2] : List UInt8)) :
      (encodeSensorValue reading).toNat ≡ (encodeSensorValue reading').toNat
        [MOD (crtModulusForIndex i).toNat] := by
    have heq := congrArg UInt8.toNat (h i hi)
    rwa [residueAt_value _ hi, residueAt_value _ hi] at heq
  have h0 : (encodeSensorValue reading).toNat ≡ (encodeSensorValue reading').toNat [MOD 97] :=
    hmod 0 (by decide)
  have h1 : (encodeSensorValue reading).toNat ≡ (encodeSensorValue reading').toNat [MOD 101] :=
    hmod 1 (by decide)
  have h2 : (encodeSensorValue reading).toNat ≡ (encodeSensorValue reading').toNat [MOD 103] :=
    hmod 2 (by decide)
  have hall := (Nat.modEq_and_modEq_iff_modEq_mul (by decide)).mp
    ⟨(Nat.modEq_and_modEq_iff_modEq_mul (by decide)).mp ⟨h0, h1⟩, h2⟩
  have hsmall (r : SensorReading) : (encodeSensorValue r).toNat < 97 * 101 * 103 := by
    have hrange := tempBucket_range r
    rw [toNat_encodeSensorValue]
    omega
  exact UInt32.toNat_inj.mp (Nat.ModEq.eq_of_lt_of_lt hall (hsmall _) (hsmall _))

/-- The packed value determines what was packed. -/
theorem packed_of_encodeSensorValue {reading reading' : SensorReading}
    (h : encodeSensorValue reading = encodeSensorValue reading') :
    min reading.soilMoistureRaw.toNat 4095 = min reading'.soilMoistureRaw.toNat 4095 ∧
      tempBucket reading = tempBucket reading' := by
  have hvalue := congrArg UInt32.toNat h
  rw [toNat_encodeSensorValue, toNat_encodeSensorValue] at hvalue
  have hrange := tempBucket_range reading
  have hrange' := tempBucket_range reading'
  have hbucket : (tempBucket reading).toInt = (tempBucket reading').toInt := by omega
  exact ⟨by omega, Int32.toInt_inj.mp hbucket⟩

/-- A transmission that returns has loaded its three packets. -/
theorem fifoBytes_transmission {D : Type} {radio : Radio D} {turns : Nat}
    {transmitted : Transmitted} {line : Line D} {added : List (UInt8 × UInt8)}
    (hdone : (exec (transmission radio turns transmitted) line).1 = .ok ())
    (hadded : (exec (transmission radio turns transmitted) line).2.writes = line.writes ++ added) :
    fifoBytes added = fifoBytes (transmissionScript transmitted.deviceId transmitted.readingId
      (firstBytes 3 transmitted.residueValues) (firstBytes SIGNATURE_LEN transmitted.signature)) := by
  obtain ⟨script, hlog, _, hscript⟩ := transmit_scripted radio turns transmitted.deviceId
    transmitted.readingId (firstBytes 3 transmitted.residueValues)
    (firstBytes SIGNATURE_LEN transmitted.signature) line
  have hsame : added = script := List.append_cancel_left (hadded.symm.trans hlog)
  rw [hsame, hscript hdone]

/-- Three packets tell apart what they were made of. -/
theorem residuePackets_injective {deviceId deviceId' : UInt32} {readingId readingId' : UInt16}
    {residueValues residueValues' : Vector UInt8 3}
    {signature signature' : Vector UInt8 SIGNATURE_LEN}
    (h : fifoBytes (transmissionScript deviceId readingId residueValues signature) =
      fifoBytes (transmissionScript deviceId' readingId' residueValues' signature')) :
    deviceId = deviceId' ∧ readingId = readingId' ∧ residueValues = residueValues' ∧
      signature = signature' := by
  have hlength (packet packet' : LoraPacket) : packet.bytes.length = packet'.bytes.length := by
    rw [length_bytes, length_bytes]
  rw [fifoBytes_transmissionScript, fifoBytes_transmissionScript] at h
  obtain ⟨h0, hrest⟩ := List.append_inj h (hlength _ _)
  obtain ⟨h1, h2⟩ := List.append_inj hrest (hlength _ _)
  have h0 := LoraPacket.mk.inj (bytes_injective h0)
  have h1 := LoraPacket.mk.inj (bytes_injective h1)
  have h2 := LoraPacket.mk.inj (bytes_injective h2)
  refine ⟨h0.1, h0.2.1, Vector.ext fun i hi => ?_, h0.2.2.2.2⟩
  obtain rfl | rfl | rfl : i = 0 ∨ i = 1 ∨ i = 2 := by omega
  · exact h0.2.2.2.1
  · exact h1.2.2.2.1
  · exact h2.2.2.2.1

/-- **Nothing is lost on the way to the air: two completed wakes that load the same bytes,
over whatever radios, come from the same device and the same reading id, carry the same
signature, and measured the same up to the clamp of the packing.** -/
theorem airborne_injective {Key Key' D D' : Type} {board : Board Key} {board' : Board Key'}
    {rtcCert rtcCert' : RtcCertData} {transmitted transmitted' : Transmitted} {radio : Radio D}
    {radio' : Radio D'} {turns turns' : Nat} {line : Line D} {line' : Line D'}
    {added added' : List (UInt8 × UInt8)}
    (hwake : (appMain board rtcCert).transmitted = some transmitted)
    (hwake' : (appMain board' rtcCert').transmitted = some transmitted')
    (hdone : (exec (transmission radio turns transmitted) line).1 = .ok ())
    (hdone' : (exec (transmission radio' turns' transmitted') line').1 = .ok ())
    (hadded : (exec (transmission radio turns transmitted) line).2.writes = line.writes ++ added)
    (hadded' : (exec (transmission radio' turns' transmitted') line').2.writes =
      line'.writes ++ added')
    (hair : fifoBytes added = fifoBytes added') :
    transmitted = transmitted' ∧
      ∃ reading reading', board.sensorRead = .ok reading ∧ board'.sensorRead = .ok reading' ∧
        min reading.soilMoistureRaw.toNat 4095 = min reading'.soilMoistureRaw.toNat 4095 ∧
        tempBucket reading = tempBucket reading' := by
  obtain ⟨reading, hreading, hsigned, hresidues⟩ := transmitted_reading hwake
  obtain ⟨reading', hreading', hsigned', hresidues'⟩ := transmitted_reading hwake'
  rw [fifoBytes_transmission hdone hadded, fifoBytes_transmission hdone' hadded'] at hair
  obtain ⟨hdevice, hid, hvalues, hsignature⟩ := residuePackets_injective hair
  have hvalues : transmitted.residueValues = transmitted'.residueValues := by
    have hlist := congrArg Vector.toList hvalues
    rwa [toList_firstBytes (by rw [hresidues]; rfl),
      toList_firstBytes (by rw [hresidues']; rfl)] at hlist
  have hsignature : transmitted.signature = transmitted'.signature := by
    have hlist := congrArg Vector.toList hsignature
    rwa [toList_firstBytes hsigned, toList_firstBytes hsigned'] at hlist
  have hpacked : encodeSensorValue reading = encodeSensorValue reading' := by
    rw [hresidues, hresidues'] at hvalues
    exact encodeSensorValue_of_residues (List.map_inj_left.mp hvalues)
  refine ⟨?_, reading, reading', hreading, hreading', packed_of_encodeSensorValue hpacked⟩
  obtain ⟨_, _, _, _⟩ := transmitted
  obtain ⟨_, _, _, _⟩ := transmitted'
  rw [Transmitted.mk.injEq]
  exact ⟨hdevice, hid, hvalues, hsignature⟩

/-- The board that has no time, half a degree later. -/
def warmerBoard : Board Unit := {timelessBoard with sensorRead := .ok ⟨2000, 2199⟩}

/-- What either of them transmits. -/
def timelessTransmitted : Transmitted where
  deviceId := 0x07070707
  readingId := 42
  residueValues := [11, 96, 67]
  signature := List.replicate SIGNATURE_LEN 3

/-- Two readings of one bucket go out as the same bytes where the signatures are the same. -/
theorem timelessBoard_airborne : ∃ reading reading', timelessBoard.sensorRead = .ok reading ∧
    warmerBoard.sensorRead = .ok reading' ∧
    min reading.soilMoistureRaw.toNat 4095 = min reading'.soilMoistureRaw.toNat 4095 ∧
    tempBucket reading = tempBucket reading' :=
  have hwake : (appMain timelessBoard .unwritten).transmitted = some timelessTransmitted := by
    decide +kernel
  have hwake' : (appMain warmerBoard .unwritten).transmitted = some timelessTransmitted := by
    decide +kernel
  have hdone : (exec (transmission promptRadio 1 timelessTransmitted) {device := ()}).1 = .ok () := by
    decide +kernel
  have hnew (writes : List (UInt8 × UInt8)) :
      writes = Line.writes (D := Unit) {device := ()} ++ writes := rfl
  (airborne_injective hwake hwake' hdone hdone (hnew _) (hnew _) (Eq.refl _)).2

end FarmChain.Firmware
