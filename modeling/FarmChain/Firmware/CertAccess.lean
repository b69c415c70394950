import Mathlib.Data.List.TakeWhile
import FarmChain.Lib.Crc
import FarmChain.Firmware.CertStore

/-! What the certificate store gives out.

The accessors read the record and copy one field of it to where their argument points. Of a
record as it was written they give every field; of one whose sentinel, CRC or a short
stretch of the rest has changed they give nothing (`cert_store_exact`). A stretch is of
bits in the order the CRC takes them, a byte's lowest first. -/
namespace FarmChain.Firmware
open Crc (Burst bits feed)

/-- The bytes in front of the terminator. -/
def cString (bytes : List UInt8) : List UInt8 := bytes.takeWhile (· ≠ 0)

/-- What `dst` holds after `strlcpy` into `size` bytes of it. -/
def strlcpy (dst src : List UInt8) (size : Nat) : List UInt8 :=
  let copied := (cString src).take (size - 1)
  copied ++ 0 :: dst.drop (copied.length + 1)

section Store
variable (espRomCrc32Le : UInt32 → List UInt8 → UInt32)

/-- `cert_store_read`, with what `cert` points at afterwards. -/
def certStoreReadInto (rtcCert : RtcCertData) (cert : Pointer RtcCertData) :
    Except CertErr Unit × Pointer RtcCertData :=
  match certStoreRead espRomCrc32Le rtcCert cert with
  | .error err => (.error err, cert)
  | .ok read => (.ok (), some read)

/-- With what `zone` points at afterwards. -/
def certStoreGetZone (rtcCert : RtcCertData) (zone : Pointer (List UInt8)) (zoneLen : Nat) :
    Except CertErr Unit × Pointer (List UInt8) :=
  match zone with
  | none => (.error .ESP_ERR_INVALID_ARG, zone)
  | some buffer =>
    if zoneLen = 0 then (.error .ESP_ERR_INVALID_ARG, zone)
    else match certStoreRead espRomCrc32Le rtcCert (some .unwritten) with
      | .error err => (.error err, zone)
      | .ok cert => (.ok (), some (strlcpy buffer cert.zone.toList zoneLen))

/-- With what `pubkey` points at afterwards. -/
def certStoreGetGatewayPubkey (rtcCert : RtcCertData)
    (pubkey : Pointer (Vector UInt8 CERT_GATEWAY_PUBKEY_LEN)) :
    Except CertErr Unit × Pointer (Vector UInt8 CERT_GATEWAY_PUBKEY_LEN) :=
  match pubkey with
  | none => (.error .ESP_ERR_INVALID_ARG, pubkey)
  | some _ =>
    match certStoreRead espRomCrc32Le rtcCert (some .unwritten) with
    | .error err => (.error err, pubkey)
    | .ok cert => (.ok (), some cert.gatewayPubkey)

/-- Every accessor gives what `cert` has. -/
structure Gives (rtcCert cert : RtcCertData) : Prop where
  read : ∀ buffer, ∃ out, certStoreReadInto espRomCrc32Le rtcCert (some buffer) = (.ok (), some out) ∧
    out.notAfter = cert.notAfter ∧ out.zone = cert.zone ∧ out.gatewayPubkey = cert.gatewayPubkey
  /-- As much of the zone as there is room for, and all of it in room for the field. -/
  getZone : ∀ buffer zoneLen, 0 < zoneLen → ∃ out,
    certStoreGetZone espRomCrc32Le rtcCert (some buffer) zoneLen = (.ok (), some out) ∧
      cString out = (cString cert.zone.toList).take (zoneLen - 1) ∧
      (CERT_ZONE_LEN ≤ zoneLen → cString out = cString cert.zone.toList)
  getGatewayPubkey : ∀ buffer, certStoreGetGatewayPubkey espRomCrc32Le rtcCert (some buffer) =
    (.ok (), some cert.gatewayPubkey)
  isExpired : ∀ now, certStoreIsExpired espRomCrc32Le rtcCert now = decide (cert.notAfter ≤ now)

/-- Every accessor returns an error and writes nothing. -/
structure FailsClosed (rtcCert : RtcCertData) : Prop where
  read : ∀ cert, ∃ err, certStoreReadInto espRomCrc32Le rtcCert cert = (.error err, cert)
  getZone : ∀ zone zoneLen, ∃ err,
    certStoreGetZone espRomCrc32Le rtcCert zone zoneLen = (.error err, zone)
  getGatewayPubkey : ∀ pubkey, ∃ err,
    certStoreGetGatewayPubkey espRomCrc32Le rtcCert pubkey = (.error err, pubkey)
  isExpired : ∀ now, certStoreIsExpired espRomCrc32Le rtcCert now = true

end Store

/-! ### The checksum -/

def CRC32_POLYNOMIAL : BitVec 32 := 0xEDB88320#32

/-- From `UINT32_MAX` on, the ROM's routine is the reflected CRC-32, with whatever it starts
from and adds in the end. -/
def IsCrc32 (espRomCrc32Le : UInt32 → List UInt8 → UInt32) : Prop :=
  ∃ init xorOut, ∀ bytes, (espRomCrc32Le UINT32_MAX bytes).toBitVec =
    feed CRC32_POLYNOMIAL init (bits bytes) ^^^ xorOut

/-- The fields behind the CRC, as they lie in memory. -/
def RtcCertData.fieldBytes (cert : RtcCertData) : List UInt8 :=
  littleEndian 8 cert.notAfter.toUInt64.toNat ++ cert.zone.toList ++ cert.gatewayPubkey.toList

theorem RtcCertData.bytes_eq (cert : RtcCertData) : cert.bytes =
    littleEndian 4 cert.magic.toNat ++ littleEndian 4 cert.crc32.toNat ++ cert.fieldBytes := by
  simp only [bytes, fieldBytes, List.append_assoc]

/-- How a stored record may have changed. -/
inductive Altered (stored altered : RtcCertData) : Prop where
  | magic (m : UInt32) (changed : m ≠ stored.magic) (only : altered = {stored with magic := m})
  | crc32 (c : UInt32) (changed : c ≠ stored.crc32) (only : altered = {stored with crc32 := c})
  | burst (magic : altered.magic = stored.magic) (crc32 : altered.crc32 = stored.crc32)
    (fields : Burst 32 (bits stored.fieldBytes) (bits altered.fieldBytes))

section
variable {espRomCrc32Le : UInt32 → List UInt8 → UInt32} {rtcCert cert stored altered : RtcCertData}

theorem bits_append (a b : List UInt8) : bits (a ++ b) = bits a ++ bits b := List.flatMap_append

/-- A burst in the fields changes the CRC. -/
theorem certCrc32_burst (hrom : IsCrc32 espRomCrc32Le)
    (h : Burst 32 (bits stored.fieldBytes) (bits altered.fieldBytes)) :
    certCrc32 espRomCrc32Le stored ≠ certCrc32 espRomCrc32Le altered := by
  obtain ⟨init, xorOut, hcrc⟩ := hrom
  have hbytes (cert : RtcCertData) : bits {cert with magic := 0, crc32 := 0}.bytes =
      bits (littleEndian 4 0 ++ littleEndian 4 0) ++ bits cert.fieldBytes := by
    rw [RtcCertData.bytes_eq, bits_append]
    rfl
  have hpoly : CRC32_POLYNOMIAL.msb = true := by decide
  have hburst := Crc.burst_detected hpoly init
    (h.append_left (bits (littleEndian 4 0 ++ littleEndian 4 0)))
  intro hsame
  have hrom := congrArg UInt32.toBitVec ((UInt32.xor_left_inj UINT32_MAX).mp hsame)
  rw [hcrc, hcrc, hbytes, hbytes] at hrom
  exact hburst ((BitVec.xor_left_inj xorOut).mp hrom)

/-- A changed record is not read. -/
theorem Altered.unread (hrom : IsCrc32 espRomCrc32Le)
    (hwritten : certStoreWrite espRomCrc32Le (some cert) = .ok stored)
    (h : Altered stored altered) (buffer : RtcCertData) :
    ∃ err, certStoreRead espRomCrc32Le altered (some buffer) = .error err := by
  obtain ⟨hread, _⟩ := certStoreRead_certStoreWrite buffer hwritten
  obtain ⟨hmagic, hcrc, _⟩ := certStoreRead_iff.mp hread
  cases hresult : certStoreRead espRomCrc32Le altered (some buffer) with
  | error err => exact ⟨err, rfl⟩
  | ok out =>
    obtain ⟨hmagic', hcrc', _⟩ := certStoreRead_iff.mp hresult
    cases h with
    | magic m changed only =>
      rw [only] at hmagic'
      exact absurd (hmagic'.trans hmagic.symm) changed
    | crc32 c changed only =>
      rw [only] at hcrc'
      exact absurd (hcrc'.symm.trans hcrc) changed
    | burst magic crc32 fields =>
      exact absurd (hcrc.trans (crc32.symm.trans hcrc'.symm)) (certCrc32_burst hrom fields)

/-! ### The accessors -/

theorem cString_append_nul {copied : List UInt8} (h : 0 ∉ copied) (rest : List UInt8) :
    cString (copied ++ 0 :: rest) = copied := by
  have hall : ∀ c ∈ copied, decide (c ≠ 0) = true := by
    intro c hc
    exact decide_eq_true fun hzero => h (hzero ▸ hc)
  rw [cString, List.takeWhile_append_of_pos hall, List.takeWhile_cons_of_neg (by simp),
    List.append_nil]

theorem nul_notMem_cString (bytes : List UInt8) : 0 ∉ cString bytes := by
  intro hmem
  have hnonzero := List.mem_takeWhile_imp hmem
  simp at hnonzero

/-- What `strlcpy` leaves is read back as far as it was copied. -/
theorem cString_strlcpy (dst src : List UInt8) (size : Nat) :
    cString (strlcpy dst src size) = (cString src).take (size - 1) :=
  cString_append_nul (fun h => nul_notMem_cString src (List.mem_of_mem_take h)) _

/-- A terminated text is shorter than its field. -/
theorem length_cString {bytes : List UInt8} (h : 0 ∈ bytes) :
    (cString bytes).length < bytes.length := by
  refine lt_of_le_of_ne (List.takeWhile_prefix _).length_le fun hlength => ?_
  have hall := (List.takeWhile_prefix _).eq_of_length hlength
  exact nul_notMem_cString bytes (by rw [cString, hall]; exact h)

/-- A record that cannot be read is given out nowhere. -/
theorem failsClosed_of_unread
    (h : ∀ buffer, ∃ err, certStoreRead espRomCrc32Le rtcCert (some buffer) = .error err) :
    FailsClosed espRomCrc32Le rtcCert where
  read := by
    intro cert
    unfold certStoreReadInto
    cases cert with
    | none => exact ⟨.ESP_ERR_INVALID_ARG, rfl⟩
    | some buffer =>
      obtain ⟨err, herr⟩ := h buffer
      rw [herr]
      exact ⟨err, rfl⟩
  getZone := by
    intro zone zoneLen
    unfold certStoreGetZone
    obtain ⟨err, herr⟩ := h .unwritten
    cases zone with
    | none => exact ⟨.ESP_ERR_INVALID_ARG, rfl⟩
    | some buffer =>
      dsimp only
      rw [herr]
      split
      · exact ⟨.ESP_ERR_INVALID_ARG, rfl⟩
      · exact ⟨err, rfl⟩
  getGatewayPubkey := by
    intro pubkey
    unfold certStoreGetGatewayPubkey
    obtain ⟨err, herr⟩ := h .unwritten
    cases pubkey with
    | none => exact ⟨.ESP_ERR_INVALID_ARG, rfl⟩
    | some buffer =>
      dsimp only
      rw [herr]
      exact ⟨err, rfl⟩
  isExpired := by
    intro now
    unfold certStoreIsExpired
    obtain ⟨err, herr⟩ := h .unwritten
    rw [herr]

/-- A record that is read is given out. -/
theorem gives_of_read
    (h : ∀ buffer, certStoreRead espRomCrc32Le rtcCert (some buffer) = .ok rtcCert)
    (hnotAfter : rtcCert.notAfter = cert.notAfter) (hzone : rtcCert.zone = cert.zone)
    (hpubkey : rtcCert.gatewayPubkey = cert.gatewayPubkey) (hterminated : 0 ∈ cert.zone.toList) :
    Gives espRomCrc32Le rtcCert cert where
  read := by
    intro buffer
    unfold certStoreReadInto
    rw [h buffer]
    exact ⟨rtcCert, rfl, hnotAfter, hzone, hpubkey⟩
  getZone := by
    intro buffer zoneLen hpos
    have hshort := length_cString hterminated
    rw [Vector.length_toList] at hshort
    refine ⟨strlcpy buffer cert.zone.toList zoneLen, ?_, cString_strlcpy .., fun hroom => ?_⟩
    · unfold certStoreGetZone
      dsimp only
      rw [if_neg (by omega), h, ← hzone]
    · rw [cString_strlcpy, List.take_of_length_le (by omega)]
  getGatewayPubkey := by
    intro buffer
    unfold certStoreGetGatewayPubkey
    rw [h, ← hpubkey]
  isExpired := by
    intro now
    unfold certStoreIsExpired
    rw [h, ← hnotAfter]

end

/-- **A written record gives back every field, and a changed one nothing.** -/
theorem cert_store_exact {espRomCrc32Le : UInt32 → List UInt8 → UInt32}
    (hrom : IsCrc32 espRomCrc32Le) (cert : RtcCertData) (hterminated : 0 ∈ cert.zone.toList) :
    ∃ stored, certStoreWrite espRomCrc32Le (some cert) = .ok stored ∧
      Gives espRomCrc32Le stored cert ∧
      ∀ altered, Altered stored altered → FailsClosed espRomCrc32Le altered := by
  have hwrite : ∃ stored, certStoreWrite espRomCrc32Le (some cert) = .ok stored := ⟨_, rfl⟩
  obtain ⟨stored, hstored⟩ := hwrite
  have hread (buffer : RtcCertData) := certStoreRead_certStoreWrite buffer hstored
  obtain ⟨_, hnotAfter, hzone, hpubkey⟩ := hread .unwritten
  refine ⟨stored, hstored, ?_, fun altered haltered => ?_⟩
  · exact gives_of_read (fun buffer => (hread buffer).1) hnotAfter hzone hpubkey hterminated
  · exact failsClosed_of_unread (haltered.unread hrom hstored)

/-- The ROM's routine: it complements what it starts from and what it returns. -/
def romCrc32 (crc : UInt32) (bytes : List UInt8) : UInt32 :=
  .ofBitVec (~~~feed CRC32_POLYNOMIAL (~~~crc.toBitVec) (bits bytes))

def northCert : RtcCertData where
  magic := 0
  crc32 := 0
  notAfter := 1800000000
  zone := #v[78, 111, 114, 116, 104, 0, 0, 0, 0, 0, 0, 0, 0, 0, 0, 0]
  gatewayPubkey := Vector.replicate CERT_GATEWAY_PUBKEY_LEN 7

/-- The record of a sensor in the north is given out as written; with the first bits of its
time altered it is not. -/
theorem cert_store_north : ∃ stored, certStoreWrite romCrc32 (some northCert) = .ok stored ∧
    certStoreIsExpired romCrc32 stored 1700000000 = false ∧
    certStoreIsExpired romCrc32 {stored with notAfter := 1800000001} 1700000000 = true := by
  have hrom : IsCrc32 romCrc32 := by
    refine ⟨0#32, BitVec.allOnes 32, fun bytes => ?_⟩
    rw [BitVec.xor_allOnes]
    rfl
  obtain ⟨stored, hstored, hgives, hcloses⟩ := cert_store_exact hrom northCert (by decide)
  refine ⟨stored, hstored, ?_, ?_⟩
  · rw [hgives.isExpired]
    decide
  · have hburst : Altered stored {stored with notAfter := 1800000001} := by
      cases hstored
      refine .burst rfl rfl ⟨[], [false], [true], (bits northCert.fieldBytes).tail, ?_, ?_, rfl,
        by decide, by decide⟩
      · decide +kernel
      · decide +kernel
    exact (hcloses _ hburst).isExpired 1700000000

end FarmChain.Firmware
