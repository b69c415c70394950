import FarmChain.Firmware.Signing

/-! The certificate in RTC memory.

It outlives deep sleep but not a power loss, so what is there on a wake can be anything.
A sentinel says that a record was written and a CRC that it is still the one written;
`certStoreRead` gives the record out only when both hold. The ROM's CRC routine is a
parameter. -/
namespace FarmChain.Firmware

def CERT_MAGIC : UInt32 := 0x43455254
def CERT_ZONE_LEN : Nat := 16
def CERT_GATEWAY_PUBKEY_LEN : Nat := 32
def UINT32_MAX : UInt32 := 0xFFFFFFFF

/-- `rtc_cert_data_t`. -/
structure RtcCertData where
  magic : UInt32
  crc32 : UInt32
  notAfter : Int64
  zone : Vector UInt8 CERT_ZONE_LEN
  gatewayPubkey : Vector UInt8 CERT_GATEWAY_PUBKEY_LEN
  deriving DecidableEq, Repr

/-- The struct as it lies in memory: its fields need no padding. -/
def RtcCertData.bytes (cert : RtcCertData) : List UInt8 :=
  littleEndian 4 cert.magic.toNat ++ littleEndian 4 cert.crc32.toNat ++
    littleEndian 8 cert.notAfter.toUInt64.toNat ++ cert.zone.toList ++ cert.gatewayPubkey.toList

/-- What `RTC_DATA_ATTR` memory holds after a power loss. -/
def RtcCertData.unwritten : RtcCertData where
  magic := 0
  crc32 := 0
  notAfter := 0
  zone := Vector.replicate CERT_ZONE_LEN 0
  gatewayPubkey := Vector.replicate CERT_GATEWAY_PUBKEY_LEN 0

inductive CertErr where
  | ESP_ERR_INVALID_ARG | ESP_ERR_NOT_FOUND | ESP_ERR_INVALID_CRC
  deriving DecidableEq, Repr

section Store
variable (espRomCrc32Le : UInt32 → List UInt8 → UInt32)

/-- The CRC of a record leaves out the sentinel and the CRC itself. -/
def certCrc32 (cert : RtcCertData) : UInt32 :=
  espRomCrc32Le UINT32_MAX {cert with magic := 0, crc32 := 0}.bytes ^^^ UINT32_MAX

/-- What `rtc_cert` is afterwards. -/
def certStoreWrite (cert : Pointer RtcCertData) : Except CertErr RtcCertData :=
  match cert with
  | none => .error .ESP_ERR_INVALID_ARG
  | some cert =>
    let tmp := {cert with magic := 0}
    let tmp := {tmp with crc32 := certCrc32 espRomCrc32Le tmp}
    .ok {tmp with magic := CERT_MAGIC}

/-- What `cert` points at afterwards. -/
def certStoreRead (rtcCert : RtcCertData) (cert : Pointer RtcCertData) :
    Except CertErr RtcCertData :=
  if cert = none then .error .ESP_ERR_INVALID_ARG
  else if rtcCert.magic ≠ CERT_MAGIC then .error .ESP_ERR_NOT_FOUND
  else
    let expectedCrc := rtcCert.crc32
    let actualCrc := certCrc32 espRomCrc32Le rtcCert
    if actualCrc ≠ expectedCrc then .error .ESP_ERR_INVALID_CRC else .ok rtcCert

def certStoreIsExpired (rtcCert : RtcCertData) (now : Int64) : Bool :=
  match certStoreRead espRomCrc32Le rtcCert (some .unwritten) with
  | .error _ => true
  | .ok cert => cert.notAfter ≤ now

variable {espRomCrc32Le}

/-- A record is read exactly when it has the sentinel and its own CRC. -/
theorem certStoreRead_iff {rtcCert buffer cert : RtcCertData} :
    certStoreRead espRomCrc32Le rtcCert (some buffer) = .ok cert ↔
      rtcCert.magic = CERT_MAGIC ∧ certCrc32 espRomCrc32Le rtcCert = rtcCert.crc32 ∧
        rtcCert = cert := by
  unfold certStoreRead
  by_cases hmagic : rtcCert.magic = CERT_MAGIC
  · by_cases hcrc : certCrc32 espRomCrc32Le rtcCert = rtcCert.crc32 <;> simp [hmagic, hcrc]
  · simp [hmagic]

/-- There is nothing to read after a power loss. -/
theorem certStoreRead_unwritten (buffer : RtcCertData) :
    certStoreRead espRomCrc32Le .unwritten (some buffer) = .error .ESP_ERR_NOT_FOUND := by
  have hmagic : RtcCertData.unwritten.magic ≠ CERT_MAGIC := by decide
  simp [certStoreRead, hmagic]

/-- The CRC does not depend on what the sentinel and the CRC are. -/
@[simp]
theorem certCrc32_sealed (cert : RtcCertData) (magic crc32 : UInt32) :
    certCrc32 espRomCrc32Le {cert with magic, crc32} = certCrc32 espRomCrc32Le cert := rfl

/-- What was written is read back, with the fields it was written with. -/
theorem certStoreRead_certStoreWrite {cert rtcCert : RtcCertData} (buffer : RtcCertData)
    (h : certStoreWrite espRomCrc32Le (some cert) = .ok rtcCert) :
    certStoreRead espRomCrc32Le rtcCert (some buffer) = .ok rtcCert ∧
      rtcCert.notAfter = cert.notAfter ∧ rtcCert.zone = cert.zone ∧
      rtcCert.gatewayPubkey = cert.gatewayPubkey := by
  cases h
  exact ⟨certStoreRead_iff.mpr ⟨rfl, rfl, rfl⟩, rfl, rfl, rfl⟩

/-- A certificate that is not expired is one that can be read, and that is still good. -/
theorem certStoreIsExpired_eq_false {rtcCert : RtcCertData} {now : Int64} :
    certStoreIsExpired espRomCrc32Le rtcCert now = false ↔
      rtcCert.magic = CERT_MAGIC ∧ certCrc32 espRomCrc32Le rtcCert = rtcCert.crc32 ∧
        now < rtcCert.notAfter := by
  unfold certStoreIsExpired
  split
  · rename_i hread
    constructor
    · intro h
      cases h
    · intro h
      rw [certStoreRead_iff.mpr ⟨h.1, h.2.1, rfl⟩] at hread
      cases hread
  · rename_i cert hread
    obtain ⟨hmagic, hcrc, rfl⟩ := certStoreRead_iff.mp hread
    simp [hmagic, hcrc]

end Store

end FarmChain.Firmware
