import FarmChain.Firmware.Encode

/-! What the firmware signs.

`app_main` packs a reading with its identifiers and its time into a struct, and
`sign_sensor_data` signs the SHA-256 digest of the struct's bytes. wolfSSL and the eFuse
are parameters. -/
namespace FarmChain.Firmware

def SIGNATURE_LEN : Nat := 64
def SHA256_DIGEST_LEN : Nat := 32
def CERT_PRIVATE_KEY_LEN : Nat := 32

/-- `sensor_payload_t`. -/
structure SensorPayload where
  deviceId : UInt32
  readingId : UInt16
  soilMoistureRaw : UInt16
  temperatureCentiC : Int16
  timestamp : Int64
  deriving DecidableEq, Repr

/-- The reading a payload holds. -/
def SensorPayload.reading (payload : SensorPayload) : SensorReading where
  soilMoistureRaw := payload.soilMoistureRaw
  temperatureCentiC := payload.temperatureCentiC

/-- The payload `app_main` fills in, from what `esp_random` returned. -/
def sensorPayload (deviceId random : UInt32) (reading : SensorReading) (timeSynced : Bool)
    (now : Int64) : SensorPayload where
  deviceId := deviceId
  readingId := (random &&& 65535).toUInt16
  soilMoistureRaw := reading.soilMoistureRaw
  temperatureCentiC := reading.temperatureCentiC
  timestamp := if timeSynced then now else 0

/-- A number's first `n` bytes in memory, the lowest first. -/
def littleEndian : Nat → Nat → List UInt8
  | 0, _ => []
  | n + 1, value => UInt8.ofNat value :: littleEndian n (value / 256)

/-- The struct as it lies in memory: packed, without padding. -/
def SensorPayload.bytes (payload : SensorPayload) : List UInt8 :=
  littleEndian 4 payload.deviceId.toNat ++ littleEndian 2 payload.readingId.toNat ++
    littleEndian 2 payload.soilMoistureRaw.toNat ++
    littleEndian 2 payload.temperatureCentiC.toUInt16.toNat ++
    littleEndian 8 payload.timestamp.toUInt64.toNat

/-- The functions of wolfSSL that the firmware calls; an error is a code other than zero. -/
structure Wolfssl (Key : Type) where
  sha256Hash : List UInt8 → Except Int (Vector UInt8 SHA256_DIGEST_LEN)
  ed25519ImportPrivateOnly : Vector UInt8 CERT_PRIVATE_KEY_LEN → Except Int Key
  /-- What it wrote to the signature; `sig_len` is how much. -/
  ed25519SignMsg : List UInt8 → Key → Except Int (List UInt8)

inductive SignErr where
  | ESP_ERR_INVALID_ARG | ESP_FAIL
  /-- What `private_key_read` returned. -/
  | efuse (err : Int)
  deriving DecidableEq, Repr

/-- What `signature` points at afterwards. -/
def signSensorData {Key : Type} (wolfssl : Wolfssl Key)
    (privateKeyRead : Except Int (Vector UInt8 CERT_PRIVATE_KEY_LEN))
    (payload signature : Pointer (List UInt8)) : Except SignErr (List UInt8) :=
  match payload, signature with
  | some payload, some _ =>
    match privateKeyRead with
    | .error err => .error (.efuse err)
    | .ok privateKey =>
      match wolfssl.sha256Hash payload with
      | .error _ => .error .ESP_FAIL
      | .ok digest =>
        match wolfssl.ed25519ImportPrivateOnly privateKey with
        | .error _ => .error .ESP_FAIL
        | .ok key =>
          match wolfssl.ed25519SignMsg digest.toList key with
          | .error _ => .error .ESP_FAIL
          | .ok signature =>
            if signature.length ≠ SIGNATURE_LEN then .error .ESP_FAIL else .ok signature
  | _, _ => .error .ESP_ERR_INVALID_ARG

/-- The firmware has signed: the digest of the payload, with the key from the eFuse. -/
theorem signSensorData_eq_ok {Key : Type} {wolfssl : Wolfssl Key}
    {privateKeyRead : Except Int (Vector UInt8 CERT_PRIVATE_KEY_LEN)}
    {payload signature : Pointer (List UInt8)} {signed : List UInt8}
    (h : signSensorData wolfssl privateKeyRead payload signature = .ok signed) :
    ∃ bytes privateKey digest key, payload = some bytes ∧ privateKeyRead = .ok privateKey ∧
      wolfssl.sha256Hash bytes = .ok digest ∧
      wolfssl.ed25519ImportPrivateOnly privateKey = .ok key ∧
      wolfssl.ed25519SignMsg digest.toList key = .ok signed := by
  unfold signSensorData at h
  split at h
  · rename_i bytes _
    split at h
    · cases h
    · rename_i privateKey
      split at h
      · cases h
      · rename_i digest hdigest
        split at h
        · cases h
        · rename_i key hkey
          split at h
          · cases h
          · rename_i signature hsigned
            split at h
            · cases h
            · cases h
              exact ⟨bytes, privateKey, digest, key, rfl, rfl, hdigest, hkey, hsigned⟩
  · cases h

end FarmChain.Firmware
