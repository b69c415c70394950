import FarmChain.Firmware.Signing
import FarmChain.Gateway.Assembly
import FarmChain.Gateway.Verify

/-! From the sensor's signature to the gateway's verification.

The firmware signs the digest of a struct, the gateway verifies a text. Where a signature
holds for the bytes it was made over and for no others, the gateway accepts it exactly
when the one happens to be the other. -/
namespace FarmChain.Telemetry
open Firmware Gateway

/-- A key in the eFuse and its public key in PEM form, with Ed25519 as it should be: a
signature over a digest verifies over the same bytes and over no others. -/
structure KeyPair {Key PublicKey : Type} (wolfssl : Wolfssl Key) (crypto : Cryptography PublicKey)
    (privateKeyRead : Except Int (Vector UInt8 CERT_PRIVATE_KEY_LEN)) (pem : String) where
  privateKey : Vector UInt8 CERT_PRIVATE_KEY_LEN
  key : Key
  publicKey : PublicKey
  nonempty : pem ≠ ""
  stored : privateKeyRead = .ok privateKey
  imported : wolfssl.ed25519ImportPrivateOnly privateKey = .ok key
  loaded : crypto.loadPemPublicKey (utf8 pem) = .ok publicKey
  kind : crypto.kind publicKey = .ed25519
  binding : ∀ (digest : Vector UInt8 SHA256_DIGEST_LEN) signature,
    wolfssl.ed25519SignMsg digest.toList key = .ok signature → ∀ message,
      crypto.verify publicKey signature message =
        if message = digest.toList then .ok () else .error .invalidSignature

/-- The gateway has a payload's reading: its identifiers as text, the number measured, the
signature in bytes or in hexadecimal, and the key. -/
structure Assembled (payload : SensorPayload) (zone : Option String) (signature : List UInt8)
    (pem : String) (received : Gateway.SensorReading) : Prop where
  deviceId : received.deviceId = toString payload.deviceId.toNat
  readingId : received.readingId = toString payload.readingId.toNat
  value : received.value = (encodeSensorValue payload.reading).toNat
  zone : received.zone = zone
  signature : ∃ sent, received.signature = some sent ∧ sent.toBytes = .ok signature
  certificate : received.certificate = some pem

/-- A packet with a payload's identifiers, its signature and the key. -/
structure Sends (payload : SensorPayload) (zone : Option String) (signature : List UInt8)
    (pem : String) (pkt : Packet) : Prop where
  deviceId : pkt.deviceId = some (toString payload.deviceId.toNat)
  readingId : pkt.readingId = some (toString payload.readingId.toNat)
  zone : pkt.zone = zone
  signature : ∃ sent, pkt.signature = some sent ∧ sent.toBytes = .ok signature
  certificate : pkt.certificate = some pem

/-- A packet that was read, with what was read of it. -/
theorem parsePacket_packet {pkt : Packet} {p : Parsed} (h : parsePacket (.packet pkt) = .ok p) :
    p.pkt = pkt ∧ pkt.deviceId = some p.deviceId ∧ pkt.readingId = some p.readingId := by
  unfold parsePacket at h
  obtain ⟨_, hdict, h⟩ := Except.bind_eq_ok.mp h
  cases hdict
  obtain ⟨deviceId, hdevice, h⟩ := Except.bind_eq_ok.mp h
  obtain ⟨readingId, hreading, h⟩ := Except.bind_eq_ok.mp h
  obtain ⟨modulus, _, h⟩ := Except.bind_eq_ok.mp h
  obtain ⟨residue, _, h⟩ := Except.bind_eq_ok.mp h
  obtain ⟨residue', _, h⟩ := Except.bind_eq_ok.mp h
  cases h
  have hlookup {key : String} {field : Option String} {text : String}
      (h : lookup key field = .ok text) : field = some text := by
    cases field with
    | none => cases h
    | some text' =>
      cases h
      rfl
  exact ⟨rfl, hlookup hdevice, hlookup hreading⟩

/-- What the receiver assembles on such a packet, if the number is the one measured. -/
theorem assembled_of_emission {payload : SensorPayload} {zone : Option String}
    {signature : List UInt8} {pem : String} {pkt : Packet} {r : Receiver} {now firstSeen : Rat}
    {received : Gateway.SensorReading} (hsends : Sends payload zone signature pem pkt)
    (hemission : emission r ⟨.packet pkt, now, firstSeen⟩ = some received)
    (hvalue : received.value = (encodeSensorValue payload.reading).toNat) :
    Assembled payload zone signature pem received := by
  unfold emission processPacket at hemission
  dsimp only at hemission
  cases hparse : parsePacket (.packet pkt) with
  | error e =>
    rw [hparse] at hemission
    cases hemission
  | ok p =>
    rw [hparse] at hemission
    obtain ⟨hpkt, hdevice, hreading⟩ := parsePacket_packet hparse
    dsimp only at hemission
    have hcase := collect_cases now firstSeen p r
    generalize r.collect now firstSeen p = result at hcase hemission
    cases hcase with
    | known | kept | failed =>
      dsimp only at hemission
      cases hemission
    | completed value hkey htwo hdecode =>
      dsimp only at hemission
      cases hemission
      subst hpkt
      exact {
        deviceId := Option.some.inj (hdevice.symm.trans hsends.deviceId)
        readingId := Option.some.inj (hreading.symm.trans hsends.readingId)
        value := hvalue
        zone := hsends.zone
        signature := hsends.signature
        certificate := hsends.certificate }

/-- The bytes the gateway verifies for a payload's reading. -/
def verifiedBytes (payload : SensorPayload) (zone : Option String) : List UInt8 :=
  let device := payload.deviceId.toNat
  let id := payload.readingId.toNat
  let value := (encodeSensorValue payload.reading).toNat
  let zone := zone.getD ""
  utf8 s!"{device}:{id}:{value}:{zone}"

section
variable {payload : SensorPayload} {zone : Option String} {signature : List UInt8} {pem : String}
  {received : Gateway.SensorReading}

theorem Assembled.signaturePayload (h : Assembled payload zone signature pem received) :
    signaturePayload received = verifiedBytes payload zone := by
  unfold Gateway.signaturePayload verifiedBytes
  rw [h.deviceId, h.readingId, h.value, h.zone]
  rfl

theorem Assembled.keyMaterial (h : Assembled payload zone signature pem received)
    (hpem : pem ≠ "") : keyMaterial none received = some (.text pem) := by
  unfold Gateway.keyMaterial
  rw [h.certificate]
  have htext : KeyMaterial.text pem ≠ .text "" := fun heq => hpem (KeyMaterial.text.inj heq)
  simp [Option.filter, htext]

end

/-- The signature of a digest is accepted if the digest is what the gateway verifies. -/
theorem verifySignature_assembled {Key PublicKey : Type} {wolfssl : Wolfssl Key}
    {crypto : Cryptography PublicKey}
    {privateKeyRead : Except Int (Vector UInt8 CERT_PRIVATE_KEY_LEN)} {pem : String}
    (pair : KeyPair wolfssl crypto privateKeyRead pem) {payload : SensorPayload}
    {zone : Option String} {signature : List UInt8} {received : Gateway.SensorReading}
    {digest : Vector UInt8 SHA256_DIGEST_LEN}
    (hsign : wolfssl.ed25519SignMsg digest.toList pair.key = .ok signature)
    (hreceived : Assembled payload zone signature pem received) :
    verifySignature crypto received none =
      .ok (decide (verifiedBytes payload zone = digest.toList)) := by
  obtain ⟨sent, hsent, hbytes⟩ := hreceived.signature
  have hverify := pair.binding digest signature hsign (verifiedBytes payload zone)
  unfold verifySignature tryVerify
  rw [hsent, hreceived.keyMaterial pair.nonempty]
  dsimp only
  rw [hbytes, Except.ok_bind]
  unfold KeyMaterial.encode
  dsimp only
  rw [pair.loaded, Except.ok_bind, pair.kind, hreceived.signaturePayload]
  dsimp only
  rw [hverify]
  by_cases hsame : verifiedBytes payload zone = digest.toList
  · rw [if_pos hsame, decide_eq_true hsame]
    rfl
  · rw [if_neg hsame, decide_eq_false hsame]
    rfl

/-- The gateway verifies a sensor's signature exactly when the SHA-256 digest of the struct
is, byte for byte, the text of the four fields. -/
theorem verified_iff {Key PublicKey : Type} (wolfssl : Wolfssl Key)
    (crypto : Cryptography PublicKey)
    (privateKeyRead : Except Int (Vector UInt8 CERT_PRIVATE_KEY_LEN)) (pem : String)
    (pair : KeyPair wolfssl crypto privateKeyRead pem)
    (deviceId random : UInt32) (measured : Firmware.SensorReading) (timeSynced : Bool) (now : Int64)
    (zone : Option String) (unset signature : List UInt8) (received : Gateway.SensorReading)
    (hsigned : signSensorData wolfssl privateKeyRead
      (some (sensorPayload deviceId random measured timeSynced now).bytes) (some unset) =
        .ok signature)
    (hreceived : Assembled (sensorPayload deviceId random measured timeSynced now) zone signature
      pem received) :
    verifySignature crypto received none = .ok true ↔
      (wolfssl.sha256Hash (sensorPayload deviceId random measured timeSynced now).bytes).map
          Vector.toList =
        .ok (verifiedBytes (sensorPayload deviceId random measured timeSynced now) zone) := by
  generalize sensorPayload deviceId random measured timeSynced now = payload at *
  obtain ⟨bytes, privateKey, digest, key, hbytes, hprivate, hdigest, hkey, hsign⟩ :=
    signSensorData_eq_ok hsigned
  cases hbytes
  cases pair.stored.symm.trans hprivate
  cases pair.imported.symm.trans hkey
  rw [verifySignature_assembled pair hsign hreceived, hdigest]
  constructor
  · intro h
    exact congrArg Except.ok (of_decide_eq_true (Except.ok.inj h)).symm
  · intro h
    exact congrArg Except.ok (decide_eq_true (Except.ok.inj h).symm)

/-! ### A dry reading's signature -/

def probePayload : SensorPayload := sensorPayload 1 7 ⟨40, 2150⟩ true 1700000000

/-- Its SHA-256 digest. -/
def probeDigest : Vector UInt8 SHA256_DIGEST_LEN :=
  #v[154, 130, 2, 172, 253, 25, 212, 180, 143, 111, 40, 145, 212, 150, 162, 207, 134, 142, 184, 50,
    77, 97, 80, 121, 241, 252, 212, 180, 154, 201, 183, 3]

def probePrivateKey : Vector UInt8 CERT_PRIVATE_KEY_LEN :=
  #v[157, 97, 177, 157, 239, 253, 90, 96, 186, 132, 74, 244, 146, 236, 44, 196, 68, 73, 197, 105, 123,
    50, 105, 25, 112, 59, 172, 3, 28, 174, 127, 96]

def probePem : String :=
  "-----BEGIN PUBLIC KEY-----\nMCowBQYDK2VwAyEA11qYAYKxCrfVS/7TyWQHOg7hcvPapiMlrwIaaPcHURo=\n" ++
    "-----END PUBLIC KEY-----\n"

/-- The digest's signature with that key. -/
def probeSignature : List UInt8 :=
  [34, 106, 159, 163, 74, 191, 159, 106, 130, 231, 191, 238, 35, 225, 92, 245, 37, 218, 35, 109, 44,
    92, 149, 168, 58, 189, 190, 169, 230, 48, 233, 222, 0, 195, 48, 210, 75, 217, 30, 26, 225, 120,
    205, 47, 76, 85, 7, 225, 171, 141, 107, 126, 199, 192, 252, 149, 195, 84, 53, 153, 60, 153, 154, 11]

/-- As wolfSSL on the probe's payload; elsewhere a signature is the digest and padding. -/
def probeWolfssl : Wolfssl Unit where
  sha256Hash bytes := .ok (if bytes = probePayload.bytes then probeDigest else .replicate _ 0)
  ed25519ImportPrivateOnly _ := .ok ()
  ed25519SignMsg message _ :=
    .ok (if message = probeDigest.toList then probeSignature else message ++ List.replicate 32 0)

def probeCrypto : Cryptography Unit where
  loadPemPublicKey _ := .ok ()
  kind _ := .ed25519
  verify _ signature message :=
    if message = if signature = probeSignature then probeDigest.toList else signature.take 32 then
      .ok ()
    else .error .invalidSignature

def probePair : KeyPair probeWolfssl probeCrypto (.ok probePrivateKey) probePem where
  privateKey := probePrivateKey
  key := ()
  publicKey := ()
  nonempty := by decide
  stored := rfl
  imported := rfl
  loaded := rfl
  kind := rfl
  binding digest signature hsign message := by
    have hsign : (if digest.toList = probeDigest.toList then probeSignature
        else digest.toList ++ List.replicate 32 0) = signature := Except.ok.inj hsign
    unfold probeCrypto
    dsimp only
    by_cases hprobe : digest.toList = probeDigest.toList
    · rw [if_pos hprobe] at hsign
      rw [← hsign, if_pos rfl, hprobe]
    · rw [if_neg hprobe] at hsign
      have hlength : digest.toList.length = 32 := digest.length_toList
      have hne : signature ≠ probeSignature := by
        intro heq
        have hdrop := congrArg (List.drop 32) (hsign.trans heq)
        rw [List.drop_left' hlength] at hdrop
        revert hdrop
        decide
      rw [if_neg hne, ← hsign, List.take_left' hlength]

/-- What the gateway makes of it, the signature in hexadecimal. -/
def probeReceived : Gateway.SensorReading where
  deviceId := "1"
  readingId := "7"
  value := 8116
  zone := some "north"
  signature := some (.text (Signature.bytes probeSignature).payload)
  certificate := some probePem

theorem probeReceived_assembled :
    Assembled probePayload (some "north") probeSignature probePem probeReceived where
  deviceId := by decide +kernel
  readingId := by decide +kernel
  value := by decide +kernel
  zone := rfl
  signature := ⟨_, rfl, fromhex_payload probeSignature⟩
  certificate := rfl

theorem probePayload_signed : signSensorData probeWolfssl (.ok probePrivateKey)
    (some probePayload.bytes) (some []) = .ok probeSignature := by
  decide +kernel

/-- Its digest is not the text `1:7:8116:north`, so it does not pass. -/
theorem verified_probe : verifySignature probeCrypto probeReceived none ≠ .ok true := by
  refine mt (verified_iff probeWolfssl probeCrypto (.ok probePrivateKey) probePem probePair 1 7
    ⟨40, 2150⟩ true 1700000000 (some "north") [] probeSignature probeReceived probePayload_signed
    probeReceived_assembled).mp ?_
  decide +kernel

/-- A signed reading, assembled with the number measured, its signature and the key that
matches, is turned away. -/
theorem signed_rejected :
    Nonempty (KeyPair probeWolfssl probeCrypto (.ok probePrivateKey) probePem) ∧
    signSensorData probeWolfssl (.ok probePrivateKey) (some probePayload.bytes) (some []) =
      .ok probeSignature ∧
    Assembled probePayload (some "north") probeSignature probePem probeReceived ∧
    verifySignature probeCrypto probeReceived none = .ok false := by
  refine ⟨⟨probePair⟩, probePayload_signed, probeReceived_assembled, ?_⟩
  have hsign : probeWolfssl.ed25519SignMsg probeDigest.toList () = .ok probeSignature :=
    congrArg Except.ok (if_pos rfl)
  rw [verifySignature_assembled probePair hsign probeReceived_assembled]
  decide +kernel

end FarmChain.Telemetry
