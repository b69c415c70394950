import FarmChain.Lib.Fallible
import FarmChain.Gateway.Loop

/-! What the gateway verifies.

The signed bytes are a text of four fields, joined by colons. A reading without a
signature passes; one without key material does not. The `cryptography` package is a
parameter. -/
namespace FarmChain.Gateway

/-! ### Hexadecimal text -/

def hexDigit (c : Char) : Option Nat :=
  if '0' ≤ c ∧ c ≤ '9' then some (c.toNat - '0'.toNat)
  else if 'a' ≤ c ∧ c ≤ 'f' then some (c.toNat - 'a'.toNat + 10)
  else if 'A' ≤ c ∧ c ≤ 'F' then some (c.toNat - 'A'.toNat + 10)
  else none

def isAsciiSpace (c : Char) : Bool := c ∈ [' ', '\t', '\n', '\x0b', '\x0c', '\r']

def nonHexadecimal (i : Nat) : Failure :=
  .value s!"non-hexadecimal number found in fromhex() arg at position {i}"

/-- Two digits a byte, from position `i`; there may be spaces between the bytes. -/
def fromhexAt : Nat → List Char → Except Failure (List UInt8)
  | _, [] => .ok []
  | i, c :: rest =>
    if isAsciiSpace c then fromhexAt (i + 1) rest
    else match hexDigit c with
      | none => .error (nonHexadecimal i)
      | some high =>
        match rest with
        | [] => .error (nonHexadecimal (i + 1))
        | d :: rest =>
          match hexDigit d with
          | none => .error (nonHexadecimal (i + 1))
          | some low => do
            let bytes ← fromhexAt (i + 2) rest
            .ok (UInt8.ofNat (16 * high + low) :: bytes)

/-- `bytes.fromhex`. -/
def fromhex (text : String) : Except Failure (List UInt8) :=
  match text.toList.findIdx? (fun c => 127 < c.toNat) with
  | some i => .error (nonHexadecimal i)
  | none => fromhexAt 0 text.toList

def Signature.toBytes : Signature → Except Failure (List UInt8)
  | .text s => fromhex s
  | .bytes b => .ok b

/-- A byte's digits are read back as the byte. -/
theorem fromhexAt_hexByte (i : Nat) (b : UInt8) (rest : List Char) :
    fromhexAt i (hexByte b ++ rest) =
      (fromhexAt (i + 2) rest >>= fun bytes => .ok (b :: bytes)) := by
  have hb := b.toNat_lt
  have hdigits : ∀ n < 16, isAsciiSpace (Nat.digitChar n) = false ∧
      hexDigit (Nat.digitChar n) = some n := by decide
  obtain ⟨hspace, hhigh⟩ := hdigits (b.toNat / 16) (by omega)
  obtain ⟨_, hlow⟩ := hdigits (b.toNat % 16) (by omega)
  have hbyte : UInt8.ofNat (16 * (b.toNat / 16) + b.toNat % 16) = b := by
    rw [Nat.div_add_mod]
    exact UInt8.ofNat_toNat
  show fromhexAt i (Nat.digitChar (b.toNat / 16) :: Nat.digitChar (b.toNat % 16) :: rest) = _
  rw [fromhexAt, if_neg (by rw [hspace]; nofun), hhigh]
  dsimp only
  rw [hlow]
  dsimp only
  rw [hbyte]

theorem fromhexAt_hex (i : Nat) (bytes : List UInt8) :
    fromhexAt i (bytes.flatMap hexByte) = .ok bytes := by
  induction bytes generalizing i with
  | nil => rfl
  | cons b rest ih =>
    rw [List.flatMap_cons, fromhexAt_hexByte, ih]
    rfl

/-- The text that `to_payload` makes of a signature's bytes is read back as the bytes. -/
theorem fromhex_payload (bytes : List UInt8) : fromhex (Signature.bytes bytes).payload = .ok bytes := by
  unfold fromhex Signature.payload
  have hascii : ∀ c ∈ bytes.flatMap hexByte, ¬ 127 < c.toNat := by
    intro c hc
    have hdigits : ∀ n < 16, ¬ 127 < (Nat.digitChar n).toNat := by decide
    obtain ⟨b, _, hc⟩ := List.mem_flatMap.mp hc
    have hb := b.toNat_lt
    rcases List.mem_cons.mp hc with rfl | hc
    · exact hdigits _ (by omega)
    · rw [List.mem_singleton.mp hc]
      exact hdigits _ (by omega)
  rw [String.toList_ofList, List.findIdx?_eq_none_iff.mpr]
  · exact fromhexAt_hex 0 bytes
  · exact fun c hc => decide_eq_false (hascii c hc)

/-! ### Verification -/

def utf8 (text : String) : List UInt8 := text.toUTF8.data.toList

/-- `_signature_payload`. -/
def signaturePayload (reading : SensorReading) : List UInt8 :=
  let zone := reading.zone.getD ""
  utf8 s!"{reading.deviceId}:{reading.readingId}:{reading.value}:{zone}"

inductive KeyMaterial where
  | text (s : String)
  | bytes (b : List UInt8)
  deriving DecidableEq, Repr

def KeyMaterial.encode : KeyMaterial → List UInt8
  | .text s => utf8 s
  | .bytes b => b

/-- `public_key_pem or reading.certificate`, where that is not empty. -/
def keyMaterial (publicKeyPem : Option KeyMaterial) (reading : SensorReading) : Option KeyMaterial :=
  let certificate := (reading.certificate.map KeyMaterial.text).filter (· ≠ .text "")
  match publicKeyPem with
  | none | some (.text "") | some (.bytes []) => certificate
  | some material => some material

/-- What the package raises. -/
inductive CryptoFailure where
  /-- `ValueError`. -/
  | value
  | invalidSignature
  /-- Anything else. -/
  | other (failure : Failure)
  deriving DecidableEq, Repr

inductive KeyKind where
  | ed25519 | ellipticCurve | rsa | other
  deriving DecidableEq, Repr

/-- The functions of `cryptography` that the gateway calls. -/
structure Cryptography (PublicKey : Type) where
  loadPemPublicKey : List UInt8 → Except CryptoFailure PublicKey
  /-- What `isinstance` finds. -/
  kind : PublicKey → KeyKind
  /-- `verify`, with SHA-256 and the padding where the kind of key takes them. -/
  verify : PublicKey → List UInt8 → List UInt8 → Except CryptoFailure Unit

section
variable {PublicKey : Type} (crypto : Cryptography PublicKey)

/-- The body of the `try`. -/
def tryVerify (material : KeyMaterial) (signature : List UInt8) (reading : SensorReading) :
    Except CryptoFailure Bool := do
  let publicKey ← crypto.loadPemPublicKey material.encode
  match crypto.kind publicKey with
  | .ed25519 | .ellipticCurve | .rsa => do
    crypto.verify publicKey signature (signaturePayload reading)
    .ok true
  | .other => .ok false

def verifySignature (reading : SensorReading) (publicKeyPem : Option KeyMaterial) :
    Except Failure Bool :=
  match reading.signature with
  | none => .ok true
  | some signature =>
    match keyMaterial publicKeyPem reading with
    | none => .ok false
    | some material => do
      let signature ← signature.toBytes
      match tryVerify crypto material signature reading with
      | .ok verified => .ok verified
      | .error .value | .error .invalidSignature => .ok false
      | .error (.other failure) => .error failure

/-- The gateway with its own verification. -/
def Config.verifying (zone : String) : Config where
  zone := zone
  verifySignature reading := Gateway.verifySignature crypto reading none

end

end FarmChain.Gateway
