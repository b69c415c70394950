import FarmChain.Chaincode.Stub

/-! The caller (`getCallerIdentity` of `contract.go` and what it reads).

A stub may offer attributes, a certificate, both or neither. What the attributes
leave empty is filled in from the certificate, whose extensions are read three
ways: as JSON with an `attrs` object, as a flat JSON object, and as `key=value`
fragments of the same text. -/
namespace FarmChain.Chaincode

open Strings

structure CallerIdentity where
  id : String
  role : Role
  zone : String
  serialHex : String
  deriving DecidableEq, Repr

def isFieldSeparator (c : Char) : Bool := c = ';' || c = ',' || c = '\n'

/-- Set what one `key=value` fragment says; other fragments say nothing. -/
def readPart (attrs : Store String String) (part : String) : Store String String :=
  match splitPair part '=' with
  | some (key, value) => attrs.insert (trimSpace key) (trimSpace value)
  | none => attrs

/-- Set every key of a decoded object, if the text decoded. -/
def readObject (attrs : Store String String) : Option (Store String String) → Store String String
  | some decoded => decoded ∪ attrs
  | none => attrs

section
variable {B : Type} (R : Runtime B)

/-- One extension: each reading overwrites what was there. -/
def readExtension (attrs : Store String String) (value : String) : Store String String :=
  let raw := trimSpace value
  if raw = "" then attrs
  else (fieldsFunc raw isFieldSeparator).foldl readPart
    (readObject (readObject attrs (R.attrs raw)) (R.direct raw))

def certAttributeMap (cert : Certificate) : Store String String :=
  cert.extensions.foldl (readExtension R) ∅

/-- An attribute of the certificate; a missing one reads as empty. -/
def certAttribute (cert : Certificate) (name : String) : String :=
  ((certAttributeMap R cert).get name).getD ""

/-- The first organizational unit that names a role. -/
def organizationalRole (cert : Certificate) : Role :=
  ((cert.organizationalUnit.map Role.mk).find? isRoleValid).getD ⟨""⟩

def roleFromCertificate (cert : Certificate) : Role :=
  if certAttribute R cert "role" ≠ "" then ⟨certAttribute R cert "role"⟩
  else organizationalRole cert

def zoneFromCertificate (cert : Certificate) : String :=
  if certAttribute R cert "zone" ≠ "" then certAttribute R cert "zone"
  else cert.locality.headD ""

/-- The serial number in lower-case hexadecimal. -/
def serialHex : Option Int → String
  | none => ""
  | some serial =>
    (if serial < 0 then "-" else "") ++ String.ofList (Nat.toDigits 16 serial.natAbs)

/-- What the attributes say, trimmed. -/
def identityFromAttributes (ctx : Context) : Except String CallerIdentity :=
  match ctx.attributes with
  | none => .ok ⟨"", ⟨""⟩, "", ""⟩
  | some getAttributeValue => do
    let id ← wrapError ("failed to read caller id attribute: " ++ ·)
      (getAttributeValue "hf.EnrollmentID")
    let role ← wrapError ("failed to read caller role attribute: " ++ ·) (getAttributeValue "role")
    let zone ← wrapError ("failed to read caller zone attribute: " ++ ·) (getAttributeValue "zone")
    return ⟨trimSpace (id.getD ""), ⟨trimSpace (role.getD "")⟩, trimSpace (zone.getD ""), ""⟩

/-- Fill in from the certificate what the attributes left empty. -/
def CallerIdentity.complete (caller : CallerIdentity) (cert : Certificate) : CallerIdentity where
  id := if caller.id = "" then cert.commonName else caller.id
  role := if caller.role = ⟨""⟩ then roleFromCertificate R cert else caller.role
  zone := if caller.zone = "" then zoneFromCertificate R cert else caller.zone
  serialHex := Chaincode.serialHex (some cert.serialNumber)

def identityFromCreator (ctx : Context) (caller : CallerIdentity) :
    Except String CallerIdentity :=
  match ctx.creator with
  | none => .ok caller
  | some parsed => do
    let cert ← parsed
    return caller.complete R cert

def getCallerIdentity (ctx : Context) : Except String CallerIdentity := do
  let caller ← identityFromAttributes ctx
  let caller ← identityFromCreator R ctx caller
  require (caller.id ≠ "") "caller id is required"
  require (caller.role ≠ ⟨""⟩ → isRoleValid caller.role = true)
    ("invalid caller role " ++ R.quote caller.role.name)
  return caller

end

/-! ### What an identity carries -/

section
variable {B : Type} {R : Runtime B} {ctx : Context} {caller : CallerIdentity}

theorem getCallerIdentity_id (h : getCallerIdentity R ctx = .ok caller) : caller.id ≠ "" := by
  simp only [getCallerIdentity, Except.bind_eq_ok, Except.require_eq_ok, Except.pure_eq_ok] at h
  obtain ⟨_, _, _, _, _, hid, _, _, rfl⟩ := h
  exact hid

/-- With a certificate, the serial number is the certificate's. -/
theorem getCallerIdentity_serialHex {cert : Certificate} (hc : ctx.creator = some (.ok cert))
    (h : getCallerIdentity R ctx = .ok caller) :
    caller.serialHex = serialHex (some cert.serialNumber) := by
  simp only [getCallerIdentity, identityFromCreator, hc, Except.bind_eq_ok, Except.require_eq_ok,
    Except.pure_eq_ok] at h
  obtain ⟨_, _, _, ⟨_, hcert, rfl⟩, _, _, _, _, rfl⟩ := h
  cases hcert
  rfl

/-- A serial number always spells something. -/
theorem serialHex_ne_empty (n : Int) : serialHex (some n) ≠ "" := by
  intro h
  have hlist := congrArg String.toList h
  simp [serialHex, Nat.toDigits_ne_nil] at hlist

end

end FarmChain.Chaincode
