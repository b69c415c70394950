import FarmChain.Chaincode.Identity
import FarmChain.Chaincode.Keys

/-! Where a certificate's role and zone come from.

The attributes of a certificate are what its extensions say, each read three ways,
the last reading winning. So a key of the attribute object is overridden by any
`key=value` fragment of the object's own text, and by whatever a later extension
says (`overriding`). The stored role and zone are the caller's exactly when nothing
overrides them with something else (`identity_iff`). -/
namespace FarmChain.Chaincode

open Strings

variable {B : Type} {R : Runtime B}

/-! ### The last reading wins -/

/-- What one fragment says about a key. -/
def partValue (key part : String) : Option String :=
  match splitPair part '=' with
  | some (k, value) => if key = trimSpace k then some (trimSpace value) else none
  | none => none

/-- What the last fragment that names the key says. -/
def fragmentValue (key : String) : List String → Option String
  | [] => none
  | part :: rest => (fragmentValue key rest).or (partValue key part)

section
variable (R)

/-- What an extension says about a key: its fragments, else a flat object, else an
`attrs` object. -/
def extensionValue (key value : String) : Option String :=
  let raw := trimSpace value
  if raw = "" then none
  else (fragmentValue key (fieldsFunc raw isFieldSeparator)).or
    (((R.direct raw).bind fun m => m.get key).or ((R.attrs raw).bind fun m => m.get key))

/-- What the last extension that names the key says. -/
def extensionsValue (key : String) : List String → Option String
  | [] => none
  | value :: rest => (extensionsValue key rest).or (extensionValue R key value)

end

theorem readPart_get (attrs : Store String String) (part key : String) :
    (readPart attrs part).get key = (partValue key part).or (attrs.get key) := by
  cases h : splitPair part '=' with
  | none => simp only [readPart, partValue, h, Option.none_or]
  | some pair =>
    simp only [readPart, partValue, h]
    show (attrs.write (trimSpace pair.1, some (trimSpace pair.2))).get key = _
    rw [Store.get_write]
    split <;> rfl

theorem readParts_get (attrs : Store String String) (parts : List String) (key : String) :
    (parts.foldl readPart attrs).get key = (fragmentValue key parts).or (attrs.get key) := by
  induction parts generalizing attrs with
  | nil => rfl
  | cons part rest ih => rw [List.foldl_cons, ih, readPart_get, fragmentValue, Option.or_assoc]

theorem readObject_get (attrs : Store String String) (decoded : Option (Store String String))
    (key : String) :
    (readObject attrs decoded).get key =
      (decoded.bind fun m => m.get key).or (attrs.get key) := by
  cases decoded with
  | none => rfl
  | some m => exact Store.get_union m attrs key

theorem readExtension_get (attrs : Store String String) (value key : String) :
    (readExtension R attrs value).get key = (extensionValue R key value).or (attrs.get key) := by
  unfold readExtension extensionValue
  by_cases hraw : trimSpace value = ""
  · simp only [hraw, if_true, Option.none_or]
  · simp only [hraw, if_false, readParts_get, readObject_get, Option.or_assoc]

theorem readExtensions_get (attrs : Store String String) (extensions : List String)
    (key : String) :
    (extensions.foldl (readExtension R) attrs).get key =
      (extensionsValue R key extensions).or (attrs.get key) := by
  induction extensions generalizing attrs with
  | nil => rfl
  | cons value rest ih =>
    rw [List.foldl_cons, ih, readExtension_get, extensionsValue, Option.or_assoc]

/-! ### Certificates with an attribute object -/

/-- A certificate one of whose extensions is a JSON object with the `attrs` object
`m`: it decodes as that, and not as a flat object of texts. -/
structure Attributed (R : Runtime B) where
  cert : Certificate
  before : List String
  value : String
  after : List String
  m : Store String String
  extensions : cert.extensions = before ++ value :: after
  nonempty : trimSpace value ≠ ""
  attrs : R.attrs (trimSpace value) = some m
  direct : R.direct (trimSpace value) = none

namespace Attributed

/-- What overrides a key of the attribute object: a later extension, or a fragment of
the object's own text. -/
def overriding (a : Attributed R) (key : String) : Option String :=
  (extensionsValue R key a.after).or
    (fragmentValue key (fieldsFunc (trimSpace a.value) isFieldSeparator))

theorem certAttribute (a : Attributed R) {key stored : String} (h : a.m.get key = some stored) :
    certAttribute R a.cert key = (a.overriding key).getD stored := by
  unfold Chaincode.certAttribute certAttributeMap overriding
  rw [a.extensions, List.foldl_append, List.foldl_cons, readExtensions_get, readExtension_get,
    extensionValue, if_neg a.nonempty, a.attrs, a.direct]
  simp only [Option.bind_some, Option.bind_none, Option.none_or, h]
  cases extensionsValue R key a.after <;>
    cases fragmentValue key (fieldsFunc (trimSpace a.value) isFieldSeparator) <;> rfl

end Attributed

/-- Nothing overrides the stored text, or the same text does, or the empty text does
and the subject name supplies the stored one. -/
def Agrees (overriding : Option String) (stored fallback : String) : Prop :=
  overriding = none ∨ overriding = some stored ∨ overriding = some "" ∧ fallback = stored

theorem agrees_iff {overriding : Option String} {stored fallback : String} (hs : stored ≠ "") :
    (if overriding.getD stored ≠ "" then overriding.getD stored else fallback) = stored ↔
      Agrees overriding stored fallback := by
  unfold Agrees
  cases overriding with
  | none => simp [hs]
  | some text =>
    by_cases ht : text = ""
    · subst ht
      simp [hs.symm]
    · simp [ht]

/-- The certificate names its subject and nothing overrides its role and its zone. -/
structure Attributed.Unspoofed (a : Attributed R) (role zone : String) : Prop where
  named : a.cert.commonName ≠ ""
  role : Agrees (a.overriding "role") role (organizationalRole a.cert).name
  zone : Agrees (a.overriding "zone") zone (a.cert.locality.headD "")

theorem isRoleValid_ne_empty {role : String} (h : isRoleValid ⟨role⟩ = true) : role ≠ "" := by
  intro hempty
  subst hempty
  exact absurd h (by decide)

/-- The caller a certificate makes, when the stub offers no attributes. -/
theorem getCallerIdentity_eq_ok {ctx : Context} {cert : Certificate} {caller : CallerIdentity}
    (hattributes : ctx.attributes = none) (hcreator : ctx.creator = some (.ok cert)) :
    getCallerIdentity R ctx = .ok caller ↔ cert.commonName ≠ "" ∧
      (roleFromCertificate R cert ≠ ⟨""⟩ → isRoleValid (roleFromCertificate R cert) = true) ∧
      caller = ⟨cert.commonName, roleFromCertificate R cert, zoneFromCertificate R cert,
        serialHex (some cert.serialNumber)⟩ := by
  simp only [getCallerIdentity, identityFromAttributes, hattributes, identityFromCreator, hcreator,
    Except.bind_eq_ok, Except.require_eq_ok, Except.pure_eq_ok, Except.ok.injEq, exists_eq_left',
    CallerIdentity.complete, if_true, exists_const]
  constructor
  · intro h
    obtain ⟨hid, hrole, hcaller⟩ := h
    exact ⟨hid, hrole, hcaller.symm⟩
  · intro h
    obtain ⟨hid, hrole, hcaller⟩ := h
    exact ⟨hid, hrole, hcaller.symm⟩

/-- The certificate makes a caller with the stored role and zone exactly when it names
its subject and nothing overrides them. -/
theorem Attributed.identity_iff (a : Attributed R) {ctx : Context} {role zone : String}
    (hattributes : ctx.attributes = none) (hcreator : ctx.creator = some (.ok a.cert))
    (hrole : a.m.get "role" = some role) (hvalid : isRoleValid ⟨role⟩ = true)
    (hzone : a.m.get "zone" = some zone) (hne : zone ≠ "") :
    (∃ caller, getCallerIdentity R ctx = .ok caller ∧ caller.role = ⟨role⟩ ∧ caller.zone = zone) ↔
      a.Unspoofed role zone := by
  have hroles : roleFromCertificate R a.cert = ⟨role⟩ ↔
      Agrees (a.overriding "role") role (organizationalRole a.cert).name := by
    have hname (r : Role) : r = ⟨role⟩ ↔ r.name = role := by
      cases r
      exact Role.mk.injEq _ _ ▸ Iff.rfl
    rw [← agrees_iff (isRoleValid_ne_empty hvalid), roleFromCertificate, a.certAttribute hrole,
      hname, apply_ite Role.name]
  have hzones : zoneFromCertificate R a.cert = zone ↔
      Agrees (a.overriding "zone") zone (a.cert.locality.headD "") := by
    rw [← agrees_iff hne, zoneFromCertificate, a.certAttribute hzone]
  constructor
  · intro ⟨caller, hok, hr, hz⟩
    obtain ⟨hnamed, _, rfl⟩ := (getCallerIdentity_eq_ok hattributes hcreator).mp hok
    exact ⟨hnamed, hroles.mp hr, hzones.mp hz⟩
  · intro ⟨hnamed, hr, hz⟩
    refine ⟨_, (getCallerIdentity_eq_ok hattributes hcreator).mpr ⟨hnamed, fun _ => ?_, rfl⟩,
      hroles.mpr hr, hzones.mpr hz⟩
    rw [hroles.mpr hr]
    exact hvalid

/-- **What the caller's role and zone depend on.** Two certificates whose attribute
objects store the same role and zone make callers with that role and that zone exactly
when both name their subjects and, in both, no fragment of the object's own text and no
later extension overrides the two keys with something else. -/
theorem attributes_decide_iff (a b : Attributed R) {ctx ctx' : Context} {role zone : String}
    (hattributes : ctx.attributes = none) (hattributes' : ctx'.attributes = none)
    (hcreator : ctx.creator = some (.ok a.cert)) (hcreator' : ctx'.creator = some (.ok b.cert))
    (hrole : a.m.get "role" = some role) (hrole' : b.m.get "role" = some role)
    (hvalid : isRoleValid ⟨role⟩ = true)
    (hzone : a.m.get "zone" = some zone) (hzone' : b.m.get "zone" = some zone) (hne : zone ≠ "") :
    (∃ caller caller', getCallerIdentity R ctx = .ok caller ∧
        getCallerIdentity R ctx' = .ok caller' ∧ caller.role = ⟨role⟩ ∧ caller'.role = ⟨role⟩ ∧
        caller.zone = zone ∧ caller'.zone = zone) ↔
      a.Unspoofed role zone ∧ b.Unspoofed role zone := by
  rw [← a.identity_iff hattributes hcreator hrole hvalid hzone hne,
    ← b.identity_iff hattributes' hcreator' hrole' hvalid hzone' hne]
  constructor
  · intro ⟨caller, caller', hok, hok', hr, hr', hz, hz'⟩
    exact ⟨⟨caller, hok, hr, hz⟩, caller', hok', hr', hz'⟩
  · intro ⟨⟨caller, hok, hr, hz⟩, caller', hok', hr', hz'⟩
    exact ⟨caller, caller', hok, hok', hr, hr', hz, hz'⟩

/-- A sensor's attribute object with a given enrollment id. -/
def sensorText (enrollmentID : String) : String :=
  "\x7b\"attrs\":\x7b\"hf.EnrollmentID\":\"" ++ enrollmentID ++
    "\",\"role\":\"Sensor\",\"zone\":\"North\"\x7d\x7d"

def sensorAttrs (enrollmentID : String) : List (String × String) :=
  [("hf.EnrollmentID", enrollmentID), ("role", "Sensor"), ("zone", "North")]

/-- An enrollment id that spells a fragment. -/
def spoofingID : String := "x;role=Admin;y"

def sensorRuntime : Runtime Document :=
  .documents [(sensorText spoofingID, sensorAttrs spoofingID),
    (sensorText "probe", sensorAttrs "probe"), (sensorText "gate", sensorAttrs "gate")] [] [] []

def sensorCertificate (enrollmentID : String) : Certificate :=
  ⟨7, enrollmentID, [], [], [sensorText enrollmentID]⟩

/-- The context of Fabric's own stub, which offers the certificate only. -/
def certificateContext (cert : Certificate) : Context :=
  ⟨none, some (.ok cert), "01", ⟨100, 0⟩, .same⟩

def spoofing : Attributed sensorRuntime :=
  ⟨sensorCertificate spoofingID, [], sensorText spoofingID, [],
    ((sensorAttrs spoofingID).map fun kv => ⟨kv.1, kv.2⟩).toFinmap, rfl, by decide, by rfl, rfl⟩

def plain : Attributed sensorRuntime :=
  ⟨sensorCertificate "probe", [], sensorText "probe", [],
    ((sensorAttrs "probe").map fun kv => ⟨kv.1, kv.2⟩).toFinmap, rfl, by decide, by rfl, rfl⟩

/-- The extended key usage of a client, in DER. -/
def clientUsage : String := "0\n\x06\x08+\x06\x01\x05\x05\x07\x03\x02"

/-- Another sensor's certificate, with a locality and an extension more. -/
def client : Attributed sensorRuntime :=
  ⟨⟨8, "gate", ["Sensors"], ["East"], [sensorText "gate", clientUsage]⟩, [], sensorText "gate",
    [clientUsage], ((sensorAttrs "gate").map fun kv => ⟨kv.1, kv.2⟩).toFinmap, rfl, by decide,
    by rfl, rfl⟩

/-- The two certificates store the same role and zone, and the first makes an
administrator. -/
theorem spoofing_admin :
    spoofing.m.get "role" = some "Sensor" ∧ plain.m.get "role" = some "Sensor" ∧
    spoofing.m.get "zone" = some "North" ∧ plain.m.get "zone" = some "North" ∧
    ¬∃ caller caller',
      getCallerIdentity sensorRuntime (certificateContext spoofing.cert) = .ok caller ∧
      getCallerIdentity sensorRuntime (certificateContext plain.cert) = .ok caller' ∧
      caller.role = ⟨"Sensor"⟩ ∧ caller'.role = ⟨"Sensor"⟩ ∧ caller.zone = "North" ∧
      caller'.zone = "North" := by
  refine ⟨by decide, by decide, by decide, by decide, ?_⟩
  intro ⟨caller, _, hok, _, hrole, _⟩
  have hadmin : getCallerIdentity sensorRuntime (certificateContext spoofing.cert) =
      .ok ⟨spoofingID, .admin, "North", "7"⟩ := by decide
  cases hadmin.symm.trans hok
  exact absurd hrole (by decide)

theorem attributes_decide_plain : ∃ caller caller',
    getCallerIdentity sensorRuntime (certificateContext plain.cert) = .ok caller ∧
    getCallerIdentity sensorRuntime (certificateContext client.cert) = .ok caller' ∧
    caller.role = ⟨"Sensor"⟩ ∧ caller'.role = ⟨"Sensor"⟩ ∧ caller.zone = "North" ∧
    caller'.zone = "North" := by
  have hplain : plain.Unspoofed "Sensor" "North" :=
    ⟨by decide, .inl (by decide), .inl (by decide)⟩
  have hclient : client.Unspoofed "Sensor" "North" :=
    ⟨by decide, .inl (by decide), .inl (by decide)⟩
  exact (attributes_decide_iff plain client rfl rfl rfl rfl (by decide) (by decide) (by decide)
    (by decide) (by decide) (by decide)).mpr ⟨hplain, hclient⟩

end FarmChain.Chaincode
