import FarmChain.Chaincode.RegistryRefinement

/-! How records are encoded never shows.

Two ledgers that store one registry, each with its own bytes, are told apart by no call:
what the contract answers is the registry's answer, and the registry has no bytes. All a
runtime's encodings owe is to decode what they encoded. -/
namespace FarmChain.Chaincode

open Strings Run

variable {B B' : Type}

/-- The same Go functions, over records that may be stored differently. -/
structure SameFunctions (R : Runtime B) (R' : Runtime B') : Prop where
  rawMessage : R'.rawMessage = R.rawMessage
  attrs : R'.attrs = R.attrs
  direct : R'.direct = R.direct
  parseRFC3339 : R'.parseRFC3339 = R.parseRFC3339
  timeString : R'.timeString = R.timeString
  sha256Hex : R'.sha256Hex = R.sha256Hex
  quote : R'.quote = R.quote

/-- The event as it reaches a ledger of other bytes. -/
def Event.stored (f : B → B') : Event B → Event B'
  | .invoke ctx call => .invoke ctx call
  | .publishCRL serialHex entry => .publishCRL serialHex (f entry)

variable {R : Runtime B} {R' : Runtime B'}

/-! ### The registry under another encoding -/

theorem SameFunctions.normalizeZones (h : SameFunctions R R') :
    normalizeZones R' = normalizeZones R := by
  have hloop (keys seen zones : List String) :
      normalizeZonesLoop R' keys seen zones = normalizeZonesLoop R keys seen zones := by
    induction keys generalizing seen zones with
    | nil => rfl
    | cons zone rest ih => simp only [normalizeZonesLoop, ih, h.quote]
  funext order zonesCSV required
  simp only [Chaincode.normalizeZones, hloop]

theorem SameFunctions.normalizeZonesForRole (h : SameFunctions R R') :
    normalizeZonesForRole R' = normalizeZonesForRole R := by
  funext order role zonesCSV
  simp only [Chaincode.normalizeZonesForRole, h.normalizeZones]

theorem SameFunctions.parseFutureExpiry (h : SameFunctions R R') :
    parseFutureExpiry R' = parseFutureExpiry R := by
  funext ctx expiresAtISO required
  simp only [Chaincode.parseFutureExpiry, h.parseRFC3339]

theorem SameFunctions.getCallerIdentity (h : SameFunctions R R') :
    getCallerIdentity R' = getCallerIdentity R := by
  have hextension : readExtension R' = readExtension R := by
    funext attrs value
    simp only [readExtension, h.attrs, h.direct]
  have hcert : certAttribute R' = certAttribute R := by
    funext cert name
    simp only [certAttribute, certAttributeMap, hextension]
  have hcomplete : CallerIdentity.complete R' = CallerIdentity.complete R := by
    funext caller cert
    simp only [CallerIdentity.complete, roleFromCertificate, zoneFromCertificate, hcert]
  funext ctx
  simp only [Chaincode.getCallerIdentity, identityFromCreator, hcomplete, h.quote]

theorem SameFunctions.decide (h : SameFunctions R R') (reg : Registry) :
    reg.decide R' = reg.decide R := by
  have hzone : validateZoneAccess R' = validateZoneAccess R := by
    funext row requestedZone
    simp only [validateZoneAccess, h.quote]
  funext ctx caller userID permission requestedZone tokenID
  simp only [Registry.decide, hzone]

theorem SameFunctions.act (h : SameFunctions R R') (reg : Registry) : reg.act R' = reg.act R := by
  funext ctx caller call
  cases call <;> simp only [Registry.act, newTokenID, newToken, h.normalizeZones,
    h.normalizeZonesForRole, h.parseFutureExpiry, h.decide, h.sha256Hex, h.timeString, h.quote,
    h.rawMessage]

theorem SameFunctions.perform (h : SameFunctions R R') (reg : Registry) :
    reg.perform R' = reg.perform R := by
  have hconsume : reg.consumeOf R' = reg.consumeOf R := by
    funext ctx caller nonce
    cases nonce with
    | none => rfl
    | some nonce => simp only [Registry.consumeOf, Registry.consume, h.quote]
  funext ctx call
  simp only [Registry.perform, h.getCallerIdentity, hconsume, h.act]

/-! ### Two ledgers of one registry -/

/-- The ledgers store the same registry. -/
def SameRegistry (R : Runtime B) (R' : Runtime B') (l : Ledger B) (l' : Ledger B') : Prop :=
  ∃ reg, Represents R reg l ∧ Represents R' reg l'

/-- An identifier that is fresh on one ledger is fresh on the other. -/
theorem SameRegistry.fresh {l : Ledger B} {l' : Ledger B'} (h : SameRegistry R R' l l')
    {ctx : Context} (hfresh : Fresh l ctx) : Fresh l' ctx := by
  obtain ⟨reg, hs, hs'⟩ := h
  refine ⟨hfresh.hex, hs'.log.free hfresh.hex fun hmem => ?_⟩
  obtain ⟨entry, hentry, htx⟩ := List.mem_map.mp hmem
  have hstored := hs.log.stored entry hentry
  rw [htx, hfresh.free] at hstored
  cases hstored

theorem SameRegistry.step {l : Ledger B} {l' : Ledger B'} (h : SameFunctions R R') (f : B → B')
    (hsame : SameRegistry R R' l l') {e : Event B} (hfresh : FreshTx l e) :
    SameRegistry R R' (step R l e) (step R' l' (e.stored f)) ∧
      answerTo R l e = answerTo R' l' (e.stored f) := by
  obtain ⟨reg, hs, hs'⟩ := hsame
  have hfresh' : FreshTx l' (e.stored f) := by
    cases e with
    | publishCRL => trivial
    | invoke ctx call => exact SameRegistry.fresh ⟨reg, hs, hs'⟩ hfresh
  obtain ⟨hnext, hanswer⟩ := step_agrees hs hfresh
  obtain ⟨hnext', hanswer'⟩ := step_agrees hs' hfresh'
  have hregistry : reg.step R' (e.stored f) = reg.step R e ∧
      reg.answerTo R' (e.stored f) = reg.answerTo R e := by
    cases e with
    | publishCRL => exact ⟨rfl, rfl⟩
    | invoke ctx call =>
      simp only [Event.stored, Registry.step, Registry.answerTo, h.perform, and_self]
  refine ⟨⟨_, hnext, hregistry.1 ▸ hnext'⟩, ?_⟩
  rw [hanswer, hanswer', hregistry.2]

/-- **How records are encoded never shows.** Over runtimes that differ in nothing but how they
encode records, the same run gets the same answers, failures with their texts included. -/
theorem encoding_unobservable (h : SameFunctions R R') (f : B → B') (events : List (Event B))
    (hdistinct : DistinctTxs events) :
    emits (step R') (answerTo R') ∅ (events.map (Event.stored f)) =
      emits (step R) (answerTo R) ∅ events := by
  have hstep (l : Ledger B) (l' : Ledger B') (e : Event B) (hsame : SameRegistry R R' l l')
      (hfresh : FreshTx l e) :
      SameRegistry R R' (step R l e) (step R' l' (e.stored f)) ∧
        answerTo R l e = answerTo R' l' (e.stored f) := hsame.step h f hfresh
  rw [emits_map]
  exact (simulation hstep ⟨.empty, represents_empty R, represents_empty R'⟩
    (freshTx_run R hdistinct)).2.symm

/-- Records stored with a version number beside them. -/
def Codec.versioned {α : Type} (c : Codec α B) (version : Nat) : Codec α (B × Nat) :=
  ⟨fun a => (c.marshal a, version), fun payload => c.unmarshal payload.1, c.unmarshal_marshal⟩

def Runtime.versioned (R : Runtime B) (version : Nat) : Runtime (B × Nat) where
  role := R.role.versioned version
  token := R.token.versioned version
  audit := R.audit.versioned version
  nonce := R.nonce.versioned version
  index := R.index.versioned version
  bytes s := (R.bytes s, version)
  rawMessage := R.rawMessage
  attrs := R.attrs
  direct := R.direct
  parseRFC3339 := R.parseRFC3339
  timeString := R.timeString
  sha256Hex := R.sha256Hex
  quote := R.quote

theorem sameFunctions_versioned (R : Runtime B) (version : Nat) :
    SameFunctions R (R.versioned version) :=
  ⟨rfl, rfl, rfl, rfl, rfl, rfl, rfl⟩

theorem encoding_unobservable_versioned :
    emits (step (fieldRuntime.versioned 2)) (answerTo (fieldRuntime.versioned 2)) ∅
        (tokenRun.map (Event.stored fun entry => (entry, 2))) =
      emits (step fieldRuntime) (answerTo fieldRuntime) ∅ tokenRun :=
  encoding_unobservable (sameFunctions_versioned fieldRuntime 2) (fun entry => (entry, 2)) tokenRun
    ⟨by decide, by decide⟩

end FarmChain.Chaincode
