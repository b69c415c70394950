import FarmChain.Chaincode.Access

/-! The guards of each operation.

`Admits` collects what an operation checks before it goes through: a readable
caller, an unused nonce, the role the caller's certificate must carry, and
arguments that parse and name what exists. `succeeds_iff` says that these are all:
a call succeeds exactly when it is admitted. -/
namespace FarmChain.Chaincode

open Strings

variable {B : Type}

/-- The authority a call asks of the role in the caller's certificate; the two
access checks ask the ledger instead. -/
def Call.authorised (role : Role) : Call → Bool
  | .assignRole .. => role = .admin
  | .revokeRole .. => role = .admin
  | .renewRole .. => role = .admin
  | .checkAccess .. => true
  | .issueCrossZoneToken .. => mayIssue role
  | .revokeCrossZoneToken .. => mayIssue role
  | .getAuditLog => mayReadAudit role
  | .pruneNonces .. => role = .admin
  | .writeSensorData .. => true

/-- The operations that decide by the ledger's assignments and look at the
revocation list. -/
def Call.isAccessCheck : Call → Bool
  | .checkAccess .. => true
  | .writeSensorData .. => true
  | _ => false

section
variable (R : Runtime B) (l : Ledger B) (ctx : Context)

/-- What a call checks of its arguments against the ledger and the time. -/
def Call.argumentsValid (caller : CallerIdentity) : Call → Prop
  | .assignRole subjectID roleName zonesCSV expiresAtISO _ =>
    trimSpace subjectID ≠ "" ∧ isRoleValid ⟨trimSpace roleName⟩ = true ∧
    (∃ zones, normalizeZonesForRole R ctx.mapOrder ⟨trimSpace roleName⟩ zonesCSV = .ok zones) ∧
    ∃ expiresAt, parseFutureExpiry R ctx expiresAtISO false = .ok expiresAt
  | .revokeRole subjectID _ => trimSpace subjectID ≠ ""
  | .renewRole subjectID expiresAtISO _ =>
    (∃ assignment, getRoleAssignment R l subjectID = .ok assignment) ∧
    ∃ expiresAt, parseFutureExpiry R ctx expiresAtISO true = .ok expiresAt
  | .checkAccess userID permissionName requestedZone tokenID =>
    ∃ decision, decideAccess R l ctx caller (trimSpace userID) ⟨trimSpace permissionName⟩
      requestedZone tokenID = .ok decision
  | .issueCrossZoneToken userID targetZonesCSV expiresAtISO _ =>
    (∃ assignment, getRoleAssignment R l userID = .ok assignment) ∧
    (∃ targets, normalizeZones R ctx.mapOrder targetZonesCSV true = .ok targets) ∧
    ∃ expiresAt, parseFutureExpiry R ctx expiresAtISO true = .ok expiresAt
  | .revokeCrossZoneToken tokenID _ => trimSpace tokenID ≠ ""
  | .getAuditLog => ∃ keys, getStringIndex R l auditIndexKey = .ok keys ∧
    ∃ entries, readAuditEntries R l (lastThousand keys) = .ok entries
  | .pruneNonces beforeUnix nonce => ∃ keys, getStringIndex R l nonceIndexKey = .ok keys ∧
    ∃ split, pruneLoop R l beforeUnix (nonceKey caller.id nonce) keys = .ok split
  | .writeSensorData deviceID readingJSON zone _ =>
    decideAccess R l ctx caller (trimSpace caller.id) .writeSensor zone "" = .ok .grant ∧
    trimSpace deviceID ≠ "" ∧ R.rawMessage readingJSON = .ok ()

/-- Every guard of the call lets this caller through. -/
structure Admits (call : Call) (caller : CallerIdentity) : Prop where
  identity : getCallerIdentity R ctx = .ok caller
  nonce : ∀ nonce, call.nonce = some nonce → nonce ≠ "" ∧
    l.get (nonceKey caller.id nonce) = none ∧ ∃ keys, getStringIndex R l nonceIndexKey = .ok keys
  authorised : call.authorised caller.role = true
  arguments : call.argumentsValid R l ctx caller
  log : call ≠ .getAuditLog → ∃ keys, getStringIndex R l auditIndexKey = .ok keys

end

variable {R : Runtime B} {l : Ledger B} {ctx : Context} {caller : CallerIdentity}

theorem Effect.authorised {call : Call} {response : Response} {own : WriteSet B}
    {entry : Option AuditEntry} (h : Effect R l ctx caller call response own entry) :
    call.authorised caller.role = true := by
  cases h with
  | assigned admin => simpa [Call.authorised] using admin
  | revoked admin => simpa [Call.authorised] using admin
  | renewed admin => simpa [Call.authorised] using admin
  | checked => rfl
  | issued issuer => exact issuer
  | tokenRevoked issuer => exact issuer
  | read reader => exact reader
  | pruned admin => simpa [Call.authorised] using admin
  | sensed => rfl

theorem Effect.argumentsValid {call : Call} {response : Response} {own : WriteSet B}
    {entry : Option AuditEntry} (h : Effect R l ctx caller call response own entry) :
    call.argumentsValid R l ctx caller := by
  cases h with
  | assigned _ subject valid zoned expiry => exact ⟨subject, valid, ⟨_, zoned⟩, _, expiry⟩
  | revoked _ subject => exact subject
  | renewed _ found expiry => exact ⟨⟨_, found⟩, _, expiry⟩
  | checked decided => exact ⟨_, decided⟩
  | issued _ found zoned expiry => exact ⟨⟨_, found⟩, ⟨_, zoned⟩, _, expiry⟩
  | tokenRevoked _ token => exact token
  | read _ index found => exact ⟨_, index, _, found⟩
  | pruned _ index swept => exact ⟨_, index, _, swept⟩
  | sensed granted device json => exact ⟨granted, device, json⟩

/-- Only reading the audit log leaves no entry in it. -/
theorem Effect.logged {call : Call} {response : Response} {own : WriteSet B}
    {entry : Option AuditEntry} (h : Effect R l ctx caller call response own entry)
    (hcall : call ≠ .getAuditLog) : ∃ logged, entry = some logged := by
  cases h with
  | read => exact absurd rfl hcall
  | _ => exact ⟨_, rfl⟩

/-- The writes consuming the nonce of an admitted call. -/
theorem Admits.consumed {call : Call} (h : Admits R l ctx call caller) {nonce : String}
    (hn : call.nonce = some nonce) : ∃ ws, validateNonce R l ctx caller.id nonce = .ok ws := by
  obtain ⟨hne, hfree, keys, hkeys⟩ := h.nonce nonce hn
  exact ⟨_, validateNonce_eq_ok.mpr ⟨getCallerIdentity_id h.identity, hne, hfree, keys, hkeys, rfl⟩⟩

/-- The writes logging an entry of an admitted call. -/
theorem Admits.logged {call : Call} (h : Admits R l ctx call caller) (hcall : call ≠ .getAuditLog)
    (entry : AuditEntry) : ∃ logged, writeAuditEntry R l ctx entry = .ok logged := by
  obtain ⟨keys, hkeys⟩ := h.log hcall
  exact ⟨_, writeAuditEntry_eq_ok.mpr ⟨keys, hkeys, rfl⟩⟩

theorem commit_of_ok {call : Call} {response : Response} {ws : WriteSet B}
    (h : invoke R l ctx call = .ok (response, ws)) : commit R l ctx call = l.apply ws := by
  simp only [commit, h]

theorem commit_of_fails {call : Call} (h : succeeds R l ctx call = false) :
    commit R l ctx call = l := by
  unfold commit
  cases hinvoke : invoke R l ctx call with
  | ok out => rw [succeeds_eq_true.mpr ⟨out.1, out.2, hinvoke⟩] at h; cases h
  | error message => rfl

/-- A call succeeds exactly when every guard lets its caller through. -/
theorem succeeds_iff {call : Call} :
    succeeds R l ctx call = true ↔ ∃ caller, Admits R l ctx call caller := by
  rw [succeeds_eq_true]
  constructor
  · intro hcase
    obtain ⟨response, ws, h⟩ := hcase
    obtain ⟨caller, consumed, own, entry, logged, hc, hconsumes, heffect, hlogs, _⟩ :=
      invoke_effect h
    refine ⟨caller, hc, fun nonce hn => ?_, heffect.authorised, heffect.argumentsValid,
      fun hcall => ?_⟩
    · rw [hn] at hconsumes
      obtain ⟨_, hne, hfree, keys, hkeys, _⟩ := validateNonce_eq_ok.mp hconsumes
      exact ⟨hne, hfree, keys, hkeys⟩
    · obtain ⟨entry, rfl⟩ := heffect.logged hcall
      obtain ⟨keys, hkeys, _⟩ := hlogs.index
      exact ⟨keys, hkeys⟩
  · intro hcase
    obtain ⟨caller, h⟩ := hcase
    have hc := h.identity
    have hauth := h.authorised
    cases call <;> simp only [invoke, Except.bind_eq_ok, Except.pure_eq_ok, Prod.mk.injEq]
    case assignRole =>
      obtain ⟨consumed, hn⟩ := h.consumed rfl
      obtain ⟨hs, hv, ⟨zones, hz⟩, expiresAt, he⟩ := h.arguments
      obtain ⟨logged, hlog⟩ := h.logged (by simp) _
      exact ⟨_, _, _, assignRole_eq_ok.mpr ⟨caller, hc, consumed, hn, of_decide_eq_true hauth, hs,
        hv, zones, hz, expiresAt, he, logged, hlog, rfl⟩, rfl, rfl⟩
    case revokeRole =>
      obtain ⟨consumed, hn⟩ := h.consumed rfl
      obtain ⟨logged, hlog⟩ := h.logged (by simp) _
      exact ⟨_, _, _, revokeRole_eq_ok.mpr ⟨caller, hc, consumed, hn, of_decide_eq_true hauth,
        h.arguments, logged, hlog, rfl⟩, rfl, rfl⟩
    case renewRole =>
      obtain ⟨consumed, hn⟩ := h.consumed rfl
      obtain ⟨⟨a, ha⟩, expiresAt, he⟩ := h.arguments
      obtain ⟨logged, hlog⟩ := h.logged (by simp) _
      exact ⟨_, _, _, renewRole_eq_ok.mpr ⟨caller, hc, consumed, hn, of_decide_eq_true hauth, a, ha,
        expiresAt, he, logged, hlog, rfl⟩, rfl, rfl⟩
    case checkAccess =>
      obtain ⟨decision, hd⟩ := h.arguments
      obtain ⟨logged, hlog⟩ := h.logged (by simp) _
      exact ⟨_, _, _, checkAccess_eq_ok.mpr ⟨caller, hc, decision, hd, logged, hlog, rfl, rfl⟩, rfl,
        rfl⟩
    case issueCrossZoneToken =>
      obtain ⟨consumed, hn⟩ := h.consumed rfl
      obtain ⟨⟨a, ha⟩, ⟨targets, hz⟩, expiresAt, he⟩ := h.arguments
      obtain ⟨logged, hlog⟩ := h.logged (by simp) _
      exact ⟨_, _, _, issueCrossZoneToken_eq_ok.mpr ⟨caller, hc, consumed, hn, hauth, a, ha,
        targets, hz, expiresAt, he, logged, hlog, rfl, rfl⟩, rfl, rfl⟩
    case revokeCrossZoneToken =>
      obtain ⟨consumed, hn⟩ := h.consumed rfl
      obtain ⟨logged, hlog⟩ := h.logged (by simp) _
      exact ⟨_, _, _, revokeCrossZoneToken_eq_ok.mpr ⟨caller, hc, consumed, hn, hauth, h.arguments,
        logged, hlog, rfl⟩, rfl, rfl⟩
    case getAuditLog =>
      obtain ⟨keys, hkeys, entries, he⟩ := h.arguments
      exact ⟨_, _, _, getAuditLog_eq_ok.mpr ⟨caller, hc, hauth, keys, hkeys, he⟩, rfl, rfl⟩
    case pruneNonces =>
      obtain ⟨consumed, hn⟩ := h.consumed rfl
      obtain ⟨keys, hkeys, split, hsplit⟩ := h.arguments
      obtain ⟨logged, hlog⟩ := h.logged (by simp) _
      exact ⟨_, _, _, pruneNonces_eq_ok.mpr ⟨caller, hc, consumed, hn, of_decide_eq_true hauth,
        keys, hkeys, split, hsplit, logged, hlog, rfl, rfl⟩, rfl, rfl⟩
    case writeSensorData =>
      obtain ⟨consumed, hn⟩ := h.consumed rfl
      obtain ⟨hgrant, hd, hj⟩ := h.arguments
      obtain ⟨logged, hlog⟩ := h.logged (by simp) _
      exact ⟨_, _, _, writeSensorData_eq_ok.mpr ⟨caller, hc, consumed, hn, (true, _),
        checkAccess_eq_ok.mpr ⟨caller, hc, .grant, hgrant, logged, hlog, rfl, rfl⟩, rfl, hd, hj,
        rfl⟩, rfl, rfl⟩

end FarmChain.Chaincode
