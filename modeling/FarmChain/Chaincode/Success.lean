import FarmChain.Chaincode.Contract

/-! When each operation succeeds, and what it then writes.

One equation for each operation: success is the list of what its lines returned,
guards included. The rest of the development cites these and never unfolds an
operation. -/
namespace FarmChain.Chaincode

open Strings

variable {B : Type} {R : Runtime B} {l : Ledger B} {ctx : Context}

/-! ### The shared parts -/

theorem validateNonce_eq_ok {subjectID nonce : String} {ws : WriteSet B} :
    validateNonce R l ctx subjectID nonce = .ok ws ↔
      subjectID ≠ "" ∧ nonce ≠ "" ∧ l.get (nonceKey subjectID nonce) = none ∧
      ∃ keys, getStringIndex R l nonceIndexKey = .ok keys ∧
        [(nonceKey subjectID nonce,
            some (R.nonce.marshal ⟨subjectID, nonce, ctx.txID, ctx.now⟩)),
          putStringIndex R nonceIndexKey (keys ++ [nonceKey subjectID nonce])] = ws := by
  simp only [validateNonce, Except.bind_eq_ok, Except.require_eq_ok, Except.pure_eq_ok, exists_const]

/-- The entry as it is stored. -/
def AuditEntry.stamped (entry : AuditEntry) (ctx : Context) : AuditEntry :=
  { entry with txID := ctx.txID, timestamp := ctx.now }

/-- The key the transaction's entry goes under. -/
def entryKey (l : Ledger B) (ctx : Context) : String :=
  auditKeyWithSequence ctx.txID (auditSequence l ctx.txID)

theorem writeAuditEntry_eq_ok {entry : AuditEntry} {logged : String × WriteSet B} :
    writeAuditEntry R l ctx entry = .ok logged ↔
      ∃ keys, getStringIndex R l auditIndexKey = .ok keys ∧
        (entryKey l ctx, [(entryKey l ctx, some (R.audit.marshal (entry.stamped ctx))),
          putStringIndex R auditIndexKey (keys ++ [entryKey l ctx])]) = logged := by
  simp only [writeAuditEntry, entryKey, AuditEntry.stamped, Except.bind_eq_ok, Except.pure_eq_ok]

/-! ### The operations -/

theorem assignRole_eq_ok {subjectID roleName zonesCSV expiresAtISO nonce : String}
    {ws : WriteSet B} :
    assignRole R l ctx subjectID roleName zonesCSV expiresAtISO nonce = .ok ws ↔
      ∃ caller, getCallerIdentity R ctx = .ok caller ∧
      ∃ consumed, validateNonce R l ctx caller.id nonce = .ok consumed ∧
      caller.role = .admin ∧ trimSpace subjectID ≠ "" ∧ isRoleValid ⟨trimSpace roleName⟩ = true ∧
      ∃ zones, normalizeZonesForRole R ctx.mapOrder ⟨trimSpace roleName⟩ zonesCSV = .ok zones ∧
      ∃ expiresAt, parseFutureExpiry R ctx expiresAtISO false = .ok expiresAt ∧
      ∃ logged, writeAuditEntry R l ctx (.of caller.id "AssignRole" (trimSpace subjectID) "GRANT"
          ("assigned " ++ trimSpace roleName)) = .ok logged ∧
        consumed ++ (roleKey (trimSpace subjectID), some (R.role.marshal
          ⟨trimSpace subjectID, ⟨trimSpace roleName⟩, zones, caller.id, ctx.now, expiresAt⟩)) ::
            logged.2 = ws := by
  simp only [assignRole, Except.bind_eq_ok, Except.require_eq_ok, Except.pure_eq_ok, exists_const]

theorem revokeRole_eq_ok {subjectID nonce : String} {ws : WriteSet B} :
    revokeRole R l ctx subjectID nonce = .ok ws ↔
      ∃ caller, getCallerIdentity R ctx = .ok caller ∧
      ∃ consumed, validateNonce R l ctx caller.id nonce = .ok consumed ∧
      caller.role = .admin ∧ trimSpace subjectID ≠ "" ∧
      ∃ logged, writeAuditEntry R l ctx (.of caller.id "RevokeRole" (trimSpace subjectID) "GRANT"
          "role revoked") = .ok logged ∧
        consumed ++ deleteState (roleKey (trimSpace subjectID)) :: logged.2 = ws := by
  simp only [revokeRole, Except.bind_eq_ok, Except.require_eq_ok, Except.pure_eq_ok, exists_const]

theorem renewRole_eq_ok {subjectID expiresAtISO nonce : String} {ws : WriteSet B} :
    renewRole R l ctx subjectID expiresAtISO nonce = .ok ws ↔
      ∃ caller, getCallerIdentity R ctx = .ok caller ∧
      ∃ consumed, validateNonce R l ctx caller.id nonce = .ok consumed ∧
      caller.role = .admin ∧
      ∃ assignment, getRoleAssignment R l subjectID = .ok assignment ∧
      ∃ expiresAt, parseFutureExpiry R ctx expiresAtISO true = .ok expiresAt ∧
      ∃ logged, writeAuditEntry R l ctx (.of caller.id "RenewRole" subjectID "GRANT"
          "role renewed") = .ok logged ∧
        consumed ++ (roleKey subjectID, some (R.role.marshal { assignment with expiresAt })) ::
          logged.2 = ws := by
  simp only [renewRole, Except.bind_eq_ok, Except.require_eq_ok, Except.pure_eq_ok, exists_const]

/-- A token that lets the user into the zone is stored, theirs, alive and lists it. -/
theorem validCrossZoneToken_eq_none {tokenID userID requestedZone : String} :
    validCrossZoneToken R l ctx tokenID userID requestedZone = .ok none ↔
      ∃ payload, l.get (cztKey (trimSpace tokenID)) = some payload ∧
      ∃ token, R.token.unmarshal payload = .ok token ∧ token.subjectID = userID ∧
        ctx.now < token.expiresAt ∧ requestedZone ∈ parseZones token.targetZones := by
  unfold validCrossZoneToken
  cases l.get (cztKey (trimSpace tokenID)) with
  | none => simp
  | some payload =>
    simp only [Except.bind_eq_ok, Except.wrapError_eq_ok, Option.some.injEq, exists_eq_left']
    refine exists_congr fun token => and_congr_right fun _ => ?_
    split
    · simp [*]
    · split
      · simp [*]
      · split <;> simp_all

theorem decideAccess_eq_grant {caller : CallerIdentity} {userID requestedZone tokenID : String}
    {permission : Permission} :
    decideAccess R l ctx caller userID permission requestedZone tokenID = .ok .grant ↔
      ¬(caller.serialHex ≠ "" ∧ (l.get (crlKey caller.serialHex)).isSome) ∧
      ∃ assignment, getRoleAssignment R l userID = .ok assignment ∧ assignment.activeAt ctx.now ∧
        hasPermission assignment.role permission = true ∧
        (needsZoneCheck permission = true →
          validateZoneAccess R assignment requestedZone = .ok () ∨
          tokenID ≠ "" ∧ validCrossZoneToken R l ctx tokenID userID requestedZone = .ok none) := by
  unfold decideAccess
  split
  · simp [*]
  · rename_i hcrl
    simp only [hcrl, not_false_eq_true, true_and]
    cases hrole : getRoleAssignment R l userID with
    | error reason => simp
    | ok assignment =>
      simp only [Except.ok.injEq, exists_eq_left']
      cases hexp : checkRoleExpiration ctx assignment with
      | error reason => simp [checkRoleExpiration_eq_error hexp]
      | ok =>
        simp only [checkRoleExpiration_eq_ok.mp hexp, true_and]
        by_cases hpermission : hasPermission assignment.role permission = true
        · by_cases hcheck : needsZoneCheck permission = true
          · cases hzone : validateZoneAccess R assignment requestedZone with
            | ok => simp [hpermission, hcheck]
            | error reason =>
              by_cases htoken : tokenID = ""
              · simp [hpermission, hcheck, htoken]
              · simp only [hpermission, hcheck, htoken, Except.bind_eq_ok, not_true_eq_false,
                  if_false, reduceCtorEq, false_or, true_and, ne_eq, not_false_eq_true,
                  forall_const]
                constructor
                · intro hcase
                  obtain ⟨reason, hreason, h⟩ := hcase
                  cases reason with
                  | none => exact hreason
                  | some reason => cases h
                · exact fun h => ⟨none, h, rfl⟩
          · simp [hpermission, hcheck]
        · simp [hpermission]

/-- Only an expired assignment is removed. -/
theorem decideAccess_eq_expire {caller : CallerIdentity} {userID requestedZone tokenID : String}
    {permission : Permission}
    (h : decideAccess R l ctx caller userID permission requestedZone tokenID = .ok .expire) :
    ∃ assignment, getRoleAssignment R l userID = .ok assignment ∧ ¬assignment.activeAt ctx.now := by
  unfold decideAccess at h
  split at h
  · cases h
  · split at h
    · cases h
    · rename_i assignment hrole
      split at h
      · rename_i hexp
        exact ⟨assignment, hrole, checkRoleExpiration_eq_error hexp⟩
      · split at h
        · cases h
        · split at h
          · cases h
          · split at h
            · cases h
            · split at h
              · cases h
              · simp only [Except.bind_eq_ok] at h
                obtain ⟨reason, _, h⟩ := h
                cases reason <;> cases h

/-- What `CheckAccess` returns, logs and deletes for each decision. -/
def AccessDecision.granted : AccessDecision → Bool
  | .grant => true
  | _ => false

def AccessDecision.entry (decision : AccessDecision) (caller : CallerIdentity)
    (permission : Permission) (resource : String) : AuditEntry :=
  match decision with
  | .grant => .of caller.id "CheckAccess" resource "GRANT" permission.name
  | .deny reason => .of caller.id "CheckAccess" resource "DENY" reason
  | .expire => .of caller.id "CheckAccess" resource "DENY" "role expired and auto-revoked"

def AccessDecision.deletes (decision : AccessDecision) (userID : String) : WriteSet B :=
  match decision with
  | .expire => [deleteState (roleKey userID)]
  | _ => []

theorem checkAccess_eq_ok {userID permissionName requestedZone tokenID : String} {granted : Bool}
    {ws : WriteSet B} :
    checkAccess R l ctx userID permissionName requestedZone tokenID = .ok (granted, ws) ↔
      ∃ caller, getCallerIdentity R ctx = .ok caller ∧
      ∃ decision, decideAccess R l ctx caller (trimSpace userID) ⟨trimSpace permissionName⟩
          requestedZone tokenID = .ok decision ∧
      ∃ logged, writeAuditEntry R l ctx (decision.entry caller ⟨trimSpace permissionName⟩
          (trimSpace requestedZone)) = .ok logged ∧
        decision.granted = granted ∧ decision.deletes (trimSpace userID) ++ logged.2 = ws := by
  simp only [checkAccess, Except.bind_eq_ok]
  refine exists_congr fun caller => and_congr_right fun _ => exists_congr fun decision =>
    and_congr_right fun _ => ?_
  cases decision <;> simp only [Except.bind_eq_ok, Except.pure_eq_ok, Prod.mk.injEq] <;> rfl

theorem issueCrossZoneToken_eq_ok {userID targetZonesCSV expiresAtISO nonce tokenID : String}
    {ws : WriteSet B} :
    issueCrossZoneToken R l ctx userID targetZonesCSV expiresAtISO nonce = .ok (tokenID, ws) ↔
      ∃ caller, getCallerIdentity R ctx = .ok caller ∧
      ∃ consumed, validateNonce R l ctx caller.id nonce = .ok consumed ∧
      mayIssue caller.role = true ∧
      ∃ assignment, getRoleAssignment R l userID = .ok assignment ∧
      ∃ targets, normalizeZones R ctx.mapOrder targetZonesCSV true = .ok targets ∧
      ∃ expiresAt, parseFutureExpiry R ctx expiresAtISO true = .ok expiresAt ∧
      ∃ logged, writeAuditEntry R l ctx (.of caller.id "IssueCrossZoneToken" userID "GRANT"
          (R.sha256Hex (userID ++ R.timeString (txTime ctx) ++ nonce))) = .ok logged ∧
        R.sha256Hex (userID ++ R.timeString (txTime ctx) ++ nonce) = tokenID ∧
        consumed ++ (cztKey (R.sha256Hex (userID ++ R.timeString (txTime ctx) ++ nonce)),
          some (R.token.marshal ⟨R.sha256Hex (userID ++ R.timeString (txTime ctx) ++ nonce), userID,
            firstZone assignment.zones, targets, caller.id, ctx.now, expiresAt, nonce⟩)) ::
              logged.2 = ws := by
  simp only [issueCrossZoneToken, Except.bind_eq_ok, Except.require_eq_ok, Except.pure_eq_ok,
    exists_const, Prod.mk.injEq]

theorem revokeCrossZoneToken_eq_ok {tokenID nonce : String} {ws : WriteSet B} :
    revokeCrossZoneToken R l ctx tokenID nonce = .ok ws ↔
      ∃ caller, getCallerIdentity R ctx = .ok caller ∧
      ∃ consumed, validateNonce R l ctx caller.id nonce = .ok consumed ∧
      mayIssue caller.role = true ∧ trimSpace tokenID ≠ "" ∧
      ∃ logged, writeAuditEntry R l ctx (.of caller.id "RevokeCrossZoneToken" (trimSpace tokenID)
          "GRANT" "token revoked") = .ok logged ∧
        consumed ++ deleteState (cztKey (trimSpace tokenID)) :: logged.2 = ws := by
  simp only [revokeCrossZoneToken, Except.bind_eq_ok, Except.require_eq_ok, Except.pure_eq_ok,
    exists_const]

/-- The last thousand keys of the index. -/
def lastThousand (keys : List String) : List String :=
  if keys.length > 1000 then keys.drop (keys.length - 1000) else keys

theorem getAuditLog_eq_ok {entries : List AuditEntry} :
    getAuditLog R l ctx = .ok entries ↔
      ∃ caller, getCallerIdentity R ctx = .ok caller ∧ mayReadAudit caller.role = true ∧
      ∃ keys, getStringIndex R l auditIndexKey = .ok keys ∧
        readAuditEntries R l (lastThousand keys) = .ok entries := by
  simp only [getAuditLog, lastThousand, Except.bind_eq_ok, Except.require_eq_ok, exists_const]

/-- Pruning splits the index: what it keeps and what it drops were listed. -/
theorem pruneLoop_mem {beforeUnix : Int} {own : String} {keys kept dropped : List String}
    (h : pruneLoop R l beforeUnix own keys = .ok (kept, dropped)) {key : String} :
    key ∈ kept ∨ key ∈ dropped → key ∈ keys := by
  induction keys generalizing kept dropped with
  | nil =>
    cases h
    simp
  | cons first rest ih =>
    unfold pruneLoop at h
    split at h
    · exact fun hkey => List.mem_cons_of_mem _ (ih h hkey)
    · simp only [Except.bind_eq_ok] at h
      obtain ⟨record, _, ⟨kept', dropped'⟩, hrest, hsplit⟩ := h
      have hcons (hkey : key ∈ kept' ∨ key ∈ dropped') : key ∈ first :: rest :=
        List.mem_cons_of_mem _ (ih hrest hkey)
      split at hsplit
      · cases hsplit
        intro hkey
        rcases hkey with hkept | hdropped
        · exact hcons (.inl hkept)
        · rcases List.mem_cons.mp hdropped with hfirst | hlater
          · rw [hfirst]
            exact List.mem_cons_self ..
          · exact hcons (.inr hlater)
      · cases hsplit
        intro hkey
        rcases hkey with hkept | hdropped
        · rcases List.mem_cons.mp hkept with hfirst | hlater
          · rw [hfirst]
            exact List.mem_cons_self ..
          · exact hcons (.inl hlater)
        · exact hcons (.inr hdropped)

theorem pruneNonces_eq_ok {beforeUnix : Int} {nonce : String} {count : Nat} {ws : WriteSet B} :
    pruneNonces R l ctx beforeUnix nonce = .ok (count, ws) ↔
      ∃ caller, getCallerIdentity R ctx = .ok caller ∧
      ∃ consumed, validateNonce R l ctx caller.id nonce = .ok consumed ∧
      caller.role = .admin ∧
      ∃ keys, getStringIndex R l nonceIndexKey = .ok keys ∧
      ∃ split, pruneLoop R l beforeUnix (nonceKey caller.id nonce) keys = .ok split ∧
      ∃ logged, writeAuditEntry R l ctx (.of caller.id "PruneNonces" nonceIndexKey "GRANT"
          ("pruned " ++ toString split.2.length)) = .ok logged ∧
        split.2.length = count ∧
        consumed ++ split.2.map deleteState ++ putStringIndex R nonceIndexKey split.1 :: logged.2 =
          ws := by
  simp only [pruneNonces, Except.bind_eq_ok, Except.require_eq_ok, Except.pure_eq_ok,
    exists_const, Prod.mk.injEq]

theorem writeSensorData_eq_ok {deviceID readingJSON zone nonce : String} {ws : WriteSet B} :
    writeSensorData R l ctx deviceID readingJSON zone nonce = .ok ws ↔
      ∃ caller, getCallerIdentity R ctx = .ok caller ∧
      ∃ consumed, validateNonce R l ctx caller.id nonce = .ok consumed ∧
      ∃ checked, checkAccess R l ctx caller.id Permission.writeSensor.name zone "" =
          .ok checked ∧ checked.1 = true ∧ trimSpace deviceID ≠ "" ∧
        R.rawMessage readingJSON = .ok () ∧
        consumed ++ checked.2 ++ [(sensorKey (trimSpace deviceID) (txTime ctx).unixNano,
          some (R.bytes readingJSON))] = ws := by
  simp only [writeSensorData, Except.bind_eq_ok, Except.require_eq_ok, Except.wrapError_eq_ok,
    Except.pure_eq_ok, Unique.exists_iff]

end FarmChain.Chaincode
