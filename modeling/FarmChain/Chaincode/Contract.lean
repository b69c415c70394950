import FarmChain.Lib.Run
import FarmChain.Chaincode.Zones
import FarmChain.Chaincode.Identity
import FarmChain.Chaincode.Temporal
import FarmChain.Chaincode.Nonces
import FarmChain.Chaincode.Audit

/-! The contract's nine operations (`contract.go`).

Each operation is a function of the committed ledger and its transaction: it fails
with the error the source returns, or succeeds with a result and the writes it
made. `invoke` dispatches a call, `commit` is what the network does with it: a
failed operation changes nothing. -/
namespace FarmChain.Chaincode

open Strings

section Operations
variable {B : Type} (R : Runtime B) (l : Ledger B) (ctx : Context)

def assignRole (subjectID roleName zonesCSV expiresAtISO nonce : String) :
    Except String (WriteSet B) := do
  let caller ← getCallerIdentity R ctx
  let consumed ← validateNonce R l ctx caller.id nonce
  require (caller.role = .admin) "unauthorized: admin role required to assign roles"
  let subjectID := trimSpace subjectID
  require (subjectID ≠ "") "subject id is required"
  let role : Role := ⟨trimSpace roleName⟩
  require (isRoleValid role = true) ("invalid role " ++ R.quote roleName)
  let zones ← normalizeZonesForRole R ctx.mapOrder role zonesCSV
  let expiresAt ← parseFutureExpiry R ctx expiresAtISO false
  let assignment : RoleAssignment := ⟨subjectID, role, zones, caller.id, ctx.now, expiresAt⟩
  let (_, logged) ← writeAuditEntry R l ctx
    (.of caller.id "AssignRole" subjectID "GRANT" ("assigned " ++ role.name))
  return consumed ++ (roleKey subjectID, some (R.role.marshal assignment)) :: logged

def revokeRole (subjectID nonce : String) : Except String (WriteSet B) := do
  let caller ← getCallerIdentity R ctx
  let consumed ← validateNonce R l ctx caller.id nonce
  require (caller.role = .admin) "unauthorized: admin role required to revoke roles"
  let subjectID := trimSpace subjectID
  require (subjectID ≠ "") "subject id is required"
  let (_, logged) ← writeAuditEntry R l ctx
    (.of caller.id "RevokeRole" subjectID "GRANT" "role revoked")
  return consumed ++ deleteState (roleKey subjectID) :: logged

/-- The assignment is read under the trimmed subject and written back under the
subject as given. -/
def renewRole (subjectID expiresAtISO nonce : String) : Except String (WriteSet B) := do
  let caller ← getCallerIdentity R ctx
  let consumed ← validateNonce R l ctx caller.id nonce
  require (caller.role = .admin) "unauthorized: admin role required to renew roles"
  let assignment ← getRoleAssignment R l subjectID
  let expiresAt ← parseFutureExpiry R ctx expiresAtISO true
  let renewed := { assignment with expiresAt }
  let (_, logged) ← writeAuditEntry R l ctx
    (.of caller.id "RenewRole" subjectID "GRANT" "role renewed")
  return consumed ++ (roleKey subjectID, some (R.role.marshal renewed)) :: logged

/-- Why a token does not let the user into the zone; `none` when it does. -/
def validCrossZoneToken (tokenID userID requestedZone : String) :
    Except String (Option String) :=
  match l.get (cztKey (trimSpace tokenID)) with
  | none => .ok (some "cross-zone token not found or revoked")
  | some payload => do
    let token ← wrapError ("failed to unmarshal cross-zone token: " ++ ·)
      (R.token.unmarshal payload)
    if token.subjectID ≠ userID then return some "cross-zone token subject mismatch"
    else if token.expiresAt ≤ ctx.now then return some "cross-zone token expired"
    else if requestedZone ∉ parseZones token.targetZones then
      return some "cross-zone token does not cover requested zone"
    else return none

/-- How `CheckAccess` ends when it does not fail. -/
inductive AccessDecision where
  | grant
  | deny (reason : String)
  | expire
  deriving DecidableEq, Repr

/-- The decision of `CheckAccess` for a known caller and a trimmed user. -/
def decideAccess (caller : CallerIdentity) (userID : String) (permission : Permission)
    (requestedZone tokenID : String) : Except String AccessDecision :=
  if caller.serialHex ≠ "" ∧ (l.get (crlKey caller.serialHex)).isSome then
    .ok (.deny "certificate revoked")
  else match getRoleAssignment R l userID with
    | .error reason => .ok (.deny reason)
    | .ok assignment =>
      match checkRoleExpiration ctx assignment with
      | .error _ => .ok .expire
      | .ok () =>
        if ¬hasPermission assignment.role permission then
          .ok (.deny ("permission " ++ permission.name ++ " denied"))
        else if ¬needsZoneCheck permission then .ok .grant
        else match validateZoneAccess R assignment requestedZone with
          | .ok () => .ok .grant
          | .error reason =>
            if tokenID = "" then .ok (.deny reason)
            else do
              match ← validCrossZoneToken R l ctx tokenID userID requestedZone with
              | none => return .grant
              | some reason => return .deny reason

/-- Whether access is granted; every decision is logged, and an expired assignment
is deleted with its denial. -/
def checkAccess (userID permissionName requestedZone tokenID : String) :
    Except String (Bool × WriteSet B) := do
  let caller ← getCallerIdentity R ctx
  let userID := trimSpace userID
  let permission : Permission := ⟨trimSpace permissionName⟩
  let resource := trimSpace requestedZone
  let log (decision reason : String) :=
    writeAuditEntry R l ctx (.of caller.id "CheckAccess" resource decision reason)
  match ← decideAccess R l ctx caller userID permission requestedZone tokenID with
  | .deny reason =>
    let (_, logged) ← log "DENY" reason
    return (false, logged)
  | .expire =>
    let (_, logged) ← log "DENY" "role expired and auto-revoked"
    return (false, deleteState (roleKey userID) :: logged)
  | .grant =>
    let (_, logged) ← log "GRANT" permission.name
    return (true, logged)

/-- The permission asked of those who issue and revoke tokens. -/
def mayIssue (role : Role) : Bool := role = .admin || hasPermission role .issueCrossZone

def issueCrossZoneToken (userID targetZonesCSV expiresAtISO nonce : String) :
    Except String (String × WriteSet B) := do
  let caller ← getCallerIdentity R ctx
  let consumed ← validateNonce R l ctx caller.id nonce
  require (mayIssue caller.role = true) "unauthorized: IssueCrossZone permission required"
  let assignment ← getRoleAssignment R l userID
  let targets ← normalizeZones R ctx.mapOrder targetZonesCSV true
  let expiresAt ← parseFutureExpiry R ctx expiresAtISO true
  let tokenID := R.sha256Hex (userID ++ R.timeString (txTime ctx) ++ nonce)
  let token : CrossZoneToken :=
    ⟨tokenID, userID, firstZone assignment.zones, targets, caller.id, ctx.now, expiresAt, nonce⟩
  let (_, logged) ← writeAuditEntry R l ctx
    (.of caller.id "IssueCrossZoneToken" userID "GRANT" tokenID)
  return (tokenID, consumed ++ (cztKey tokenID, some (R.token.marshal token)) :: logged)

def revokeCrossZoneToken (tokenID nonce : String) : Except String (WriteSet B) := do
  let caller ← getCallerIdentity R ctx
  let consumed ← validateNonce R l ctx caller.id nonce
  require (mayIssue caller.role = true) "unauthorized: IssueCrossZone permission required"
  let tokenID := trimSpace tokenID
  require (tokenID ≠ "") "token id is required"
  let (_, logged) ← writeAuditEntry R l ctx
    (.of caller.id "RevokeCrossZoneToken" tokenID "GRANT" "token revoked")
  return consumed ++ deleteState (cztKey tokenID) :: logged

/-- The permission asked of those who read the audit log. -/
def mayReadAudit (role : Role) : Bool := role = .admin || hasPermission role .readAudit

/-- The entries under the keys; keys without one are skipped. -/
def readAuditEntries : List String → Except String (List AuditEntry)
  | [] => .ok []
  | key :: rest =>
    match l.get key with
    | none => readAuditEntries rest
    | some payload => do
      let entry ← wrapError ("failed to unmarshal audit entry " ++ key ++ ": " ++ ·)
        (R.audit.unmarshal payload)
      let entries ← readAuditEntries rest
      return entry :: entries

def getAuditLog : Except String (List AuditEntry) := do
  let caller ← getCallerIdentity R ctx
  require (mayReadAudit caller.role = true) "unauthorized: ReadAudit permission required"
  let keys ← getStringIndex R l auditIndexKey
  let keys := if keys.length > 1000 then keys.drop (keys.length - 1000) else keys
  readAuditEntries R l keys

/-- The loop of `PruneNonces` over the index: the keys kept and the keys pruned. -/
def pruneLoop (beforeUnix : Int) (own : String) : List String →
    Except String (List String × List String)
  | [] => .ok ([], [])
  | key :: rest =>
    match l.get key with
    | none => pruneLoop beforeUnix own rest
    | some payload => do
      let record ← wrapError ("failed to unmarshal nonce " ++ key ++ ": " ++ ·)
        (R.nonce.unmarshal payload)
      let (kept, pruned) ← pruneLoop beforeUnix own rest
      if record.timestamp < beforeUnix ∧ key ≠ own then return (kept, key :: pruned)
      else return (key :: kept, pruned)

/-- The index is read as committed, without the nonce this call consumes, and the
kept keys overwrite the index that call has just extended. -/
def pruneNonces (beforeUnix : Int) (nonce : String) : Except String (Nat × WriteSet B) := do
  let caller ← getCallerIdentity R ctx
  let consumed ← validateNonce R l ctx caller.id nonce
  require (caller.role = .admin) "unauthorized: admin role required to prune nonces"
  let keys ← getStringIndex R l nonceIndexKey
  let (kept, pruned) ← pruneLoop R l beforeUnix (nonceKey caller.id nonce) keys
  let (_, logged) ← writeAuditEntry R l ctx
    (.of caller.id "PruneNonces" nonceIndexKey "GRANT" ("pruned " ++ toString pruned.length))
  return (pruned.length,
    consumed ++ pruned.map deleteState ++ putStringIndex R nonceIndexKey kept :: logged)

/-- A denial of `CheckAccess` becomes an error here. -/
def writeSensorData (deviceID readingJSON zone nonce : String) : Except String (WriteSet B) := do
  let caller ← getCallerIdentity R ctx
  let consumed ← validateNonce R l ctx caller.id nonce
  let (ok, checked) ← checkAccess R l ctx caller.id Permission.writeSensor.name zone ""
  require (ok = true) "access denied: WriteSensor permission required"
  let deviceID := trimSpace deviceID
  require (deviceID ≠ "") "device id is required"
  wrapError ("sensor reading must be valid JSON: " ++ ·) (R.rawMessage readingJSON)
  let key := sensorKey deviceID (txTime ctx).unixNano
  return consumed ++ checked ++ [(key, some (R.bytes readingJSON))]

end Operations

/-! ### Calls and transactions -/

/-- One call with its arguments. -/
inductive Call where
  | assignRole (subjectID roleName zonesCSV expiresAtISO nonce : String)
  | revokeRole (subjectID nonce : String)
  | renewRole (subjectID expiresAtISO nonce : String)
  | checkAccess (userID permissionName requestedZone tokenID : String)
  | issueCrossZoneToken (userID targetZonesCSV expiresAtISO nonce : String)
  | revokeCrossZoneToken (tokenID nonce : String)
  | getAuditLog
  | pruneNonces (beforeUnix : Int) (nonce : String)
  | writeSensorData (deviceID readingJSON zone nonce : String)
  deriving DecidableEq, Repr

/-- What a successful call returns. -/
inductive Response where
  | done
  | access (granted : Bool)
  | token (tokenID : String)
  | entries (log : List AuditEntry)
  | pruned (count : Nat)
  deriving DecidableEq, Repr

section
variable {B : Type} (R : Runtime B)

def invoke (l : Ledger B) (ctx : Context) : Call → Except String (Response × WriteSet B)
  | .assignRole subjectID roleName zonesCSV expiresAtISO nonce => do
    return (.done, ← assignRole R l ctx subjectID roleName zonesCSV expiresAtISO nonce)
  | .revokeRole subjectID nonce => do return (.done, ← revokeRole R l ctx subjectID nonce)
  | .renewRole subjectID expiresAtISO nonce => do
    return (.done, ← renewRole R l ctx subjectID expiresAtISO nonce)
  | .checkAccess userID permissionName requestedZone tokenID => do
    let (granted, ws) ← checkAccess R l ctx userID permissionName requestedZone tokenID
    return (.access granted, ws)
  | .issueCrossZoneToken userID targetZonesCSV expiresAtISO nonce => do
    let (tokenID, ws) ← issueCrossZoneToken R l ctx userID targetZonesCSV expiresAtISO nonce
    return (.token tokenID, ws)
  | .revokeCrossZoneToken tokenID nonce => do
    return (.done, ← revokeCrossZoneToken R l ctx tokenID nonce)
  | .getAuditLog => do return (.entries (← getAuditLog R l ctx), [])
  | .pruneNonces beforeUnix nonce => do
    let (count, ws) ← pruneNonces R l ctx beforeUnix nonce
    return (.pruned count, ws)
  | .writeSensorData deviceID readingJSON zone nonce => do
    return (.done, ← writeSensorData R l ctx deviceID readingJSON zone nonce)

/-- The call returns without error. -/
def succeeds (l : Ledger B) (ctx : Context) (call : Call) : Bool := (invoke R l ctx call).isOk

/-- `CheckAccess` answers that access is granted. -/
def grants (l : Ledger B) (ctx : Context) (userID permissionName requestedZone tokenID : String) :
    Bool :=
  match checkAccess R l ctx userID permissionName requestedZone tokenID with
  | .ok (granted, _) => granted
  | .error _ => false

/-- The committed ledger after a call: its writes if it succeeded. -/
def commit (l : Ledger B) (ctx : Context) (call : Call) : Ledger B :=
  match invoke R l ctx call with
  | .ok (_, ws) => l.apply ws
  | .error _ => l

/-- What can happen to the ledger: a transaction, or the operator publishing a
certificate revocation, which no operation of the contract does. -/
inductive Event (B : Type) where
  | invoke (ctx : Context) (call : Call)
  | publishCRL (serialHex : String) (entry : B)

def step (l : Ledger B) : Event B → Ledger B
  | .invoke ctx call => commit R l ctx call
  | .publishCRL serialHex entry => l.write (crlKey serialHex, some entry)

/-- The ledger after a run from the empty one. -/
def ledgerAfter (events : List (Event B)) : Ledger B := Run.run (step R) ∅ events

theorem ledgerAfter_snoc (events : List (Event B)) (e : Event B) :
    ledgerAfter R (events ++ [e]) = step R (ledgerAfter R events) e := Run.run_snoc ..

end

end FarmChain.Chaincode
