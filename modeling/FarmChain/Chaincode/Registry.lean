import FarmChain.Lib.Table
import FarmChain.Chaincode.Guards

/-! What the contract is for, without the ledger: a registry.

The registry keeps roles, tokens, nonces and readings as tables, the audit log as a list
and the revoked certificates as a predicate. It has no stored bytes, no prefixes and no
index texts. Every call is served the same way (`perform`): the caller is identified, the
nonce is consumed if the call carries one, the caller's role must allow the call, the
call acts, and its entry is logged. Nothing in here can fail to decode. -/
namespace FarmChain.Chaincode

open Strings

/-- The name a nonce is known by. -/
abbrev NonceKey := {key : String // kindOf key = .nonce}

def nonceName (subjectID nonce : String) : NonceKey :=
  ⟨nonceKey subjectID nonce, kindOf_nonceKey subjectID nonce⟩

/-- `listed` are the nonces a later pruning will look at, in the order they were spent. -/
structure Registry where
  roles : String → Option RoleAssignment
  tokens : String → Option CrossZoneToken
  nonces : NonceKey → Option Nonce
  listed : List NonceKey
  readings : String × Int → Option String
  log : List AuditEntry
  revoked : String → Bool

/-- The answer of a call, what it changes and what it logs. -/
structure Act where
  response : Response
  change : Registry → Registry
  entry : Option AuditEntry

/-- What the caller of a call is told whose role does not allow it. -/
def Call.refusal : Call → String
  | .assignRole .. => "unauthorized: admin role required to assign roles"
  | .revokeRole .. => "unauthorized: admin role required to revoke roles"
  | .renewRole .. => "unauthorized: admin role required to renew roles"
  | .issueCrossZoneToken .. => "unauthorized: IssueCrossZone permission required"
  | .revokeCrossZoneToken .. => "unauthorized: IssueCrossZone permission required"
  | .getAuditLog => "unauthorized: ReadAudit permission required"
  | .pruneNonces .. => "unauthorized: admin role required to prune nonces"
  | .checkAccess .. => ""
  | .writeSensorData .. => ""

namespace Registry

def empty : Registry where
  roles _ := none
  tokens _ := none
  nonces _ := none
  listed := []
  readings _ := none
  log := []
  revoked _ := false

/-! ### Changes -/

def setRole (subject : String) (row : Option RoleAssignment) (reg : Registry) : Registry :=
  { reg with roles := Function.update reg.roles subject row }

def setToken (tokenID : String) (row : Option CrossZoneToken) (reg : Registry) : Registry :=
  { reg with tokens := Function.update reg.tokens tokenID row }

def setReading (deviceID : String) (unixNano : Int) (readingJSON : String) (reg : Registry) :
    Registry :=
  { reg with readings := Function.update reg.readings (deviceID, unixNano) (some readingJSON) }

def spend (name : NonceKey) (nonce : Nonce) (reg : Registry) : Registry :=
  { reg with nonces := Function.update reg.nonces name (some nonce), listed := reg.listed ++ [name] }

/-- Forget the dropped nonces; a later pruning looks at the kept ones. -/
def sweep (kept dropped : List NonceKey) (reg : Registry) : Registry :=
  { reg with nonces := fun name => if name ∈ dropped then none else reg.nonces name, listed := kept }

def record (ctx : Context) (entry : Option AuditEntry) (reg : Registry) : Registry :=
  { reg with log := reg.log ++ (entry.map (·.stamped ctx)).toList }

/-- Publish the revocation of a certificate. -/
def revoke (serialHex : String) (reg : Registry) : Registry :=
  { reg with revoked := Function.update reg.revoked serialHex true }

/-! ### Calls -/

section
variable {B : Type} (R : Runtime B) (reg : Registry) (ctx : Context)

def consume (subjectID nonce : String) : Except String Registry := do
  require (subjectID ≠ "") "subject id is required"
  require (nonce ≠ "") "nonce is required"
  let name := nonceName subjectID nonce
  require (reg.nonces name = none) ("replay detected for nonce " ++ R.quote nonce)
  return reg.spend name ⟨subjectID, nonce, ctx.txID, ctx.now⟩

/-- The role of a subject. -/
def assignment (subjectID : String) : Except String RoleAssignment := do
  require (trimSpace subjectID ≠ "") "subject id is required"
  match reg.roles (trimSpace subjectID) with
  | none => throw ("role assignment not found for " ++ trimSpace subjectID)
  | some row => return row

/-- Why a token does not let the user into the zone. -/
def tokenDenial (tokenID userID requestedZone : String) : Option String :=
  match reg.tokens (trimSpace tokenID) with
  | none => some "cross-zone token not found or revoked"
  | some token =>
    if token.subjectID ≠ userID then some "cross-zone token subject mismatch"
    else if token.expiresAt ≤ ctx.now then some "cross-zone token expired"
    else if requestedZone ∉ parseZones token.targetZones then
      some "cross-zone token does not cover requested zone"
    else none

/-- The decision on an access; there always is one. -/
def decide (caller : CallerIdentity) (userID : String) (permission : Permission)
    (requestedZone tokenID : String) : AccessDecision :=
  if caller.serialHex ≠ "" ∧ reg.revoked caller.serialHex then .deny "certificate revoked"
  else match reg.assignment userID with
    | .error reason => .deny reason
    | .ok row =>
      if row.expiresAt ≠ 0 ∧ row.expiresAt < ctx.now then .expire
      else if ¬hasPermission row.role permission then
        .deny ("permission " ++ permission.name ++ " denied")
      else if ¬needsZoneCheck permission then .grant
      else match validateZoneAccess R row requestedZone with
        | .ok () => .grant
        | .error reason =>
          if tokenID = "" then .deny reason
          else match reg.tokenDenial ctx tokenID userID requestedZone with
            | none => .grant
            | some reason => .deny reason

/-- An assignment found expired goes with the decision. -/
def expireRole (decision : AccessDecision) (userID : String) (reg : Registry) : Registry :=
  if decision = .expire then reg.setRole userID none else reg

/-- A nonce a pruning forgets: older than asked for and not the pruning call's own. -/
def stale (beforeUnix : Int) (own name : NonceKey) : Bool :=
  (reg.nonces name).any fun nonce => nonce.timestamp < beforeUnix && name ≠ own

/-- What a call does once its caller may make it. -/
def act (caller : CallerIdentity) : Call → Except String Act
  | .assignRole subjectID roleName zonesCSV expiresAtISO _ => do
    require (trimSpace subjectID ≠ "") "subject id is required"
    require (isRoleValid ⟨trimSpace roleName⟩ = true)
      ("invalid role " ++ R.quote roleName)
    let zones ← normalizeZonesForRole R ctx.mapOrder ⟨trimSpace roleName⟩ zonesCSV
    let expiresAt ← parseFutureExpiry R ctx expiresAtISO false
    return ⟨.done, setRole (trimSpace subjectID)
        (some (newAssignment ctx caller subjectID roleName zones expiresAt)),
      some (.of caller.id "AssignRole" (trimSpace subjectID) "GRANT"
        ("assigned " ++ trimSpace roleName))⟩
  | .revokeRole subjectID _ => do
    require (trimSpace subjectID ≠ "") "subject id is required"
    return ⟨.done, setRole (trimSpace subjectID) none,
      some (.of caller.id "RevokeRole" (trimSpace subjectID) "GRANT" "role revoked")⟩
  | .renewRole subjectID expiresAtISO _ => do
    let row ← reg.assignment subjectID
    let expiresAt ← parseFutureExpiry R ctx expiresAtISO true
    return ⟨.done, setRole subjectID (some { row with expiresAt }),
      some (.of caller.id "RenewRole" subjectID "GRANT" "role renewed")⟩
  | .checkAccess userID permissionName requestedZone tokenID =>
    let decision := reg.decide R ctx caller (trimSpace userID) ⟨trimSpace permissionName⟩
      requestedZone tokenID
    return ⟨.access decision.granted, expireRole decision (trimSpace userID),
      some (decision.entry caller ⟨trimSpace permissionName⟩ (trimSpace requestedZone))⟩
  | .issueCrossZoneToken userID targetZonesCSV expiresAtISO nonce => do
    let row ← reg.assignment userID
    let targets ← normalizeZones R ctx.mapOrder targetZonesCSV true
    let expiresAt ← parseFutureExpiry R ctx expiresAtISO true
    let tokenID := newTokenID R ctx userID nonce
    return ⟨.token tokenID,
      setToken tokenID (some (newToken R ctx caller userID nonce row targets expiresAt)),
      some (.of caller.id "IssueCrossZoneToken" userID "GRANT" tokenID)⟩
  | .revokeCrossZoneToken tokenID _ => do
    require (trimSpace tokenID ≠ "") "token id is required"
    return ⟨.done, setToken (trimSpace tokenID) none,
      some (.of caller.id "RevokeCrossZoneToken" (trimSpace tokenID) "GRANT" "token revoked")⟩
  | .getAuditLog => return ⟨.entries (reg.log.drop (reg.log.length - 1000)), id, none⟩
  | .pruneNonces beforeUnix nonce =>
    let stale := reg.stale beforeUnix (nonceName caller.id nonce)
    let dropped := reg.listed.filter stale
    let kept := reg.listed.filter fun name => (reg.nonces name).isSome && !stale name
    return ⟨.pruned dropped.length, sweep kept dropped,
      some (.of caller.id "PruneNonces" nonceIndexKey "GRANT"
        ("pruned " ++ toString dropped.length))⟩
  | .writeSensorData deviceID readingJSON zone _ => do
    let decision := reg.decide R ctx caller (trimSpace caller.id) .writeSensor zone ""
    require (decision = .grant) "access denied: WriteSensor permission required"
    require (trimSpace deviceID ≠ "") "device id is required"
    wrapError ("sensor reading must be valid JSON: " ++ ·) (R.rawMessage readingJSON)
    return ⟨.done, setReading (trimSpace deviceID) (txTime ctx).unixNano readingJSON,
      some (.of caller.id "CheckAccess" (trimSpace zone) "GRANT" Permission.writeSensor.name)⟩

/-- Consume the nonce of a call that carries one. -/
def consumeOf (caller : CallerIdentity) : Option String → Except String Registry
  | some nonce => reg.consume R ctx caller.id nonce
  | none => return reg

/-- A call: identify, consume, allow, act, log. -/
def perform (call : Call) : Except String (Response × Registry) := do
  let caller ← getCallerIdentity R ctx
  let consumed ← reg.consumeOf R ctx caller call.nonce
  require (call.authorised caller.role = true) call.refusal
  let act ← reg.act R ctx caller call
  return (act.response, (act.change consumed).record ctx act.entry)

def step : Event B → Registry
  | .invoke ctx call => match reg.perform R ctx call with
    | .ok (_, reg') => reg'
    | .error _ => reg
  | .publishCRL serialHex _ => reg.revoke serialHex

end

/-- The registry after a run from the empty one. -/
def after {B : Type} (R : Runtime B) (events : List (Event B)) : Registry :=
  Run.run (step R) empty events

end Registry
end FarmChain.Chaincode
