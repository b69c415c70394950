import FarmChain.Chaincode.Success

/-! What a transaction does to the ledger, said once.

Every operation consumes a nonce or not, writes records of its own or not, and
logs an entry or not. `Effect` lists the own writes of the nine operations with
the guards under which they are made; `stepCase` says that a transaction either
fails and changes nothing or does exactly those three things. Consuming touches
the nonce keys only and logging touches the audit keys only, so a record changes
only where an own write names it. -/
namespace FarmChain.Chaincode

open Strings

variable {B : Type} {R : Runtime B} {l : Ledger B} {ctx : Context}

/-- The nonce a call consumes. -/
def Call.nonce : Call → Option String
  | .assignRole _ _ _ _ nonce => some nonce
  | .revokeRole _ nonce => some nonce
  | .renewRole _ _ nonce => some nonce
  | .checkAccess .. => none
  | .issueCrossZoneToken _ _ _ nonce => some nonce
  | .revokeCrossZoneToken _ nonce => some nonce
  | .getAuditLog => none
  | .pruneNonces _ nonce => some nonce
  | .writeSensorData _ _ _ nonce => some nonce

section
variable (R l ctx)

/-- The writes that consume a nonce, if there is one to consume. -/
def Consumes (caller : CallerIdentity) (nonce : Option String) (ws : WriteSet B) : Prop :=
  match nonce with
  | some nonce => validateNonce R l ctx caller.id nonce = .ok ws
  | none => ws = []

/-- The writes that log an entry, if there is one to log. -/
def Logs (entry : Option AuditEntry) (ws : WriteSet B) : Prop :=
  match entry with
  | some entry => ∃ key, writeAuditEntry R l ctx entry = .ok (key, ws)
  | none => ws = []

/-- The assignment a successful `AssignRole` stores. -/
def newAssignment (caller : CallerIdentity) (subjectID roleName : String) (zones : List String)
    (expiresAt : Int) : RoleAssignment :=
  ⟨trimSpace subjectID, ⟨trimSpace roleName⟩, zones, caller.id, ctx.now, expiresAt⟩

/-- The identifier of the token a call issues. -/
def newTokenID (userID nonce : String) : String :=
  R.sha256Hex (userID ++ R.timeString (txTime ctx) ++ nonce)

/-- The token a successful `IssueCrossZoneToken` stores. -/
def newToken (caller : CallerIdentity) (userID nonce : String) (assignment : RoleAssignment)
    (targets : List String) (expiresAt : Int) : CrossZoneToken :=
  ⟨newTokenID R ctx userID nonce, userID, firstZone assignment.zones, targets, caller.id, ctx.now,
    expiresAt, nonce⟩

/-- What a successful call by `caller` answers, writes of its own and logs. -/
inductive Effect (caller : CallerIdentity) :
    Call → Response → WriteSet B → Option AuditEntry → Prop
  | assigned {subjectID roleName zonesCSV expiresAtISO nonce : String} {zones : List String}
      {expiresAt : Int} (admin : caller.role = .admin) (subject : trimSpace subjectID ≠ "")
      (valid : isRoleValid ⟨trimSpace roleName⟩ = true)
      (zoned : normalizeZonesForRole R ctx.mapOrder ⟨trimSpace roleName⟩ zonesCSV = .ok zones)
      (expiry : parseFutureExpiry R ctx expiresAtISO false = .ok expiresAt) :
      Effect caller (.assignRole subjectID roleName zonesCSV expiresAtISO nonce) .done
        [(roleKey (trimSpace subjectID),
          some (R.role.marshal (newAssignment ctx caller subjectID roleName zones expiresAt)))]
        (some (.of caller.id "AssignRole" (trimSpace subjectID) "GRANT"
          ("assigned " ++ trimSpace roleName)))
  | revoked {subjectID nonce : String} (admin : caller.role = .admin)
      (subject : trimSpace subjectID ≠ "") :
      Effect caller (.revokeRole subjectID nonce) .done [deleteState (roleKey (trimSpace subjectID))]
        (some (.of caller.id "RevokeRole" (trimSpace subjectID) "GRANT" "role revoked"))
  | renewed {subjectID expiresAtISO nonce : String} {assignment : RoleAssignment} {expiresAt : Int}
      (admin : caller.role = .admin) (found : getRoleAssignment R l subjectID = .ok assignment)
      (expiry : parseFutureExpiry R ctx expiresAtISO true = .ok expiresAt) :
      Effect caller (.renewRole subjectID expiresAtISO nonce) .done
        [(roleKey subjectID, some (R.role.marshal { assignment with expiresAt }))]
        (some (.of caller.id "RenewRole" subjectID "GRANT" "role renewed"))
  | checked {userID permissionName requestedZone tokenID : String} {decision : AccessDecision}
      (decided : decideAccess R l ctx caller (trimSpace userID) ⟨trimSpace permissionName⟩
        requestedZone tokenID = .ok decision) :
      Effect caller (.checkAccess userID permissionName requestedZone tokenID)
        (.access decision.granted) (decision.deletes (trimSpace userID))
        (some (decision.entry caller ⟨trimSpace permissionName⟩ (trimSpace requestedZone)))
  | issued {userID targetZonesCSV expiresAtISO nonce : String} {assignment : RoleAssignment}
      {targets : List String} {expiresAt : Int} (issuer : mayIssue caller.role = true)
      (found : getRoleAssignment R l userID = .ok assignment)
      (zoned : normalizeZones R ctx.mapOrder targetZonesCSV true = .ok targets)
      (expiry : parseFutureExpiry R ctx expiresAtISO true = .ok expiresAt) :
      Effect caller (.issueCrossZoneToken userID targetZonesCSV expiresAtISO nonce)
        (.token (newTokenID R ctx userID nonce))
        [(cztKey (newTokenID R ctx userID nonce),
          some (R.token.marshal (newToken R ctx caller userID nonce assignment targets expiresAt)))]
        (some (.of caller.id "IssueCrossZoneToken" userID "GRANT" (newTokenID R ctx userID nonce)))
  | tokenRevoked {tokenID nonce : String} (issuer : mayIssue caller.role = true)
      (token : trimSpace tokenID ≠ "") :
      Effect caller (.revokeCrossZoneToken tokenID nonce) .done
        [deleteState (cztKey (trimSpace tokenID))]
        (some (.of caller.id "RevokeCrossZoneToken" (trimSpace tokenID) "GRANT" "token revoked"))
  | read {keys : List String} {entries : List AuditEntry} (reader : mayReadAudit caller.role = true)
      (index : getStringIndex R l auditIndexKey = .ok keys)
      (found : readAuditEntries R l (lastThousand keys) = .ok entries) :
      Effect caller .getAuditLog (.entries entries) [] none
  | pruned {beforeUnix : Int} {nonce : String} {keys kept dropped : List String}
      (admin : caller.role = .admin) (index : getStringIndex R l nonceIndexKey = .ok keys)
      (swept : pruneLoop R l beforeUnix (nonceKey caller.id nonce) keys = .ok (kept, dropped)) :
      Effect caller (.pruneNonces beforeUnix nonce) (.pruned dropped.length)
        (dropped.map deleteState ++ [putStringIndex R nonceIndexKey kept])
        (some (.of caller.id "PruneNonces" nonceIndexKey "GRANT"
          ("pruned " ++ toString dropped.length)))
  | sensed {deviceID readingJSON zone nonce : String}
      (granted : decideAccess R l ctx caller (trimSpace caller.id) .writeSensor zone "" = .ok .grant)
      (device : trimSpace deviceID ≠ "") (json : R.rawMessage readingJSON = .ok ()) :
      Effect caller (.writeSensorData deviceID readingJSON zone nonce) .done
        [(sensorKey (trimSpace deviceID) (txTime ctx).unixNano, some (R.bytes readingJSON))]
        (some (.of caller.id "CheckAccess" (trimSpace zone) "GRANT" Permission.writeSensor.name))

end

/-! ### Frames -/

/-- Keys other than those of nonces. -/
theorem Consumes.get {caller : CallerIdentity} {nonce : Option String} {ws : WriteSet B}
    (h : Consumes R l ctx caller nonce ws) (l' : Ledger B) {key : String}
    (hn : kindOf key ≠ .nonce) (hi : kindOf key ≠ .nonceIndex) :
    (l'.apply ws).get key = l'.get key := by
  cases nonce with
  | none =>
    cases h
    rfl
  | some nonce =>
    obtain ⟨_, _, _, keys, _, rfl⟩ := validateNonce_eq_ok.mp h
    apply get_apply_of_kinds
    simp only [putStringIndex, List.mem_cons, List.not_mem_nil, or_false, forall_eq_or_imp,
      forall_eq, kindOf_nonceKey, kindOf_nonceIndexKey]
    exact ⟨hn.symm, hi.symm⟩

/-- Every key logging writes is one of the audit log's. -/
theorem Logs.kinds {entry : Option AuditEntry} {ws : WriteSet B} (h : Logs R l ctx entry ws) :
    ∀ w ∈ ws, kindOf w.1 = .audit ∨ kindOf w.1 = .auditIndex := by
  cases entry with
  | none =>
    cases h
    intro w hw
    cases hw
  | some entry =>
    obtain ⟨key, h⟩ := h
    obtain ⟨keys, _, hlogged⟩ := writeAuditEntry_eq_ok.mp h
    cases hlogged
    simp only [putStringIndex, List.mem_cons, List.not_mem_nil, or_false, forall_eq_or_imp,
      forall_eq]
    exact ⟨kindOf_auditKeyWithSequence_or _ _, .inr kindOf_auditIndexKey⟩

/-- Keys other than those of the audit log. -/
theorem Logs.get {entry : Option AuditEntry} {ws : WriteSet B} (h : Logs R l ctx entry ws)
    (l' : Ledger B) {key : String} (ha : kindOf key ≠ .audit) (hi : kindOf key ≠ .auditIndex) :
    (l'.apply ws).get key = l'.get key := by
  apply get_apply_of_kinds
  intro w hw heq
  rw [← heq] at ha hi
  exact (h.kinds w hw).elim ha hi

/-- The nonce index after consuming: one key more. -/
theorem Consumes.index {caller : CallerIdentity} {nonce : String} {ws : WriteSet B}
    (h : Consumes R l ctx caller (some nonce) ws) :
    ∃ keys, getStringIndex R l nonceIndexKey = .ok keys ∧ ∀ l' : Ledger B,
      (l'.apply ws).get nonceIndexKey =
        some (R.index.marshal (keys ++ [nonceKey caller.id nonce])) := by
  obtain ⟨_, _, _, keys, hkeys, rfl⟩ := validateNonce_eq_ok.mp h
  refine ⟨keys, hkeys, fun l' => ?_⟩
  simp [putStringIndex, Store.get_write]

/-- The audit index after logging: one key more. -/
theorem Logs.index {entry : AuditEntry} {ws : WriteSet B} (h : Logs R l ctx (some entry) ws) :
    ∃ keys, getStringIndex R l auditIndexKey = .ok keys ∧ ∀ l' : Ledger B,
      (l'.apply ws).get auditIndexKey = some (R.index.marshal (keys ++ [entryKey l ctx])) := by
  obtain ⟨key, h⟩ := h
  obtain ⟨keys, hkeys, hlogged⟩ := writeAuditEntry_eq_ok.mp h
  cases hlogged
  refine ⟨keys, hkeys, fun l' => ?_⟩
  simp [putStringIndex, Store.get_write]

/-- A key of an audit entry after logging: the entry itself, or what was there. -/
theorem Logs.get_entry {entry : AuditEntry} {ws : WriteSet B} (h : Logs R l ctx (some entry) ws)
    (l' : Ledger B) {key : String} (hkey : kindOf key = .audit) :
    (l'.apply ws).get key =
      if key = entryKey l ctx then some (R.audit.marshal (entry.stamped ctx)) else l'.get key := by
  obtain ⟨_, h⟩ := h
  obtain ⟨keys, _, hlogged⟩ := writeAuditEntry_eq_ok.mp h
  cases hlogged
  have hindex : key ≠ auditIndexKey := ne_of_kind (by rw [hkey, kindOf_auditIndexKey]; decide)
  rw [Store.apply_cons, Store.apply_cons, Store.apply_nil, putStringIndex, Store.get_write,
    if_neg hindex, Store.get_write]

/-! ### Every successful call -/

theorem Logs.of_entry {entry : AuditEntry} {logged : String × WriteSet B}
    (h : writeAuditEntry R l ctx entry = .ok logged) : Logs R l ctx (some entry) logged.2 :=
  ⟨logged.1, h⟩

/-- A successful call does its effect, between consuming its nonce and logging. -/
theorem invoke_effect {call : Call} {response : Response} {ws : WriteSet B}
    (h : invoke R l ctx call = .ok (response, ws)) :
    ∃ caller consumed own entry logged, getCallerIdentity R ctx = .ok caller ∧
      Consumes R l ctx caller call.nonce consumed ∧
      Effect R l ctx caller call response own entry ∧ Logs R l ctx entry logged ∧
      l.apply ws = l.apply (consumed ++ own ++ logged) := by
  cases call <;> simp only [invoke, Except.bind_eq_ok, Except.pure_eq_ok, Prod.mk.injEq] at h
  case assignRole =>
    obtain ⟨ws, h, rfl, rfl⟩ := h
    obtain ⟨caller, hc, consumed, hn, hadmin, hs, hv, zones, hz, expiresAt, he, logged, hlog, rfl⟩ :=
      assignRole_eq_ok.mp h
    exact ⟨caller, consumed, _, _, logged.2, hc, hn, .assigned hadmin hs hv hz he, .of_entry hlog,
      by simp [newAssignment]⟩
  case revokeRole =>
    obtain ⟨ws, h, rfl, rfl⟩ := h
    obtain ⟨caller, hc, consumed, hn, hadmin, hs, logged, hlog, rfl⟩ := revokeRole_eq_ok.mp h
    exact ⟨caller, consumed, _, _, logged.2, hc, hn, .revoked hadmin hs, .of_entry hlog, by simp⟩
  case renewRole =>
    obtain ⟨ws, h, rfl, rfl⟩ := h
    obtain ⟨caller, hc, consumed, hn, hadmin, a, ha, expiresAt, he, logged, hlog, rfl⟩ :=
      renewRole_eq_ok.mp h
    exact ⟨caller, consumed, _, _, logged.2, hc, hn, .renewed hadmin ha he, .of_entry hlog, by simp⟩
  case checkAccess =>
    obtain ⟨⟨granted, ws⟩, h, rfl, rfl⟩ := h
    obtain ⟨caller, hc, decision, hd, logged, hlog, rfl, rfl⟩ := checkAccess_eq_ok.mp h
    exact ⟨caller, [], _, _, logged.2, hc, rfl, .checked hd, .of_entry hlog, by simp⟩
  case issueCrossZoneToken =>
    obtain ⟨⟨tokenID, ws⟩, h, rfl, rfl⟩ := h
    obtain ⟨caller, hc, consumed, hn, hissue, a, ha, targets, hz, expiresAt, he, logged, hlog, rfl,
      rfl⟩ := issueCrossZoneToken_eq_ok.mp h
    exact ⟨caller, consumed, _, _, logged.2, hc, hn, .issued hissue ha hz he, .of_entry hlog,
      by simp [newToken, newTokenID]⟩
  case revokeCrossZoneToken =>
    obtain ⟨ws, h, rfl, rfl⟩ := h
    obtain ⟨caller, hc, consumed, hn, hissue, ht, logged, hlog, rfl⟩ :=
      revokeCrossZoneToken_eq_ok.mp h
    exact ⟨caller, consumed, _, _, logged.2, hc, hn, .tokenRevoked hissue ht, .of_entry hlog,
      by simp⟩
  case getAuditLog =>
    obtain ⟨entries, h, rfl, rfl⟩ := h
    obtain ⟨caller, hc, hread, keys, hk, he⟩ := getAuditLog_eq_ok.mp h
    exact ⟨caller, [], [], none, [], hc, rfl, .read hread hk he, rfl, rfl⟩
  case pruneNonces =>
    obtain ⟨⟨count, ws⟩, h, rfl, rfl⟩ := h
    obtain ⟨caller, hc, consumed, hn, hadmin, keys, hk, ⟨kept, dropped⟩, hloop, logged, hlog, rfl,
      rfl⟩ := pruneNonces_eq_ok.mp h
    exact ⟨caller, consumed, _, _, logged.2, hc, hn, .pruned hadmin hk hloop, .of_entry hlog,
      by simp⟩
  case writeSensorData =>
    obtain ⟨ws, h, rfl, rfl⟩ := h
    obtain ⟨caller, hc, consumed, hn, ⟨granted, checked⟩, hcheck, rfl, hd, hj, rfl⟩ :=
      writeSensorData_eq_ok.mp h
    obtain ⟨caller', hc', decision, hdec, logged, hlog, hgrant, rfl⟩ := checkAccess_eq_ok.mp hcheck
    cases hc.symm.trans hc'
    cases decision with
    | grant =>
      refine ⟨caller, consumed, _, _, logged.2, hc, hn, .sensed hdec hd hj, .of_entry hlog, ?_⟩
      -- the reading is written after the entry, under a key logging does not touch
      simp only [AccessDecision.deletes, List.nil_append, List.append_assoc]
      rw [Store.apply_append, Store.apply_snoc_comm, ← Store.apply_append]
      · rfl
      · intro w hw
        apply ne_of_kind
        rw [kindOf_sensorKey]
        rcases (Logs.of_entry hlog).kinds w hw with hk | hk <;> simp [hk]
    | deny reason => cases hgrant
    | expire => cases hgrant

end FarmChain.Chaincode
