import FarmChain.Chaincode.AuditLog
import FarmChain.Chaincode.Registry

/-! How the ledger stores a registry.

`Represents` relates the two: each table under its own kind of key, each index the keys it
lists, the log as the audit log's entries, a certificate revoked when the list has an
entry for it. Every change of the registry is the write of one kind of key, so the other
parts stay by their kinds; what the contract reads is then what the registry has. -/
namespace FarmChain.Chaincode

open Strings

variable {B : Type}

section
variable (R : Runtime B)

def roleTable : Table String RoleAssignment String B :=
  ⟨roleKey, R.role.marshal, fun _ _ => roleKey_inj.mp⟩

def tokenTable : Table String CrossZoneToken String B :=
  ⟨cztKey, R.token.marshal, fun _ _ => cztKey_inj.mp⟩

def nonceTable : Table NonceKey Nonce String B :=
  ⟨Subtype.val, R.nonce.marshal, Subtype.val_injective⟩

def sensorTable : Table (String × Int) String String B :=
  ⟨fun place => sensorKey place.1 place.2, R.bytes, fun _ _ h =>
    Prod.ext (sensorKey_inj.mp h).1 (sensorKey_inj.mp h).2⟩

/-- The ledger is what the contract makes of the registry. -/
structure Represents (reg : Registry) (l : Ledger B) : Prop where
  roles : (roleTable R).Holds l reg.roles
  tokens : (tokenTable R).Holds l reg.tokens
  nonces : (nonceTable R).Holds l reg.nonces
  listed : getStringIndex R l nonceIndexKey = .ok (reg.listed.map Subtype.val)
  readings : (sensorTable R).Holds l reg.readings
  log : AuditState R reg.log l
  revoked : ∀ serialHex, (l.get (crlKey serialHex)).isSome = reg.revoked serialHex

end

variable {R : Runtime B} {reg : Registry} {l : Ledger B} {ctx : Context}

theorem crlKey_inj {a b : String} : crlKey a = crlKey b ↔ a = b :=
  ⟨append_inj_left, congrArg crlKey⟩

theorem represents_empty (R : Runtime B) : Represents R .empty ∅ where
  roles := Table.holds_empty _
  tokens := Table.holds_empty _
  nonces := Table.holds_empty _
  listed := rfl
  readings := Table.holds_empty _
  log := by
    refine ⟨rfl, fun entry hentry => ?_, fun key _ hkey => absurd rfl hkey, fun entry hentry => ?_⟩
    · cases hentry
    · cases hentry
  revoked _ := rfl

/-! ### Frames -/

/-- The writes are of these kinds. -/
def OfKinds (kinds : List Kind) (ws : WriteSet B) : Prop := ∀ w ∈ ws, kindOf w.1 ∈ kinds

theorem OfKinds.ne {kinds : List Kind} {ws : WriteSet B} (h : OfKinds kinds ws) {key : String}
    (hkey : kindOf key ∉ kinds) : ∀ w ∈ ws, w.1 ≠ key :=
  fun w hw heq => hkey (heq ▸ h w hw)

section
variable {kinds : List Kind} {ws : WriteSet B}

theorem OfKinds.get (h : OfKinds kinds ws) {key : String} (hkey : kindOf key ∉ kinds) :
    (l.apply ws).get key = l.get key :=
  Store.get_apply_of_forall_ne l ws key (h.ne hkey)

theorem Represents.roles_frame (h : Represents R reg l) (hws : OfKinds kinds ws)
    (hk : .role ∉ kinds) :
    (roleTable R).Holds (l.apply ws) reg.roles :=
  h.roles.apply_other fun w hw k => hws.ne (by simpa [roleTable] using hk) w hw

theorem Represents.tokens_frame (h : Represents R reg l) (hws : OfKinds kinds ws)
    (hk : .czt ∉ kinds) :
    (tokenTable R).Holds (l.apply ws) reg.tokens :=
  h.tokens.apply_other fun w hw k => hws.ne (by simpa [tokenTable] using hk) w hw

theorem Represents.nonces_frame (h : Represents R reg l) (hws : OfKinds kinds ws)
    (hk : .nonce ∉ kinds) :
    (nonceTable R).Holds (l.apply ws) reg.nonces :=
  h.nonces.apply_other fun w hw k => hws.ne (k.property ▸ hk) w hw

theorem Represents.readings_frame (h : Represents R reg l) (hws : OfKinds kinds ws)
    (hk : .sensor ∉ kinds) :
    (sensorTable R).Holds (l.apply ws) reg.readings :=
  h.readings.apply_other fun w hw k => hws.ne (by simpa [sensorTable] using hk) w hw

theorem Represents.listed_frame (h : Represents R reg l) (hws : OfKinds kinds ws)
    (hk : .nonceIndex ∉ kinds) :
    getStringIndex R (l.apply ws) nonceIndexKey = .ok (reg.listed.map Subtype.val) := by
  rw [getStringIndex_congr (hws.get (by simpa using hk)), h.listed]

theorem Represents.log_frame (h : Represents R reg l) (hws : OfKinds kinds ws)
    (hk : .audit ∉ kinds) (hi : .auditIndex ∉ kinds) : AuditState R reg.log (l.apply ws) :=
  h.log.of_eq fun _ hkey => hws.get (hkey.elim (fun h => h ▸ hk) fun h => h ▸ hi)

theorem Represents.revoked_frame (h : Represents R reg l) (hws : OfKinds kinds ws)
    (hk : .crl ∉ kinds) (serialHex : String) :
    ((l.apply ws).get (crlKey serialHex)).isSome = reg.revoked serialHex := by
  rw [hws.get (by simpa using hk), h.revoked]

end

/-! ### Changes -/

theorem ofKinds_singleton {w : Write String B} {kind : Kind} (h : kindOf w.1 = kind) :
    OfKinds [kind] [w] := by
  intro w' hw'
  rw [List.mem_singleton.mp hw', h]
  exact List.mem_singleton_self kind

theorem Represents.setRole (h : Represents R reg l) (subject : String)
    (row : Option RoleAssignment) :
    Represents R (reg.setRole subject row)
      (l.apply [(roleKey subject, row.map R.role.marshal)]) := by
  have hws : OfKinds [.role] [(roleKey subject, row.map R.role.marshal)] :=
    ofKinds_singleton (kindOf_roleKey subject)
  exact ⟨h.roles.write subject row, h.tokens_frame hws (by decide), h.nonces_frame hws (by decide),
    h.listed_frame hws (by decide), h.readings_frame hws (by decide),
    h.log_frame hws (by decide) (by decide), h.revoked_frame hws (by decide)⟩

theorem Represents.setToken (h : Represents R reg l) (tokenID : String)
    (row : Option CrossZoneToken) :
    Represents R (reg.setToken tokenID row)
      (l.apply [(cztKey tokenID, row.map R.token.marshal)]) := by
  have hws : OfKinds [.czt] [(cztKey tokenID, row.map R.token.marshal)] :=
    ofKinds_singleton (kindOf_cztKey tokenID)
  exact ⟨h.roles_frame hws (by decide), h.tokens.write tokenID row, h.nonces_frame hws (by decide),
    h.listed_frame hws (by decide), h.readings_frame hws (by decide),
    h.log_frame hws (by decide) (by decide), h.revoked_frame hws (by decide)⟩

theorem Represents.setReading (h : Represents R reg l) (deviceID : String) (unixNano : Int)
    (readingJSON : String) :
    Represents R (reg.setReading deviceID unixNano readingJSON)
      (l.apply [(sensorKey deviceID unixNano, some (R.bytes readingJSON))]) := by
  have hws : OfKinds [.sensor] [(sensorKey deviceID unixNano, some (R.bytes readingJSON))] :=
    ofKinds_singleton (kindOf_sensorKey deviceID unixNano)
  exact ⟨h.roles_frame hws (by decide), h.tokens_frame hws (by decide),
    h.nonces_frame hws (by decide), h.listed_frame hws (by decide),
    h.readings.write (deviceID, unixNano) (some readingJSON),
    h.log_frame hws (by decide) (by decide), h.revoked_frame hws (by decide)⟩

theorem Represents.revoke (h : Represents R reg l) (serialHex : String) (entry : B) :
    Represents R (reg.revoke serialHex) (l.write (crlKey serialHex, some entry)) := by
  have hws : OfKinds [.crl] [(crlKey serialHex, some entry)] :=
    ofKinds_singleton (kindOf_crlKey serialHex)
  refine ⟨h.roles_frame hws (by decide), h.tokens_frame hws (by decide),
    h.nonces_frame hws (by decide), h.listed_frame hws (by decide),
    h.readings_frame hws (by decide), h.log_frame hws (by decide) (by decide), fun other => ?_⟩
  show _ = Function.update reg.revoked serialHex true other
  rw [Store.get_write, Function.update_apply]
  by_cases hother : other = serialHex
  · rw [if_pos (congrArg crlKey hother), if_pos hother]
    rfl
  · rw [if_neg fun hkey => hother (crlKey_inj.mp hkey), if_neg hother]
    exact h.revoked other

/-- A write of an index leaves every nonce record. -/
theorem nonces_index {rows : NonceKey → Option Nonce} (h : (nonceTable R).Holds l rows)
    (keys : List String) :
    (nonceTable R).Holds (l.apply [putStringIndex R nonceIndexKey keys]) rows := by
  refine h.apply_other fun w hw k => ?_
  rw [List.mem_singleton.mp hw]
  exact ne_of_kind (by rw [putStringIndex, kindOf_nonceIndexKey]; exact k.property ▸ by decide)

theorem listed_index (R : Runtime B) (l : Ledger B) (keys : List String) :
    getStringIndex R (l.apply [putStringIndex R nonceIndexKey keys]) nonceIndexKey = .ok keys :=
  getStringIndex_put (by rw [putStringIndex, Store.get_apply_singleton, if_pos rfl])

/-- Spending a nonce: its record, and the index with its key. -/
theorem Represents.spend (h : Represents R reg l) (name : NonceKey) (nonce : Nonce) :
    Represents R (reg.spend name nonce)
      (l.apply [(name.val, some (R.nonce.marshal nonce)),
        putStringIndex R nonceIndexKey (reg.listed.map Subtype.val ++ [name.val])]) := by
  have hws : OfKinds [.nonce, .nonceIndex] [(name.val, some (R.nonce.marshal nonce)),
      putStringIndex R nonceIndexKey (reg.listed.map Subtype.val ++ [name.val])] := by
    simp [OfKinds, name.property, putStringIndex]
  refine ⟨h.roles_frame hws (by decide), h.tokens_frame hws (by decide), ?_, ?_,
    h.readings_frame hws (by decide), h.log_frame hws (by decide) (by decide),
    h.revoked_frame hws (by decide)⟩
  · exact nonces_index (h.nonces.write name (some nonce)) _
  · have hput := listed_index R (l.apply [(name.val, some (R.nonce.marshal nonce))])
      (reg.listed.map Subtype.val ++ [name.val])
    refine hput.trans ?_
    show _ = Except.ok ((reg.listed ++ [name]).map Subtype.val)
    rw [List.map_append, List.map_singleton]

theorem sweep_kinds (R : Runtime B) (kept dropped : List NonceKey) :
    OfKinds [.nonce, .nonceIndex] ((dropped.map Subtype.val).map deleteState ++
      [putStringIndex R nonceIndexKey (kept.map Subtype.val)]) := by
  intro w hw
  simp only [List.mem_append, List.mem_map, List.mem_singleton] at hw
  rcases hw with ⟨_, ⟨name, _, rfl⟩, rfl⟩ | rfl
  · simp [deleteState, name.property]
  · simp [putStringIndex]

/-- Pruning: the dropped records go, and the index is written anew. -/
theorem Represents.sweep (h : Represents R reg l) (kept dropped : List NonceKey) :
    Represents R (reg.sweep kept dropped)
      (l.apply ((dropped.map Subtype.val).map deleteState ++
        [putStringIndex R nonceIndexKey (kept.map Subtype.val)])) := by
  have hws := sweep_kinds R kept dropped
  refine ⟨h.roles_frame hws (by decide), h.tokens_frame hws (by decide), ?_, ?_,
    h.readings_frame hws (by decide), h.log_frame hws (by decide) (by decide),
    h.revoked_frame hws (by decide)⟩
  · have herase : (nonceTable R).Holds (l.apply (dropped.map fun name => (name.val, none)))
        (reg.sweep kept dropped).nonces :=
      h.nonces.erase (fun name hname => if_pos hname) fun name hname => if_neg hname
    rw [Store.apply_append, List.map_map]
    exact nonces_index herase _
  · rw [Store.apply_append, listed_index]
    rfl

/-! ### Reads -/

theorem Represents.getRoleAssignment (h : Represents R reg l) (subjectID : String) :
    getRoleAssignment R l subjectID = reg.assignment subjectID := by
  have hrow : l.get (roleKey (trimSpace subjectID)) = _ := h.roles (trimSpace subjectID)
  simp only [Chaincode.getRoleAssignment, Registry.assignment, hrow]
  cases reg.roles (trimSpace subjectID) with
  | none => rfl
  | some row => simp [roleTable, wrapError, pure, Except.pure]

theorem Represents.validCrossZoneToken (h : Represents R reg l)
    (tokenID userID requestedZone : String) :
    validCrossZoneToken R l ctx tokenID userID requestedZone =
      .ok (reg.tokenDenial ctx tokenID userID requestedZone) := by
  have hrow : l.get (cztKey (trimSpace tokenID)) = _ := h.tokens (trimSpace tokenID)
  simp only [Chaincode.validCrossZoneToken, Registry.tokenDenial, hrow]
  cases reg.tokens (trimSpace tokenID) with
  | none => rfl
  | some token =>
    simp only [tokenTable, Option.map_some, Codec.unmarshal_marshal, wrapError, Except.ok_bind]
    split
    · rfl
    · split
      · rfl
      · split <;> rfl

theorem checkRoleExpiration_eq (ctx : Context) (a : RoleAssignment) :
    checkRoleExpiration ctx a = if a.expiresAt ≠ 0 ∧ a.expiresAt < ctx.now then
      .error ("role assignment expired at " ++ toString a.expiresAt) else .ok () := by
  unfold checkRoleExpiration require
  by_cases hnever : a.expiresAt = 0
  · simp [hnever]
  · by_cases hpast : a.expiresAt < ctx.now <;> simp [hnever, hpast]

theorem Represents.decideAccess (h : Represents R reg l) (ctx : Context) (caller : CallerIdentity)
    (userID : String) (permission : Permission) (requestedZone tokenID : String) :
    decideAccess R l ctx caller userID permission requestedZone tokenID =
      .ok (reg.decide R ctx caller userID permission requestedZone tokenID) := by
  unfold Chaincode.decideAccess Registry.decide
  rw [h.revoked, h.getRoleAssignment]
  split
  · rfl
  · cases reg.assignment userID with
    | error reason => rfl
    | ok row =>
      simp only [checkRoleExpiration_eq]
      by_cases hexpired : row.expiresAt ≠ 0 ∧ row.expiresAt < ctx.now
      · simp only [if_pos hexpired]
      · simp only [if_neg hexpired]
        split
        · rfl
        · split
          · rfl
          · cases validateZoneAccess R row requestedZone with
            | ok _ => rfl
            | error reason =>
              simp only [h.validCrossZoneToken, Except.ok_bind]
              split
              · rfl
              · cases reg.tokenDenial ctx tokenID userID requestedZone <;> rfl

/-- The sweep of a pruning reads what the registry has. -/
theorem Represents.pruneLoop (h : Represents R reg l) (beforeUnix : Int) (own : NonceKey)
    (names : List NonceKey) :
    pruneLoop R l beforeUnix own.val (names.map Subtype.val) =
      .ok ((names.filter fun name => (reg.nonces name).isSome && !reg.stale beforeUnix own name).map
          Subtype.val,
        (names.filter (reg.stale beforeUnix own)).map Subtype.val) := by
  induction names with
  | nil => rfl
  | cons name rest ih =>
    have hrow : l.get name.val = _ := h.nonces name
    rw [List.map_cons, Chaincode.pruneLoop, hrow]
    cases hnonce : reg.nonces name with
    | none =>
      have hkeep : reg.stale beforeUnix own name = false := by
        rw [Registry.stale, hnonce]
        rfl
      rw [List.filter_cons_of_neg (by simp [hnonce]), List.filter_cons_of_neg (by simp [hkeep])]
      exact ih
    | some nonce =>
      have hstale : reg.stale beforeUnix own name = true ↔
          nonce.timestamp < beforeUnix ∧ name.val ≠ own.val := by
        rw [Registry.stale, hnonce, Subtype.val_injective.ne_iff]
        simp
      simp only [nonceTable, Option.map_some, Codec.unmarshal_marshal, wrapError, Except.ok_bind, ih]
      by_cases hdrop : nonce.timestamp < beforeUnix ∧ name.val ≠ own.val
      · rw [if_pos hdrop, List.filter_cons_of_pos (hstale.mpr hdrop),
          List.filter_cons_of_neg (by simp [hstale.mpr hdrop])]
        rfl
      · have hkeep := Bool.eq_false_iff.mpr fun h => hdrop (hstale.mp h)
        rw [if_neg hdrop, List.filter_cons_of_pos (by simp [hnonce, hkeep]),
          List.filter_cons_of_neg (by simp [hkeep])]
        rfl

/-- An entry can be logged. -/
theorem Represents.writeAuditEntry (h : Represents R reg l) (ctx : Context) (entry : AuditEntry) :
    ∃ key logged, writeAuditEntry R l ctx entry = .ok (key, logged) ∧
      Logs R l ctx (some entry) logged := by
  have hlog : Chaincode.writeAuditEntry R l ctx entry = .ok _ :=
    writeAuditEntry_eq_ok.mpr ⟨_, h.log.index, rfl⟩
  exact ⟨_, _, hlog, _, hlog⟩

end FarmChain.Chaincode
