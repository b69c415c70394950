import FarmChain.Chaincode.Influence
import FarmChain.Chaincode.Representation

/-! The contract over the ledger is the registry.

Call by call the contract answers what the registry answers and leaves the ledger storing
the registry that comes of it, errors included (`invoke_agrees`); so over any run the two
give the same answers (`contract_refines`). -/
namespace FarmChain.Chaincode

open Strings Run

variable {B : Type} {R : Runtime B} {reg reg' : Registry} {l : Ledger B} {ctx : Context}

/-- The network's transaction identifier, with no entry under it yet. -/
structure Fresh (l : Ledger B) (ctx : Context) : Prop where
  hex : IsHex ctx.txID
  free : l.get (auditKey ctx.txID) = none

/-- The writes made so far store the registry, and nothing is logged yet. -/
structure Pending (R : Runtime B) (l : Ledger B) (ws : WriteSet B) (reg : Registry) : Prop where
  stores : Represents R reg (l.apply ws)
  unlogged : ∀ key, kindOf key = .audit ∨ kindOf key = .auditIndex →
    (l.apply ws).get key = l.get key

/-- One answer, and the registry is what the ledger stores after the writes. -/
def Answered (R : Runtime B) (l : Ledger B) (p : Response × WriteSet B) (q : Response × Registry) :
    Prop :=
  p.1 = q.1 ∧ Represents R q.2 (l.apply p.2)

-- kept folded, or elaboration would run the operations to compare their results
attribute [local irreducible] Except.Agree

theorem require_congr {c c' : Prop} [Decidable c] [Decidable c'] (h : c ↔ c') (message : String) :
    require c' message = require c message := by
  simp only [require, h]

theorem require_true {c : Prop} [Decidable c] (h : c) (message : String) :
    require c message = .ok () := by
  rw [require, if_pos h]

theorem AccessDecision.granted_iff (decision : AccessDecision) :
    decision.granted = true ↔ decision = .grant := by
  cases decision <;> simp [AccessDecision.granted]

theorem Represents.pending (h : Represents R reg l) : Pending R l [] reg := ⟨h, fun _ _ => rfl⟩

/-- Own writes, of kinds other than the log's. -/
theorem Pending.own {ws own : WriteSet B} (h : Pending R l ws reg) (kinds : List Kind)
    (hown : OfKinds kinds own) (hk : .audit ∉ kinds ∧ .auditIndex ∉ kinds)
    (hs : Represents R reg' ((l.apply ws).apply own)) : Pending R l (ws ++ own) reg' := by
  refine ⟨by rwa [Store.apply_append], fun key hkey => ?_⟩
  rw [Store.apply_append, hown.get (hkey.elim (fun h => h ▸ hk.1) fun h => h ▸ hk.2),
    h.unlogged key hkey]

theorem Pending.setRole {ws : WriteSet B} (h : Pending R l ws reg) (subject : String)
    (row : Option RoleAssignment) :
    Pending R l (ws ++ [(roleKey subject, row.map R.role.marshal)]) (reg.setRole subject row) :=
  h.own [.role] (by simp [OfKinds]) (by decide) (h.stores.setRole subject row)

theorem Pending.setToken {ws : WriteSet B} (h : Pending R l ws reg) (tokenID : String)
    (row : Option CrossZoneToken) :
    Pending R l (ws ++ [(cztKey tokenID, row.map R.token.marshal)]) (reg.setToken tokenID row) :=
  h.own [.czt] (by simp [OfKinds]) (by decide) (h.stores.setToken tokenID row)

theorem Represents.consume (h : Represents R reg l) (subjectID nonce : String) :
    Except.Agree (Pending R l) (validateNonce R l ctx subjectID nonce)
      (reg.consume R ctx subjectID nonce) := by
  have hrow : l.get (nonceKey subjectID nonce) = _ := h.nonces (nonceName subjectID nonce)
  have hfree : l.get (nonceKey subjectID nonce) = none ↔
      reg.nonces (nonceName subjectID nonce) = none := by
    rw [hrow, Option.map_eq_none_iff]
  unfold validateNonce Registry.consume
  refine Except.Agree.bind_eq rfl fun _ _ => Except.Agree.bind_eq rfl fun _ _ => ?_
  refine Except.Agree.bind_eq (require_congr hfree _) fun _ _ => ?_
  rw [h.listed]
  have hspend := h.spend (nonceName subjectID nonce) ⟨subjectID, nonce, ctx.txID, ctx.now⟩
  have hkinds : OfKinds [.nonce, .nonceIndex] [(nonceKey subjectID nonce,
      some (R.nonce.marshal ⟨subjectID, nonce, ctx.txID, ctx.now⟩)), putStringIndex R nonceIndexKey
        (reg.listed.map Subtype.val ++ [nonceKey subjectID nonce])] := by
    simp [OfKinds, putStringIndex]
  exact Except.Agree.pure (h.pending.own _ hkinds (by decide) hspend)

/-- The entry is logged last. -/
theorem Pending.logged {ws : WriteSet B} (h : Pending R l ws reg) (hfresh : Fresh l ctx)
    {entry : AuditEntry} {logged : WriteSet B} (hlogs : Logs R l ctx (some entry) logged) :
    Represents R (reg.record ctx (some entry)) (l.apply (ws ++ logged)) := by
  have hkinds : OfKinds [.audit, .auditIndex] logged := fun w hw => by
    rcases hlogs.kinds w hw with hk | hk <;> simp [hk]
  have hs := h.stores
  rw [Store.apply_append]
  refine ⟨hs.roles_frame hkinds (by decide), hs.tokens_frame hkinds (by decide),
    hs.nonces_frame hkinds (by decide), hs.listed_frame hkinds (by decide),
    hs.readings_frame hkinds (by decide), ?_, hs.revoked_frame hkinds (by decide)⟩
  have hlog : AuditState R reg.log l := hs.log.of_eq fun key hkey => (h.unlogged key hkey).symm
  exact hlog.append hlogs hfresh.hex hfresh.free h.unlogged

/-- What ends a call: the entry is logged and the answer returned. -/
theorem Pending.finish {ws : WriteSet B} (h : Pending R l ws reg') (hs : Represents R reg l)
    (hfresh : Fresh l ctx) (entry : AuditEntry) (response : Response)
    {f : String × WriteSet B → WriteSet B}
    (hf : ∀ logged, Logs R l ctx (some entry) logged.2 →
      l.apply (f logged) = l.apply (ws ++ logged.2)) :
    Except.Agree (Answered R l)
      (writeAuditEntry R l ctx entry >>= fun p => pure (response, f p))
      (pure (response, reg'.record ctx (some entry))) := by
  obtain ⟨key, logged, hlog, hlogs⟩ := hs.writeAuditEntry ctx entry
  rw [hlog]
  refine Except.Agree.pure ⟨rfl, ?_⟩
  show Represents R _ (l.apply (f (key, logged)))
  rw [hf (key, logged) hlogs]
  exact h.logged hfresh hlogs

/-- How the calls with a nonce begin. -/
theorem Represents.begin (h : Represents R reg l) (call : Call) {nonce : String}
    (hnonce : call.nonce = some nonce) (allowed : CallerIdentity → Prop) [DecidablePred allowed]
    (hallowed : ∀ caller, allowed caller ↔ call.authorised caller.role = true)
    {message : String} (hmessage : call.refusal = message)
    {rest : CallerIdentity → WriteSet B → Except String (Response × WriteSet B)}
    (hrest : ∀ caller consumed reg', Pending R l consumed reg' →
      Except.Agree (Answered R l) (rest caller consumed)
        (reg.act R ctx caller call >>= fun act =>
          pure (act.response, (act.change reg').record ctx act.entry))) :
    Except.Agree (Answered R l)
      (getCallerIdentity R ctx >>= fun caller => validateNonce R l ctx caller.id nonce >>=
        fun consumed => require (allowed caller) message >>= fun _ => rest caller consumed)
      (reg.perform R ctx call) := by
  unfold Registry.perform
  rw [hnonce, hmessage]
  refine Except.Agree.bind_eq rfl fun caller _ => ?_
  refine (h.consume caller.id nonce).bind fun consumed reg' hpending => ?_
  refine Except.Agree.bind_eq (require_congr (hallowed caller) _) fun _ _ => ?_
  exact hrest caller consumed reg' hpending

/-! ### Call by call -/

theorem assignRole_agrees (h : Represents R reg l) (hfresh : Fresh l ctx)
    (subjectID roleName zonesCSV expiresAtISO nonce : String) :
    Except.Agree (Answered R l)
      (invoke R l ctx (.assignRole subjectID roleName zonesCSV expiresAtISO nonce))
      (reg.perform R ctx (.assignRole subjectID roleName zonesCSV expiresAtISO nonce)) := by
  simp only [invoke, assignRole, bind_assoc, pure_bind]
  refine h.begin (.assignRole subjectID roleName zonesCSV expiresAtISO nonce) rfl
    (fun caller => caller.role = .admin) (fun _ => by simp [Call.authorised]) rfl
    fun caller consumed reg' hp => ?_
  simp only [Registry.act, bind_assoc, pure_bind]
  refine Except.Agree.bind_eq rfl fun _ _ => Except.Agree.bind_eq rfl fun _ _ => ?_
  refine Except.Agree.bind_eq rfl fun zones _ => Except.Agree.bind_eq rfl fun expiresAt _ => ?_
  have hown := hp.setRole (trimSpace subjectID)
      (some (newAssignment ctx caller subjectID roleName zones expiresAt))
  refine hown.finish h hfresh _ _ fun logged _ => ?_
  rw [← List.append_cons]
  rfl

theorem revokeRole_agrees (h : Represents R reg l) (hfresh : Fresh l ctx) (subjectID nonce : String) :
    Except.Agree (Answered R l) (invoke R l ctx (.revokeRole subjectID nonce))
      (reg.perform R ctx (.revokeRole subjectID nonce)) := by
  simp only [invoke, revokeRole, bind_assoc, pure_bind]
  refine h.begin (.revokeRole subjectID nonce) rfl (fun caller => caller.role = .admin)
    (fun _ => by simp [Call.authorised]) rfl fun caller consumed reg' hp => ?_
  simp only [Registry.act, bind_assoc, pure_bind]
  refine Except.Agree.bind_eq rfl fun _ _ => ?_
  have hown := hp.setRole (trimSpace subjectID) none
  refine hown.finish h hfresh _ _ fun logged _ => ?_
  rw [← List.append_cons]
  rfl

theorem renewRole_agrees (h : Represents R reg l) (hfresh : Fresh l ctx)
    (subjectID expiresAtISO nonce : String) :
    Except.Agree (Answered R l) (invoke R l ctx (.renewRole subjectID expiresAtISO nonce))
      (reg.perform R ctx (.renewRole subjectID expiresAtISO nonce)) := by
  simp only [invoke, renewRole, bind_assoc, pure_bind]
  refine h.begin (.renewRole subjectID expiresAtISO nonce) rfl (fun caller => caller.role = .admin)
    (fun _ => by simp [Call.authorised]) rfl fun caller consumed reg' hp => ?_
  simp only [Registry.act, bind_assoc, pure_bind]
  refine Except.Agree.bind_eq (h.getRoleAssignment subjectID).symm fun row _ => ?_
  refine Except.Agree.bind_eq rfl fun expiresAt _ => ?_
  have hown := hp.setRole subjectID (some { row with expiresAt })
  refine hown.finish h hfresh _ _ fun logged _ => ?_
  rw [← List.append_cons]
  rfl

theorem issueCrossZoneToken_agrees (h : Represents R reg l) (hfresh : Fresh l ctx)
    (userID targetZonesCSV expiresAtISO nonce : String) :
    Except.Agree (Answered R l)
      (invoke R l ctx (.issueCrossZoneToken userID targetZonesCSV expiresAtISO nonce))
      (reg.perform R ctx (.issueCrossZoneToken userID targetZonesCSV expiresAtISO nonce)) := by
  simp only [invoke, issueCrossZoneToken, bind_assoc, pure_bind]
  refine h.begin (.issueCrossZoneToken userID targetZonesCSV expiresAtISO nonce) rfl
    (fun caller => mayIssue caller.role = true) (fun _ => Iff.rfl) rfl
    fun caller consumed reg' hp => ?_
  simp only [Registry.act, bind_assoc, pure_bind]
  refine Except.Agree.bind_eq (h.getRoleAssignment userID).symm fun row _ => ?_
  refine Except.Agree.bind_eq rfl fun targets _ => Except.Agree.bind_eq rfl fun expiresAt _ => ?_
  have hown := hp.setToken (newTokenID R ctx userID nonce)
      (some (newToken R ctx caller userID nonce row targets expiresAt))
  refine hown.finish h hfresh _ _ fun logged _ => ?_
  rw [← List.append_cons]
  rfl

theorem revokeCrossZoneToken_agrees (h : Represents R reg l) (hfresh : Fresh l ctx)
    (tokenID nonce : String) :
    Except.Agree (Answered R l) (invoke R l ctx (.revokeCrossZoneToken tokenID nonce))
      (reg.perform R ctx (.revokeCrossZoneToken tokenID nonce)) := by
  simp only [invoke, revokeCrossZoneToken, bind_assoc, pure_bind]
  refine h.begin (.revokeCrossZoneToken tokenID nonce) rfl
    (fun caller => mayIssue caller.role = true) (fun _ => Iff.rfl) rfl
    fun caller consumed reg' hp => ?_
  simp only [Registry.act, bind_assoc, pure_bind]
  refine Except.Agree.bind_eq rfl fun _ _ => ?_
  have hown := hp.setToken (trimSpace tokenID) none
  refine hown.finish h hfresh _ _ fun logged _ => ?_
  rw [← List.append_cons]
  rfl

theorem pruneNonces_agrees (h : Represents R reg l) (hfresh : Fresh l ctx) (beforeUnix : Int)
    (nonce : String) :
    Except.Agree (Answered R l) (invoke R l ctx (.pruneNonces beforeUnix nonce))
      (reg.perform R ctx (.pruneNonces beforeUnix nonce)) := by
  simp only [invoke, pruneNonces, bind_assoc, pure_bind]
  refine h.begin (.pruneNonces beforeUnix nonce) rfl (fun caller => caller.role = .admin)
    (fun _ => by simp [Call.authorised]) rfl fun caller consumed reg' hp => ?_
  simp only [Registry.act, pure_bind]
  have hloop := h.pruneLoop beforeUnix (nonceName caller.id nonce) reg.listed
  rw [nonceName] at hloop
  rw [h.listed, Except.ok_bind, hloop, Except.ok_bind]
  simp only [List.length_map]
  have hown := hp.own _ (sweep_kinds R _ _) (by decide) (hp.stores.sweep
    (reg.listed.filter fun name => (reg.nonces name).isSome &&
      !reg.stale beforeUnix (nonceName caller.id nonce) name)
    (reg.listed.filter (reg.stale beforeUnix (nonceName caller.id nonce))))
  refine hown.finish h hfresh _ _ fun logged _ => ?_
  rw [← List.append_assoc, List.append_assoc _ [_] logged.2]
  rfl

/-- The access check reads and deletes what the registry says. -/
theorem Represents.checkAccess (h : Represents R reg l) {caller : CallerIdentity}
    (hc : getCallerIdentity R ctx = .ok caller)
    (userID permissionName requestedZone tokenID : String) {decision : AccessDecision}
    (hdecision : reg.decide R ctx caller (trimSpace userID) ⟨trimSpace permissionName⟩ requestedZone
      tokenID = decision) :
    ∃ logged, Logs R l ctx (some (decision.entry caller ⟨trimSpace permissionName⟩
        (trimSpace requestedZone))) logged ∧
      checkAccess R l ctx userID permissionName requestedZone tokenID =
        .ok (decision.granted, decision.deletes (trimSpace userID) ++ logged) := by
  obtain ⟨key, logged, hlog, hlogs⟩ := h.writeAuditEntry ctx
    (decision.entry caller ⟨trimSpace permissionName⟩ (trimSpace requestedZone))
  have hdecide := h.decideAccess ctx caller (trimSpace userID) ⟨trimSpace permissionName⟩
    requestedZone tokenID
  rw [hdecision] at hdecide
  exact ⟨logged, hlogs, checkAccess_eq_ok.mpr ⟨caller, hc, decision, hdecide, _, hlog, rfl, rfl⟩⟩

/-- A decision deletes an assignment it finds expired. -/
theorem Pending.expireRole {ws : WriteSet B} (h : Pending R l ws reg) (decision : AccessDecision)
    (userID : String) :
    Pending R l (ws ++ decision.deletes userID) (Registry.expireRole decision userID reg) := by
  cases decision with
  | expire =>
    exact h.setRole userID none
  | grant =>
    show Pending R l (ws ++ []) reg
    rwa [List.append_nil]
  | deny reason =>
    show Pending R l (ws ++ []) reg
    rwa [List.append_nil]

theorem checkAccess_agrees (h : Represents R reg l) (hfresh : Fresh l ctx)
    (userID permissionName requestedZone tokenID : String) :
    Except.Agree (Answered R l)
      (invoke R l ctx (.checkAccess userID permissionName requestedZone tokenID))
      (reg.perform R ctx (.checkAccess userID permissionName requestedZone tokenID)) := by
  cases hc : getCallerIdentity R ctx with
  | error message =>
    simp only [invoke, Chaincode.checkAccess, Registry.perform, bind_assoc]
    exact .bind_eq rfl fun caller hc' => absurd (hc.symm.trans hc') (by simp)
  | ok caller =>
    obtain ⟨logged, hlogs, hcheck⟩ := h.checkAccess hc userID permissionName requestedZone tokenID rfl
    simp only [invoke, hcheck, Registry.perform, hc, Except.ok_bind]
    refine Except.Agree.pure ⟨rfl, ?_⟩
    exact (h.pending.expireRole _ (trimSpace userID)).logged hfresh hlogs

theorem getAuditLog_agrees (h : Represents R reg l) :
    Except.Agree (Answered R l) (invoke R l ctx .getAuditLog) (reg.perform R ctx .getAuditLog) := by
  simp only [invoke, getAuditLog, Registry.perform, Registry.act, bind_assoc, pure_bind]
  refine Except.Agree.bind_eq rfl fun caller _ => Except.Agree.bind_eq rfl fun _ _ => ?_
  have hread : readAuditEntries R l (lastThousand (reg.log.map fun entry => auditKey entry.txID)) =
      .ok (reg.log.drop (reg.log.length - 1000)) := by
    rw [lastThousand_eq_drop, List.length_map, ← List.map_drop]
    exact readAuditEntries_stored fun entry hentry => h.log.stored entry (List.mem_of_mem_drop hentry)
  rw [lastThousand] at hread
  rw [h.log.index, Except.ok_bind, hread, Except.ok_bind]
  have hunlogged : reg.record ctx none = reg := by simp [Registry.record]
  refine Except.Agree.pure ⟨rfl, ?_⟩
  show Represents R (reg.record ctx none) l
  rwa [hunlogged]

theorem record_setReading (deviceID : String) (unixNano : Int) (readingJSON : String)
    (entry : Option AuditEntry) (reg : Registry) :
    (reg.setReading deviceID unixNano readingJSON).record ctx entry =
      (reg.record ctx entry).setReading deviceID unixNano readingJSON := rfl

theorem writeSensorData_agrees (h : Represents R reg l) (hfresh : Fresh l ctx)
    (deviceID readingJSON zone nonce : String) :
    Except.Agree (Answered R l) (invoke R l ctx (.writeSensorData deviceID readingJSON zone nonce))
      (reg.perform R ctx (.writeSensorData deviceID readingJSON zone nonce)) := by
  simp only [invoke, writeSensorData, Registry.perform, bind_assoc, pure_bind]
  refine Except.Agree.bind_eq rfl fun caller hc => ?_
  refine (h.consume caller.id nonce).bind fun consumed reg' hp => ?_
  obtain ⟨logged, hlogs, hcheck⟩ := h.checkAccess hc caller.id Permission.writeSensor.name zone "" rfl
  have hname : Permission.mk (trimSpace Permission.writeSensor.name) = .writeSensor := by decide
  rw [hname] at hlogs hcheck
  rw [hcheck, Except.ok_bind]
  simp only [Call.authorised, require_true, Except.ok_bind, Registry.act, bind_assoc, pure_bind]
  generalize reg.decide R ctx caller (trimSpace caller.id) .writeSensor zone "" = decision at hlogs ⊢
  refine .bind_eq (require_congr decision.granted_iff _) fun _ hgrant => ?_
  cases decision.granted_iff.mp (Except.require_eq_ok.mp hgrant)
  refine .bind_eq rfl fun _ _ => .bind_eq rfl fun _ _ => .pure ⟨rfl, ?_⟩
  have hentry : Logs R l ctx (some (.of caller.id "CheckAccess" (trimSpace zone) "GRANT"
      Permission.writeSensor.name)) logged := hlogs
  -- the reading is written after the entry
  have hstored := (hp.logged hfresh hentry).setReading (trimSpace deviceID) (txTime ctx).unixNano
    readingJSON
  rw [← Store.apply_append] at hstored
  show Represents R (Registry.record ctx _ (reg'.setReading _ _ _))
    (l.apply (consumed ++ ([] ++ logged) ++ [_]))
  rw [List.nil_append, record_setReading]
  exact hstored

theorem invoke_agrees (h : Represents R reg l) (hfresh : Fresh l ctx) (call : Call) :
    Except.Agree (Answered R l) (invoke R l ctx call) (reg.perform R ctx call) := by
  cases call with
  | assignRole => exact assignRole_agrees h hfresh ..
  | revokeRole => exact revokeRole_agrees h hfresh ..
  | renewRole => exact renewRole_agrees h hfresh ..
  | checkAccess => exact checkAccess_agrees h hfresh ..
  | issueCrossZoneToken => exact issueCrossZoneToken_agrees h hfresh ..
  | revokeCrossZoneToken => exact revokeCrossZoneToken_agrees h hfresh ..
  | getAuditLog => exact getAuditLog_agrees h
  | pruneNonces => exact pruneNonces_agrees h hfresh ..
  | writeSensorData => exact writeSensorData_agrees h hfresh ..

/-! ### Runs -/

/-- What an event is answered: the result of its call, or the text of its error. -/
def answerTo (R : Runtime B) (l : Ledger B) : Event B → Option (Except String Response)
  | .invoke ctx call => some (answer R l ctx call)
  | .publishCRL .. => none

def Registry.answerTo (R : Runtime B) (reg : Registry) : Event B → Option (Except String Response)
  | .invoke ctx call => some ((reg.perform R ctx call).map Prod.fst)
  | .publishCRL .. => none

/-- A transaction finds no entry under its identifier. -/
def FreshTx (l : Ledger B) : Event B → Prop
  | .invoke ctx _ => Fresh l ctx
  | .publishCRL .. => True

theorem step_agrees (h : Represents R reg l) {e : Event B} (hfresh : FreshTx l e) :
    Represents R (reg.step R e) (step R l e) ∧ answerTo R l e = reg.answerTo R e := by
  cases e with
  | publishCRL serialHex entry => exact ⟨h.revoke serialHex entry, rfl⟩
  | invoke ctx call =>
    have hagree := invoke_agrees h hfresh call
    refine ⟨?_, congrArg some (hagree.map_eq fun _ _ hp => hp.1)⟩
    rcases hagree.results with ⟨message, hinvoke, hperform⟩ | ⟨p, q, hinvoke, hperform, hstored⟩
    · simp only [Registry.step, step, commit, hinvoke, hperform]
      exact h
    · simp only [Registry.step, step, commit, hinvoke, hperform]
      exact hstored.2

theorem freshTx_run (R : Runtime B) {events : List (Event B)} (h : DistinctTxs events) :
    Always (step R) FreshTx ∅ events := by
  refine always_of_split fun before e after hsplit => ?_
  cases e with
  | publishCRL => trivial
  | invoke ctx call =>
    have hlast : DistinctTxs (before ++ [.invoke ctx call]) := by
      rw [hsplit, List.append_cons] at h
      exact h.left
    obtain ⟨hhex, hnew⟩ := hlast.fresh rfl
    obtain ⟨entries, hids, hstate⟩ := auditState R before hlast.left
    refine ⟨hhex, hstate.free hhex fun hmem => hnew ?_⟩
    exact (loggedTxs_sublist R before).subset (hids ▸ hmem)

end FarmChain.Chaincode
