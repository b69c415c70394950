import FarmChain.Lib.Footprint
import FarmChain.Chaincode.RegistryRefinement

/-! Which rows of the registry a transaction touches.

A call spends its caller's nonce, and apart from that reads and writes the rows its
arguments name; only a pruning touches more, every nonce. Logging is no such touch: entries
are only ever added. Steps keep to these footprints (`registry_local`), so transactions
that touch different rows can be ordered either way (`order_unobservable`). -/
namespace FarmChain.Chaincode

open Strings Run Footprint

variable {B : Type}

/-- A row of the registry. -/
inductive Row where
  | role (subjectID : String)
  | token (tokenID : String)
  | nonce (name : NonceKey)
  | reading (place : String × Int)
  | certificate (serialHex : String)

/-- What a row holds; for a nonce also how often it is listed. -/
inductive Cell where
  | role (row : Option RoleAssignment)
  | token (row : Option CrossZoneToken)
  | nonce (row : Option Nonce) (listed : Nat)
  | reading (row : Option String)
  | certificate (revoked : Bool)

def Registry.look (reg : Registry) : Row → Cell
  | .role subjectID => .role (reg.roles subjectID)
  | .token tokenID => .token (reg.tokens tokenID)
  | .nonce name => .nonce (reg.nonces name) (reg.listed.count name)
  | .reading place => .reading (reg.readings place)
  | .certificate serialHex => .certificate (reg.revoked serialHex)

section
variable (R : Runtime B) (ctx : Context) (caller : CallerIdentity)

/-- The rows a call consults. -/
def Call.reads : Call → Row → Prop
  | .renewRole subjectID _ _, r => r = .role (trimSpace subjectID)
  | .issueCrossZoneToken userID _ _ _, r => r = .role (trimSpace userID)
  | .checkAccess userID _ _ tokenID, r =>
    r = .certificate caller.serialHex ∨ r = .role (trimSpace (trimSpace userID)) ∨
      r = .token (trimSpace tokenID)
  | .writeSensorData .., r =>
    r = .certificate caller.serialHex ∨ r = .role (trimSpace (trimSpace caller.id))
  | _, _ => False

/-- The rows a call may change, its nonce apart. -/
def Call.changes : Call → Row → Prop
  | .assignRole subjectID _ _ _ _, r => r = .role (trimSpace subjectID)
  | .revokeRole subjectID _, r => r = .role (trimSpace subjectID)
  | .renewRole subjectID _ _, r => r = .role subjectID
  | .checkAccess userID _ _ _, r => r = .role (trimSpace userID)
  | .issueCrossZoneToken userID _ _ nonce, r => r = .token (newTokenID R ctx userID nonce)
  | .revokeCrossZoneToken tokenID _, r => r = .token (trimSpace tokenID)
  | .getAuditLog, _ => False
  | .pruneNonces _ _, r => ∃ name, r = .nonce name
  | .writeSensorData deviceID _ _ _, r =>
    r = .reading (trimSpace deviceID, (txTime ctx).unixNano)

/-- The row of the nonce a call spends. -/
def Call.spends (call : Call) (r : Row) : Prop :=
  ∃ nonce, call.nonce = some nonce ∧ r = .nonce (nonceName caller.id nonce)

end

/-- The footprints of events; a call whose caller is not identified touches nothing. -/
def footprint (R : Runtime B) : Footprint (Event B) Row where
  reads
    | .publishCRL .., _ => False
    | .invoke ctx call, r => ∃ caller, getCallerIdentity R ctx = .ok caller ∧ call.reads caller r
  writes
    | .publishCRL serialHex _, r => r = .certificate serialHex
    | .invoke ctx call, r => ∃ caller, getCallerIdentity R ctx = .ok caller ∧
        (call.spends caller r ∨ call.changes R ctx r)

/-! ### Changes -/

/-- A change that stays within some rows, row by row, and leaves the log. -/
structure Within (rows : Row → Prop) (change : Registry → Registry) : Prop where
  rowwise : ∀ x y r, x.look r = y.look r → (change x).look r = (change y).look r
  frame : ∀ x r, ¬rows r → (change x).look r = x.look r
  log : ∀ x, (change x).log = x.log

theorem Within.mono {rows rows' : Row → Prop} {change : Registry → Registry}
    (h : Within rows change) (hle : ∀ r, rows r → rows' r) : Within rows' change :=
  ⟨h.rowwise, fun x r hr => h.frame x r fun hin => hr (hle r hin), h.log⟩

theorem within_id (rows : Row → Prop) : Within rows id :=
  ⟨fun _ _ _ h => h, fun _ _ _ => rfl, fun _ => rfl⟩

theorem within_setRole (subject : String) (row : Option RoleAssignment) :
    Within (· = .role subject) (Registry.setRole subject row) := by
  refine ⟨fun x y r h => ?_, fun x r hr => ?_, fun _ => rfl⟩
  · cases r with
    | role s =>
      simp only [Registry.look, Registry.setRole, Cell.role.injEq, Function.update_apply] at h ⊢
      rw [h]
    | _ => exact h
  · cases r with
    | role s =>
      have hne : s ≠ subject := fun hs => hr (by rw [hs])
      simp only [Registry.look, Registry.setRole, Function.update_of_ne hne]
    | _ => rfl

theorem within_setToken (tokenID : String) (row : Option CrossZoneToken) :
    Within (· = .token tokenID) (Registry.setToken tokenID row) := by
  refine ⟨fun x y r h => ?_, fun x r hr => ?_, fun _ => rfl⟩
  · cases r with
    | token t =>
      simp only [Registry.look, Registry.setToken, Cell.token.injEq, Function.update_apply] at h ⊢
      rw [h]
    | _ => exact h
  · cases r with
    | token t =>
      have hne : t ≠ tokenID := fun ht => hr (by rw [ht])
      simp only [Registry.look, Registry.setToken, Function.update_of_ne hne]
    | _ => rfl

theorem within_setReading (deviceID : String) (unixNano : Int) (readingJSON : String) :
    Within (· = .reading (deviceID, unixNano))
      (Registry.setReading deviceID unixNano readingJSON) := by
  refine ⟨fun x y r h => ?_, fun x r hr => ?_, fun _ => rfl⟩
  · cases r with
    | reading place =>
      simp only [Registry.look, Registry.setReading, Cell.reading.injEq, Function.update_apply]
        at h ⊢
      rw [h]
    | _ => exact h
  · cases r with
    | reading place =>
      have hne : place ≠ (deviceID, unixNano) := fun hp => hr (by rw [hp])
      simp only [Registry.look, Registry.setReading, Function.update_of_ne hne]
    | _ => rfl

theorem within_spend (name : NonceKey) (nonce : Nonce) :
    Within (· = .nonce name) (Registry.spend name nonce) := by
  refine ⟨fun x y r h => ?_, fun x r hr => ?_, fun _ => rfl⟩
  · cases r with
    | nonce n =>
      simp only [Registry.look, Registry.spend, Cell.nonce.injEq, Function.update_apply,
        List.count_append] at h ⊢
      rw [h.1, h.2]
      exact ⟨rfl, rfl⟩
    | _ => exact h
  · cases r with
    | nonce n =>
      have hne : n ≠ name := fun hn => hr (by rw [hn])
      simp only [Registry.look, Registry.spend, Function.update_of_ne hne, List.count_append,
        List.count_singleton, beq_iff_eq, if_neg hne.symm, Nat.add_zero]
    | _ => rfl

theorem within_sweep (kept dropped : List NonceKey) :
    Within (fun r => ∃ name, r = .nonce name) (Registry.sweep kept dropped) := by
  refine ⟨fun x y r h => ?_, fun x r hr => ?_, fun _ => rfl⟩
  · cases r with
    | nonce n =>
      simp only [Registry.look, Registry.sweep, Cell.nonce.injEq] at h ⊢
      rw [h.1]
      exact ⟨rfl, trivial⟩
    | _ => exact h
  · cases r with
    | nonce n => exact absurd ⟨n, rfl⟩ hr
    | _ => rfl

theorem within_expireRole (decision : AccessDecision) (userID : String) :
    Within (· = .role userID) (Registry.expireRole decision userID) := by
  by_cases hexpire : decision = .expire
  · have hset : Registry.expireRole decision userID = Registry.setRole userID none := by
      funext reg
      exact if_pos hexpire
    rw [hset]
    exact within_setRole userID none
  · have hid : Registry.expireRole decision userID = id := by
      funext reg
      exact if_neg hexpire
    rw [hid]
    exact within_id _

/-! ### What calls do -/

section
variable {R : Runtime B} {reg reg' : Registry} {ctx : Context} {caller : CallerIdentity}

/-- A call changes the rows it says. -/
theorem act_within {call : Call} {act : Act} (h : reg.act R ctx caller call = .ok act) :
    Within (call.changes R ctx) act.change := by
  cases call with
  | assignRole subjectID roleName zonesCSV expiresAtISO nonce =>
    simp only [Registry.act, Except.bind_eq_ok] at h
    obtain ⟨_, _, _, _, zones, _, expiresAt, _, h⟩ := h
    cases h
    exact within_setRole _ _
  | revokeRole subjectID nonce =>
    simp only [Registry.act, Except.bind_eq_ok] at h
    obtain ⟨_, _, h⟩ := h
    cases h
    exact within_setRole _ _
  | renewRole subjectID expiresAtISO nonce =>
    simp only [Registry.act, Except.bind_eq_ok] at h
    obtain ⟨row, _, expiresAt, _, h⟩ := h
    cases h
    exact within_setRole _ _
  | checkAccess userID permissionName requestedZone tokenID =>
    cases h
    exact within_expireRole _ _
  | issueCrossZoneToken userID targetZonesCSV expiresAtISO nonce =>
    simp only [Registry.act, Except.bind_eq_ok] at h
    obtain ⟨row, _, targets, _, expiresAt, _, h⟩ := h
    cases h
    exact within_setToken _ _
  | revokeCrossZoneToken tokenID nonce =>
    simp only [Registry.act, Except.bind_eq_ok] at h
    obtain ⟨_, _, h⟩ := h
    cases h
    exact within_setToken _ _
  | getAuditLog =>
    cases h
    exact within_id _
  | pruneNonces beforeUnix nonce =>
    cases h
    exact within_sweep _ _
  | writeSensorData deviceID readingJSON zone nonce =>
    simp only [Registry.act, Except.bind_eq_ok] at h
    obtain ⟨_, _, _, _, _, _, h⟩ := h
    cases h
    exact within_setReading _ _ _

theorem assignment_congr {subjectID : String}
    (h : reg.look (.role (trimSpace subjectID)) = reg'.look (.role (trimSpace subjectID))) :
    reg'.assignment subjectID = reg.assignment subjectID := by
  unfold Registry.assignment
  rw [Cell.role.inj h]

theorem decide_congr {userID requestedZone tokenID : String} {permission : Permission}
    (hcertificate : reg.look (.certificate caller.serialHex) =
      reg'.look (.certificate caller.serialHex))
    (hrole : reg.look (.role (trimSpace userID)) = reg'.look (.role (trimSpace userID)))
    (htoken : tokenID ≠ "" →
      reg.look (.token (trimSpace tokenID)) = reg'.look (.token (trimSpace tokenID))) :
    reg'.decide R ctx caller userID permission requestedZone tokenID =
      reg.decide R ctx caller userID permission requestedZone tokenID := by
  unfold Registry.decide
  rw [Cell.certificate.inj hcertificate, assignment_congr hrole]
  by_cases hempty : tokenID = ""
  · simp only [hempty, if_true]
  · unfold Registry.tokenDenial
    rw [Cell.token.inj (htoken hempty)]

/-- What is told apart from a listing of the log. -/
def Response.unlisted : Response → Response
  | .entries _ => .entries []
  | response => response

/-- Two acts that answer alike, log alike and change rows alike. -/
structure Alike (act act' : Act) : Prop where
  response : act.response.unlisted = act'.response.unlisted
  entry : act.entry = act'.entry
  log : ∀ x, (act.change x).log = x.log
  log' : ∀ x, (act'.change x).log = x.log
  change : ∀ x x' r, x.look r = x'.look r → (act.change x).look r = (act'.change x').look r

/-- A pruning looks at every nonce, and at how often each is listed. -/
theorem prune_alike {beforeUnix : Int} {nonce : String}
    (h : ∀ name, reg.look (.nonce name) = reg'.look (.nonce name)) :
    Except.Agree Alike (reg.act R ctx caller (.pruneNonces beforeUnix nonce))
      (reg'.act R ctx caller (.pruneNonces beforeUnix nonce)) := by
  have hnonces : reg'.nonces = reg.nonces := funext fun name => (Cell.nonce.inj (h name)).1.symm
  have hlisted : reg.listed.Perm reg'.listed :=
    List.perm_iff_count.mpr fun name => (Cell.nonce.inj (h name)).2
  have hstale (own : NonceKey) : reg'.stale beforeUnix own = reg.stale beforeUnix own := by
    unfold Registry.stale
    rw [hnonces]
  unfold Registry.act
  dsimp only
  rw [hstale, hnonces]
  set stale := reg.stale beforeUnix (nonceName caller.id nonce)
  have hdropped := hlisted.filter stale
  have hkept := hlisted.filter fun name => (reg.nonces name).isSome && !stale name
  refine Except.Agree.pure ⟨congrArg Response.pruned hdropped.length_eq, ?_, fun _ => rfl,
    fun _ => rfl, fun x x' r hr => ?_⟩
  · rw [hdropped.length_eq]
  · cases r with
    | nonce name =>
      simp only [Registry.look, Registry.sweep, Cell.nonce.injEq] at hr ⊢
      rw [hr.1, hkept.count_eq]
      simp only [hdropped.mem_iff, and_self]
    | _ => exact hr

/-- A call depends on the rows it touches. -/
theorem act_agree {call : Call} (hreads : ∀ r, call.reads caller r → reg.look r = reg'.look r)
    (hchanges : ∀ r, call.changes R ctx r → reg.look r = reg'.look r) :
    Except.Agree Alike (reg.act R ctx caller call) (reg'.act R ctx caller call) := by
  have hself (heq : reg'.act R ctx caller call = reg.act R ctx caller call) :
      Except.Agree Alike (reg.act R ctx caller call) (reg'.act R ctx caller call) :=
    Except.Agree.of_eq heq fun act hact =>
      have hwithin := act_within hact
      ⟨rfl, rfl, hwithin.log, hwithin.log, hwithin.rowwise⟩
  cases call with
  | assignRole => exact hself (by simp only [Registry.act])
  | revokeRole => exact hself (by simp only [Registry.act])
  | renewRole subjectID expiresAtISO nonce =>
    refine hself ?_
    unfold Registry.act
    dsimp only
    rw [assignment_congr (hreads _ rfl)]
  | checkAccess userID permissionName requestedZone tokenID =>
    refine hself ?_
    unfold Registry.act
    dsimp only
    rw [decide_congr (hreads _ (.inl rfl)) (hreads _ (.inr (.inl rfl)))
      fun _ => hreads _ (.inr (.inr rfl))]
  | issueCrossZoneToken userID targetZonesCSV expiresAtISO nonce =>
    refine hself ?_
    unfold Registry.act
    dsimp only
    rw [assignment_congr (hreads _ rfl)]
  | revokeCrossZoneToken => exact hself (by simp only [Registry.act])
  | getAuditLog =>
    unfold Registry.act
    exact Except.Agree.pure
      ⟨by simp only [Response.unlisted], rfl, fun _ => rfl, fun _ => rfl, fun _ _ _ hr => hr⟩
  | pruneNonces => exact prune_alike fun name => hchanges _ ⟨name, rfl⟩
  | writeSensorData deviceID readingJSON zone nonce =>
    refine hself ?_
    unfold Registry.act
    dsimp only
    rw [decide_congr (hreads _ (.inl rfl)) (hreads _ (.inr rfl)) fun hne => absurd rfl hne]

/-- The nonce of a call is spent the same way wherever its row is the same. -/
theorem consumeOf_agree {call : Call}
    (h : ∀ r, call.spends caller r → reg.look r = reg'.look r) :
    Except.Agree (fun spent spent' => ∃ change, Within (call.spends caller) change ∧
        spent = change reg ∧ spent' = change reg')
      (reg.consumeOf R ctx caller call.nonce) (reg'.consumeOf R ctx caller call.nonce) := by
  unfold Registry.consumeOf
  cases hnonce : call.nonce with
  | none => exact Except.Agree.pure ⟨id, within_id _, rfl, rfl⟩
  | some nonce =>
    have hrow := (Cell.nonce.inj (h _ ⟨nonce, hnonce, rfl⟩)).1
    show Except.Agree _ (reg.consume R ctx caller.id nonce) (reg'.consume R ctx caller.id nonce)
    unfold Registry.consume
    refine Except.Agree.bind_eq rfl fun _ _ => Except.Agree.bind_eq rfl fun _ _ => ?_
    refine Except.Agree.bind_eq ?_ fun _ _ => Except.Agree.pure ⟨_, ?_, rfl, rfl⟩
    · exact require_congr (by rw [hrow]) _
    · exact (within_spend _ _).mono fun r hr => ⟨nonce, hnonce, hr⟩

end

end FarmChain.Chaincode
