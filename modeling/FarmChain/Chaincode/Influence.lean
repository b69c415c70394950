import FarmChain.Chaincode.Denials

/-! What an access check leaves for later operations.

`CheckAccess` adds to the audit log and deletes an assignment that it finds expired.
Nothing reads the log but `GetAuditLog`, and a check finds an expired assignment as
useless as a missing one; only `RenewRole` and `IssueCrossZoneToken` look an assignment
up without asking whether it is expired. Two runs that differ by one check therefore
go on alike (`Hides`) until one of those two comes for the deleted assignment. -/
namespace FarmChain.Chaincode

open Strings Run

variable {B : Type}

/-- The ledgers of a run without and with a check at time `t`: they differ in the audit
log, and perhaps in an assignment of the subject that had expired by `t`. -/
structure Hides (R : Runtime B) (t : Int) (subject : String) (l l' : Ledger B) : Prop where
  trimmed : trimSpace subject = subject
  others : ∀ key, kindOf key ≠ .audit → kindOf key ≠ .auditIndex → key ≠ roleKey subject →
    l'.get key = l.get key
  role : l'.get (roleKey subject) = l.get (roleKey subject) ∨
    l'.get (roleKey subject) = none ∧
      ∃ a, getRoleAssignment R l subject = .ok a ∧ ¬a.activeAt t

/-- The subject whose assignment a call needs, expired or not. -/
def Call.needsAssignment : Call → Option String
  | .renewRole subjectID _ _ => some (trimSpace subjectID)
  | .issueCrossZoneToken userID _ _ _ => some (trimSpace userID)
  | _ => none

/-- The call comes for an assignment of the subject that had expired by `t`: its caller,
nonce and role are accepted, and it looks the assignment up. -/
def ComesForExpired (R : Runtime B) (t : Int) (subject : String) (l : Ledger B) (e : Event B) :
    Prop :=
  ∃ ctx call caller nonce a, e = .invoke ctx call ∧ getCallerIdentity R ctx = .ok caller ∧
    call.nonce = some nonce ∧ (∃ ws, validateNonce R l ctx caller.id nonce = .ok ws) ∧
    call.authorised caller.role = true ∧ call.needsAssignment = some subject ∧
    getRoleAssignment R l subject = .ok a ∧ ¬a.activeAt t

variable {R : Runtime B} {t : Int} {subject : String} {l l' : Ledger B}

/-! ### What both ledgers show -/

theorem Hides.get (h : Hides R t subject l l') {key : String}
    (hkey : kindOf key ∈ [.czt, .nonce, .nonceIndex, .sensor, .crl, .other]) :
    l'.get key = l.get key := by
  apply h.others
  · intro hk
    rw [hk] at hkey
    exact absurd hkey (by decide)
  · intro hk
    rw [hk] at hkey
    exact absurd hkey (by decide)
  · intro hk
    rw [hk, kindOf_roleKey] at hkey
    exact absurd hkey (by decide)

theorem Hides.get_role (h : Hides R t subject l l') {user : String}
    (hrole : user ≠ subject ∨ l'.get (roleKey subject) = l.get (roleKey subject)) :
    l'.get (roleKey user) = l.get (roleKey user) := by
  by_cases huser : user = subject
  · rw [huser]
    exact hrole.resolve_left fun hne => hne huser
  · exact h.others _ (by simp) (by simp) fun hkey => huser (roleKey_inj.mp hkey)

theorem Hides.nonceIndex (h : Hides R t subject l l') :
    getStringIndex R l' nonceIndexKey = getStringIndex R l nonceIndexKey :=
  getStringIndex_congr (h.get (by simp))

theorem Hides.validateNonce (h : Hides R t subject l l') (ctx : Context) (id nonce : String) :
    Chaincode.validateNonce R l' ctx id nonce = Chaincode.validateNonce R l ctx id nonce := by
  have hkey : l'.get (nonceKey id nonce) = l.get (nonceKey id nonce) := h.get (by simp)
  simp only [Chaincode.validateNonce, h.nonceIndex, hkey]

theorem Hides.validCrossZoneToken (h : Hides R t subject l l') (ctx : Context)
    (tokenID userID requestedZone : String) :
    Chaincode.validCrossZoneToken R l' ctx tokenID userID requestedZone =
      Chaincode.validCrossZoneToken R l ctx tokenID userID requestedZone := by
  have hkey : l'.get (cztKey (trimSpace tokenID)) = l.get (cztKey (trimSpace tokenID)) :=
    h.get (by simp)
  simp only [Chaincode.validCrossZoneToken, hkey]

theorem Hides.pruneLoop (h : Hides R t subject l l') (beforeUnix : Int) (own : String)
    {keys : List String} (hkeys : ∀ key ∈ keys, kindOf key = .nonce) :
    Chaincode.pruneLoop R l' beforeUnix own keys = Chaincode.pruneLoop R l beforeUnix own keys := by
  induction keys with
  | nil => rfl
  | cons key rest ih =>
    have hkey : l'.get key = l.get key := h.get (by simp [hkeys key (List.mem_cons_self ..)])
    simp only [Chaincode.pruneLoop, hkey, ih fun k hk => hkeys k (List.mem_cons_of_mem key hk)]

/-- An expired assignment decides like none, but for what is logged. -/
theorem Hides.decideAccess (h : Hides R t subject l l') {ctx : Context} (ht : t ≤ ctx.now)
    (caller : CallerIdentity) (user : String)
    (huser : trimSpace user = user) (permission : Permission) (requestedZone tokenID : String) :
    Chaincode.decideAccess R l' ctx caller user permission requestedZone tokenID =
        Chaincode.decideAccess R l ctx caller user permission requestedZone tokenID ∨
      user = subject ∧ l'.get (roleKey subject) = none ∧
        Chaincode.decideAccess R l ctx caller user permission requestedZone tokenID =
          .ok .expire ∧
        ∃ reason, Chaincode.decideAccess R l' ctx caller user permission requestedZone tokenID =
          .ok (.deny reason) := by
  have hcrl : l'.get (crlKey caller.serialHex) = l.get (crlKey caller.serialHex) :=
    h.get (by simp)
  by_cases hhidden : user ≠ subject ∨ l'.get (roleKey subject) = l.get (roleKey subject)
  · have hrole : getRoleAssignment R l' user = getRoleAssignment R l user :=
      getRoleAssignment_congr (by rw [huser]; exact h.get_role hhidden)
    exact .inl (by simp only [Chaincode.decideAccess, hcrl, hrole, h.validCrossZoneToken])
  · obtain ⟨huser', hdiffer⟩ := not_or.mp hhidden
    obtain rfl := not_not.mp huser'
    obtain ⟨hnone, a, ha, hexpired⟩ := h.role.resolve_left hdiffer
    by_cases hrevoked : caller.serialHex ≠ "" ∧ (l.get (crlKey caller.serialHex)).isSome
    · have hrevoked' := hrevoked
      rw [← hcrl] at hrevoked'
      exact .inl (by simp only [Chaincode.decideAccess, if_pos hrevoked, if_pos hrevoked'])
    · have hrevoked' := hrevoked
      rw [← hcrl] at hrevoked'
      have hlate : ∃ reason, checkRoleExpiration ctx a = .error reason := by
        cases hcheck : checkRoleExpiration ctx a with
        | error reason => exact ⟨reason, rfl⟩
        | ok =>
          refine absurd ((checkRoleExpiration_eq_ok.mp hcheck).imp id fun hnow => ?_) hexpired
          omega
      obtain ⟨late, hlate⟩ := hlate
      refine .inr ⟨rfl, hnone, ?_, ?_⟩
      · simp only [Chaincode.decideAccess, if_neg hrevoked, ha, hlate]
      · cases hrole : getRoleAssignment R l' user with
        | error reason =>
          exact ⟨reason, by simp only [Chaincode.decideAccess, if_neg hrevoked', hrole]⟩
        | ok a' =>
          obtain ⟨_, payload, hpayload, _⟩ := getRoleAssignment_eq_ok.mp hrole
          rw [huser, hnone] at hpayload
          cases hpayload

/-! ### What writing keeps -/

/-- The same writes on both sides. -/
theorem Hides.apply (h : Hides R t subject l l') (ws : WriteSet B) :
    Hides R t subject (l.apply ws) (l'.apply ws) := by
  refine ⟨h.trimmed, fun key ha hi hr => ?_, ?_⟩
  · rw [Store.get_apply, Store.get_apply, h.others key ha hi hr]
  · cases hlast : Store.lastWrite (roleKey subject) ws with
    | some o => exact .inl (by rw [Store.get_apply, Store.get_apply, hlast]; rfl)
    | none =>
      have hkept (m : Ledger B) : (m.apply ws).get (roleKey subject) = m.get (roleKey subject) := by
        rw [Store.get_apply, hlast]
        rfl
      rw [hkept, hkept]
      refine h.role.imp id fun hcase => ?_
      obtain ⟨hnone, a, ha, hexpired⟩ := hcase
      have hfound : getRoleAssignment R (l.apply ws) subject = getRoleAssignment R l subject :=
        getRoleAssignment_congr (by rw [h.trimmed, hkept])
      exact ⟨hnone, a, hfound.trans ha, hexpired⟩

/-- Writes that stay in the audit log. -/
def Audits (ws : WriteSet B) : Prop := ∀ w ∈ ws, kindOf w.1 = .audit ∨ kindOf w.1 = .auditIndex

theorem Audits.get {ws : WriteSet B} (h : Audits ws) (l : Ledger B) {key : String}
    (ha : kindOf key ≠ .audit) (hi : kindOf key ≠ .auditIndex) : (l.apply ws).get key = l.get key := by
  refine get_apply_of_kinds l fun w hw heq => ?_
  rw [← heq] at ha hi
  exact (h w hw).elim ha hi

/-- Different entries on the two sides. -/
theorem Hides.audits (h : Hides R t subject l l') {ws ws' : WriteSet B} (hws : Audits ws)
    (hws' : Audits ws') : Hides R t subject (l.apply ws) (l'.apply ws') := by
  have hrole : (l.apply ws).get (roleKey subject) = l.get (roleKey subject) :=
    hws.get l (by simp) (by simp)
  have hrole' : (l'.apply ws').get (roleKey subject) = l'.get (roleKey subject) :=
    hws'.get l' (by simp) (by simp)
  refine ⟨h.trimmed, fun key ha hi hr => ?_, ?_⟩
  · rw [hws.get l ha hi, hws'.get l' ha hi, h.others key ha hi hr]
  · have hfound : getRoleAssignment R (l.apply ws) subject = getRoleAssignment R l subject :=
      getRoleAssignment_congr (by rw [h.trimmed, hrole])
    rw [hrole, hrole', hfound]
    exact h.role

theorem Logs.audits {ctx : Context} {entry : AuditEntry} {logged : String × WriteSet B}
    (h : writeAuditEntry R l ctx entry = .ok logged) : Audits logged.2 :=
  (Logs.of_entry h).kinds

/-- Both sides log, whatever they log. -/
theorem agree_log {α α' : Type} {s : α → α' → Prop} (hl : WellIndexed R l) (hl' : WellIndexed R l')
    {ctx : Context} {entry entry' : AuditEntry}
    {rest : String × WriteSet B → Except String α} {rest' : String × WriteSet B → Except String α'}
    (h : ∀ logged logged', Audits logged.2 → Audits logged'.2 →
      Except.Agree s (rest logged) (rest' logged')) :
    Except.Agree s (writeAuditEntry R l ctx entry >>= rest)
      (writeAuditEntry R l' ctx entry' >>= rest') := by
  obtain ⟨logged, hlog⟩ := hl.logs ctx entry
  obtain ⟨logged', hlog'⟩ := hl'.logs ctx entry'
  rw [hlog, hlog', Except.ok_bind, Except.ok_bind]
  exact h logged logged' (Logs.audits hlog) (Logs.audits hlog')

/-! ### The operations -/

/-- The writes lead to ledgers that still correspond. -/
def HidesAfter (R : Runtime B) (t : Int) (subject : String) (l l' : Ledger B)
    (ws ws' : WriteSet B) : Prop :=
  Hides R t subject (l.apply ws) (l'.apply ws')

/-- The same writes and then an entry. -/
theorem Hides.written (h : Hides R t subject l l') (common : WriteSet B) (own : Write String B)
    {logged logged' : WriteSet B} (hlog : Audits logged) (hlog' : Audits logged') :
    HidesAfter R t subject l l' (common ++ own :: logged) (common ++ own :: logged') := by
  unfold HidesAfter
  rw [Store.apply_append, Store.apply_cons, Store.apply_append, Store.apply_cons]
  exact ((h.apply common).apply [own]).audits hlog hlog'

section
variable {ctx : Context}

-- Its rules are all that is used of `Agree` here; unfolded, it would run the operations.
attribute [local irreducible] Except.Agree

theorem Hides.assignRole (h : Hides R t subject l l') (hl : WellIndexed R l)
    (hl' : WellIndexed R l') (subjectID roleName zonesCSV expiresAtISO nonce : String) :
    Except.Agree (HidesAfter R t subject l l')
      (Chaincode.assignRole R l ctx subjectID roleName zonesCSV expiresAtISO nonce)
      (Chaincode.assignRole R l' ctx subjectID roleName zonesCSV expiresAtISO nonce) := by
  unfold Chaincode.assignRole
  refine .bind_eq rfl fun caller _ => .bind_eq (h.validateNonce ..) fun consumed _ =>
    .bind_eq rfl fun _ _ => .bind_eq rfl fun _ _ => .bind_eq rfl fun _ _ =>
    .bind_eq rfl fun zones _ => .bind_eq rfl fun expiresAt _ =>
    agree_log hl hl' fun logged logged' hlog hlog' => .pure ?_
  exact h.written consumed _ hlog hlog'

theorem Hides.revokeRole (h : Hides R t subject l l') (hl : WellIndexed R l)
    (hl' : WellIndexed R l') (subjectID nonce : String) :
    Except.Agree (HidesAfter R t subject l l') (Chaincode.revokeRole R l ctx subjectID nonce)
      (Chaincode.revokeRole R l' ctx subjectID nonce) := by
  unfold Chaincode.revokeRole
  refine .bind_eq rfl fun caller _ => .bind_eq (h.validateNonce ..) fun consumed _ =>
    .bind_eq rfl fun _ _ => .bind_eq rfl fun _ _ =>
    agree_log hl hl' fun logged logged' hlog hlog' => .pure ?_
  exact h.written consumed _ hlog hlog'

/-- An assignment that a call comes for is the same on both sides, or hidden. -/
theorem Hides.getRoleAssignment (h : Hides R t subject l l') {user : String}
    (hrole : trimSpace user = subject →
      ∀ a, Chaincode.getRoleAssignment R l subject = .ok a → a.activeAt t) :
    Chaincode.getRoleAssignment R l' user = Chaincode.getRoleAssignment R l user := by
  refine getRoleAssignment_congr (h.get_role ?_)
  by_cases huser : trimSpace user = subject
  · refine .inr (h.role.resolve_right fun hcase => ?_)
    obtain ⟨_, a, ha, hexpired⟩ := hcase
    exact hexpired (hrole huser a ha)
  · exact .inl huser

theorem Hides.renewRole (h : Hides R t subject l l') (hl : WellIndexed R l)
    (hl' : WellIndexed R l') (subjectID expiresAtISO nonce : String)
    (hfree : ¬ComesForExpired R t subject l
      (.invoke ctx (.renewRole subjectID expiresAtISO nonce))) :
    Except.Agree (HidesAfter R t subject l l')
      (Chaincode.renewRole R l ctx subjectID expiresAtISO nonce)
      (Chaincode.renewRole R l' ctx subjectID expiresAtISO nonce) := by
  unfold Chaincode.renewRole
  refine .bind_eq rfl fun caller hc => .bind_eq (h.validateNonce ..) fun consumed hn =>
    .bind_eq rfl fun _ hadmin => .bind_eq (h.getRoleAssignment fun huser a ha => ?_)
    fun assignment _ => .bind_eq rfl fun expiresAt _ =>
    agree_log hl hl' fun logged logged' hlog hlog' => .pure ?_
  · by_contra hexpired
    exact hfree ⟨ctx, _, caller, nonce, a, rfl, hc, rfl, ⟨consumed, hn⟩,
      decide_eq_true (Except.require_eq_ok.mp hadmin), congrArg some huser, ha, hexpired⟩
  · exact h.written consumed _ hlog hlog'

theorem Hides.issueCrossZoneToken (h : Hides R t subject l l') (hl : WellIndexed R l)
    (hl' : WellIndexed R l') (userID targetZonesCSV expiresAtISO nonce : String)
    (hfree : ¬ComesForExpired R t subject l
      (.invoke ctx (.issueCrossZoneToken userID targetZonesCSV expiresAtISO nonce))) :
    Except.Agree (fun out out' => out.1 = out'.1 ∧ HidesAfter R t subject l l' out.2 out'.2)
      (Chaincode.issueCrossZoneToken R l ctx userID targetZonesCSV expiresAtISO nonce)
      (Chaincode.issueCrossZoneToken R l' ctx userID targetZonesCSV expiresAtISO nonce) := by
  unfold Chaincode.issueCrossZoneToken
  refine .bind_eq rfl fun caller hc => .bind_eq (h.validateNonce ..) fun consumed hn =>
    .bind_eq rfl fun _ hissue => .bind_eq (h.getRoleAssignment fun huser a ha => ?_)
    fun assignment _ => .bind_eq rfl fun targets _ => .bind_eq rfl fun expiresAt _ =>
    agree_log hl hl' fun logged logged' hlog hlog' => .pure ⟨rfl, ?_⟩
  · by_contra hexpired
    exact hfree ⟨ctx, _, caller, nonce, a, rfl, hc, rfl, ⟨consumed, hn⟩,
      Except.require_eq_ok.mp hissue, congrArg some huser, ha, hexpired⟩
  · exact h.written consumed _ hlog hlog'

theorem Hides.revokeCrossZoneToken (h : Hides R t subject l l') (hl : WellIndexed R l)
    (hl' : WellIndexed R l') (tokenID nonce : String) :
    Except.Agree (HidesAfter R t subject l l')
      (Chaincode.revokeCrossZoneToken R l ctx tokenID nonce)
      (Chaincode.revokeCrossZoneToken R l' ctx tokenID nonce) := by
  unfold Chaincode.revokeCrossZoneToken
  refine .bind_eq rfl fun caller _ => .bind_eq (h.validateNonce ..) fun consumed _ =>
    .bind_eq rfl fun _ _ => .bind_eq rfl fun _ _ =>
    agree_log hl hl' fun logged logged' hlog hlog' => .pure ?_
  exact h.written consumed _ hlog hlog'

theorem Hides.pruneNonces (h : Hides R t subject l l') (hl : WellIndexed R l)
    (hl' : WellIndexed R l') (beforeUnix : Int) (nonce : String) :
    Except.Agree (fun out out' => out.1 = out'.1 ∧ HidesAfter R t subject l l' out.2 out'.2)
      (Chaincode.pruneNonces R l ctx beforeUnix nonce)
      (Chaincode.pruneNonces R l' ctx beforeUnix nonce) := by
  obtain ⟨listed, hlisted, hkinds⟩ := hl.nonce
  unfold Chaincode.pruneNonces
  refine .bind_eq rfl fun caller _ => .bind_eq (h.validateNonce ..) fun consumed _ =>
    .bind_eq rfl fun _ _ => .bind_eq h.nonceIndex fun keys hkeys =>
    .bind_eq (h.pruneLoop _ _ ?_) fun split _ =>
    agree_log hl hl' fun logged logged' hlog hlog' => .pure ⟨rfl, ?_⟩
  · cases hlisted.symm.trans hkeys
    exact hkinds
  · exact h.written (consumed ++ split.2.map deleteState) _ hlog hlog'

/-- Two checks answer alike, and one that grants only logs. -/
theorem Hides.checkAccess (h : Hides R t subject l l') (hl : WellIndexed R l)
    (hl' : WellIndexed R l') (ht : t ≤ ctx.now)
    (userID permissionName requestedZone tokenID : String) :
    Except.Agree (fun out out' => out.1 = out'.1 ∧ HidesAfter R t subject l l' out.2 out'.2 ∧
        (out.1 = true → Audits out.2 ∧ Audits out'.2))
      (Chaincode.checkAccess R l ctx userID permissionName requestedZone tokenID)
      (Chaincode.checkAccess R l' ctx userID permissionName requestedZone tokenID) := by
  unfold Chaincode.checkAccess
  refine .bind_eq rfl fun caller _ => ?_
  rcases h.decideAccess ht caller (trimSpace userID) (trimSpace_trimSpace userID)
    ⟨trimSpace permissionName⟩ requestedZone tokenID with hsame | ⟨huser, hnone, hexpire, reason, hdeny⟩
  · refine .bind_eq hsame fun decision _ => ?_
    cases decision with
    | grant =>
      refine agree_log hl hl' fun logged logged' hlog hlog' => .pure ⟨rfl, ?_, fun _ => ⟨hlog, hlog'⟩⟩
      exact h.audits hlog hlog'
    | deny reason =>
      refine agree_log hl hl' fun logged logged' hlog hlog' => .pure ⟨rfl, ?_, nofun⟩
      exact h.audits hlog hlog'
    | expire =>
      refine agree_log hl hl' fun logged logged' hlog hlog' => .pure ⟨rfl, ?_, nofun⟩
      exact h.written [] _ hlog hlog'
  · -- one side deletes what the other has lost already
    simp only [hexpire, hdeny, Except.ok_bind]
    refine agree_log hl hl' fun logged logged' hlog hlog' => .pure ⟨rfl, ?_, nofun⟩
    have hdeleted : Hides R t subject (l.apply [deleteState (roleKey (trimSpace userID))]) l' := by
      refine ⟨h.trimmed, fun key ha hi hr => ?_, .inl ?_⟩
      · rw [h.others key ha hi hr, deleteState, Store.get_apply_singleton, huser, if_neg hr]
      · rw [hnone, deleteState, Store.get_apply_singleton, huser, if_pos rfl]
    exact hdeleted.audits hlog hlog'

theorem Hides.writeSensorData (h : Hides R t subject l l') (hl : WellIndexed R l)
    (hl' : WellIndexed R l') (ht : t ≤ ctx.now) (deviceID readingJSON zone nonce : String) :
    Except.Agree (HidesAfter R t subject l l')
      (Chaincode.writeSensorData R l ctx deviceID readingJSON zone nonce)
      (Chaincode.writeSensorData R l' ctx deviceID readingJSON zone nonce) := by
  unfold Chaincode.writeSensorData
  refine .bind_eq rfl fun caller _ => .bind_eq (h.validateNonce ..) fun consumed _ =>
    .bind (h.checkAccess hl hl' ht ..) fun checked checked' hchecked => ?_
  obtain ⟨granted, ws⟩ := checked
  obtain ⟨granted', ws'⟩ := checked'
  obtain ⟨rfl, _, haudits⟩ := hchecked
  refine .bind_eq rfl fun _ hgranted => .bind_eq rfl fun _ _ => .bind_eq rfl fun _ _ => .pure ?_
  obtain ⟨hlog, hlog'⟩ := haudits (Except.require_eq_ok.mp hgranted)
  unfold HidesAfter
  rw [Store.apply_append, Store.apply_append, Store.apply_append, Store.apply_append]
  exact ((h.apply consumed).audits hlog hlog').apply _

/-- Every call but reading the audit log is answered alike on both sides. -/
theorem Hides.invoke (h : Hides R t subject l l') (hl : WellIndexed R l) (hl' : WellIndexed R l')
    (ht : t ≤ ctx.now) {call : Call} (hcall : call ≠ .getAuditLog)
    (hfree : ¬ComesForExpired R t subject l (.invoke ctx call)) :
    Except.Agree (fun out out' => out.1 = out'.1 ∧ HidesAfter R t subject l l' out.2 out'.2)
      (Chaincode.invoke R l ctx call) (Chaincode.invoke R l' ctx call) := by
  cases call with
  | assignRole => exact .bind (h.assignRole hl hl' ..) fun _ _ hws => .pure ⟨rfl, hws⟩
  | revokeRole => exact .bind (h.revokeRole hl hl' ..) fun _ _ hws => .pure ⟨rfl, hws⟩
  | renewRole => exact .bind (h.renewRole hl hl' _ _ _ hfree) fun _ _ hws => .pure ⟨rfl, hws⟩
  | checkAccess =>
    refine .bind (h.checkAccess hl hl' ht ..) fun _ _ hout => .pure ⟨?_, hout.2.1⟩
    exact congrArg Response.access hout.1
  | issueCrossZoneToken =>
    refine .bind (h.issueCrossZoneToken hl hl' _ _ _ _ hfree) fun _ _ hout => .pure ⟨?_, hout.2⟩
    exact congrArg Response.token hout.1
  | revokeCrossZoneToken =>
    exact .bind (h.revokeCrossZoneToken hl hl' ..) fun _ _ hws => .pure ⟨rfl, hws⟩
  | getAuditLog => exact absurd rfl hcall
  | pruneNonces =>
    refine .bind (h.pruneNonces hl hl' ..) fun _ _ hout => .pure ⟨?_, hout.2⟩
    exact congrArg Response.pruned hout.1
  | writeSensorData => exact .bind (h.writeSensorData hl hl' ht ..) fun _ _ hws => .pure ⟨rfl, hws⟩

end

/-! ### Runs -/

/-- What a call answers. -/
def answer (R : Runtime B) (l : Ledger B) (ctx : Context) (call : Call) : Except String Response :=
  (invoke R l ctx call).map Prod.fst

/-- Reading the audit log changes nothing. -/
theorem commit_getAuditLog (R : Runtime B) (l : Ledger B) (ctx : Context) :
    commit R l ctx .getAuditLog = l := by
  unfold commit
  cases hinvoke : invoke R l ctx .getAuditLog with
  | error message => rfl
  | ok out =>
    simp only [invoke, Except.bind_eq_ok, Except.pure_eq_ok] at hinvoke
    obtain ⟨entries, _, rfl⟩ := hinvoke
    rfl

theorem Hides.step (h : Hides R t subject l l') (hl : WellIndexed R l) (hl' : WellIndexed R l')
    {e : Event B} (ht : ∀ ctx call, e = .invoke ctx call → t ≤ ctx.now)
    (hfree : ¬ComesForExpired R t subject l e) :
    Hides R t subject (step R l e) (step R l' e) := by
  cases e with
  | publishCRL serialHex entry => exact h.apply [(crlKey serialHex, some entry)]
  | invoke ctx call =>
    show Hides R t subject (commit R l ctx call) (commit R l' ctx call)
    by_cases hcall : call = .getAuditLog
    · rw [hcall, commit_getAuditLog, commit_getAuditLog]
      exact h
    · have hagree := h.invoke hl hl' (ht ctx call rfl) hcall hfree
      unfold commit
      generalize Chaincode.invoke R l ctx call = x at hagree ⊢
      generalize Chaincode.invoke R l' ctx call = x' at hagree ⊢
      cases x with
      | error message =>
        cases x' with
        | error message' => exact h
        | ok out' => cases hagree
      | ok out =>
        cases x' with
        | error message' => cases hagree
        | ok out' => exact hagree.2

/-- Ledgers that correspond answer alike along a run that never comes for what is hidden. -/
theorem Hides.answers {later : List (Event B)} (h : Hides R t subject l l') (hl : WellIndexed R l)
    (hl' : WellIndexed R l') (ht : ∀ ctx call, .invoke ctx call ∈ later → t ≤ ctx.now)
    (hfree : Always (Chaincode.step R) (fun l e => ¬ComesForExpired R t subject l e) l later)
    {before after : List (Event B)} {ctx : Context} {call : Call}
    (hsplit : later = before ++ .invoke ctx call :: after) (hcall : call ≠ .getAuditLog) :
    answer R (run (Chaincode.step R) l before) ctx call =
      answer R (run (Chaincode.step R) l' before) ctx call := by
  induction before generalizing l l' later with
  | nil =>
    subst hsplit
    exact (h.invoke hl hl' (ht ctx call (List.mem_cons_self ..)) hcall hfree.1).map_eq
      fun _ _ hout => hout.1
  | cons e rest ih =>
    subst hsplit
    have htime : ∀ ctx call, e = .invoke ctx call → t ≤ ctx.now := by
      intro ctx call he
      subst he
      exact ht ctx call (List.mem_cons_self ..)
    exact ih (h.step hl hl' htime hfree.1) (wellIndexed_step hl e) (wellIndexed_step hl' e)
      (fun ctx call hmem => ht ctx call (List.mem_cons_of_mem e hmem)) hfree.2 rfl

theorem hides_self (l : Ledger B) (hs : trimSpace subject = subject) : Hides R t subject l l :=
  ⟨hs, fun _ _ _ _ => rfl, .inl rfl⟩

/-- What a check does: it adds to the audit log and, when it finds the assignment
expired, hides that. -/
theorem hides_checkAccess (R : Runtime B) (l : Ledger B) (ctx : Context)
    (userID permissionName requestedZone tokenID : String) :
    Hides R ctx.now "" l
        (commit R l ctx (.checkAccess userID permissionName requestedZone tokenID)) ∨
      (∃ caller, getCallerIdentity R ctx = .ok caller ∧
        decideAccess R l ctx caller (trimSpace userID) ⟨trimSpace permissionName⟩ requestedZone
          tokenID = .ok .expire) ∧
      Hides R ctx.now (trimSpace userID) l
        (commit R l ctx (.checkAccess userID permissionName requestedZone tokenID)) := by
  have hempty : Audits ([] : WriteSet B) := fun w hw => by cases hw
  unfold commit
  cases hinvoke : invoke R l ctx (.checkAccess userID permissionName requestedZone tokenID) with
  | error message => exact .inl (hides_self l (by decide))
  | ok out =>
    simp only [invoke, Except.bind_eq_ok, Except.pure_eq_ok] at hinvoke
    obtain ⟨⟨granted, ws⟩, hcheck, rfl⟩ := hinvoke
    obtain ⟨caller, hc, decision, hd, logged, hlog, _, rfl⟩ := checkAccess_eq_ok.mp hcheck
    have haudits := Logs.audits hlog
    cases decision with
    | grant => exact .inl ((hides_self l (by decide)).audits hempty haudits)
    | deny reason => exact .inl ((hides_self l (by decide)).audits hempty haudits)
    | expire =>
      refine .inr ⟨⟨caller, hc, hd⟩, ?_⟩
      obtain ⟨a, ha, hexpired⟩ := decideAccess_eq_expire hd
      have hdeleted : Hides R ctx.now (trimSpace userID) l
          (l.apply [deleteState (roleKey (trimSpace userID))]) := by
        refine ⟨trimSpace_trimSpace userID, fun key _ _ hr => ?_, .inr ⟨?_, a, ha, hexpired⟩⟩
        · rw [deleteState, Store.get_apply_singleton, if_neg hr]
        · rw [deleteState, Store.get_apply_singleton, if_pos rfl]
      exact hdeleted.audits hempty haudits

/-- **A check influences later operations only through the assignment it deletes.** In
every run with a check inserted, every later operation but reading the audit log is
answered as without the check, as long as no `RenewRole` or `IssueCrossZoneToken`
comes for an assignment that the check found expired and deleted. -/
theorem checkAccess_influence (R : Runtime B) (past later : List (Event B)) (ctx : Context)
    (userID permissionName requestedZone tokenID : String)
    (htime : ∀ ctx' call, .invoke ctx' call ∈ later → ctx.now ≤ ctx'.now)
    (hfree : ∀ caller, getCallerIdentity R ctx = .ok caller →
      decideAccess R (ledgerAfter R past) ctx caller (trimSpace userID) ⟨trimSpace permissionName⟩
        requestedZone tokenID = .ok .expire →
      Always (step R) (fun l e => ¬ComesForExpired R ctx.now (trimSpace userID) l e)
        (ledgerAfter R past) later)
    {before after : List (Event B)} {ctx' : Context} {call : Call}
    (hsplit : later = before ++ .invoke ctx' call :: after) (hcall : call ≠ .getAuditLog) :
    answer R (ledgerAfter R (past ++ before)) ctx' call =
      answer R (ledgerAfter R (past ++
        .invoke ctx (.checkAccess userID permissionName requestedZone tokenID) :: before)) ctx'
        call := by
  have hl := wellIndexed_ledgerAfter R past
  have hl' := wellIndexed_step hl
    (.invoke ctx (.checkAccess userID permissionName requestedZone tokenID))
  rw [ledgerAfter, ledgerAfter, run_append, run_append]
  rcases hides_checkAccess R (ledgerAfter R past) ctx userID permissionName requestedZone tokenID with
    h | ⟨⟨caller, hc, hexpire⟩, h⟩
  · -- nobody's assignment is stored under the empty subject
    refine h.answers hl hl' htime (always_of_split fun _ e _ _ hcase => ?_) hsplit hcall
    obtain ⟨_, _, _, _, a, _, _, _, _, _, _, ha, _⟩ := hcase
    exact (getRoleAssignment_eq_ok.mp ha).1 (by decide)
  · exact h.answers hl hl' htime (hfree caller hc hexpire) hsplit hcall

/-- The administrator gives the farmer another season. -/
def nextSeason : Call := .renewRole "bob" "1970-01-01T00:08:20Z" "n2"

/-- Whether the farmer's expired role can be renewed depends on whether somebody has
checked it since it expired. -/
theorem checkAccess_influence_renewal :
    answer fieldRuntime (ledgerAfter fieldRuntime seasonRun)
      (mockContext "03" 310 "root" .admin "" 1) nextSeason = .ok .done ∧
    answer fieldRuntime (ledgerAfter fieldRuntime (seasonRun ++
        [.invoke seasonOver (.checkAccess "bob" "WriteSensor" "North" "")]))
      (mockContext "03" 310 "root" .admin "" 1) nextSeason =
        .error "role assignment not found for bob" := by
  decide

/-- Assigning the role anew is answered alike with and without the check. -/
theorem checkAccess_influence_assignment :
    answer fieldRuntime (ledgerAfter fieldRuntime (seasonRun ++ []))
        (mockContext "03" 310 "root" .admin "" 1) (.assignRole "bob" "Farmer" "North" "" "n2") =
      answer fieldRuntime (ledgerAfter fieldRuntime (seasonRun ++
          [.invoke seasonOver (.checkAccess "bob" "WriteSensor" "North" "")]))
        (mockContext "03" 310 "root" .admin "" 1) (.assignRole "bob" "Farmer" "North" "" "n2") := by
  refine checkAccess_influence fieldRuntime seasonRun
    [.invoke (mockContext "03" 310 "root" .admin "" 1) (.assignRole "bob" "Farmer" "North" "" "n2")]
    seasonOver "bob" "WriteSensor" "North" "" (fun ctx' call hmem => ?_) (fun _ _ _ => ⟨?_, trivial⟩)
    rfl (by simp)
  · cases List.mem_singleton.mp hmem
    decide
  · intro hcase
    obtain ⟨_, _, _, _, _, hevent, _, _, _, _, hneeds, _⟩ := hcase
    cases hevent
    cases hneeds

end FarmChain.Chaincode
