import FarmChain.Chaincode.Effects

/-! What an event does to one subject's role and to one token.

The predicates on events (`Assigns`, `Revokes`, `Renews`, `Expires`, `Issues`,
`RevokesToken`) are what a claim about a run's history is written with. `roleStep`
and `tokenStep` are complete: they list everything an event can do to the record
under a role or a token key, so an invariant that ties a record to the history
is a case analysis over them. -/
namespace FarmChain.Chaincode

open Strings Run

variable {B : Type}

/-- The event is a call that succeeded. -/
structure Commits (R : Runtime B) (l : Ledger B) (e : Event B) (ctx : Context)
    (caller : CallerIdentity) (call : Call) (response : Response) : Prop where
  event : e = .invoke ctx call
  identity : getCallerIdentity R ctx = .ok caller
  succeeds : ∃ ws, invoke R l ctx call = .ok (response, ws)

/-- The answer without the writes, which can be evaluated. -/
theorem invoke_answers {R : Runtime B} {l : Ledger B} {ctx : Context} {call : Call}
    {response : Response} (h : (invoke R l ctx call).map Prod.fst = .ok response) :
    ∃ ws, invoke R l ctx call = .ok (response, ws) := by
  cases hinvoke : invoke R l ctx call with
  | error message =>
    rw [hinvoke] at h
    cases h
  | ok result =>
    rw [hinvoke] at h
    cases h
    exact ⟨result.2, rfl⟩

/-- A successful `AssignRole` by an administrator gave the subject this assignment. -/
def Assigns (R : Runtime B) (subject : String) (a : RoleAssignment) (l : Ledger B) (e : Event B) :
    Prop :=
  ∃ ctx caller subjectID roleName zonesCSV expiresAtISO nonce zones expiresAt,
    Commits R l e ctx caller (.assignRole subjectID roleName zonesCSV expiresAtISO nonce) .done ∧
    caller.role = .admin ∧ trimSpace subjectID = subject ∧
    isRoleValid ⟨trimSpace roleName⟩ = true ∧
    normalizeZonesForRole R ctx.mapOrder ⟨trimSpace roleName⟩ zonesCSV = .ok zones ∧
    parseFutureExpiry R ctx expiresAtISO false = .ok expiresAt ∧
    a = newAssignment ctx caller subjectID roleName zones expiresAt

/-- A successful `RevokeRole` of the subject. -/
def Revokes (R : Runtime B) (subject : String) (l : Ledger B) (e : Event B) : Prop :=
  ∃ ctx caller subjectID nonce, Commits R l e ctx caller (.revokeRole subjectID nonce) .done ∧
    caller.role = .admin ∧ trimSpace subjectID = subject

/-- A successful `RenewRole` called with exactly this subject, and the expiry it set. -/
def Renews (R : Runtime B) (subject : String) (expiresAt : Int) (l : Ledger B) (e : Event B) :
    Prop :=
  ∃ ctx caller expiresAtISO nonce,
    Commits R l e ctx caller (.renewRole subject expiresAtISO nonce) .done ∧
    caller.role = .admin ∧ parseFutureExpiry R ctx expiresAtISO true = .ok expiresAt

/-- A `CheckAccess` that found the subject's assignment expired. -/
def Expires (R : Runtime B) (subject : String) (l : Ledger B) (e : Event B) : Prop :=
  ∃ ctx caller userID permissionName requestedZone tokenID a,
    Commits R l e ctx caller (.checkAccess userID permissionName requestedZone tokenID)
      (.access false) ∧
    trimSpace userID = subject ∧ getRoleAssignment R l subject = .ok a ∧ ¬a.activeAt ctx.now

/-- A successful `IssueCrossZoneToken` that stored this token. -/
def Issues (R : Runtime B) (t : CrossZoneToken) (l : Ledger B) (e : Event B) : Prop :=
  ∃ ctx caller userID targetZonesCSV expiresAtISO nonce assignment targets expiresAt,
    Commits R l e ctx caller (.issueCrossZoneToken userID targetZonesCSV expiresAtISO nonce)
      (.token t.tokenID) ∧
    mayIssue caller.role = true ∧ getRoleAssignment R l userID = .ok assignment ∧
    normalizeZones R ctx.mapOrder targetZonesCSV true = .ok targets ∧
    parseFutureExpiry R ctx expiresAtISO true = .ok expiresAt ∧
    t = newToken R ctx caller userID nonce assignment targets expiresAt

/-- A successful `RevokeCrossZoneToken` of the token. -/
def RevokesToken (R : Runtime B) (tokenID : String) (l : Ledger B) (e : Event B) : Prop :=
  ∃ ctx caller givenID nonce, Commits R l e ctx caller (.revokeCrossZoneToken givenID nonce) .done ∧
    mayIssue caller.role = true ∧ trimSpace givenID = tokenID

/-- Some assignment is given to the subject. -/
def AssignedTo (R : Runtime B) (subject : String) (l : Ledger B) (e : Event B) : Prop :=
  ∃ a, Assigns R subject a l e

/-- Some token is issued under the identifier. -/
def IssuedAs (R : Runtime B) (tokenID : String) (l : Ledger B) (e : Event B) : Prop :=
  ∃ t : CrossZoneToken, t.tokenID = tokenID ∧ Issues R t l e

/-- The expiry the event stores for the subject. -/
def SetsExpiry (R : Runtime B) (subject : String) (expiresAt : Int) (l : Ledger B) (e : Event B) :
    Prop :=
  (∃ a, a.expiresAt = expiresAt ∧ Assigns R subject a l e) ∨ Renews R subject expiresAt l e

variable {R : Runtime B} {l : Ledger B} {e : Event B}

/-- An event is one call with one answer. -/
theorem Commits.unique {ctx ctx' : Context} {caller caller' : CallerIdentity} {call call' : Call}
    {response response' : Response} (h : Commits R l e ctx caller call response)
    (h' : Commits R l e ctx' caller' call' response') :
    ctx = ctx' ∧ caller = caller' ∧ call = call' ∧ response = response' := by
  obtain ⟨rfl, hid, ws, hok⟩ := h
  obtain ⟨hevent, hid', ws', hok'⟩ := h'
  cases hevent
  cases hid.symm.trans hid'
  cases hok.symm.trans hok'
  exact ⟨rfl, rfl, rfl, rfl⟩

/-- What an event makes of the ledger. -/
inductive StepCase (R : Runtime B) (l : Ledger B) (e : Event B) : Ledger B → Prop
  | commits {ctx : Context} {caller : CallerIdentity} {call : Call} {response : Response}
      {consumed own logged : WriteSet B} {entry : Option AuditEntry}
      (commits : Commits R l e ctx caller call response)
      (consumes : Consumes R l ctx caller call.nonce consumed)
      (effect : Effect R l ctx caller call response own entry)
      (logs : Logs R l ctx entry logged) :
      StepCase R l e (l.apply (consumed ++ own ++ logged))
  | fails (fails : ∀ ctx caller call response, ¬Commits R l e ctx caller call response)
      (invoked : ∃ ctx call, e = .invoke ctx call) : StepCase R l e l
  | publishes {serialHex : String} {entry : B} (event : e = .publishCRL serialHex entry) :
      StepCase R l e (l.write (crlKey serialHex, some entry))

theorem stepCase (R : Runtime B) (l : Ledger B) (e : Event B) : StepCase R l e (step R l e) := by
  cases e with
  | publishCRL serialHex entry => exact .publishes rfl
  | invoke ctx call =>
    cases hinvoke : invoke R l ctx call with
    | ok out =>
      obtain ⟨response, ws⟩ := out
      obtain ⟨caller, consumed, own, entry, logged, hid, hconsumes, heffect, hlogs, happly⟩ :=
        invoke_effect hinvoke
      have hstep : step R l (.invoke ctx call) = l.apply ws := by simp [step, commit, hinvoke]
      rw [hstep, happly]
      exact .commits ⟨rfl, hid, ws, hinvoke⟩ hconsumes heffect hlogs
    | error message =>
      have hstep : step R l (.invoke ctx call) = l := by simp [step, commit, hinvoke]
      rw [hstep]
      refine .fails (fun ctx' caller call' response h => ?_) ⟨ctx, call, rfl⟩
      obtain ⟨hevent, _, ws, hok⟩ := h
      cases hevent
      cases hinvoke.symm.trans hok

/-- A record the call's own writes decide. -/
theorem get_record {ctx : Context} {caller : CallerIdentity} {nonce : Option String}
    {consumed own logged : WriteSet B} {entry : Option AuditEntry}
    (hc : Consumes R l ctx caller nonce consumed) (hlog : Logs R l ctx entry logged) {key : String}
    (hkey : kindOf key ∈ [.role, .czt, .sensor, .crl]) :
    (l.apply (consumed ++ own ++ logged)).get key = (l.apply own).get key := by
  have hkinds : kindOf key ≠ .nonce ∧ kindOf key ≠ .nonceIndex ∧ kindOf key ≠ .audit ∧
      kindOf key ≠ .auditIndex := by
    revert hkey
    cases kindOf key <;> decide
  obtain ⟨hn, hni, ha, hai⟩ := hkinds
  rw [Store.apply_append, hlog.get _ ha hai, Store.apply_append, Store.get_apply,
    hc.get _ hn hni, ← Store.get_apply]

/-- The records a successful call leaves are decided by its own writes. -/
theorem commit_get {ctx : Context} {call : Call} {response : Response} {ws : WriteSet B}
    (h : invoke R l ctx call = .ok (response, ws)) :
    ∃ caller own entry, Effect R l ctx caller call response own entry ∧
      ∀ key, kindOf key ∈ [.role, .czt, .sensor, .crl] →
        (commit R l ctx call).get key = (l.apply own).get key := by
  obtain ⟨caller, consumed, own, entry, logged, _, hconsumes, heffect, hlogs, happly⟩ :=
    invoke_effect h
  refine ⟨caller, own, entry, heffect, fun key hkey => ?_⟩
  have hcommit : commit R l ctx call = l.apply ws := by simp only [commit, h]
  rw [hcommit, happly, get_record hconsumes hlogs hkey]

/-! ### Indices -/

/-- The two indices can be read, and the nonce index lists nonce keys only. -/
structure WellIndexed (R : Runtime B) (l : Ledger B) : Prop where
  audit : ∃ keys, getStringIndex R l auditIndexKey = .ok keys
  nonce : ∃ keys, getStringIndex R l nonceIndexKey = .ok keys ∧ ∀ key ∈ keys, kindOf key = .nonce

/-- A call writes records of its own, or it prunes. -/
theorem Effect.own_cases {ctx : Context} {caller : CallerIdentity} {call : Call}
    {response : Response} {own : WriteSet B} {entry : Option AuditEntry}
    (h : Effect R l ctx caller call response own entry) :
    ((∀ w ∈ own, kindOf w.1 ∈ [.role, .czt, .sensor]) ∧
      ∀ beforeUnix nonce, call ≠ .pruneNonces beforeUnix nonce) ∨
    ∃ beforeUnix nonce keys kept dropped, call = .pruneNonces beforeUnix nonce ∧
      getStringIndex R l nonceIndexKey = .ok keys ∧
      pruneLoop R l beforeUnix (nonceKey caller.id nonce) keys = .ok (kept, dropped) ∧
      own = dropped.map deleteState ++ [putStringIndex R nonceIndexKey kept] := by
  cases h with
  | assigned => exact .inl ⟨by simp, by simp⟩
  | revoked => exact .inl ⟨by simp [deleteState], by simp⟩
  | renewed => exact .inl ⟨by simp, by simp⟩
  | @checked _ _ _ _ decision =>
    exact .inl ⟨by cases decision <;> simp [AccessDecision.deletes, deleteState], by simp⟩
  | issued => exact .inl ⟨by simp, by simp⟩
  | tokenRevoked => exact .inl ⟨by simp [deleteState], by simp⟩
  | read => exact .inl ⟨by simp, by simp⟩
  | pruned admin index swept => exact .inr ⟨_, _, _, _, _, rfl, index, swept, rfl⟩
  | sensed => exact .inl ⟨by simp, by simp⟩

/-- Writes of records leave the other keys as they were. -/
theorem get_apply_of_records (l : Ledger B) {own : WriteSet B} {key : String}
    (h : ∀ w ∈ own, kindOf w.1 ∈ [.role, .czt, .sensor])
    (hkey : kindOf key ∉ [.role, .czt, .sensor]) : (l.apply own).get key = l.get key :=
  get_apply_of_kinds l fun w hw hkind => hkey (hkind ▸ h w hw)

/-- Pruning writes nonce keys only. -/
theorem WellIndexed.prune_kinds (hl : WellIndexed R l) {beforeUnix : Int} {key : String}
    {keys kept dropped : List String} (index : getStringIndex R l nonceIndexKey = .ok keys)
    (swept : pruneLoop R l beforeUnix key keys = .ok (kept, dropped)) :
    ∀ w ∈ dropped.map deleteState ++ [putStringIndex R nonceIndexKey kept],
      kindOf w.1 = .nonce ∨ kindOf w.1 = .nonceIndex := by
  obtain ⟨_, hindex, hnonce⟩ := hl.nonce
  cases index.symm.trans hindex
  intro w hw
  simp only [List.mem_append, List.mem_map, List.mem_singleton] at hw
  rcases hw with ⟨key, hkey, rfl⟩ | rfl
  · exact .inl (hnonce key (pruneLoop_mem swept (.inr hkey)))
  · exact .inr kindOf_nonceIndexKey

/-- No own write lands in the audit log or the revocation list. -/
theorem Effect.own_kinds (hl : WellIndexed R l) {ctx : Context} {caller : CallerIdentity}
    {call : Call} {response : Response} {own : WriteSet B} {entry : Option AuditEntry}
    (h : Effect R l ctx caller call response own entry) :
    ∀ w ∈ own, kindOf w.1 ≠ .audit ∧ kindOf w.1 ≠ .auditIndex ∧ kindOf w.1 ≠ .crl := by
  intro w hw
  have hkind : kindOf w.1 ∈ [.role, .czt, .sensor] ∨ kindOf w.1 = .nonce ∨
      kindOf w.1 = .nonceIndex := by
    rcases h.own_cases with ⟨hkinds, _⟩ | ⟨_, _, keys, kept, dropped, _, hindex, hsweep, rfl⟩
    · exact .inl (hkinds w hw)
    · exact .inr (hl.prune_kinds hindex hsweep w hw)
  revert hkind
  cases kindOf w.1 <;> decide

theorem wellIndexed_empty (R : Runtime B) : WellIndexed R ∅ :=
  ⟨⟨[], rfl⟩, [], rfl, fun _ h => by cases h⟩

/-- Consuming a nonce and the own writes leave the audit log alone. -/
theorem get_audit (hl : WellIndexed R l) {ctx : Context} {caller : CallerIdentity} {call : Call}
    {response : Response} {consumed own : WriteSet B} {entry : Option AuditEntry}
    (hc : Consumes R l ctx caller call.nonce consumed)
    (heffect : Effect R l ctx caller call response own entry) {key : String}
    (hkey : kindOf key = .audit ∨ kindOf key = .auditIndex) :
    ((l.apply consumed).apply own).get key = l.get key := by
  rw [get_apply_of_kinds, hc.get]
  · rcases hkey with hkey | hkey <;> simp [hkey]
  · rcases hkey with hkey | hkey <;> simp [hkey]
  · intro w hw heq
    rw [← heq] at hkey
    obtain ⟨ha, hi, _⟩ := heffect.own_kinds hl w hw
    exact hkey.elim ha hi

/-- Every event keeps the indices readable. -/
theorem wellIndexed_step (hl : WellIndexed R l) (e : Event B) : WellIndexed R (step R l e) := by
  have hcase := stepCase R l e
  generalize step R l e = l' at hcase ⊢
  cases hcase with
  | fails => exact hl
  | publishes =>
    have hframe (key : String) (hk : kindOf key ≠ .crl) (serialHex : String) (b : B) :
        (l.write (crlKey serialHex, some b)).get key = l.get key :=
      get_write_of_kind l (by simpa using hk.symm)
    have ha := hframe auditIndexKey (by simp)
    have hn := hframe nonceIndexKey (by simp)
    exact ⟨by simpa only [getStringIndex_congr (ha _ _)] using hl.audit,
      by simpa only [getStringIndex_congr (hn _ _)] using hl.nonce⟩
  | @commits ctx caller call response consumed own logged entry _ hconsumes heffect hlogs =>
    have haudit := get_audit hl hconsumes heffect (.inr kindOf_auditIndexKey)
    have hnonce : (l.apply (consumed ++ own ++ logged)).get nonceIndexKey =
        ((l.apply consumed).apply own).get nonceIndexKey := by
      rw [Store.apply_append, hlogs.get _ (by simp) (by simp), Store.apply_append]
    constructor
    · cases entry with
      | none =>
        cases hlogs
        rw [List.append_nil, Store.apply_append, getStringIndex_congr haudit]
        exact hl.audit
      | some entry =>
        obtain ⟨keys, _, hput⟩ := hlogs.index
        rw [Store.apply_append]
        exact ⟨_, getStringIndex_put (hput _)⟩
    · obtain ⟨keys, hkeys, hkinds⟩ := hl.nonce
      rw [getStringIndex_congr hnonce]
      rcases heffect.own_cases with ⟨hrecord, _⟩ | ⟨_, _, keys', kept, dropped, _, hindex, hsweep, rfl⟩
      · have hown : ((l.apply consumed).apply own).get nonceIndexKey =
            (l.apply consumed).get nonceIndexKey :=
          get_apply_of_records _ hrecord (by simp)
        rw [getStringIndex_congr hown]
        cases hcall : call.nonce with
        | none =>
          rw [hcall] at hconsumes
          cases hconsumes
          exact ⟨keys, hkeys, hkinds⟩
        | some nonce =>
          rw [hcall] at hconsumes
          obtain ⟨keys', hkeys', hput⟩ := hconsumes.index
          cases hkeys.symm.trans hkeys'
          refine ⟨_, getStringIndex_put (hput l), fun key hkey => ?_⟩
          rcases List.mem_append.mp hkey with hkey | hkey
          · exact hkinds key hkey
          · rw [List.mem_singleton.mp hkey]
            exact kindOf_nonceKey _ _
      · cases hkeys.symm.trans hindex
        refine ⟨kept, getStringIndex_put ?_, fun key hkey => ?_⟩
        · simp [putStringIndex, Store.get_write]
        · exact hkinds key (pruneLoop_mem hsweep (.inl hkey))

/-- An entry can always be logged. -/
theorem WellIndexed.logs (hl : WellIndexed R l) (ctx : Context) (entry : AuditEntry) :
    ∃ logged, writeAuditEntry R l ctx entry = .ok logged := by
  obtain ⟨keys, hkeys⟩ := hl.audit
  exact ⟨_, writeAuditEntry_eq_ok.mpr ⟨keys, hkeys, rfl⟩⟩

theorem wellIndexed_ledgerAfter (R : Runtime B) (events : List (Event B)) :
    WellIndexed R (ledgerAfter R events) :=
  run_invariant _ (WellIndexed R) (fun _ e h => wellIndexed_step h e) _ events (wellIndexed_empty R)

/-! ### The record of one subject -/

/-- The subject of a role operation. -/
def Call.roleSubject : Call → Option String
  | .assignRole subjectID _ _ _ _ => some (trimSpace subjectID)
  | .revokeRole subjectID _ => some (trimSpace subjectID)
  | .renewRole subjectID _ _ => some subjectID
  | _ => none

/-- The event is no successful role operation on the subject. -/
structure LeavesRole (R : Runtime B) (subject : String) (l : Ledger B) (e : Event B) : Prop where
  unassigned : ¬AssignedTo R subject l e
  unrevoked : ¬Revokes R subject l e
  unrenewed : ∀ expiresAt, ¬Renews R subject expiresAt l e

/-- A role operation on the subject is a call that names it. -/
theorem leavesRole_of {subject : String}
    (h : ∀ ctx caller call response, Commits R l e ctx caller call response →
      call.roleSubject ≠ some subject) : LeavesRole R subject l e where
  unassigned := by
    intro hcase
    obtain ⟨_, _, _, _, _, _, _, _, _, _, hc, _, hs, _⟩ := hcase
    exact h _ _ _ _ hc (congrArg some hs)
  unrevoked := by
    intro hcase
    obtain ⟨_, _, _, _, hc, _, hs⟩ := hcase
    exact h _ _ _ _ hc (congrArg some hs)
  unrenewed := by
    intro expiresAt hcase
    obtain ⟨_, _, _, _, hc, _⟩ := hcase
    exact h _ _ _ _ hc rfl

theorem Commits.leavesRole {subject : String} {ctx : Context} {caller : CallerIdentity}
    {call : Call} {response : Response} (h : Commits R l e ctx caller call response)
    (hne : call.roleSubject ≠ some subject) : LeavesRole R subject l e := by
  refine leavesRole_of fun _ _ _ _ h' => ?_
  obtain ⟨-, -, rfl, -⟩ := h.unique h'
  exact hne

/-- What an event makes of the record under a subject's role key. -/
inductive RoleStep (R : Runtime B) (subject : String) (l : Ledger B) (e : Event B) :
    Option B → Prop
  | assigned {a : RoleAssignment} (assigns : Assigns R subject a l e) :
      RoleStep R subject l e (some (R.role.marshal a))
  | renewed {a : RoleAssignment} {expiresAt : Int} (renews : Renews R subject expiresAt l e)
      (found : getRoleAssignment R l subject = .ok a) (unassigned : ¬AssignedTo R subject l e)
      (unrevoked : ¬Revokes R subject l e) :
      RoleStep R subject l e (some (R.role.marshal { a with expiresAt }))
  | removed (removes : Revokes R subject l e ∨ Expires R subject l e)
      (unassigned : ¬AssignedTo R subject l e) : RoleStep R subject l e none
  | kept (leaves : LeavesRole R subject l e) : RoleStep R subject l e (l.get (roleKey subject))

theorem RoleStep.of_eq {subject : String} {o : Option B} (leaves : LeavesRole R subject l e)
    (h : o = l.get (roleKey subject)) : RoleStep R subject l e o :=
  h ▸ .kept leaves

theorem Commits.roleStep {subject : String} {ctx : Context} {caller : CallerIdentity} {call : Call}
    {response : Response} {own : WriteSet B} {entry : Option AuditEntry}
    (h : Commits R l e ctx caller call response) (hl : WellIndexed R l)
    (heffect : Effect R l ctx caller call response own entry) :
    RoleStep R subject l e ((l.apply own).get (roleKey subject)) := by
  cases heffect with
  | @assigned subjectID _ _ _ _ _ _ admin _ valid zoned expiry =>
    rw [Store.get_apply_singleton]
    by_cases hs : trimSpace subjectID = subject
    · subst hs
      rw [if_pos rfl]
      exact .assigned ⟨_, _, _, _, _, _, _, _, _, h, admin, rfl, valid, zoned, expiry, rfl⟩
    · rw [if_neg fun hkey => hs (roleKey_inj.mp hkey).symm]
      exact .kept (h.leavesRole (by simpa [Call.roleSubject] using hs))
  | @revoked subjectID _ admin =>
    rw [deleteState, Store.get_apply_singleton]
    by_cases hs : trimSpace subjectID = subject
    · subst hs
      rw [if_pos rfl]
      refine .removed (.inl ⟨_, _, _, _, h, admin, rfl⟩) ?_
      intro hcase
      obtain ⟨_, _, _, _, _, _, _, _, _, _, h', _⟩ := hcase
      cases (h.unique h').2.2.1
    · rw [if_neg fun hkey => hs (roleKey_inj.mp hkey).symm]
      exact .kept (h.leavesRole (by simpa [Call.roleSubject] using hs))
  | @renewed subjectID _ _ _ _ admin found expiry =>
    rw [Store.get_apply_singleton]
    by_cases hs : subjectID = subject
    · subst hs
      rw [if_pos rfl]
      refine .renewed ⟨_, _, _, _, h, admin, expiry⟩ found ?_ ?_
      · intro hcase
        obtain ⟨_, _, _, _, _, _, _, _, _, _, h', _⟩ := hcase
        cases (h.unique h').2.2.1
      · intro hcase
        obtain ⟨_, _, _, _, h', _⟩ := hcase
        cases (h.unique h').2.2.1
    · rw [if_neg fun hkey => hs (roleKey_inj.mp hkey).symm]
      exact .kept (h.leavesRole (by simpa [Call.roleSubject] using hs))
  | @checked userID _ _ _ decision decided =>
    have hleaves : LeavesRole R subject l e := h.leavesRole (by simp [Call.roleSubject])
    cases decision with
    | grant => exact .kept hleaves
    | deny reason => exact .kept hleaves
    | expire =>
      rw [AccessDecision.deletes, deleteState, Store.get_apply_singleton]
      by_cases hs : trimSpace userID = subject
      · subst hs
        rw [if_pos rfl]
        obtain ⟨a, ha, hexpired⟩ := decideAccess_eq_expire decided
        exact .removed (.inr ⟨_, _, _, _, _, _, a, h, rfl, ha, hexpired⟩) hleaves.unassigned
      · rw [if_neg fun hkey => hs (roleKey_inj.mp hkey).symm]
        exact .kept hleaves
  | issued =>
    exact .of_eq (h.leavesRole (by simp [Call.roleSubject])) (get_apply_of_kinds l (by simp))
  | tokenRevoked =>
    refine .of_eq (h.leavesRole (by simp [Call.roleSubject])) ?_
    exact get_apply_of_kinds l (by simp [deleteState])
  | read => exact .kept (h.leavesRole (by simp [Call.roleSubject]))
  | pruned admin index swept =>
    refine .of_eq (h.leavesRole (by simp [Call.roleSubject])) ?_
    refine get_apply_of_kinds l fun w hw => ?_
    rcases hl.prune_kinds index swept w hw with hk | hk <;> simp [hk]
  | sensed =>
    exact .of_eq (h.leavesRole (by simp [Call.roleSubject])) (get_apply_of_kinds l (by simp))

theorem roleStep (hl : WellIndexed R l) (subject : String) (e : Event B) :
    RoleStep R subject l e ((step R l e).get (roleKey subject)) := by
  have hcase := stepCase R l e
  generalize step R l e = l' at hcase ⊢
  cases hcase with
  | fails hfails => exact .kept (leavesRole_of fun _ _ _ _ h => absurd h (hfails _ _ _ _))
  | publishes hevent =>
    refine .of_eq (leavesRole_of fun _ _ _ _ h => ?_) ?_
    · cases hevent.symm.trans h.event
    · exact get_write_of_kind l (by simp)
  | commits hcommits hconsumes heffect hlogs =>
    rw [get_record hconsumes hlogs (by simp)]
    exact hcommits.roleStep hl heffect

/-! ### The record of one token -/

/-- The token a call is about. -/
def Call.token (R : Runtime B) (ctx : Context) : Call → Option String
  | .issueCrossZoneToken userID _ _ nonce => some (newTokenID R ctx userID nonce)
  | .revokeCrossZoneToken tokenID _ => some (trimSpace tokenID)
  | _ => none

/-- The event neither issues nor revokes the token. -/
structure LeavesToken (R : Runtime B) (tokenID : String) (l : Ledger B) (e : Event B) : Prop where
  unissued : ¬IssuedAs R tokenID l e
  unrevoked : ¬RevokesToken R tokenID l e

theorem leavesToken_of {tokenID : String}
    (h : ∀ ctx caller call response, Commits R l e ctx caller call response →
      call.token R ctx ≠ some tokenID) : LeavesToken R tokenID l e where
  unissued := by
    intro hcase
    obtain ⟨_, rfl, _, _, _, _, _, _, _, _, _, hc, _, _, _, _, rfl⟩ := hcase
    exact h _ _ _ _ hc rfl
  unrevoked := by
    intro hcase
    obtain ⟨_, _, _, _, hc, _, hs⟩ := hcase
    exact h _ _ _ _ hc (congrArg some hs)

theorem Commits.leavesToken {tokenID : String} {ctx : Context} {caller : CallerIdentity}
    {call : Call} {response : Response} (h : Commits R l e ctx caller call response)
    (hne : call.token R ctx ≠ some tokenID) : LeavesToken R tokenID l e := by
  refine leavesToken_of fun _ _ _ _ h' => ?_
  obtain ⟨rfl, -, rfl, -⟩ := h.unique h'
  exact hne

/-- What an event makes of the record under a token key. -/
inductive TokenStep (R : Runtime B) (tokenID : String) (l : Ledger B) (e : Event B) :
    Option B → Prop
  | issued {t : CrossZoneToken} (named : t.tokenID = tokenID) (issues : Issues R t l e) :
      TokenStep R tokenID l e (some (R.token.marshal t))
  | revoked (revokes : RevokesToken R tokenID l e) (unissued : ¬IssuedAs R tokenID l e) :
      TokenStep R tokenID l e none
  | kept (leaves : LeavesToken R tokenID l e) : TokenStep R tokenID l e (l.get (cztKey tokenID))

theorem TokenStep.of_eq {tokenID : String} {o : Option B} (leaves : LeavesToken R tokenID l e)
    (h : o = l.get (cztKey tokenID)) : TokenStep R tokenID l e o :=
  h ▸ .kept leaves

theorem Commits.tokenStep {tokenID : String} {ctx : Context} {caller : CallerIdentity}
    {call : Call} {response : Response} {own : WriteSet B} {entry : Option AuditEntry}
    (h : Commits R l e ctx caller call response) (hl : WellIndexed R l)
    (heffect : Effect R l ctx caller call response own entry) :
    TokenStep R tokenID l e ((l.apply own).get (cztKey tokenID)) := by
  cases heffect with
  | @issued userID _ _ nonce _ _ _ issuer found zoned expiry =>
    rw [Store.get_apply_singleton]
    by_cases ht : newTokenID R ctx userID nonce = tokenID
    · subst ht
      rw [if_pos rfl]
      exact .issued rfl ⟨_, _, _, _, _, _, _, _, _, h, issuer, found, zoned, expiry, rfl⟩
    · rw [if_neg fun hkey => ht (cztKey_inj.mp hkey).symm]
      exact .kept (h.leavesToken (by simpa [Call.token] using ht))
  | @tokenRevoked givenID _ issuer =>
    rw [deleteState, Store.get_apply_singleton]
    by_cases ht : trimSpace givenID = tokenID
    · subst ht
      rw [if_pos rfl]
      refine .revoked ⟨_, _, _, _, h, issuer, rfl⟩ ?_
      intro hcase
      obtain ⟨_, _, _, _, _, _, _, _, _, _, _, h', _⟩ := hcase
      cases (h.unique h').2.2.1
    · rw [if_neg fun hkey => ht (cztKey_inj.mp hkey).symm]
      exact .kept (h.leavesToken (by simpa [Call.token] using ht))
  | @checked _ _ _ _ decision =>
    refine .of_eq (h.leavesToken (by simp [Call.token])) ?_
    cases decision with
    | grant => rfl
    | deny reason => rfl
    | expire => exact get_apply_of_kinds l (by simp [AccessDecision.deletes, deleteState])
  | assigned =>
    exact .of_eq (h.leavesToken (by simp [Call.token])) (get_apply_of_kinds l (by simp))
  | revoked =>
    refine .of_eq (h.leavesToken (by simp [Call.token])) ?_
    exact get_apply_of_kinds l (by simp [deleteState])
  | renewed =>
    exact .of_eq (h.leavesToken (by simp [Call.token])) (get_apply_of_kinds l (by simp))
  | read => exact .kept (h.leavesToken (by simp [Call.token]))
  | pruned admin index swept =>
    refine .of_eq (h.leavesToken (by simp [Call.token])) ?_
    refine get_apply_of_kinds l fun w hw => ?_
    rcases hl.prune_kinds index swept w hw with hk | hk <;> simp [hk]
  | sensed =>
    exact .of_eq (h.leavesToken (by simp [Call.token])) (get_apply_of_kinds l (by simp))

theorem tokenStep (hl : WellIndexed R l) (tokenID : String) (e : Event B) :
    TokenStep R tokenID l e ((step R l e).get (cztKey tokenID)) := by
  have hcase := stepCase R l e
  generalize step R l e = l' at hcase ⊢
  cases hcase with
  | fails hfails => exact .kept (leavesToken_of fun _ _ _ _ h => absurd h (hfails _ _ _ _))
  | publishes hevent =>
    refine .of_eq (leavesToken_of fun _ _ _ _ h => ?_) ?_
    · cases hevent.symm.trans h.event
    · exact get_write_of_kind l (by simp)
  | commits hcommits hconsumes heffect hlogs =>
    rw [get_record hconsumes hlogs (by simp)]
    exact hcommits.tokenStep hl heffect

/-! ### Records and the history that made them -/

/-- The history of a stored assignment: which `AssignRole` gave the role and the
zones, and which operation set the expiry. -/
structure RoleRecord (R : Runtime B) (subject : String) (past : List (Event B))
    (a : RoleAssignment) : Prop where
  given : ∃ first : RoleAssignment, first.role = a.role ∧ first.zones = a.zones ∧
    Since (step R) (Assigns R subject first)
      (fun l e => ¬AssignedTo R subject l e ∧ ¬Revokes R subject l e) ∅ past
  expiry : Since (step R) (SetsExpiry R subject a.expiresAt)
    (fun l e => ∀ expiresAt, ¬SetsExpiry R subject expiresAt l e) ∅ past

/-- The history of a stored token: the `IssueCrossZoneToken` that stored it. -/
def TokenRecord (R : Runtime B) (past : List (Event B)) (t : CrossZoneToken) : Prop :=
  Since (step R) (Issues R t)
    (fun l e => ¬IssuedAs R t.tokenID l e ∧ ¬RevokesToken R t.tokenID l e) ∅ past

theorem getRoleAssignment_marshal {subject : String} (hs : trimSpace subject = subject)
    {a b : RoleAssignment} (hget : l.get (roleKey subject) = some (R.role.marshal a))
    (h : getRoleAssignment R l subject = .ok b) : b = a := by
  obtain ⟨_, payload, hpayload, hdecode⟩ := getRoleAssignment_eq_ok.mp h
  rw [hs] at hpayload
  cases hget.symm.trans hpayload
  rw [R.role.unmarshal_marshal] at hdecode
  exact (Except.ok.inj hdecode).symm

/-- Every role record under a trimmed subject comes with its history. -/
theorem roleRecord (R : Runtime B) {subject : String} (hs : trimSpace subject = subject)
    (past : List (Event B)) {payload : B}
    (h : (ledgerAfter R past).get (roleKey subject) = some payload) :
    ∃ a, payload = R.role.marshal a ∧ RoleRecord R subject past a := by
  revert payload
  refine history_invariant (step R) (fun past l => ∀ {payload : B},
    l.get (roleKey subject) = some payload →
      ∃ a, payload = R.role.marshal a ∧ RoleRecord R subject past a) ∅ ?_ ?_ past
  · intro payload h
    cases h
  · intro past e ih payload h
    have hcase := roleStep (wellIndexed_ledgerAfter R past) subject e
    rw [ledgerAfter] at hcase
    generalize (step R (run (step R) ∅ past) e).get (roleKey subject) = o at hcase h
    cases hcase with
    | @assigned a assigns =>
      cases h
      exact ⟨a, rfl, ⟨a, rfl, rfl, since_last assigns⟩, since_last (.inl ⟨a, rfl, assigns⟩)⟩
    | @renewed a expiresAt renews found unassigned unrevoked =>
      cases h
      obtain ⟨_, old, hold, _⟩ := getRoleAssignment_eq_ok.mp found
      rw [hs] at hold
      obtain ⟨b, rfl, hb⟩ := ih hold
      cases getRoleAssignment_marshal hs hold found
      obtain ⟨first, hrole, hzones, hsince⟩ := hb.given
      exact ⟨_, rfl, ⟨first, hrole, hzones, hsince.snoc ⟨unassigned, unrevoked⟩⟩,
        since_last (.inr renews)⟩
    | removed => cases h
    | kept leaves =>
      obtain ⟨a, rfl, ha⟩ := ih h
      obtain ⟨first, hrole, hzones, hsince⟩ := ha.given
      refine ⟨a, rfl, ⟨first, hrole, hzones,
        hsince.snoc ⟨leaves.unassigned, leaves.unrevoked⟩⟩, ha.expiry.snoc ?_⟩
      intro expiresAt hcase
      rcases hcase with ⟨b, _, hb⟩ | hrenew
      · exact leaves.unassigned ⟨b, hb⟩
      · exact leaves.unrenewed expiresAt hrenew

/-- Every token record comes with its history. -/
theorem tokenRecord (R : Runtime B) {tokenID : String} (past : List (Event B)) {payload : B}
    (h : (ledgerAfter R past).get (cztKey tokenID) = some payload) :
    ∃ t, payload = R.token.marshal t ∧ t.tokenID = tokenID ∧ TokenRecord R past t := by
  revert payload
  refine history_invariant (step R) (fun past l => ∀ {payload : B},
    l.get (cztKey tokenID) = some payload →
      ∃ t, payload = R.token.marshal t ∧ t.tokenID = tokenID ∧ TokenRecord R past t) ∅ ?_ ?_ past
  · intro payload h
    cases h
  · intro past e ih payload h
    have hcase := tokenStep (wellIndexed_ledgerAfter R past) tokenID e
    rw [ledgerAfter] at hcase
    generalize (step R (run (step R) ∅ past) e).get (cztKey tokenID) = o at hcase h
    cases hcase with
    | @issued t named issues =>
      cases h
      exact ⟨t, rfl, named, since_last issues⟩
    | revoked => cases h
    | kept leaves =>
      obtain ⟨t, rfl, rfl, ht⟩ := ih h
      exact ⟨t, rfl, rfl, ht.snoc ⟨leaves.unissued, leaves.unrevoked⟩⟩

/-- An assignment's zones are stored zones. -/
theorem Assigns.zones {subject : String} {a : RoleAssignment} (h : Assigns R subject a l e) :
    ∀ z ∈ a.zones, IsStoredZone z := by
  obtain ⟨_, _, _, _, _, _, _, _, _, _, _, _, _, hzones, _, rfl⟩ := h
  exact normalizeZonesForRole_stored hzones

theorem RoleRecord.zones {subject : String} {past : List (Event B)} {a : RoleAssignment}
    (h : RoleRecord R subject past a) : ∀ z ∈ a.zones, IsStoredZone z := by
  obtain ⟨first, _, hzones, _, _, _, _, hassigns, _⟩ := h.given
  exact hzones ▸ hassigns.zones

theorem Issues.zones {t : CrossZoneToken} (h : Issues R t l e) :
    ∀ z ∈ t.targetZones, IsStoredZone z := by
  obtain ⟨_, _, _, _, _, _, _, _, _, _, _, _, hzones, _, rfl⟩ := h
  exact normalizeZones_stored hzones

theorem TokenRecord.zones {past : List (Event B)} {t : CrossZoneToken}
    (h : TokenRecord R past t) : ∀ z ∈ t.targetZones, IsStoredZone z := by
  obtain ⟨_, _, _, _, hissues, _⟩ := h
  exact hissues.zones

end FarmChain.Chaincode
