import FarmChain.Chaincode.Guards

/-! What callers other than administrators can bring about.

They cannot write a role record: they can only have an expired one removed. Tokens
they issue need the permission to issue and a subject with a role. So whatever can
be granted after any number of their calls could be granted before, except to the
subject of a token issued on the way (`no_escalation`). -/
namespace FarmChain.Chaincode

open Strings Run

variable {B : Type} {R : Runtime B} {l : Ledger B}

/-- No call of an administrator. -/
def Unprivileged (R : Runtime B) (e : Event B) : Prop :=
  ∀ ctx call caller, e = .invoke ctx call → getCallerIdentity R ctx = .ok caller →
    caller.role ≠ .admin

/-- The subject's record stays as it is, or disappears because it had expired. -/
def OnlyExpires (R : Runtime B) (subject : String) (l : Ledger B) (e : Event B) : Prop :=
  (step R l e).get (roleKey subject) = l.get (roleKey subject) ∨
  (step R l e).get (roleKey subject) = none ∧ ∃ ctx call payload a, e = .invoke ctx call ∧
    l.get (roleKey subject) = some payload ∧ R.role.unmarshal payload = .ok a ∧
    ¬a.activeAt ctx.now

/-- A token issued by someone with the permission to a subject with a role. -/
def IssuesDuly (R : Runtime B) (t : CrossZoneToken) (l : Ledger B) (e : Event B) : Prop :=
  Issues R t l e ∧ (l.get (roleKey (trimSpace t.subjectID))).isSome ∧
    ∃ ctx call caller, e = .invoke ctx call ∧ getCallerIdentity R ctx = .ok caller ∧
      hasPermission caller.role .issueCrossZone = true

/-- Every new token record was issued duly. -/
def OnlyIssues (R : Runtime B) (tokenID : String) (l : Ledger B) (e : Event B) : Prop :=
  ∀ payload, (step R l e).get (cztKey tokenID) = some payload →
    l.get (cztKey tokenID) = some payload ∨
    ∃ t, payload = R.token.marshal t ∧ t.tokenID = tokenID ∧ IssuesDuly R t l e

theorem onlyExpires (hl : WellIndexed R l) {e : Event B} (he : Unprivileged R e)
    (subject : String) : OnlyExpires R subject l e := by
  have hcase := roleStep hl subject e
  unfold OnlyExpires
  generalize (step R l e).get (roleKey subject) = o at hcase ⊢
  cases hcase with
  | assigned assigns =>
    obtain ⟨_, _, _, _, _, _, _, _, _, hc, hadmin, _⟩ := assigns
    exact absurd hadmin (he _ _ _ hc.event hc.identity)
  | renewed renews =>
    obtain ⟨_, _, _, _, hc, hadmin, _⟩ := renews
    exact absurd hadmin (he _ _ _ hc.event hc.identity)
  | removed removes =>
    rcases removes with ⟨_, _, _, _, hc, hadmin, _⟩ | ⟨_, _, userID, _, _, _, a, hc, rfl, ha, hexpired⟩
    · exact absurd hadmin (he _ _ _ hc.event hc.identity)
    · obtain ⟨_, payload, hpayload, hdecode⟩ := getRoleAssignment_eq_ok.mp ha
      rw [trimSpace_trimSpace] at hpayload
      exact .inr ⟨rfl, _, _, payload, a, hc.event, hpayload, hdecode, hexpired⟩
  | kept => exact .inl rfl

theorem onlyIssues (hl : WellIndexed R l) {e : Event B} (he : Unprivileged R e)
    (tokenID : String) : OnlyIssues R tokenID l e := by
  intro payload hpayload
  have hcase := tokenStep hl tokenID e
  generalize (step R l e).get (cztKey tokenID) = o at hcase hpayload
  cases hcase with
  | @issued t named issues =>
    cases hpayload
    refine .inr ⟨t, rfl, named, issues, ?_⟩
    obtain ⟨ctx, caller, userID, _, _, _, a, _, _, hc, hissuer, ha, _, _, rfl⟩ := issues
    have hrole := he _ _ _ hc.event hc.identity
    obtain ⟨_, record, hrecord, _⟩ := getRoleAssignment_eq_ok.mp ha
    refine ⟨?_, ctx, _, caller, hc.event, hc.identity, ?_⟩
    · rw [show (newToken R ctx caller userID _ a _ _).subjectID = userID from rfl, hrecord]
      rfl
    · simpa [mayIssue, hrole] using hissuer
  | revoked => cases hpayload
  | kept => exact .inl hpayload

/-- Nothing takes a serial number off the revocation list. -/
theorem crl_step (hl : WellIndexed R l) (e : Event B) (serialHex : String)
    (h : (l.get (crlKey serialHex)).isSome) : ((step R l e).get (crlKey serialHex)).isSome := by
  have hcase := stepCase R l e
  generalize step R l e = l' at hcase ⊢
  cases hcase with
  | fails => exact h
  | publishes =>
    rw [Store.get_write]
    split
    · rfl
    · exact h
  | commits _ hconsumes heffect hlogs =>
    rw [get_record hconsumes hlogs (by simp), get_apply_of_kinds]
    · exact h
    · intro w hw
      rw [kindOf_crlKey]
      exact (heffect.own_kinds hl w hw).2.2

/-! ### What can be granted -/

/-- Some caller's access check at time `t` lets the user use the permission in the zone. -/
def CanGrant (R : Runtime B) (l : Ledger B) (t : Int64) (userID permissionName zone : String) :
    Prop :=
  ∃ ctx tokenID, ctx.now = t.toInt ∧ grants R l ctx userID permissionName zone tokenID = true

/-- The same transaction at another time. -/
def Context.at (ctx : Context) (t : Int64) : Context := { ctx with timestamp := ⟨t, 0⟩ }

@[simp] theorem Context.now_at (ctx : Context) (t : Int64) : (ctx.at t).now = t.toInt :=
  Time.sec_unix_zero t

theorem RoleAssignment.activeAt.mono {a : RoleAssignment} {t t' : Int} (ht : t ≤ t')
    (h : a.activeAt t') : a.activeAt t :=
  h.imp id ht.trans

/-- A live token is live before. -/
theorem validCrossZoneToken_of_record {l' : Ledger B} {ctx : Context} {t : Int64}
    {tokenID userID requestedZone : String} (ht : t.toInt ≤ ctx.now)
    (hrecord : l'.get (cztKey (trimSpace tokenID)) = l.get (cztKey (trimSpace tokenID)))
    (h : validCrossZoneToken R l' ctx tokenID userID requestedZone = .ok none) :
    validCrossZoneToken R l (ctx.at t) tokenID userID requestedZone = .ok none := by
  obtain ⟨payload, hpayload, token, hdecode, hsubject, hexpiry, hzone⟩ :=
    validCrossZoneToken_eq_none.mp h
  refine validCrossZoneToken_eq_none.mpr ⟨payload, hrecord ▸ hpayload, token, hdecode, hsubject,
    ?_, hzone⟩
  rw [Context.now_at]
  exact lt_of_le_of_lt ht hexpiry

theorem role_records_kept {subject : String} {events : List (Event B)}
    (h : Always (step R) (OnlyExpires R subject) l events) :
    (run (step R) l events).get (roleKey subject) = l.get (roleKey subject) ∨
      (run (step R) l events).get (roleKey subject) = none := by
  induction events generalizing l with
  | nil => exact .inl rfl
  | cons e rest ih =>
    have hfirst : (step R l e).get (roleKey subject) = l.get (roleKey subject) ∨
        (step R l e).get (roleKey subject) = none := h.1.imp id And.left
    rcases ih h.2 with hrest | hrest
    · exact hfirst.imp hrest.trans hrest.trans
    · exact .inr hrest

/-- A caller unrevoked at the end of a run was unrevoked at its start. -/
theorem unrevoked_before (hl : WellIndexed R l) {events : List (Event B)} {caller : CallerIdentity}
    (h : ¬caller.revoked (run (step R) l events)) : ¬caller.revoked l := by
  intro hcase
  obtain ⟨hserial, hlisted⟩ := hcase
  have hrun := run_invariant (step R)
    (fun l => WellIndexed R l ∧ (l.get (crlKey caller.serialHex)).isSome)
    (fun _ e h => ⟨wellIndexed_step h.1 e, crl_step h.1 e _ h.2⟩) l events ⟨hl, hlisted⟩
  exact h ⟨hserial, hrun.2⟩

/-- **No escalation without an administrator.** After any events none of which is an
administrator's call: every step left every role record alone unless it had expired,
and issued tokens duly; role records are a part of those before; what can be granted
without a zone could be granted before; and what can be granted in a zone could be
granted before, or the user's role already covered the permission and a token for
this zone was issued to the user on the way. -/
theorem no_escalation (R : Runtime B) (past events : List (Event B))
    (hunprivileged : ∀ e ∈ events, Unprivileged R e) :
    Always (step R) (fun l e => (∀ subject, OnlyExpires R subject l e) ∧
      ∀ tokenID, OnlyIssues R tokenID l e) (ledgerAfter R past) events ∧
    (∀ subject, (run (step R) (ledgerAfter R past) events).get (roleKey subject) =
        (ledgerAfter R past).get (roleKey subject) ∨
      (run (step R) (ledgerAfter R past) events).get (roleKey subject) = none) ∧
    ∀ (t t' : Int64) userID permissionName zone, t ≤ t' →
      CanGrant R (run (step R) (ledgerAfter R past) events) t' userID permissionName zone →
      CanGrant R (ledgerAfter R past) t userID permissionName zone ∨
        needsZoneCheck ⟨trimSpace permissionName⟩ = true ∧
        (∃ a, getRoleAssignment R (ledgerAfter R past) userID = .ok a ∧ a.activeAt t.toInt ∧
          ⟨trimSpace permissionName⟩ ∈ getEffectivePermissions a.role) ∧
        ∃ token : CrossZoneToken, token.subjectID = trimSpace userID ∧
          zone ∈ token.targetZones ∧ t'.toInt < token.expiresAt ∧
          Sometime (step R) (IssuesDuly R token) (ledgerAfter R past) events := by
  have hl := wellIndexed_ledgerAfter R past
  have hI (l : Ledger B) (e : Event B) (h : WellIndexed R l) := wellIndexed_step h e
  have hroles (subject : String) := role_records_kept (always_of_invariant hI
    (fun e he _ hs => onlyExpires hs (hunprivileged e he) subject) hl)
  refine ⟨always_of_invariant hI (fun e he _ hs => ⟨fun _ => onlyExpires hs (hunprivileged e he) _,
    fun _ => onlyIssues hs (hunprivileged e he) _⟩) hl, hroles, ?_⟩
  intro t t' userID permissionName zone hle hcase
  obtain ⟨ctx, tokenID, hnow, hgrant⟩ := hcase
  have ht : t.toInt ≤ ctx.now := hnow ▸ Int64.le_iff_toInt_le.mp hle
  obtain ⟨caller, hc, hunrevoked, a, ha, hactive, hpermission, hzone⟩ :=
    (grants_iff (run_invariant _ _ hI _ events hl)).mp hgrant
  -- the record that grants at the end was there at the start
  have ha' : getRoleAssignment R (ledgerAfter R past) (trimSpace userID) = .ok a := by
    obtain ⟨_, payload, hpayload, _⟩ := getRoleAssignment_eq_ok.mp ha
    rcases hroles (trimSpace (trimSpace userID)) with hsame | hnone
    · exact getRoleAssignment_congr hsame ▸ ha
    · cases hnone.symm.trans hpayload
  have hbefore (hopen : needsZoneCheck ⟨trimSpace permissionName⟩ = true →
      ZoneOpen R (ledgerAfter R past) (ctx.at t) a (trimSpace userID) zone tokenID) :
      CanGrant R (ledgerAfter R past) t userID permissionName zone := by
    refine ⟨ctx.at t, tokenID, ctx.now_at t, (grants_iff hl).mpr ⟨caller, hc,
      unrevoked_before hl hunrevoked, a, ha', ?_, hpermission, hopen⟩⟩
    rw [Context.now_at]
    exact hactive.mono ht
  by_cases hcheck : needsZoneCheck ⟨trimSpace permissionName⟩ = true
  · rcases hzone hcheck with hassigned | ⟨hgiven, htoken⟩
    · exact .inl (hbefore fun _ => .inl hassigned)
    · obtain ⟨payload, hpayload, token, hdecode, hsubject, hexpiry, htarget⟩ :=
        validCrossZoneToken_eq_none.mp htoken
      rcases sometime_or_initially hI (fun e he _ hs h => onlyIssues hs (hunprivileged e he)
        (trimSpace tokenID) payload h) hl hpayload with hinitial | hissued
      · exact .inl (hbefore fun _ => .inr ⟨hgiven,
          validCrossZoneToken_of_record ht (hpayload.trans hinitial.symm) htoken⟩)
      · obtain ⟨before, e, after, hes, _, rfl, _, hduly⟩ := hissued
        rw [R.token.unmarshal_marshal] at hdecode
        cases hdecode
        rw [getRoleAssignment_trimSpace] at ha'
        exact .inr ⟨hcheck, ⟨a, ha', hactive.mono ht, zonePermission_effective hcheck hpermission⟩,
          token, hsubject, (parseZones_normalized hduly.1.zones).mp htarget, hnow ▸ hexpiry,
          before, e, after, hes, hduly⟩
  · exact .inl (hbefore fun h => absurd h hcheck)

/-- An agronomist issues Bob, a farmer of the North, a token for the South. -/
def agronomistIssues : Event Document :=
  .invoke (mockContext "02" 110 "ann" .agronomist "North" 3)
    (.issueCrossZoneToken "bob" "South" "1970-01-01T00:08:20Z" "n2")

theorem agronomist_unprivileged : Unprivileged fieldRuntime agronomistIssues := by
  intro ctx call caller hevent hc
  cases hevent
  have hann : getCallerIdentity fieldRuntime (mockContext "02" 110 "ann" .agronomist "North" 3) =
      .ok ⟨"ann", .agronomist, "North", "3"⟩ := by decide
  cases hann.symm.trans hc
  decide

theorem no_escalation_agronomist :
    Always (step fieldRuntime) (fun l e => (∀ subject, OnlyExpires fieldRuntime subject l e) ∧
      ∀ tokenID, OnlyIssues fieldRuntime tokenID l e)
      (ledgerAfter fieldRuntime (tokenRun.take 1)) [agronomistIssues] :=
  (no_escalation fieldRuntime (tokenRun.take 1) [agronomistIssues]
    (by simpa using agronomist_unprivileged)).1

end FarmChain.Chaincode
