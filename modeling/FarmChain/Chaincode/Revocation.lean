import FarmChain.Chaincode.Guards

/-! What revocation takes away.

A certificate is revoked by publishing its serial number, a role by deleting or
outliving its assignment. The two access checks consult both; the seven other
operations go by the role in the certificate alone. So a revoked certificate keeps
whatever these would do for its role (`revoked_confersNothing_iff`), and a revoked
role loses exactly what is granted through the ledger
(`revokedRole_confersNothing`). -/
namespace FarmChain.Chaincode

open Strings Run

variable {B : Type} {R : Runtime B} {l : Ledger B} {ctx : Context}

/-! ### Revoked certificates -/

/-- The call is refused, changes no record and leaves at most a denial in the log. -/
structure ConfersNothing (R : Runtime B) (l : Ledger B) (ctx : Context) (call : Call) : Prop where
  refused : ∀ response ws, invoke R l ctx call = .ok (response, ws) → response = .access false
  records : ∀ key, kindOf key ≠ .audit → kindOf key ≠ .auditIndex →
    (commit R l ctx call).get key = l.get key
  log : commit R l ctx call = l ∨ ∃ entry key ws, entry.decision = "DENY" ∧
    writeAuditEntry R l ctx entry = .ok (key, ws) ∧ commit R l ctx call = l.apply ws

/-- A call that fails confers nothing. -/
theorem confersNothing_of_fails {call : Call} (h : succeeds R l ctx call = false) :
    ConfersNothing R l ctx call where
  refused response ws hok := by
    rw [succeeds_eq_true.mpr ⟨response, ws, hok⟩] at h
    cases h
  records key _ _ := by rw [commit_of_fails h]
  log := .inl (commit_of_fails h)

/-- A denial that removes no assignment confers nothing. -/
theorem confersNothing_of_deny {userID permissionName requestedZone tokenID : String}
    (h : ∀ caller, getCallerIdentity R ctx = .ok caller → ∃ reason, decideAccess R l ctx caller
      (trimSpace userID) ⟨trimSpace permissionName⟩ requestedZone tokenID = .ok (.deny reason)) :
    ConfersNothing R l ctx (.checkAccess userID permissionName requestedZone tokenID) := by
  by_cases hok : succeeds R l ctx (.checkAccess userID permissionName requestedZone tokenID) = true
  · obtain ⟨response, ws, hinvoke⟩ := succeeds_eq_true.mp hok
    have hcommit := commit_of_ok hinvoke
    simp only [invoke, Except.bind_eq_ok, Except.pure_eq_ok, Prod.mk.injEq] at hinvoke
    obtain ⟨⟨granted, ws⟩, hcheck, rfl, rfl⟩ := hinvoke
    obtain ⟨caller, hc, decision, hd, ⟨key, logged⟩, hlog, rfl, rfl⟩ := checkAccess_eq_ok.mp hcheck
    obtain ⟨reason, hdeny⟩ := h caller hc
    cases hd.symm.trans hdeny
    have hlogs := Logs.of_entry hlog
    refine ⟨fun response' ws' hok' => ?_, fun key ha hi => ?_, .inr ⟨_, key, logged, rfl, hlog, ?_⟩⟩
    · simp only [invoke, Except.bind_eq_ok, Except.pure_eq_ok, Prod.mk.injEq] at hok'
      obtain ⟨out, hcheck', rfl, rfl⟩ := hok'
      cases hcheck.symm.trans hcheck'
      rfl
    · rw [hcommit]
      exact hlogs.get l ha hi
    · exact hcommit
  · exact confersNothing_of_fails (by simpa using hok)

theorem decideAccess_revoked {caller : CallerIdentity} (h : caller.revoked l)
    (userID requestedZone tokenID : String) (permission : Permission) :
    decideAccess R l ctx caller userID permission requestedZone tokenID =
      .ok (.deny "certificate revoked") := by
  unfold decideAccess
  exact if_pos h

/-- Only the access checks answer with a denial. -/
theorem Effect.isAccessCheck {caller : CallerIdentity} {call : Call} {own : WriteSet B}
    {entry : Option AuditEntry} (h : Effect R l ctx caller call (.access false) own entry) :
    call.isAccessCheck = true := by
  generalize hresponse : Response.access false = response at h
  cases h with
  | checked => rfl
  | _ => cases hresponse

/-- **What a revoked certificate still confers.** With the certificate's serial number
on the revocation list, a call confers nothing exactly when it is one of the two
access checks or some guard that has nothing to do with revocation refuses it. -/
theorem revoked_confersNothing_iff (R : Runtime B) (l : Ledger B) (ctx : Context) (call : Call)
    {cert : Certificate} (hcert : ctx.creator = some (.ok cert))
    (hrevoked : (l.get (crlKey (serialHex (some cert.serialNumber)))).isSome) :
    ConfersNothing R l ctx call ↔
      call.isAccessCheck = true ∨ ¬∃ caller, Admits R l ctx call caller := by
  have hrev (caller : CallerIdentity) (hc : getCallerIdentity R ctx = .ok caller) :
      caller.revoked l := by
    have hserial := getCallerIdentity_serialHex hcert hc
    exact ⟨hserial ▸ serialHex_ne_empty _, hserial ▸ hrevoked⟩
  constructor
  · intro h
    refine or_iff_not_imp_right.mpr fun hadmits => ?_
    obtain ⟨response, ws, hok⟩ := succeeds_eq_true.mp (succeeds_iff.mpr (not_not.mp hadmits))
    cases h.refused response ws hok
    obtain ⟨_, _, _, _, _, _, _, heffect, _, _⟩ := invoke_effect hok
    exact heffect.isAccessCheck
  · intro hcase
    rcases hcase with hcheck | hadmits
    · cases call with
      | checkAccess userID permissionName requestedZone tokenID =>
        exact confersNothing_of_deny fun caller hc => ⟨_, decideAccess_revoked (hrev caller hc) ..⟩
      | writeSensorData deviceID readingJSON zone nonce =>
        refine confersNothing_of_fails (Bool.eq_false_iff.mpr fun hok => ?_)
        obtain ⟨caller, h⟩ := succeeds_iff.mp hok
        have hgrant := h.arguments.1
        rw [decideAccess_revoked (hrev caller h.identity)] at hgrant
        cases hgrant
      | _ => cases hcheck
    · exact confersNothing_of_fails (Bool.eq_false_iff.mpr fun hok =>
        hadmits (succeeds_iff.mp hok))

/-- The administrator with serial number 1, after its certificate was revoked. -/
def revokedRoot : Ledger Document := ledgerAfter fieldRuntime [.publishCRL "1" (.text "revoked")]

/-- A revoked administrator still assigns roles. -/
theorem revokedRoot_assigns :
    (revokedRoot.get (crlKey (serialHex (some 1)))).isSome ∧
      ¬ConfersNothing fieldRuntime revokedRoot (mockContext "01" 100 "root" .admin "" 1)
        (.assignRole "mallory" "Admin" "" "" "n1") := by
  refine ⟨by decide, fun h => ?_⟩
  obtain ⟨response, ws, hok⟩ := succeeds_eq_true.mp (by decide : succeeds fieldRuntime revokedRoot
    (mockContext "01" 100 "root" .admin "" 1) (.assignRole "mallory" "Admin" "" "" "n1") = true)
  have hrefused := h.refused response ws hok
  obtain ⟨_, _, _, _, _, _, _, heffect, _, _⟩ := invoke_effect (hrefused ▸ hok)
  cases heffect.isAccessCheck

theorem revoked_confersNothing_checkAccess :
    ConfersNothing fieldRuntime revokedRoot (mockContext "01" 100 "root" .admin "" 1)
      (.checkAccess "root" "ReadAll" "" "") :=
  (revoked_confersNothing_iff fieldRuntime revokedRoot _ _ rfl (by decide)).mpr (.inl rfl)

/-! ### Revoked and expired roles -/

/-- After a revocation that no assignment followed, there is no record. -/
theorem no_record_since_revoked {subject : String} (hs : trimSpace subject = subject)
    {past : List (Event B)}
    (h : Since (step R) (Revokes R subject) (fun l e => ¬AssignedTo R subject l e) ∅ past) :
    (ledgerAfter R past).get (roleKey subject) = none := by
  refine h.induction (WellIndexed R) (fun l => l.get (roleKey subject) = none)
    (fun _ e hl => wellIndexed_step hl e) ?_ ?_ (wellIndexed_empty R)
  · intro l e hl hrevoke
    have hcase := roleStep hl subject e
    generalize (step R l e).get (roleKey subject) = o at hcase ⊢
    cases hcase with
    | assigned assigns =>
      obtain ⟨_, _, _, _, h, _⟩ := hrevoke
      obtain ⟨_, _, _, _, _, _, _, _, _, h', _⟩ := assigns
      cases (h.unique h').2.2.1
    | renewed _ _ _ unrevoked => exact absurd hrevoke unrevoked
    | removed => rfl
    | kept leaves => exact absurd hrevoke leaves.unrevoked
  · intro l e hl hnone hunassigned
    have hcase := roleStep hl subject e
    generalize (step R l e).get (roleKey subject) = o at hcase ⊢
    cases hcase with
    | assigned assigns => exact absurd ⟨_, assigns⟩ hunassigned
    | renewed _ found =>
      obtain ⟨_, payload, hpayload, _⟩ := getRoleAssignment_eq_ok.mp found
      rw [hs, hnone] at hpayload
      cases hpayload
    | removed => rfl
    | kept => exact hnone

/-- The user's role was revoked and not given again, or the assignment has run out. -/
def RoleLost (R : Runtime B) (past : List (Event B)) (ctx : Context) (userID : String) : Prop :=
  Since (step R) (Revokes R (trimSpace userID))
      (fun l e => ¬AssignedTo R (trimSpace userID) l e) ∅ past ∨
    ∃ a, getRoleAssignment R (ledgerAfter R past) userID = .ok a ∧ ¬a.activeAt ctx.now

/-- A lost role has no assignment in force. -/
theorem RoleLost.not_active {past : List (Event B)} {userID : String}
    (h : RoleLost R past ctx userID) {a : RoleAssignment}
    (ha : getRoleAssignment R (ledgerAfter R past) (trimSpace userID) = .ok a) :
    ¬a.activeAt ctx.now := by
  rcases h with hsince | ⟨b, hb, hexpired⟩
  · have hnone := no_record_since_revoked (trimSpace_trimSpace userID) hsince
    obtain ⟨_, payload, hpayload, _⟩ := getRoleAssignment_eq_ok.mp ha
    rw [trimSpace_trimSpace, hnone] at hpayload
    cases hpayload
  · rw [getRoleAssignment_trimSpace] at ha
    cases ha.symm.trans hb
    exact hexpired

/-- **A lost role confers nothing through the ledger.** No access check grants it
anything, the user's own sensor writes fail, and any other operation the user calls
succeeds only on the authority of the role in the certificate. -/
theorem roleLost_strips (R : Runtime B) (past : List (Event B)) (ctx : Context) (userID : String)
    (h : RoleLost R past ctx userID) :
    (∀ permissionName requestedZone tokenID,
      grants R (ledgerAfter R past) ctx userID permissionName requestedZone tokenID = false) ∧
    ∀ caller, getCallerIdentity R ctx = .ok caller → caller.id = userID →
      (∀ deviceID readingJSON zone nonce, succeeds R (ledgerAfter R past) ctx
        (.writeSensorData deviceID readingJSON zone nonce) = false) ∧
      ∀ call, succeeds R (ledgerAfter R past) ctx call = true →
        call.authorised caller.role = true := by
  refine ⟨fun permissionName requestedZone tokenID => ?_, fun caller hc hid => ⟨?_, ?_⟩⟩
  · refine Bool.eq_false_iff.mpr fun hgrant => ?_
    obtain ⟨_, _, _, a, ha, hactive, _⟩ := (grants_iff (wellIndexed_ledgerAfter R past)).mp hgrant
    exact h.not_active ha hactive
  · intro deviceID readingJSON zone nonce
    refine Bool.eq_false_iff.mpr fun hok => ?_
    obtain ⟨caller', hadmits⟩ := succeeds_iff.mp hok
    cases hc.symm.trans hadmits.identity
    obtain ⟨_, a, ha, hactive, _⟩ := decideAccess_eq_grant.mp hadmits.arguments.1
    rw [hid] at ha
    exact h.not_active ha hactive
  · intro call hok
    obtain ⟨caller', hadmits⟩ := succeeds_iff.mp hok
    cases hc.symm.trans hadmits.identity
    exact hadmits.authorised

/-- Alice, an administrator by her certificate, is given that role and loses it. -/
def aliceGiven : Event Document :=
  .invoke (mockContext "01" 100 "root" .admin "" 1) (.assignRole "alice" "Admin" "" "" "n1")

def aliceRevoked : Event Document :=
  .invoke (mockContext "02" 110 "root" .admin "" 1) (.revokeRole "alice" "n2")

def aliceLater : Context := mockContext "03" 300 "alice" .admin "" 2

theorem alice_lost : RoleLost fieldRuntime ([aliceGiven] ++ [aliceRevoked]) aliceLater "alice" :=
  .inl (since_last ⟨mockContext "02" 110 "root" .admin "" 1, ⟨"root", .admin, "", "1"⟩, "alice",
    "n2", ⟨rfl, by decide, invoke_answers (by decide +kernel)⟩, by decide, rfl⟩)

/-- Her certificate still lets her assign roles. -/
theorem alice_lost_assigns :
    RoleLost fieldRuntime ([aliceGiven] ++ [aliceRevoked]) aliceLater "alice" ∧
      succeeds fieldRuntime (ledgerAfter fieldRuntime ([aliceGiven] ++ [aliceRevoked])) aliceLater
        (.assignRole "mallory" "Admin" "" "" "n3") = true :=
  ⟨alice_lost, by decide⟩

theorem roleLost_strips_alice :
    grants fieldRuntime (ledgerAfter fieldRuntime ([aliceGiven] ++ [aliceRevoked])) aliceLater
      "alice" "ReadAll" "" "" = false :=
  (roleLost_strips fieldRuntime _ aliceLater "alice" alice_lost).1 ..

end FarmChain.Chaincode
