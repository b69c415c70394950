import FarmChain.Chaincode.Guards

/-! What a refusal leaves on the ledger.

`CheckAccess` reports a denial as its result, so the entry it logs and the expired
assignment it deletes are committed. Everywhere else a refusal is an error, and an
error commits nothing: `WriteSensorData` loses the very entry its access check has
just logged. -/
namespace FarmChain.Chaincode

open Strings Run

variable {B : Type}

/-- The access decision a call asks for, and about whom. -/
def Call.decides (R : Runtime B) (l : Ledger B) (ctx : Context) (caller : CallerIdentity) :
    Call → Option (String × Except String AccessDecision)
  | .checkAccess userID permissionName requestedZone tokenID =>
    some (trimSpace userID, decideAccess R l ctx caller (trimSpace userID)
      ⟨trimSpace permissionName⟩ requestedZone tokenID)
  | .writeSensorData _ _ zone _ =>
    some (trimSpace caller.id, decideAccess R l ctx caller (trimSpace caller.id) .writeSensor zone "")
  | _ => none

/-- A known caller with an unused nonce is refused for want of authority: the access
decision is against the user, or the certificate's role lacks the right. -/
structure Refused (R : Runtime B) (l : Ledger B) (ctx : Context) (caller : CallerIdentity)
    (call : Call) : Prop where
  identity : getCallerIdentity R ctx = .ok caller
  nonce : ∀ nonce, call.nonce = some nonce → nonce ≠ "" ∧ l.get (nonceKey caller.id nonce) = none
  authority : call.authorised caller.role = false ∨
    ∃ userID decision, call.decides R l ctx caller = some (userID, .ok decision) ∧
      decision.granted = false

/-- The attempt is on the ledger: a new denial by this caller in this transaction,
and an assignment found expired is gone. -/
structure Recorded (R : Runtime B) (l : Ledger B) (ctx : Context) (caller : CallerIdentity)
    (call : Call) : Prop where
  entry : ∃ key entry, kindOf key = .audit ∧ l.get key = none ∧
    (commit R l ctx call).get key = some (R.audit.marshal entry) ∧ entry.decision = "DENY" ∧
    entry.txID = ctx.txID ∧ entry.actorID = caller.id
  expired : ∀ userID, call.decides R l ctx caller = some (userID, .ok .expire) →
    (commit R l ctx call).get (roleKey userID) = none

variable {R : Runtime B} {l : Ledger B} {ctx : Context} {caller : CallerIdentity}

theorem AccessDecision.entry_of_denied {decision : AccessDecision} (h : decision.granted = false)
    (caller : CallerIdentity) (permission : Permission) (resource : String) :
    (decision.entry caller permission resource).decision = "DENY" ∧
      (decision.entry caller permission resource).actorID = caller.id := by
  cases decision with
  | grant => cases h
  | deny reason => exact ⟨rfl, rfl⟩
  | expire => exact ⟨rfl, rfl⟩

/-- The key an entry goes under is free and, for a hexadecimal identifier, an entry's. -/
theorem entryKey_new (hhex : IsHex ctx.txID) :
    l.get (entryKey l ctx) = none ∧ kindOf (entryKey l ctx) = .audit := by
  refine ⟨auditSequence_free l ctx.txID, ?_⟩
  rw [entryKey, kindOf_auditKeyWithSequence, if_neg]
  intro h
  have hkind := hhex.kindOf_auditKey
  rw [h.2, kindOf_auditKey, if_pos rfl] at hkind
  cases hkind

/-- A denied `CheckAccess` is recorded. -/
theorem recorded_checkAccess (hl : WellIndexed R l) (hhex : IsHex ctx.txID)
    {userID permissionName requestedZone tokenID : String}
    (h : Refused R l ctx caller (.checkAccess userID permissionName requestedZone tokenID)) :
    Recorded R l ctx caller (.checkAccess userID permissionName requestedZone tokenID) := by
  obtain ⟨_, decision, hdecides, hdenied⟩ : ∃ user decision,
      Call.decides R l ctx caller (.checkAccess userID permissionName requestedZone tokenID) =
        some (user, .ok decision) ∧ decision.granted = false :=
    h.authority.resolve_left (by simp [Call.authorised])
  obtain ⟨rfl, hdecision⟩ := Prod.mk.inj (Option.some.inj hdecides)
  obtain ⟨logged, hlog⟩ := hl.logs ctx
    (decision.entry caller ⟨trimSpace permissionName⟩ (trimSpace requestedZone))
  have hcheck := checkAccess_eq_ok.mpr
    ⟨caller, h.identity, decision, hdecision, logged, hlog, rfl, rfl⟩
  have hlogs := Logs.of_entry hlog
  have hcommit : commit R l ctx (.checkAccess userID permissionName requestedZone tokenID) =
      (l.apply (decision.deletes (trimSpace userID))).apply logged.2 := by
    simp only [commit, invoke, hcheck, bind, Except.bind, pure, Except.pure, Store.apply_append]
  obtain ⟨hfree, hkind⟩ := entryKey_new (l := l) hhex
  obtain ⟨hdeny, hactor⟩ := AccessDecision.entry_of_denied hdenied caller
    ⟨trimSpace permissionName⟩ (trimSpace requestedZone)
  refine ⟨⟨entryKey l ctx, AuditEntry.stamped _ ctx, hkind, hfree, ?_, hdeny, rfl, hactor⟩,
    fun user hexpire => ?_⟩
  · rw [hcommit, hlogs.get_entry _ hkind, if_pos rfl]
  · obtain ⟨rfl, hexpired⟩ := Prod.mk.inj (Option.some.inj hexpire)
    cases hdecision.symm.trans hexpired
    rw [hcommit, hlogs.get _ (by simp) (by simp), AccessDecision.deletes, deleteState,
      Store.get_apply_singleton, if_pos rfl]

/-- Any other refusal fails the call. -/
theorem Refused.fails {call : Call} (h : Refused R l ctx caller call)
    (hcall : ∀ userID permissionName requestedZone tokenID,
      call ≠ .checkAccess userID permissionName requestedZone tokenID) :
    succeeds R l ctx call = false := by
  refine Bool.eq_false_iff.mpr fun hok => ?_
  obtain ⟨caller', hadmits⟩ := succeeds_iff.mp hok
  cases h.identity.symm.trans hadmits.identity
  rcases h.authority with hrole | ⟨userID, decision, hdecides, hdenied⟩
  · rw [hadmits.authorised] at hrole
    cases hrole
  · cases call with
    | checkAccess => exact hcall _ _ _ _ rfl
    | writeSensorData =>
      obtain ⟨-, hdecision⟩ := Prod.mk.inj (Option.some.inj hdecides)
      cases hadmits.arguments.1.symm.trans hdecision
      cases hdenied
    | _ => cases hdecides

/-- **Only `CheckAccess` leaves its refusals on the ledger.** In every reachable state,
an attempt refused for want of authority is recorded exactly when it is a
`CheckAccess`. -/
theorem refused_recorded_iff (R : Runtime B) (past : List (Event B)) (ctx : Context)
    (caller : CallerIdentity) (call : Call) (hhex : IsHex ctx.txID)
    (h : Refused R (ledgerAfter R past) ctx caller call) :
    Recorded R (ledgerAfter R past) ctx caller call ↔
      ∃ userID permissionName requestedZone tokenID,
        call = .checkAccess userID permissionName requestedZone tokenID := by
  constructor
  · intro hrecorded
    by_contra hcall
    obtain ⟨key, entry, _, hnone, hsome, _⟩ := hrecorded.entry
    rw [commit_of_fails (h.fails fun u p z t hcheck => hcall ⟨u, p, z, t, hcheck⟩), hnone] at hsome
    cases hsome
  · intro ⟨_, _, _, _, hcall⟩
    subst hcall
    exact recorded_checkAccess (wellIndexed_ledgerAfter R past) hhex h

/-- A farmer whose role runs out at second 200. -/
def seasonRun : List (Event Document) :=
  [.invoke (mockContext "01" 100 "root" .admin "" 1)
    (.assignRole "bob" "Farmer" "North" "1970-01-01T00:03:20Z" "n1")]

def seasonOver : Context := mockContext "02" 300 "bob" .farmer "North" 2

def lateReading : Call := .writeSensorData "probe" "21" "North" "n2"

theorem lateReading_refused : Refused fieldRuntime (ledgerAfter fieldRuntime seasonRun) seasonOver
    ⟨"bob", .farmer, "North", "2"⟩ lateReading := by
  refine ⟨by decide, fun nonce hn => ?_, .inr ⟨"bob", .expire, by decide, rfl⟩⟩
  cases hn
  decide

/-- The farmer's late reading is refused, and neither the denial nor the removal of
the expired assignment is committed. -/
theorem lateReading_not_recorded :
    Refused fieldRuntime (ledgerAfter fieldRuntime seasonRun) seasonOver
      ⟨"bob", .farmer, "North", "2"⟩ lateReading ∧
    ¬Recorded fieldRuntime (ledgerAfter fieldRuntime seasonRun) seasonOver
      ⟨"bob", .farmer, "North", "2"⟩ lateReading ∧
    (commit fieldRuntime (ledgerAfter fieldRuntime seasonRun) seasonOver lateReading).get
      (roleKey "bob") ≠ none := by
  refine ⟨lateReading_refused, fun hrecorded => ?_, by decide⟩
  have hgone := hrecorded.expired "bob" (by decide)
  exact absurd hgone (by decide)

theorem refused_recorded_checkAccess :
    Recorded fieldRuntime (ledgerAfter fieldRuntime seasonRun) seasonOver
      ⟨"bob", .farmer, "North", "2"⟩ (.checkAccess "bob" "WriteSensor" "North" "") :=
  (refused_recorded_iff fieldRuntime seasonRun seasonOver _ _ (by decide)
    ⟨by decide, fun _ hn => (by cases hn), .inr ⟨"bob", .expire, by decide, rfl⟩⟩).mpr
    ⟨_, _, _, _, rfl⟩

end FarmChain.Chaincode
