import FarmChain.Chaincode.Effects

/-! What endorsing peers compute.

Each peer runs a transaction by itself, and Go leaves the order in which `range`
walks over a map open. Only the zone lists are read that way: `normalizeZones` stores
the zones in the order of the walk and reports the first invalid one it meets. A
transaction has one outcome exactly when it has one to store or report
(`endorsers_agree_iff`). -/
namespace FarmChain.Chaincode

open Strings

variable {B : Type}

/-- The transaction at a peer that walks over maps in this order. -/
def Context.withOrder (ctx : Context) (order : MapOrder) : Context := { ctx with mapOrder := order }

/-- Every peer computes the same answer and the same writes. -/
def OrderFree (R : Runtime B) (l : Ledger B) (ctx : Context) (call : Call) : Prop :=
  ∀ order order', invoke R l (ctx.withOrder order) call = invoke R l (ctx.withOrder order') call

/-- The map order that walks over the keys backwards. -/
def MapOrder.reversed : MapOrder := ⟨List.reverse, List.reverse_perm⟩

section
variable (R : Runtime B) (l : Ledger B) (ctx : Context) (order : MapOrder)

@[simp] theorem txTime_withOrder : txTime (ctx.withOrder order) = txTime ctx := rfl

@[simp] theorem getCallerIdentity_withOrder :
    getCallerIdentity R (ctx.withOrder order) = getCallerIdentity R ctx := rfl

@[simp] theorem validateNonce_withOrder (subjectID nonce : String) :
    validateNonce R l (ctx.withOrder order) subjectID nonce = validateNonce R l ctx subjectID nonce :=
  rfl

@[simp] theorem writeAuditEntry_withOrder (entry : AuditEntry) :
    writeAuditEntry R l (ctx.withOrder order) entry = writeAuditEntry R l ctx entry := rfl

@[simp] theorem parseFutureExpiry_withOrder (expiresAtISO : String) (required : Bool) :
    parseFutureExpiry R (ctx.withOrder order) expiresAtISO required =
      parseFutureExpiry R ctx expiresAtISO required := rfl

@[simp] theorem checkRoleExpiration_withOrder (assignment : RoleAssignment) :
    checkRoleExpiration (ctx.withOrder order) assignment = checkRoleExpiration ctx assignment := rfl

@[simp] theorem validCrossZoneToken_withOrder (tokenID userID requestedZone : String) :
    validCrossZoneToken R l (ctx.withOrder order) tokenID userID requestedZone =
      validCrossZoneToken R l ctx tokenID userID requestedZone := rfl

@[simp] theorem decideAccess_withOrder (caller : CallerIdentity) (userID : String)
    (permission : Permission) (requestedZone tokenID : String) :
    decideAccess R l (ctx.withOrder order) caller userID permission requestedZone tokenID =
      decideAccess R l ctx caller userID permission requestedZone tokenID := by
  simp only [decideAccess, checkRoleExpiration_withOrder, validCrossZoneToken_withOrder]

@[simp] theorem checkAccess_withOrder (userID permissionName requestedZone tokenID : String) :
    checkAccess R l (ctx.withOrder order) userID permissionName requestedZone tokenID =
      checkAccess R l ctx userID permissionName requestedZone tokenID := by
  simp only [checkAccess, getCallerIdentity_withOrder, decideAccess_withOrder,
    writeAuditEntry_withOrder]

end

/-- A zone that `normalizeZones` reports. -/
def isRefusedZone (zone : String) : Bool := zone ≠ "*" && !isZoneValid zone

def refusedZones (zonesCSV : String) : List String :=
  (parseZones [zonesCSV]).filter isRefusedZone

theorem parseZones_nodup (values : List String) : (parseZones values).Nodup := List.nodup_dedup _

/-- A list without repetitions that starts and ends alike has one element at most. -/
theorem length_le_one_of_ends {α : Type} {l : List α} (hl : l.Nodup) (h : l.head? = l.getLast?) :
    l.length ≤ 1 := by
  cases l with
  | nil => exact Nat.zero_le 1
  | cons first rest =>
    cases rest with
    | nil => exact Nat.le_refl 1
    | cons second more =>
      rw [List.getLast?_cons_cons, List.head?_cons] at h
      exact absurd (List.mem_of_getLast? h.symm) (List.nodup_cons.mp hl).1

section
variable {R : Runtime B}

/-! ### The zones in the order of the walk -/

/-- The loop stores its keys as they come, or reports the first it refuses. -/
theorem normalizeZonesLoop_eq {keys seen zones : List String} (hkeys : keys.Nodup)
    (hseen : ∀ key ∈ keys, key ∉ seen) : normalizeZonesLoop R keys seen zones =
      match (keys.filter isRefusedZone).head? with
      | some zone => .error ("invalid zone " ++ R.quote zone)
      | none => .ok (zones ++ keys) := by
  induction keys generalizing seen zones with
  | nil => simp [normalizeZonesLoop]
  | cons zone rest ih =>
    obtain ⟨hfresh, hrest⟩ := List.nodup_cons.mp hkeys
    have hseen' : ∀ key ∈ rest, key ∉ seen := fun key hkey =>
      hseen key (List.mem_cons_of_mem zone hkey)
    unfold normalizeZonesLoop
    by_cases hstar : zone = "*"
    · rw [if_pos hstar, ih hrest hseen', List.filter_cons_of_neg (by simp [isRefusedZone, hstar])]
      simp
    · rw [if_neg hstar]
      by_cases hvalid : isZoneValid zone = true
      · have hpush : ∀ key ∈ rest, key ∉ seen ++ [zone] := by
          intro key hkey hmem
          rcases List.mem_append.mp hmem with hmem | hmem
          · exact hseen' key hkey hmem
          · exact hfresh (List.mem_singleton.mp hmem ▸ hkey)
        rw [if_neg (by simp [hvalid]), if_neg (hseen zone (List.mem_cons_self ..)), ih hrest hpush,
          List.filter_cons_of_neg (by simp [isRefusedZone, hvalid])]
        simp
      · rw [if_pos (by simpa using hvalid),
          List.filter_cons_of_pos (by simp [isRefusedZone, hstar, hvalid])]
        rfl

/-- `normalizeZones` reports the first refused zone of the walk. -/
theorem normalizeZones_refused {order : MapOrder} {zonesCSV zone : String} {required : Bool}
    (h : ((order.iterate (parseZones [zonesCSV])).filter isRefusedZone).head? = some zone) :
    normalizeZones R order zonesCSV required = .error ("invalid zone " ++ R.quote zone) := by
  have hperm := order.perm (parseZones [zonesCSV])
  rw [normalizeZones, normalizeZonesLoop_eq (hperm.nodup_iff.mpr (parseZones_nodup _))
    fun _ _ => List.not_mem_nil, h]
  rfl

theorem refusedZones_perm (order : MapOrder) (zonesCSV : String) :
    ((order.iterate (parseZones [zonesCSV])).filter isRefusedZone).Perm (refusedZones zonesCSV) :=
  (order.perm _).filter _

/-- What `normalizeZones` returns is the walk, which is not empty where zones are required. -/
theorem normalizeZones_walk {order : MapOrder} {zonesCSV : String} {required : Bool}
    {zones : List String} (h : normalizeZones R order zonesCSV required = .ok zones) :
    zones = order.iterate (parseZones [zonesCSV]) ∧ (required = true → zones ≠ []) := by
  have hperm := order.perm (parseZones [zonesCSV])
  simp only [normalizeZones, Except.bind_eq_ok, Except.require_eq_ok, Except.pure_eq_ok] at h
  obtain ⟨_, hloop, _, hrequired, rfl⟩ := h
  rw [normalizeZonesLoop_eq (hperm.nodup_iff.mpr (parseZones_nodup _)) fun _ _ =>
    List.not_mem_nil] at hloop
  split at hloop
  · cases hloop
  · cases hloop
    exact ⟨rfl, fun hreq hnil => hrequired ⟨hreq, List.length_eq_zero_iff.mpr hnil⟩⟩

theorem normalizeZones_nodup {order : MapOrder} {zonesCSV : String} {required : Bool}
    {zones : List String} (h : normalizeZones R order zonesCSV required = .ok zones) :
    zones.Nodup := by
  obtain ⟨rfl, _⟩ := normalizeZones_walk h
  exact (order.perm _).nodup_iff.mpr (parseZones_nodup _)

/-- Without a refused zone `normalizeZones` returns the walk. -/
theorem normalizeZones_kept {zonesCSV : String} (h : refusedZones zonesCSV = []) (order : MapOrder)
    (required : Bool) : normalizeZones R order zonesCSV required =
      require (¬(required ∧ (parseZones [zonesCSV]).length = 0)) "zone is required" >>=
        fun _ => pure (order.iterate (parseZones [zonesCSV])) := by
  have hperm := order.perm (parseZones [zonesCSV])
  have hnone := refusedZones_perm order zonesCSV
  rw [h, List.perm_nil] at hnone
  rw [normalizeZones, normalizeZonesLoop_eq (hperm.nodup_iff.mpr (parseZones_nodup _))
    fun _ _ => List.not_mem_nil, hnone, ← hperm.length_eq]
  rfl

/-- The zone check of a role is made twice; the second never fails. -/
theorem normalizeZonesForRole_eq (order : MapOrder) (role : Role) (zonesCSV : String) :
    normalizeZonesForRole R order role zonesCSV =
      normalizeZones R order zonesCSV (zoneBound role) := by
  unfold normalizeZonesForRole
  cases h : normalizeZones R order zonesCSV (zoneBound role) with
  | error message => rfl
  | ok zones =>
    have hrequired := h
    simp only [normalizeZones, Except.bind_eq_ok, Except.require_eq_ok, Except.pure_eq_ok]
      at hrequired
    obtain ⟨_, _, _, hlength, rfl⟩ := hrequired
    show (require _ _ >>= fun _ => pure _) = _
    rw [require, if_pos hlength]
    rfl

/-! ### One outcome -/

/-- The list has one order as far as the call stores or reports it. -/
def OneOrder (zonesCSV : String) (stored : Prop) : Prop :=
  (refusedZones zonesCSV).length ≤ 1 ∧
    (refusedZones zonesCSV = [] → stored → (parseZones [zonesCSV]).length ≤ 1)

section
variable {α γ : Type} {rest : Except String α} {f : α → List String → γ}

/-- The zones are normalised, and what the rest returns is put together with them. -/
def storing (R : Runtime B) (zonesCSV : String) (required : Bool) (rest : Except String α)
    (f : α → List String → γ) (order : MapOrder) : Except String γ := do
  let zones ← normalizeZones R order zonesCSV required
  let a ← rest
  return f a zones

theorem oneOrder_of_storing (hquote : Function.Injective R.quote)
    (hf : ∀ a, Function.Injective (f a)) {zonesCSV : String} {required : Bool}
    (h : storing R zonesCSV required rest f .same = storing R zonesCSV required rest f .reversed) :
    OneOrder zonesCSV (∃ a, rest = .ok a) := by
  have hnodup := parseZones_nodup [zonesCSV]
  unfold storing at h
  rcases hrefused : refusedZones zonesCSV with _ | ⟨first, more⟩
  · refine ⟨by rw [hrefused]; exact Nat.zero_le 1, fun _ hstored => ?_⟩
    obtain ⟨a, rfl⟩ := hstored
    rw [normalizeZones_kept hrefused, normalizeZones_kept hrefused] at h
    by_contra hlength
    rw [require, if_pos (by omega)] at h
    have hwalk : parseZones [zonesCSV] = (parseZones [zonesCSV]).reverse :=
      hf a (Except.ok.inj h)
    refine hlength (length_le_one_of_ends hnodup ?_)
    rw [← List.head?_reverse, ← hwalk]
  · refine ⟨length_le_one_of_ends (hnodup.filter _) ?_, fun hnil => ?_⟩
    · have hsame : ((MapOrder.same.iterate (parseZones [zonesCSV])).filter isRefusedZone).head? =
          some first := by
        show (refusedZones zonesCSV).head? = _
        rw [hrefused]
        rfl
      obtain ⟨last, hlast⟩ : ∃ last, (refusedZones zonesCSV).getLast? = some last := by
        rw [hrefused]
        exact ⟨_, List.getLast?_cons⟩
      have hreversed : ((MapOrder.reversed.iterate (parseZones [zonesCSV])).filter
          isRefusedZone).head? = some last := by
        show ((parseZones [zonesCSV]).reverse.filter isRefusedZone).head? = _
        rw [List.filter_reverse, List.head?_reverse]
        exact hlast
      rw [normalizeZones_refused hsame, normalizeZones_refused hreversed] at h
      have hzone := hquote (append_inj_left (Except.error.inj h))
      show (refusedZones zonesCSV).head? = (refusedZones zonesCSV).getLast?
      rw [hlast, ← hzone, hrefused]
      rfl
    · rw [hrefused] at hnil
      cases hnil

theorem storing_of_oneOrder {zonesCSV : String} {required : Bool}
    (h : OneOrder zonesCSV (∃ a, rest = .ok a)) (order order' : MapOrder) :
    storing R zonesCSV required rest f order = storing R zonesCSV required rest f order' := by
  unfold storing
  rcases hrefused : refusedZones zonesCSV with _ | ⟨zone, more⟩
  · rw [normalizeZones_kept hrefused, normalizeZones_kept hrefused]
    cases hrest : rest with
    | error message => cases require (¬(required ∧ (parseZones [zonesCSV]).length = 0)) _ <;> rfl
    | ok a =>
      have hlength := h.2 hrefused ⟨a, hrest⟩
      have hwalk (o : MapOrder) : o.iterate (parseZones [zonesCSV]) = parseZones [zonesCSV] := by
        have hperm := o.perm (parseZones [zonesCSV])
        generalize parseZones [zonesCSV] = zones at hperm hlength
        match zones, hlength with
        | [], _ => exact hperm.eq_nil
        | [zone], _ => exact List.perm_singleton.mp hperm
      rw [hwalk, hwalk]
  · have hmore : more = [] := by
      have hlength := h.1
      rw [hrefused, List.length_cons] at hlength
      exact List.length_eq_zero_iff.mp (by omega)
    have hfirst (o : MapOrder) :
        ((o.iterate (parseZones [zonesCSV])).filter isRefusedZone).head? = some zone := by
      have hperm := refusedZones_perm o zonesCSV
      rw [hrefused, hmore, List.perm_singleton] at hperm
      rw [hperm]
      rfl
    rw [normalizeZones_refused (hfirst order), normalizeZones_refused (hfirst order')]

end

end

/-! ### The two operations -/

section
variable (R : Runtime B) (l : Ledger B) (ctx : Context)

/-- What follows the zones lets the call store them. -/
def Stores (expiresAtISO : String) (required : Bool) : Prop :=
  (∃ expiresAt, parseFutureExpiry R ctx expiresAtISO required = .ok expiresAt) ∧
    ∃ keys, getStringIndex R l auditIndexKey = .ok keys

/-- A call that comes to its zone list finds one order in it. -/
def ZonesAgree : Call → Prop
  | .assignRole subjectID roleName zonesCSV expiresAtISO nonce =>
    ∀ caller, getCallerIdentity R ctx = .ok caller →
      (∃ consumed, validateNonce R l ctx caller.id nonce = .ok consumed) → caller.role = .admin →
      trimSpace subjectID ≠ "" → isRoleValid ⟨trimSpace roleName⟩ = true →
      OneOrder zonesCSV (Stores R l ctx expiresAtISO false)
  | .issueCrossZoneToken userID targetZonesCSV expiresAtISO nonce =>
    ∀ caller, getCallerIdentity R ctx = .ok caller →
      (∃ consumed, validateNonce R l ctx caller.id nonce = .ok consumed) →
      mayIssue caller.role = true → (∃ a, getRoleAssignment R l userID = .ok a) →
      OneOrder targetZonesCSV (Stores R l ctx expiresAtISO true)
  | _ => True

/-- The guards of `AssignRole` before its zones. -/
def assignGuards (subjectID roleName nonce : String) :
    Except String (CallerIdentity × WriteSet B) := do
  let caller ← getCallerIdentity R ctx
  let consumed ← validateNonce R l ctx caller.id nonce
  require (caller.role = .admin) "unauthorized: admin role required to assign roles"
  require (trimSpace subjectID ≠ "") "subject id is required"
  require (isRoleValid ⟨trimSpace roleName⟩ = true) ("invalid role " ++ R.quote roleName)
  return (caller, consumed)

/-- The guards of `IssueCrossZoneToken` before its zones. -/
def issueGuards (userID nonce : String) :
    Except String (CallerIdentity × WriteSet B × RoleAssignment) := do
  let caller ← getCallerIdentity R ctx
  let consumed ← validateNonce R l ctx caller.id nonce
  require (mayIssue caller.role = true) "unauthorized: IssueCrossZone permission required"
  let assignment ← getRoleAssignment R l userID
  return (caller, consumed, assignment)

/-- What follows the zones: the expiry, and the writes that log the entry. -/
def expiryAndLog (expiresAtISO : String) (required : Bool) (entry : AuditEntry) :
    Except String (Int × WriteSet B) := do
  let expiresAt ← parseFutureExpiry R ctx expiresAtISO required
  let (_, logged) ← writeAuditEntry R l ctx entry
  return (expiresAt, logged)

/-- What `AssignRole` returns and writes for its zones. -/
def assignOutput (guards : CallerIdentity × WriteSet B) (subjectID roleName : String)
    (rest : Int × WriteSet B) (zones : List String) : Response × WriteSet B :=
  (.done, guards.2 ++ (roleKey (trimSpace subjectID),
    some (R.role.marshal (newAssignment ctx guards.1 subjectID roleName zones rest.1))) :: rest.2)

/-- What `IssueCrossZoneToken` returns and writes for its target zones. -/
def issueOutput (guards : CallerIdentity × WriteSet B × RoleAssignment) (userID nonce : String)
    (rest : Int × WriteSet B) (targets : List String) : Response × WriteSet B :=
  (.token (newTokenID R ctx userID nonce), guards.2.1 ++ (cztKey (newTokenID R ctx userID nonce),
    some (R.token.marshal (newToken R ctx guards.1 userID nonce guards.2.2 targets rest.1))) :: rest.2)

end

variable {R : Runtime B} {l : Ledger B} {ctx : Context}

theorem stores_iff {expiresAtISO : String} {required : Bool} {entry : AuditEntry} :
    (∃ out, expiryAndLog R l ctx expiresAtISO required entry = .ok out) ↔
      Stores R l ctx expiresAtISO required := by
  simp only [expiryAndLog, Except.bind_eq_ok, Except.pure_eq_ok, writeAuditEntry_eq_ok, Stores]
  constructor
  · intro hcase
    obtain ⟨_, expiresAt, hexpiry, _, ⟨keys, hkeys, _⟩, _⟩ := hcase
    exact ⟨⟨expiresAt, hexpiry⟩, keys, hkeys⟩
  · intro hcase
    obtain ⟨⟨expiresAt, hexpiry⟩, keys, hkeys⟩ := hcase
    exact ⟨_, expiresAt, hexpiry, _, ⟨keys, hkeys, rfl⟩, rfl⟩

theorem assignGuards_eq_ok {subjectID roleName nonce : String} {out : CallerIdentity × WriteSet B} :
    assignGuards R l ctx subjectID roleName nonce = .ok out ↔
      getCallerIdentity R ctx = .ok out.1 ∧ validateNonce R l ctx out.1.id nonce = .ok out.2 ∧
        out.1.role = .admin ∧ trimSpace subjectID ≠ "" ∧
        isRoleValid ⟨trimSpace roleName⟩ = true := by
  simp only [assignGuards, Except.bind_eq_ok, Except.require_eq_ok, Except.pure_eq_ok, exists_const]
  constructor
  · intro hcase
    obtain ⟨caller, hc, consumed, hn, hadmin, hs, hv, rfl⟩ := hcase
    exact ⟨hc, hn, hadmin, hs, hv⟩
  · intro hcase
    obtain ⟨hc, hn, hadmin, hs, hv⟩ := hcase
    exact ⟨_, hc, _, hn, hadmin, hs, hv, rfl⟩

theorem issueGuards_eq_ok {userID nonce : String} {out : CallerIdentity × WriteSet B × RoleAssignment} :
    issueGuards R l ctx userID nonce = .ok out ↔
      getCallerIdentity R ctx = .ok out.1 ∧ validateNonce R l ctx out.1.id nonce = .ok out.2.1 ∧
        mayIssue out.1.role = true ∧ getRoleAssignment R l userID = .ok out.2.2 := by
  simp only [issueGuards, Except.bind_eq_ok, Except.require_eq_ok, Except.pure_eq_ok, exists_const]
  constructor
  · intro hcase
    obtain ⟨caller, hc, consumed, hn, hissue, a, ha, rfl⟩ := hcase
    exact ⟨hc, hn, hissue, ha⟩
  · intro hcase
    obtain ⟨hc, hn, hissue, ha⟩ := hcase
    exact ⟨_, hc, _, hn, hissue, _, ha, rfl⟩

theorem invoke_assignRole (order : MapOrder)
    (subjectID roleName zonesCSV expiresAtISO nonce : String) :
    invoke R l (ctx.withOrder order) (.assignRole subjectID roleName zonesCSV expiresAtISO nonce) =
      assignGuards R l ctx subjectID roleName nonce >>= fun guards =>
        storing R zonesCSV (zoneBound ⟨trimSpace roleName⟩)
          (expiryAndLog R l ctx expiresAtISO false (.of guards.1.id "AssignRole" (trimSpace subjectID)
            "GRANT" ("assigned " ++ trimSpace roleName)))
          (assignOutput R ctx guards subjectID roleName) order := by
  simp only [invoke, assignRole, assignGuards, storing, expiryAndLog, bind_assoc, pure_bind,
    normalizeZonesForRole_eq]
  rfl

theorem invoke_issueCrossZoneToken (order : MapOrder)
    (userID targetZonesCSV expiresAtISO nonce : String) :
    invoke R l (ctx.withOrder order)
        (.issueCrossZoneToken userID targetZonesCSV expiresAtISO nonce) =
      issueGuards R l ctx userID nonce >>= fun guards =>
        storing R targetZonesCSV true
          (expiryAndLog R l ctx expiresAtISO true (.of guards.1.id "IssueCrossZoneToken" userID "GRANT"
            (newTokenID R ctx userID nonce)))
          (issueOutput R ctx guards userID nonce) order := by
  simp only [invoke, issueCrossZoneToken, issueGuards, storing, expiryAndLog, bind_assoc, pure_bind]
  rfl

/-- What is written tells the zones it was written for. -/
theorem assignOutput_injective (guards : CallerIdentity × WriteSet B) (subjectID roleName : String)
    (rest : Int × WriteSet B) :
    Function.Injective (assignOutput R ctx guards subjectID roleName rest) := by
  intro zones zones' h
  have hwrites := List.append_cancel_left (Prod.mk.inj h).2
  have hpayload := (Prod.mk.inj (List.cons.inj hwrites).1).2
  exact congrArg RoleAssignment.zones (R.role.marshal_injective (Option.some.inj hpayload))

theorem issueOutput_injective (guards : CallerIdentity × WriteSet B × RoleAssignment)
    (userID nonce : String) (rest : Int × WriteSet B) :
    Function.Injective (issueOutput R ctx guards userID nonce rest) := by
  intro targets targets' h
  have hwrites := List.append_cancel_left (Prod.mk.inj h).2
  have hpayload := (Prod.mk.inj (List.cons.inj hwrites).1).2
  exact congrArg CrossZoneToken.targetZones (R.token.marshal_injective (Option.some.inj hpayload))

/-- **Endorsing peers agree exactly on the lists with one order.** Whatever order its
runtime picks, every peer computes the same answer and writes if and only if a call
that comes to its zone list finds at most one invalid zone there, and at most one zone
when it goes on to store them. -/
theorem endorsers_agree_iff (R : Runtime B) (hquote : Function.Injective R.quote) (l : Ledger B)
    (ctx : Context) (call : Call) : OrderFree R l ctx call ↔ ZonesAgree R l ctx call := by
  cases call with
  | assignRole subjectID roleName zonesCSV expiresAtISO nonce =>
    constructor
    · intro h caller hc hnonce hadmin hs hv
      obtain ⟨consumed, hn⟩ := hnonce
      have hguards : assignGuards R l ctx subjectID roleName nonce = .ok (caller, consumed) :=
        assignGuards_eq_ok.mpr ⟨hc, hn, hadmin, hs, hv⟩
      have hpeers := h .same .reversed
      rw [invoke_assignRole, invoke_assignRole, hguards, Except.ok_bind, Except.ok_bind] at hpeers
      rw [← stores_iff]
      exact oneOrder_of_storing hquote (assignOutput_injective _ _ _) hpeers
    · intro h order order'
      rw [invoke_assignRole, invoke_assignRole]
      cases hguards : assignGuards R l ctx subjectID roleName nonce with
      | error message => rfl
      | ok out =>
        obtain ⟨hc, hn, hadmin, hs, hv⟩ := assignGuards_eq_ok.mp hguards
        have hone := h out.1 hc ⟨_, hn⟩ hadmin hs hv
        rw [← stores_iff] at hone
        exact storing_of_oneOrder hone order order'
  | issueCrossZoneToken userID targetZonesCSV expiresAtISO nonce =>
    constructor
    · intro h caller hc hnonce hissue hfound
      obtain ⟨consumed, hn⟩ := hnonce
      obtain ⟨a, ha⟩ := hfound
      have hguards : issueGuards R l ctx userID nonce = .ok (caller, consumed, a) :=
        issueGuards_eq_ok.mpr ⟨hc, hn, hissue, ha⟩
      have hpeers := h .same .reversed
      rw [invoke_issueCrossZoneToken, invoke_issueCrossZoneToken, hguards, Except.ok_bind,
        Except.ok_bind] at hpeers
      rw [← stores_iff]
      exact oneOrder_of_storing hquote (issueOutput_injective _ _ _) hpeers
    · intro h order order'
      rw [invoke_issueCrossZoneToken, invoke_issueCrossZoneToken]
      cases hguards : issueGuards R l ctx userID nonce with
      | error message => rfl
      | ok out =>
        obtain ⟨hc, hn, hissue, ha⟩ := issueGuards_eq_ok.mp hguards
        have hone := h out.1 hc ⟨_, hn⟩ hissue ⟨_, ha⟩
        rw [← stores_iff] at hone
        exact storing_of_oneOrder hone order order'
  | _ => exact iff_of_true (fun _ _ => by simp only [invoke, revokeRole, renewRole,
      revokeCrossZoneToken, getAuditLog, pruneNonces, writeSensorData, getCallerIdentity_withOrder,
      validateNonce_withOrder, writeAuditEntry_withOrder, parseFutureExpiry_withOrder,
      checkAccess_withOrder, txTime_withOrder]) trivial

/-- An administrator gives a role in two zones. -/
def twoZones : Call := .assignRole "bob" "Farmer" "North,South" "" "n1"

theorem quote_injective : Function.Injective (Runtime.documents [] [] [] []).quote := by
  intro a b h
  have hlist := congrArg String.toList h
  simp only [Runtime.documents, String.toList_append, List.append_left_inj,
    List.append_right_inj] at hlist
  exact String.toList_inj.mp hlist

/-- Two peers store the two zones in different orders. -/
theorem endorsers_disagree :
    ¬OrderFree (.documents [] [] [] []) ∅ (mockContext "01" 100 "root" .admin "" 1) twoZones ∧
    (commit (.documents [] [] [] []) ∅
        ((mockContext "01" 100 "root" .admin "" 1).withOrder .same) twoZones).get (roleKey "bob") ≠
      (commit (.documents [] [] [] []) ∅
        ((mockContext "01" 100 "root" .admin "" 1).withOrder .reversed) twoZones).get
        (roleKey "bob") := by
  have hcommits : (commit (.documents [] [] [] []) ∅
        ((mockContext "01" 100 "root" .admin "" 1).withOrder .same) twoZones).get (roleKey "bob") ≠
      (commit (.documents [] [] [] []) ∅
        ((mockContext "01" 100 "root" .admin "" 1).withOrder .reversed) twoZones).get
        (roleKey "bob") := by decide
  refine ⟨fun hfree => hcommits ?_, hcommits⟩
  unfold commit
  rw [hfree .same .reversed]

/-- In one zone every peer stores the same. -/
theorem endorsers_agree_north : OrderFree (.documents [] [] [] []) ∅
    (mockContext "01" 100 "root" .admin "" 1) (.assignRole "bob" "Farmer" "North" "" "n1") := by
  refine (endorsers_agree_iff _ quote_injective _ _ _).mpr fun _ _ _ _ _ _ => ?_
  exact ⟨by decide, fun _ _ => by decide⟩

end FarmChain.Chaincode
