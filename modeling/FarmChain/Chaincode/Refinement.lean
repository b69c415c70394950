import Mathlib.Order.WithBot
import FarmChain.Chaincode.Access
import FarmChain.Model.AccessControl

/-! The ledger read as a state of the abstract authorization model.

A role record is one assignment for each zone it lists, the wildcard standing for
every zone, and expires never when its expiry is zero. A token record is one token
for each target zone, from its source zone. What `CheckAccess` grants is then what
the model authorizes, except that a token is honoured wherever its holder's role now
is: the source zone it was issued for is stored and not compared
(`grants_refines`). -/
namespace FarmChain.Chaincode

open Strings Run Model

variable {B : Type}

section
variable (R : Runtime B) (l : Ledger B)

/-- The role record under a subject's key. -/
def recordAt (subject : String) : Option RoleAssignment :=
  (l.get (roleKey subject)).bind fun payload => (R.role.unmarshal payload).toOption

/-- The token record under a token's key. -/
def tokenAt (tokenID : String) : Option CrossZoneToken :=
  (l.get (cztKey tokenID)).bind fun payload => (R.token.unmarshal payload).toOption

/-- The zones an assignment covers; the wildcard is every zone. -/
def RoleAssignment.covers (a : RoleAssignment) (zone : String) : Prop :=
  zone ∈ a.zones ∧ zone ≠ "*" ∨ "*" ∈ a.zones ∧ zone ∈ validZones

def modelAssignments : Set (Assignment String Role String) :=
  {a | ∃ record, recordAt R l a.user = some record ∧ record.role = a.role ∧ record.covers a.zone}

/-- Times of the model are those of the ledger in their own order, and never after all. -/
instance modelTimes : LE (WithTop Int) := @WithTop.instLE Int Int.instLEInt

/-- A stored expiry as a time of the model: zero is never. -/
def modelTime (expiresAt : Int) : WithTop Int := if expiresAt = 0 then ⊤ else .some expiresAt

def modelExpiry (a : Assignment String Role String) : WithTop Int :=
  match recordAt R l a.user with
  | some record => modelTime record.expiresAt
  | none => ⊤

def modelTokens : Set (Token String String (WithTop Int)) :=
  {k | ∃ tokenID token, tokenAt R l tokenID = some token ∧ token.subjectID = k.user ∧
    token.sourceZone = k.fromZone ∧ k.toZone ∈ token.targetZones ∧
    k.expires = WithTop.some token.expiresAt}

def rolePerms (role : Role) : Set Permission := {p | p ∈ getEffectivePermissions role}

/-- `AuthorizedAt` of the model in the state the ledger stands for. -/
def Authorized (t : Int) (userID : String) (permission : Permission) (zone : String) : Prop :=
  AuthorizedAt rolePerms (WithTop.some t) (modelAssignments R l) (modelExpiry R l)
    (modelTokens R l) ⟨userID, permission, zone⟩

end

variable {R : Runtime B} {l : Ledger B}

theorem activeAt_iff {a : RoleAssignment} {t : Int} :
    a.activeAt t ↔ WithTop.some t ≤ modelTime a.expiresAt := by
  unfold RoleAssignment.activeAt modelTime
  split <;> simp [*]

theorem recordAt_of_getRoleAssignment {subject : String} (hs : trimSpace subject = subject)
    {a : RoleAssignment} (h : getRoleAssignment R l subject = .ok a) :
    recordAt R l subject = some a := by
  obtain ⟨_, payload, hpayload, hdecode⟩ := getRoleAssignment_eq_ok.mp h
  rw [hs] at hpayload
  simp [recordAt, hpayload, hdecode, Except.toOption]

/-- An unexpired record that covers a zone is an active role there. -/
theorem activeRoleAt_of_record {subject zone : String} {a : RoleAssignment}
    {permission : Permission} {t : Int} (hrecord : recordAt R l subject = some a)
    (hcovers : a.covers zone) (hactive : a.activeAt t)
    (hpermission : permission ∈ getEffectivePermissions a.role) :
    ActiveRoleAt rolePerms (WithTop.some t) (modelAssignments R l) (modelExpiry R l) subject
      permission zone := by
  refine ⟨⟨subject, a.role, zone⟩, ⟨a, hrecord, rfl, hcovers⟩, rfl, rfl, hpermission, ?_⟩
  simp only [modelExpiry, hrecord]
  exact activeAt_iff.mp hactive

/-- The source zones of the user's live tokens for a zone. -/
def LiveToken (R : Runtime B) (l : Ledger B) (t : Int) (userID source zone : String) : Prop :=
  ActiveTokenAt (WithTop.some t) (modelTokens R l) userID source zone

theorem liveToken_of_valid {ctx : Context} {tokenID userID zone : String} {past : List (Event B)}
    (h : validCrossZoneToken R (ledgerAfter R past) ctx tokenID userID zone = .ok none) :
    ∃ source, LiveToken R (ledgerAfter R past) ctx.now userID source zone ∧
      trimSpace zone = zone := by
  obtain ⟨payload, hpayload, token, hdecode, hsubject, hexpiry, hzone⟩ :=
    validCrossZoneToken_eq_none.mp h
  obtain ⟨_, rfl, _, hrecord⟩ := tokenRecord R past hpayload
  rw [R.token.unmarshal_marshal] at hdecode
  cases hdecode
  refine ⟨token.sourceZone, ⟨⟨token.subjectID, token.sourceZone, zone, .some token.expiresAt⟩,
    ⟨trimSpace tokenID, token, ?_, rfl, rfl, (parseZones_normalized hrecord.zones).mp hzone, rfl⟩,
    hsubject, rfl, rfl, ?_⟩, trimSpace_of_mem_parseZones hzone⟩
  · simp [tokenAt, hpayload, Except.toOption]
  · exact WithTop.coe_le_coe.mpr hexpiry.le

/-- **What the chaincode grants, the model authorizes, but for the token's source
zone.** A zone-checked permission granted in a valid zone is an active role of the
user there, or else the user has an unexpired role with the permission and a live
token for the zone; and if the user's role still covers that token's source zone, the
model authorizes the request. -/
theorem grants_refines (R : Runtime B) (past : List (Event B)) (ctx : Context)
    (userID permissionName requestedZone tokenID : String)
    (hcheck : needsZoneCheck ⟨trimSpace permissionName⟩ = true)
    (hzone : isZoneValid requestedZone = true)
    (h : grants R (ledgerAfter R past) ctx userID permissionName requestedZone tokenID = true) :
    ActiveRoleAt rolePerms (WithTop.some ctx.now) (modelAssignments R (ledgerAfter R past))
      (modelExpiry R (ledgerAfter R past)) (trimSpace userID) ⟨trimSpace permissionName⟩
      (trimSpace requestedZone) ∨
    ∃ record, recordAt R (ledgerAfter R past) (trimSpace userID) = some record ∧
      record.activeAt ctx.now ∧
      ⟨trimSpace permissionName⟩ ∈ getEffectivePermissions record.role ∧
      ∃ source, LiveToken R (ledgerAfter R past) ctx.now (trimSpace userID) source
          (trimSpace requestedZone) ∧
        (record.covers source → Authorized R (ledgerAfter R past) ctx.now (trimSpace userID)
          ⟨trimSpace permissionName⟩ (trimSpace requestedZone)) := by
  obtain ⟨_, _, _, a, ha, hactive, hpermission, hopen⟩ :=
    (grants_iff (wellIndexed_ledgerAfter R past)).mp h
  have hrecord := recordAt_of_getRoleAssignment (trimSpace_trimSpace userID) ha
  have hstored := (getRoleAssignment_record (trimSpace_trimSpace userID) ha).zones
  have heffective := zonePermission_effective hcheck hpermission
  have hvalid : trimSpace requestedZone ∈ validZones := of_decide_eq_true hzone
  rcases hopen hcheck with hassigned | ⟨_, htoken⟩
  · refine .inl (activeRoleAt_of_record hrecord ?_ hactive heffective)
    rcases ((validateZoneAccess_eq_ok hstored).mp hassigned).2 with hstar | hmem
    · exact .inr ⟨hstar, hvalid⟩
    · refine .inl ⟨hmem, fun hstar => ?_⟩
      rw [hstar] at hvalid
      exact absurd hvalid (by decide)
  · obtain ⟨source, hlive, htrim⟩ := liveToken_of_valid htoken
    rw [← htrim] at hlive
    exact .inr ⟨a, hrecord, hactive, heffective, source, hlive, fun hcovers =>
      authorizedAt_of_source (activeRoleAt_of_record hrecord hcovers hactive heffective) hlive⟩

/-- The farmer with a token from the North to the South is moved to the East. -/
def movedRun : List (Event Document) :=
  tokenRun ++ [.invoke (mockContext "03" 120 "root" .admin "" 1)
    (.assignRole "bob" "Farmer" "East" "" "n3")]

/-- The token still opens the South, which the model does not authorize: nobody leads
from the East there. -/
theorem moved_farmer_unauthorized :
    grants fieldRuntime (ledgerAfter fieldRuntime movedRun)
        (mockContext "04" 300 "bob" .farmer "East" 2) "bob" "WriteSensor" "South" bobsToken = true ∧
      ¬Authorized fieldRuntime (ledgerAfter fieldRuntime movedRun) 300 "bob" .writeSensor
        "South" := by
  refine ⟨by decide, not_authorizedAt ?_⟩
  have hbob : recordAt fieldRuntime (ledgerAfter fieldRuntime movedRun) "bob" =
      some ⟨"bob", .farmer, ["East"], "root", 120, 0⟩ := by decide
  have htokens : ∀ key ∈ (ledgerAfter fieldRuntime movedRun).keys, kindOf key = .czt →
      key = cztKey bobsToken := by decide
  have hsource : (tokenAt fieldRuntime (ledgerAfter fieldRuntime movedRun) bobsToken).map
      (·.sourceZone) = some "North" := by decide
  intro a ha (huser : a.user = "bob")
  obtain ⟨record, hrecord, _, hcovers⟩ := ha
  rw [huser, hbob] at hrecord
  cases hrecord
  have heast : a.zone = "East" := by
    simp only [RoleAssignment.covers, List.mem_singleton] at hcovers
    exact hcovers.elim And.left fun h => absurd h.1 (by decide)
  rw [heast]
  refine ⟨by decide, ?_⟩
  intro hcase
  obtain ⟨k, ⟨tokenID, token, htoken, _, hfrom, _⟩, _, heast', _⟩ := hcase
  have hkey : cztKey tokenID = cztKey bobsToken := by
    refine htokens _ (Store.mem_keys.mpr fun hnone => ?_) (kindOf_cztKey tokenID)
    rw [tokenAt, hnone] at htoken
    cases htoken
  rw [cztKey_inj.mp hkey] at htoken
  rw [htoken, Option.map_some, hfrom, heast'] at hsource
  exact absurd hsource (by decide)

theorem grants_refines_token :
    ActiveRoleAt rolePerms (WithTop.some 300)
      (modelAssignments fieldRuntime (ledgerAfter fieldRuntime tokenRun))
      (modelExpiry fieldRuntime (ledgerAfter fieldRuntime tokenRun)) "bob" .writeSensor "South" ∨
    ∃ record, recordAt fieldRuntime (ledgerAfter fieldRuntime tokenRun) "bob" = some record ∧
      record.activeAt 300 :=
  (grants_refines fieldRuntime tokenRun (mockContext "03" 300 "bob" .farmer "North" 2) "bob"
    "WriteSensor" "South" bobsToken (by decide) (by decide) (by decide)).imp id
    fun ⟨record, h, ha, _⟩ => ⟨record, h, ha⟩

end FarmChain.Chaincode
