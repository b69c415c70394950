import FarmChain.Chaincode.History

/-! What a granted access rests on.

`grants_iff` reads the decision of `CheckAccess` back from the ledger;
`checkAccess_sound` reads it back from the whole run: who assigned the role, who
set the expiry and, where a token was needed, who issued it. -/
namespace FarmChain.Chaincode

open Strings Run

variable {B : Type} {R : Runtime B} {l : Ledger B} {ctx : Context}

theorem succeeds_eq_true {call : Call} :
    succeeds R l ctx call = true ↔ ∃ response ws, invoke R l ctx call = .ok (response, ws) := by
  unfold succeeds
  cases h : invoke R l ctx call with
  | ok out => exact ⟨fun _ => ⟨out.1, out.2, rfl⟩, fun _ => rfl⟩
  | error message => simp [Except.isOk, Except.toBool]

theorem grants_eq_true {userID permissionName requestedZone tokenID : String} :
    grants R l ctx userID permissionName requestedZone tokenID = true ↔
      ∃ ws, checkAccess R l ctx userID permissionName requestedZone tokenID = .ok (true, ws) := by
  unfold grants
  cases h : checkAccess R l ctx userID permissionName requestedZone tokenID with
  | ok out => simp [Prod.ext_iff]
  | error message => simp

/-- The caller's certificate is on the revocation list. -/
def CallerIdentity.revoked (caller : CallerIdentity) (l : Ledger B) : Prop :=
  caller.serialHex ≠ "" ∧ (l.get (crlKey caller.serialHex)).isSome

/-- The assignment, or else the token, lets the user into the zone. -/
def ZoneOpen (R : Runtime B) (l : Ledger B) (ctx : Context) (a : RoleAssignment)
    (userID requestedZone tokenID : String) : Prop :=
  validateZoneAccess R a requestedZone = .ok () ∨
    tokenID ≠ "" ∧ validCrossZoneToken R l ctx tokenID userID requestedZone = .ok none

/-- When access is granted, on a ledger whose indices can be read. -/
theorem grants_iff (hl : WellIndexed R l)
    {userID permissionName requestedZone tokenID : String} :
    grants R l ctx userID permissionName requestedZone tokenID = true ↔
      ∃ caller, getCallerIdentity R ctx = .ok caller ∧ ¬caller.revoked l ∧
      ∃ a, getRoleAssignment R l (trimSpace userID) = .ok a ∧ a.activeAt ctx.now ∧
        hasPermission a.role ⟨trimSpace permissionName⟩ = true ∧
        (needsZoneCheck ⟨trimSpace permissionName⟩ = true →
          ZoneOpen R l ctx a (trimSpace userID) requestedZone tokenID) := by
  rw [grants_eq_true]
  constructor
  · intro hcase
    obtain ⟨ws, h⟩ := hcase
    obtain ⟨caller, hc, decision, hd, logged, _, hgrant, _⟩ := checkAccess_eq_ok.mp h
    cases decision with
    | grant => exact ⟨caller, hc, decideAccess_eq_grant.mp hd⟩
    | deny reason => cases hgrant
    | expire => cases hgrant
  · intro hcase
    obtain ⟨caller, hc, hgrant⟩ := hcase
    obtain ⟨logged, hlog⟩ := hl.logs ctx _
    exact ⟨_, checkAccess_eq_ok.mpr ⟨caller, hc, .grant, decideAccess_eq_grant.mpr hgrant, logged,
      hlog, rfl, rfl⟩⟩

/-- An assignment found in a run is a record with its history. -/
theorem getRoleAssignment_record {past : List (Event B)} {subject : String} {a : RoleAssignment}
    (hs : trimSpace subject = subject)
    (h : getRoleAssignment R (ledgerAfter R past) subject = .ok a) :
    RoleRecord R subject past a := by
  obtain ⟨_, payload, hpayload, _⟩ := getRoleAssignment_eq_ok.mp h
  rw [hs] at hpayload
  obtain ⟨b, rfl, hb⟩ := roleRecord R hs past hpayload
  cases getRoleAssignment_marshal hs hpayload h
  exact hb

/-- A token that opens a zone in a run is a record with its history. -/
theorem validCrossZoneToken_record {past : List (Event B)} {tokenID userID requestedZone : String}
    (h : validCrossZoneToken R (ledgerAfter R past) ctx tokenID userID requestedZone = .ok none) :
    ∃ t : CrossZoneToken, t.tokenID = trimSpace tokenID ∧ t.subjectID = userID ∧
      requestedZone ∈ t.targetZones ∧ ctx.now < t.expiresAt ∧ TokenRecord R past t := by
  obtain ⟨payload, hpayload, t, hdecode, hsubject, hexpiry, hzone⟩ :=
    validCrossZoneToken_eq_none.mp h
  obtain ⟨_, rfl, hid, hrecord⟩ := tokenRecord R past hpayload
  rw [R.token.unmarshal_marshal] at hdecode
  cases hdecode
  exact ⟨t, hid, hsubject, (parseZones_normalized hrecord.zones).mp hzone, hexpiry, hrecord⟩

/-- **A granted access has its grounds in the run.** An administrator gave the user
a role that covers the permission and neither replaced nor revoked it since; the
expiry last set for the user has not passed; and a zone-checked permission is used
in one of the assignment's zones, or under a live token issued to this very user
for that zone by someone allowed to, and not revoked since. -/
theorem checkAccess_sound (past : List (Event B)) (ctx : Context)
    (userID permissionName requestedZone tokenID : String)
    (h : grants R (ledgerAfter R past) ctx userID permissionName requestedZone tokenID = true) :
    ∃ (a : RoleAssignment) (expiresAt : Int),
      Since (step R) (Assigns R (trimSpace userID) a)
        (fun l e => ¬AssignedTo R (trimSpace userID) l e ∧ ¬Revokes R (trimSpace userID) l e)
        ∅ past ∧
      (⟨trimSpace permissionName⟩ ∈ getEffectivePermissions a.role ∨
        .adminAll ∈ getEffectivePermissions a.role) ∧
      Since (step R) (SetsExpiry R (trimSpace userID) expiresAt)
        (fun l e => ∀ later, ¬SetsExpiry R (trimSpace userID) later l e) ∅ past ∧
      (expiresAt = 0 ∨ ctx.now ≤ expiresAt) ∧
      (needsZoneCheck ⟨trimSpace permissionName⟩ = true →
        trimSpace requestedZone ∈ a.zones ∨ "*" ∈ a.zones ∨
        ∃ t : CrossZoneToken, t.tokenID = trimSpace tokenID ∧ t.subjectID = trimSpace userID ∧
          requestedZone ∈ t.targetZones ∧ ctx.now < t.expiresAt ∧
          Since (step R) (Issues R t)
            (fun l e => ¬IssuedAs R t.tokenID l e ∧ ¬RevokesToken R t.tokenID l e) ∅ past) := by
  obtain ⟨_, _, _, a, ha, hactive, hpermission, hzone⟩ :=
    (grants_iff (wellIndexed_ledgerAfter R past)).mp h
  have hrecord := getRoleAssignment_record (trimSpace_trimSpace userID) ha
  obtain ⟨first, hrole, hzones, hsince⟩ := hrecord.given
  refine ⟨first, a.expiresAt, hsince, ?_, hrecord.expiry, hactive, fun hcheck => ?_⟩
  · rw [hrole]
    exact (hasPermission_iff.mp hpermission).2
  · rw [hzones]
    rcases hzone hcheck with hassigned | ⟨_, htoken⟩
    · rcases ((validateZoneAccess_eq_ok hrecord.zones).mp hassigned).2 with hstar | hmem
      · exact .inr (.inl hstar)
      · exact .inl hmem
    · exact .inr (.inr (validCrossZoneToken_record htoken))

/-! ### A farmer with a token -/

/-- The text Bob's token is named after, and its SHA-256 digest. -/
def bobsText : String := "bob1970-01-01 00:01:50 +0000 UTCn2"

def bobsToken : String := "56414503c747297752b72805e7870cdf9fcb2489c93a95ff9ad7e943d71f0fb4"

/-- Texts the run below reads and hashes. -/
def fieldRuntime : Runtime Document :=
  .documents [] [("1970-01-01T00:08:20Z", .unix 500 0), ("1970-01-01T00:03:20Z", .unix 200 0)]
    [(.unix 110 0, "1970-01-01 00:01:50 +0000 UTC")] [(bobsText, bobsToken)]

/-- A farmer of the North zone who is issued a token for the South. -/
def tokenRun : List (Event Document) :=
  [.invoke (mockContext "01" 100 "root" .admin "" 1) (.assignRole "bob" "Farmer" "North" "" "n1"),
    .invoke (mockContext "02" 110 "root" .admin "" 1)
      (.issueCrossZoneToken "bob" "South" "1970-01-01T00:08:20Z" "n2")]

theorem checkAccess_sound_token : ∃ a expiresAt,
    Since (step fieldRuntime) (Assigns fieldRuntime (trimSpace "bob") a)
      (fun l e => ¬AssignedTo fieldRuntime (trimSpace "bob") l e ∧
        ¬Revokes fieldRuntime (trimSpace "bob") l e) ∅ tokenRun ∧
    Since (step fieldRuntime) (SetsExpiry fieldRuntime (trimSpace "bob") expiresAt)
      (fun l e => ∀ later, ¬SetsExpiry fieldRuntime (trimSpace "bob") later l e) ∅ tokenRun := by
  obtain ⟨a, expiresAt, hassigns, _, hexpiry, _⟩ := checkAccess_sound (R := fieldRuntime) tokenRun
    (mockContext "03" 300 "bob" .farmer "North" 2) "bob" "WriteSensor" "South" bobsToken (by decide)
  exact ⟨a, expiresAt, hassigns, hexpiry⟩

end FarmChain.Chaincode
