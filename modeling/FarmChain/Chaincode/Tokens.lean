import FarmChain.Chaincode.Access
import FarmChain.Chaincode.Endorsement

/-! What an issued cross-zone token is good for.

The token that counts is the one last issued under its identifier. Checking reads it
more narrowly than issuing and zone access suggest: the user must be the argument of
`IssueCrossZoneToken` without its spaces trimmed, the requested zone must be spelled
as a parsed target, the wildcard covers nothing but itself, and the expiry is cut to
the second (`issued_token_works_iff`). -/
namespace FarmChain.Chaincode

open Strings Run

variable {B : Type}

/-- A successful `IssueCrossZoneToken` with these arguments, which returned the identifier. -/
def IssuedFor (R : Runtime B) (id userID targetZonesCSV expiresAtISO : String) (l : Ledger B)
    (e : Event B) : Prop :=
  ∃ ctx caller nonce,
    Commits R l e ctx caller (.issueCrossZoneToken userID targetZonesCSV expiresAtISO nonce)
      (.token id)

/-- These are the arguments under which the token was last issued, and it was not
revoked since. -/
def LastIssue (R : Runtime B) (id userID targetZonesCSV expiresAtISO : String)
    (past : List (Event B)) : Prop :=
  Since (step R) (IssuedFor R id userID targetZonesCSV expiresAtISO)
    (fun l e => ¬IssuedAs R id l e ∧ ¬RevokesToken R id l e) ∅ past

/-- The assignment's own zones cover the requested one. -/
def RoleAssignment.coversZone (a : RoleAssignment) (requestedZone : String) : Prop :=
  trimSpace requestedZone ≠ "" ∧ ("*" ∈ a.zones ∨ trimSpace requestedZone ∈ a.zones)

/-- What the check asks of the arguments the token was issued with. -/
structure TokenFits (R : Runtime B) (ctx : Context) (userID requestedZone givenUser targetZonesCSV
    expiresAtISO : String) : Prop where
  user : givenUser = trimSpace userID
  zone : requestedZone ∈ parseZones [targetZonesCSV]
  time : ∃ expiry, R.parseRFC3339 (trimSpace expiresAtISO) = .ok expiry ∧ ctx.now < expiry.sec

variable {R : Runtime B} {l : Ledger B} {e : Event B}

/-! ### Issuing -/

theorem mem_normalizeZones {order : MapOrder} {zonesCSV zone : String} {required : Bool}
    {zones : List String} (h : normalizeZones R order zonesCSV required = .ok zones) :
    zone ∈ zones ↔ zone ∈ parseZones [zonesCSV] := by
  obtain ⟨rfl, _⟩ := normalizeZones_walk h
  exact (order.perm _).mem_iff

/-- A token that was stored for these arguments. -/
structure StoredFor (R : Runtime B) (t : CrossZoneToken) (userID targetZonesCSV
    expiresAtISO : String) : Prop where
  subject : t.subjectID = userID
  targets : ∀ zone, zone ∈ t.targetZones ↔ zone ∈ parseZones [targetZonesCSV]
  expiry : ∃ expiry, R.parseRFC3339 (trimSpace expiresAtISO) = .ok expiry ∧
    t.expiresAt = expiry.sec

/-- Issuing stores one token, and every token was stored by issuing it. -/
theorem IssuedFor.issues {id userID targetZonesCSV expiresAtISO : String}
    (h : IssuedFor R id userID targetZonesCSV expiresAtISO l e) : ∃ t : CrossZoneToken,
      t.tokenID = id ∧ Issues R t l e ∧ StoredFor R t userID targetZonesCSV expiresAtISO := by
  obtain ⟨ctx, caller, nonce, hcommits⟩ := h
  obtain ⟨ws, hok⟩ := hcommits.succeeds
  obtain ⟨caller', _, _, _, _, hc, _, heffect, _, _⟩ := invoke_effect hok
  cases hcommits.identity.symm.trans hc
  cases heffect with
  | issued issuer found zoned expiry =>
    obtain ⟨instant, hparse, hsec, _⟩ := parseFutureExpiry_required expiry
    exact ⟨_, rfl, ⟨_, _, _, _, _, _, _, _, _, hcommits, issuer, found, zoned, expiry, rfl⟩, rfl,
      fun _ => mem_normalizeZones zoned, instant, hparse, hsec⟩

theorem Issues.issuedFor {t : CrossZoneToken} (h : Issues R t l e) :
    ∃ targetZonesCSV expiresAtISO, IssuedFor R t.tokenID t.subjectID targetZonesCSV expiresAtISO l e ∧
      StoredFor R t t.subjectID targetZonesCSV expiresAtISO := by
  obtain ⟨ctx, caller, userID, targetZonesCSV, expiresAtISO, nonce, _, _, _, hcommits, _, _, hzoned,
    hexpiry, rfl⟩ := h
  obtain ⟨instant, hparse, hsec, _⟩ := parseFutureExpiry_required hexpiry
  exact ⟨targetZonesCSV, expiresAtISO, ⟨ctx, caller, nonce, hcommits⟩, rfl,
    fun _ => mem_normalizeZones hzoned, instant, hparse, hsec⟩

/-- A token issued and neither reissued nor revoked since is the one stored. -/
theorem TokenRecord.get {past : List (Event B)} {t : CrossZoneToken} (h : TokenRecord R past t) :
    (ledgerAfter R past).get (cztKey t.tokenID) = some (R.token.marshal t) := by
  refine Since.induction (WellIndexed R)
    (fun l => l.get (cztKey t.tokenID) = some (R.token.marshal t))
    (fun _ e hl => wellIndexed_step hl e) ?_ ?_ h (wellIndexed_empty R)
  · intro l e hl hissues
    have hcase := tokenStep hl t.tokenID e
    generalize (step R l e).get (cztKey t.tokenID) = o at hcase ⊢
    cases hcase with
    | @issued t' named issues =>
      obtain ⟨_, _, _, _, _, _, _, _, _, hcommits, _, ha, hz, hx, ht⟩ := hissues
      obtain ⟨_, _, _, _, _, _, _, _, _, hcommits', _, ha', hz', hx', ht'⟩ := issues
      obtain ⟨rfl, rfl, hcall, -⟩ := hcommits.unique hcommits'
      cases hcall
      cases ha.symm.trans ha'
      cases hz.symm.trans hz'
      cases hx.symm.trans hx'
      rw [ht, ht']
    | revoked _ unissued => exact absurd ⟨t, rfl, hissues⟩ unissued
    | kept leaves => exact absurd ⟨t, rfl, hissues⟩ leaves.unissued
  · intro l e hl hstored hkept
    have hcase := tokenStep hl t.tokenID e
    generalize (step R l e).get (cztKey t.tokenID) = o at hcase ⊢
    cases hcase with
    | issued named issues => exact absurd ⟨_, named, issues⟩ hkept.1
    | revoked revokes => exact absurd revokes hkept.2
    | kept => exact hstored

/-- The arguments a token was last issued with, and the token that stored. -/
theorem LastIssue.record {past : List (Event B)} {id userID targetZonesCSV expiresAtISO : String}
    (h : LastIssue R id userID targetZonesCSV expiresAtISO past) : ∃ t : CrossZoneToken,
      t.tokenID = id ∧ TokenRecord R past t ∧ StoredFor R t userID targetZonesCSV expiresAtISO := by
  obtain ⟨before, e, after, hsplit, hissued, hafter⟩ := h
  obtain ⟨t, rfl, hissues, hstored⟩ := hissued.issues
  exact ⟨t, rfl, ⟨before, e, after, hsplit, hissues, hafter⟩, hstored⟩

theorem TokenRecord.lastIssue {past : List (Event B)} {t : CrossZoneToken}
    (h : TokenRecord R past t) : ∃ targetZonesCSV expiresAtISO,
      LastIssue R t.tokenID t.subjectID targetZonesCSV expiresAtISO past ∧
      StoredFor R t t.subjectID targetZonesCSV expiresAtISO := by
  obtain ⟨before, e, after, hsplit, hissues, hafter⟩ := h
  obtain ⟨targetZonesCSV, expiresAtISO, hissued, hstored⟩ := hissues.issuedFor
  exact ⟨targetZonesCSV, expiresAtISO, ⟨before, e, after, hsplit, hissued, hafter⟩, hstored⟩

/-! ### Checking -/

section
variable {past : List (Event B)} {ctx : Context} {id userID requestedZone : String}

/-- While a token is not revoked, some token is stored under its identifier. -/
theorem issued_record {targetZonesCSV expiresAtISO : String}
    (h : Since (step R) (IssuedFor R id userID targetZonesCSV expiresAtISO)
      (fun l e => ¬RevokesToken R id l e) ∅ past) :
    ∃ t : CrossZoneToken, t.tokenID = id ∧ TokenRecord R past t := by
  have hstored : (ledgerAfter R past).get (cztKey id) ≠ none := by
    refine Since.induction (WellIndexed R) (fun l => l.get (cztKey id) ≠ none)
      (fun _ e hl => wellIndexed_step hl e) ?_ ?_ h (wellIndexed_empty R)
    · intro l e hl hissued
      obtain ⟨t, hid, hissues, _⟩ := hissued.issues
      have hcase := tokenStep hl id e
      generalize (step R l e).get (cztKey id) = o at hcase ⊢
      cases hcase with
      | issued => exact nofun
      | revoked _ unissued => exact absurd ⟨t, hid, hissues⟩ unissued
      | kept leaves => exact absurd ⟨t, hid, hissues⟩ leaves.unissued
    · intro l e hl hstored hkept
      have hcase := tokenStep hl id e
      generalize (step R l e).get (cztKey id) = o at hcase ⊢
      cases hcase with
      | issued => exact nofun
      | revoked revokes => exact absurd revokes hkept
      | kept => exact hstored
  obtain ⟨payload, hpayload⟩ := Option.ne_none_iff_exists'.mp hstored
  obtain ⟨t, _, hid, hrecord⟩ := tokenRecord R past hpayload
  exact ⟨t, hid, hrecord⟩

/-- When a stored token lets a user into a zone. -/
theorem TokenRecord.valid_iff {t : CrossZoneToken} (h : TokenRecord R past t)
    (hhex : IsHex t.tokenID) :
    validCrossZoneToken R (ledgerAfter R past) ctx t.tokenID (trimSpace userID) requestedZone =
        .ok none ↔
      t.subjectID = trimSpace userID ∧ ctx.now < t.expiresAt ∧ requestedZone ∈ t.targetZones := by
  rw [validCrossZoneToken_eq_none, hhex.trimSpace, h.get]
  constructor
  · intro hcase
    obtain ⟨_, hpayload, t', hdecode, hsubject, hexpiry, hzone⟩ := hcase
    cases hpayload
    rw [R.token.unmarshal_marshal] at hdecode
    cases hdecode
    exact ⟨hsubject, hexpiry, (parseZones_normalized h.zones).mp hzone⟩
  · intro hcase
    obtain ⟨hsubject, hexpiry, hzone⟩ := hcase
    exact ⟨_, rfl, t, R.token.unmarshal_marshal t, hsubject, hexpiry,
      (parseZones_normalized h.zones).mpr hzone⟩

theorem StoredFor.fits_iff {t : CrossZoneToken} {givenUser targetZonesCSV expiresAtISO : String}
    (h : StoredFor R t givenUser targetZonesCSV expiresAtISO) :
    t.subjectID = trimSpace userID ∧ ctx.now < t.expiresAt ∧ requestedZone ∈ t.targetZones ↔
      TokenFits R ctx userID requestedZone givenUser targetZonesCSV expiresAtISO := by
  obtain ⟨expiry, hparse, hexpiry⟩ := h.expiry
  rw [h.subject, h.targets, hexpiry]
  constructor
  · intro hcase
    obtain ⟨huser, htime, hzone⟩ := hcase
    exact ⟨huser, hzone, expiry, hparse, htime⟩
  · intro hcase
    obtain ⟨huser, hzone, expiry', hparse', htime⟩ := hcase
    cases hparse.symm.trans hparse'
    exact ⟨huser, htime, hzone⟩

/-- An unrevoked caller asks about a user who holds the permission: the zones of the
assignment decide, or the stored token. -/
theorem grants_token_iff {t : CrossZoneToken} (h : TokenRecord R past t) (hhex : IsHex t.tokenID)
    (hne : t.tokenID ≠ "") {caller : CallerIdentity} (hc : getCallerIdentity R ctx = .ok caller)
    (hunrevoked : ¬caller.revoked (ledgerAfter R past)) {a : RoleAssignment}
    (ha : getRoleAssignment R (ledgerAfter R past) userID = .ok a) (hactive : a.activeAt ctx.now)
    {permissionName : String} (hzone : needsZoneCheck ⟨trimSpace permissionName⟩ = true)
    (heffective : hasPermission a.role ⟨trimSpace permissionName⟩ = true) :
    grants R (ledgerAfter R past) ctx userID permissionName requestedZone t.tokenID = true ↔
      a.coversZone requestedZone ∨ t.subjectID = trimSpace userID ∧ ctx.now < t.expiresAt ∧
        requestedZone ∈ t.targetZones := by
  have ha' := ha
  rw [← getRoleAssignment_trimSpace] at ha'
  have hzones := (getRoleAssignment_record (trimSpace_trimSpace userID) ha').zones
  rw [grants_iff (wellIndexed_ledgerAfter R past), ← h.valid_iff hhex]
  constructor
  · intro hcase
    obtain ⟨_, _, _, a', ha'', _, _, hopen⟩ := hcase
    cases ha'.symm.trans ha''
    rcases hopen hzone with hown | ⟨_, htoken⟩
    · exact .inl ((validateZoneAccess_eq_ok hzones).mp hown)
    · exact .inr htoken
  · intro hcase
    refine ⟨caller, hc, hunrevoked, a, ha', hactive, heffective, fun _ => ?_⟩
    rcases hcase with hown | htoken
    · exact .inl ((validateZoneAccess_eq_ok hzones).mpr hown)
    · exact .inr ⟨hne, htoken⟩

end

/-- **What an issued token is good for.** While a token is not revoked, a check by an
unrevoked caller for a user with an active assignment and a zone-checked permission
effective for it is granted exactly when the assignment's own zones cover the zone or
the arguments of the last call that issued the token fit: the user as trimmed, the
zone as spelled among the targets, the second before the expiry's. -/
theorem issued_token_works_iff (R : Runtime B) (past : List (Event B))
    {id userID targetZonesCSV expiresAtISO : String}
    (hissued : Since (step R) (IssuedFor R id userID targetZonesCSV expiresAtISO)
      (fun l e => ¬RevokesToken R id l e) ∅ past)
    (hhex : IsHex id) (hne : id ≠ "") {ctx : Context} {caller : CallerIdentity}
    (hc : getCallerIdentity R ctx = .ok caller) (hunrevoked : ¬caller.revoked (ledgerAfter R past))
    {a : RoleAssignment} (ha : getRoleAssignment R (ledgerAfter R past) userID = .ok a)
    (hactive : a.activeAt ctx.now) {permissionName : String}
    (hzone : needsZoneCheck ⟨trimSpace permissionName⟩ = true)
    (heffective : hasPermission a.role ⟨trimSpace permissionName⟩ = true)
    (requestedZone : String) :
    (grants R (ledgerAfter R past) ctx userID permissionName requestedZone id = true ↔
      a.coversZone requestedZone ∨ ∃ givenUser targetZonesCSV' expiresAtISO',
        LastIssue R id givenUser targetZonesCSV' expiresAtISO' past ∧
        TokenFits R ctx userID requestedZone givenUser targetZonesCSV' expiresAtISO') ∧
    (LastIssue R id userID targetZonesCSV expiresAtISO past →
      (grants R (ledgerAfter R past) ctx userID permissionName requestedZone id = true ↔
        a.coversZone requestedZone ∨
          TokenFits R ctx userID requestedZone userID targetZonesCSV expiresAtISO)) := by
  obtain ⟨t, rfl, hrecord⟩ := issued_record hissued
  -- the stored token is the one of whatever issue came last
  have hlast {givenUser targetZonesCSV expiresAtISO : String}
      (h : LastIssue R t.tokenID givenUser targetZonesCSV expiresAtISO past) :
      StoredFor R t givenUser targetZonesCSV expiresAtISO := by
    obtain ⟨t', hid, hrecord', hstored⟩ := h.record
    have hget := hrecord'.get
    rw [hid, hrecord.get] at hget
    rw [R.token.marshal_injective (Option.some.inj hget)]
    exact hstored
  rw [grants_token_iff hrecord hhex hne hc hunrevoked ha hactive hzone heffective]
  constructor
  · refine or_congr_right ⟨fun hfits => ?_, fun hcase => ?_⟩
    · obtain ⟨targetZonesCSV', expiresAtISO', hissue, hstored⟩ := hrecord.lastIssue
      exact ⟨t.subjectID, targetZonesCSV', expiresAtISO', hissue, hstored.fits_iff.mp hfits⟩
    · obtain ⟨_, _, _, hissue, hfits⟩ := hcase
      exact (hlast hissue).fits_iff.mpr hfits
  · exact fun hissue => or_congr_right (hlast hissue).fits_iff

/-- A farmer of the North zone who is issued a token for every zone. -/
def wildcardRun : List (Event Document) :=
  [.invoke (mockContext "01" 100 "root" .admin "" 1) (.assignRole "bob" "Farmer" "North" "" "n1"),
    .invoke (mockContext "02" 110 "root" .admin "" 1)
      (.issueCrossZoneToken "bob" "*" "1970-01-01T00:08:20Z" "n2")]

/-- The wildcard covers every zone of an assignment and none of a token: the farmer is
not let into the South zone, two hundred seconds before the token expires. -/
theorem wildcardRun_denies :
    Since (step fieldRuntime) (IssuedFor fieldRuntime bobsToken "bob" "*" "1970-01-01T00:08:20Z")
      (fun l e => ¬RevokesToken fieldRuntime bobsToken l e) ∅ wildcardRun ∧
    fieldRuntime.parseRFC3339 "1970-01-01T00:08:20Z" = .ok (.unix 500 0) ∧
    txTime (mockContext "03" 300 "bob" .farmer "North" 2) < .unix 500 0 ∧
    "*" ∈ parseZones ["*"] ∧
    getRoleAssignment fieldRuntime (ledgerAfter fieldRuntime wildcardRun) "bob" =
      .ok ⟨"bob", .farmer, ["North"], "root", 100, 0⟩ ∧
    hasPermission .farmer .writeSensor = true ∧
    grants fieldRuntime (ledgerAfter fieldRuntime wildcardRun)
      (mockContext "03" 300 "bob" .farmer "North" 2) "bob" "WriteSensor" "South" bobsToken = false := by
  have hcommits : Commits fieldRuntime (run (step fieldRuntime) ∅ [.invoke
        (mockContext "01" 100 "root" .admin "" 1) (.assignRole "bob" "Farmer" "North" "" "n1")])
      (.invoke (mockContext "02" 110 "root" .admin "" 1)
        (.issueCrossZoneToken "bob" "*" "1970-01-01T00:08:20Z" "n2"))
      (mockContext "02" 110 "root" .admin "" 1) ⟨"root", .admin, "", "1"⟩
      (.issueCrossZoneToken "bob" "*" "1970-01-01T00:08:20Z" "n2") (.token bobsToken) :=
    ⟨rfl, by decide, invoke_answers (by decide +kernel)⟩
  exact ⟨⟨[_], _, [], rfl, ⟨_, _, _, hcommits⟩, trivial⟩, by decide, by decide, by decide, by decide,
    by decide, by decide⟩

/-- The farmer with a token for the South is let in there. -/
theorem issued_token_works_south : grants fieldRuntime (ledgerAfter fieldRuntime tokenRun)
    (mockContext "03" 300 "bob" .farmer "North" 2) "bob" "WriteSensor" "South" bobsToken = true := by
  have hcommits : Commits fieldRuntime (run (step fieldRuntime) ∅ [.invoke
        (mockContext "01" 100 "root" .admin "" 1) (.assignRole "bob" "Farmer" "North" "" "n1")])
      (.invoke (mockContext "02" 110 "root" .admin "" 1)
        (.issueCrossZoneToken "bob" "South" "1970-01-01T00:08:20Z" "n2"))
      (mockContext "02" 110 "root" .admin "" 1) ⟨"root", .admin, "", "1"⟩
      (.issueCrossZoneToken "bob" "South" "1970-01-01T00:08:20Z" "n2") (.token bobsToken) :=
    ⟨rfl, by decide, invoke_answers (by decide +kernel)⟩
  have hcaller : getCallerIdentity fieldRuntime (mockContext "03" 300 "bob" .farmer "North" 2) =
      .ok ⟨"bob", .farmer, "North", "2"⟩ := by decide
  have hassigned : getRoleAssignment fieldRuntime (ledgerAfter fieldRuntime tokenRun) "bob" =
      .ok ⟨"bob", .farmer, ["North"], "root", 100, 0⟩ := by decide
  have hunrevoked : ¬CallerIdentity.revoked ⟨"bob", .farmer, "North", "2"⟩
      (ledgerAfter fieldRuntime tokenRun) := by
    unfold CallerIdentity.revoked
    decide
  have hissued : IssuedFor fieldRuntime bobsToken "bob" "South" "1970-01-01T00:08:20Z" _ _ :=
    ⟨_, _, _, hcommits⟩
  exact ((issued_token_works_iff fieldRuntime tokenRun ⟨[_], _, [], rfl, hissued, trivial⟩ (by decide)
    (by decide) hcaller hunrevoked hassigned (.inl rfl) (by decide) (by decide) "South").2
    ⟨[_], _, [], rfl, hissued, trivial⟩).mpr
    (.inr ⟨by decide, by decide, .unix 500 0, by decide, by decide⟩)

end FarmChain.Chaincode
