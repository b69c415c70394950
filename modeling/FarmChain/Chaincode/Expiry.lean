import FarmChain.Chaincode.Access

/-! When a record with an expiry counts as expired.

A call compares the instant it is given with the transaction time to the nanosecond and
stores its second. The two checks compare that second with the transaction's, one
strictly: an assignment is good for the whole second its expiry lies in, and a token is
expired for all of it. So each is right about every instant outside that second, the
token after the expiry and the assignment before it; and an assignment that ends in the
second stored as zero never ends (`expiry_honoured_iff`). -/
namespace FarmChain.Chaincode

open Strings Run

variable {B : Type}

/-- The event is a successful call that was given the instant and wrote the record under
the key. -/
inductive Dates (R : Runtime B) (l : Ledger B) : Event B → String → Time → Prop
  | assigned {ctx : Context} {subjectID roleName zonesCSV expiresAtISO nonce : String}
      {expiry : Time}
      (succeeded : succeeds R l ctx
        (.assignRole subjectID roleName zonesCSV expiresAtISO nonce) = true)
      (given : trimSpace expiresAtISO ≠ "")
      (parsed : R.parseRFC3339 (trimSpace expiresAtISO) = .ok expiry) :
      Dates R l (.invoke ctx (.assignRole subjectID roleName zonesCSV expiresAtISO nonce))
        (roleKey (trimSpace subjectID)) expiry
  | renewed {ctx : Context} {subjectID expiresAtISO nonce : String} {expiry : Time}
      (succeeded : succeeds R l ctx (.renewRole subjectID expiresAtISO nonce) = true)
      (parsed : R.parseRFC3339 (trimSpace expiresAtISO) = .ok expiry) :
      Dates R l (.invoke ctx (.renewRole subjectID expiresAtISO nonce)) (roleKey subjectID) expiry
  | issued {ctx : Context} {userID targetZonesCSV expiresAtISO nonce tokenID : String}
      {expiry : Time}
      (succeeded : ∃ ws, invoke R l ctx
        (.issueCrossZoneToken userID targetZonesCSV expiresAtISO nonce) = .ok (.token tokenID, ws))
      (parsed : R.parseRFC3339 (trimSpace expiresAtISO) = .ok expiry) :
      Dates R l (.invoke ctx (.issueCrossZoneToken userID targetZonesCSV expiresAtISO nonce))
        (cztKey tokenID) expiry

/-- What a call of the run stored for the instant is still there. -/
def StillStored (R : Runtime B) (past : List (Event B)) (key : String) (expiry : Time)
    (payload : B) : Prop :=
  ∃ before e after, past = before ++ e :: after ∧ Dates R (ledgerAfter R before) e key expiry ∧
    (ledgerAfter R (before ++ [e])).get key = some payload ∧
    (ledgerAfter R past).get key = some payload

/-- The check takes the assignment for valid before the instant and for expired after it. -/
structure HonoursRole (ctx : Context) (a : RoleAssignment) (expiry : Time) : Prop where
  before : txTime ctx < expiry → checkRoleExpiration ctx a = .ok ()
  after : expiry < txTime ctx → ∃ reason, checkRoleExpiration ctx a = .error reason

/-- So does the expiry test of `validCrossZoneToken`, for the token's own subject. -/
structure HonoursToken (R : Runtime B) (l : Ledger B) (ctx : Context)
    (tokenID requestedZone : String) (t : CrossZoneToken) (expiry : Time) : Prop where
  before : txTime ctx < expiry →
    validCrossZoneToken R l ctx tokenID t.subjectID requestedZone ≠
      .ok (some "cross-zone token expired")
  after : expiry < txTime ctx →
    validCrossZoneToken R l ctx tokenID t.subjectID requestedZone =
      .ok (some "cross-zone token expired")

/-! ### What is stored -/

variable {R : Runtime B} {l : Ledger B} {ctx : Context}

/-- A dated record holds the second of its instant. -/
theorem Dates.stored {e : Event B} {key : String} {expiry : Time} (h : Dates R l e key expiry) :
    (∃ a, (step R l e).get key = some (R.role.marshal a) ∧ a.expiresAt = expiry.sec ∧
      kindOf key = .role) ∨
    ∃ t, (step R l e).get key = some (R.token.marshal t) ∧ t.expiresAt = expiry.sec ∧
      kindOf key = .czt := by
  cases h with
  | @assigned ctx subjectID _ _ _ _ _ succeeded given parsed =>
    obtain ⟨response, ws, hinvoke⟩ := succeeds_eq_true.mp succeeded
    obtain ⟨caller, own, entry, heffect, hget⟩ := commit_get hinvoke
    cases heffect with
    | @assigned _ _ _ _ _ zones expiresAt _ _ _ _ hexpiry =>
      rcases parseFutureExpiry_eq_ok.mp hexpiry with ⟨hempty, _⟩ | ⟨_, instant, hparse, rfl, _⟩
      · exact absurd hempty given
      · cases parsed.symm.trans hparse
        have hwritten := hget (roleKey (trimSpace subjectID)) (by simp)
        rw [Store.get_apply_singleton, if_pos rfl] at hwritten
        exact .inl ⟨_, hwritten, rfl, kindOf_roleKey _⟩
  | @renewed ctx subjectID _ _ _ succeeded parsed =>
    obtain ⟨response, ws, hinvoke⟩ := succeeds_eq_true.mp succeeded
    obtain ⟨caller, own, entry, heffect, hget⟩ := commit_get hinvoke
    cases heffect with
    | renewed _ _ hexpiry =>
      obtain ⟨instant, hparse, rfl, _⟩ := parseFutureExpiry_required hexpiry
      cases parsed.symm.trans hparse
      have hwritten := hget (roleKey subjectID) (by simp)
      rw [Store.get_apply_singleton, if_pos rfl] at hwritten
      exact .inl ⟨_, hwritten, rfl, kindOf_roleKey _⟩
  | @issued ctx userID _ _ nonce tokenID _ succeeded parsed =>
    obtain ⟨ws, hinvoke⟩ := succeeded
    obtain ⟨caller, own, entry, heffect, hget⟩ := commit_get hinvoke
    cases heffect with
    | issued _ _ _ hexpiry =>
      obtain ⟨instant, hparse, rfl, _⟩ := parseFutureExpiry_required hexpiry
      cases parsed.symm.trans hparse
      have hwritten := hget (cztKey (newTokenID R ctx userID nonce)) (by simp)
      rw [Store.get_apply_singleton, if_pos rfl] at hwritten
      exact .inr ⟨_, hwritten, rfl, kindOf_cztKey _⟩

/-- A stored assignment that is still there ends in the second of its instant. -/
theorem StillStored.role {past : List (Event B)} {subject : String} {expiry : Time} {payload : B}
    {a : RoleAssignment} (h : StillStored R past (roleKey subject) expiry payload)
    (ha : R.role.unmarshal payload = .ok a) : a.expiresAt = expiry.sec := by
  obtain ⟨before, e, after, _, hdates, hthen, _⟩ := h
  rw [ledgerAfter_snoc] at hthen
  rcases hdates.stored with ⟨a', hget, hsec, _⟩ | ⟨t, _, _, hkind⟩
  · cases hthen.symm.trans hget
    rw [R.role.unmarshal_marshal] at ha
    cases ha
    exact hsec
  · rw [kindOf_roleKey] at hkind
    cases hkind

theorem StillStored.token {past : List (Event B)} {id : String} {expiry : Time} {payload : B}
    {t : CrossZoneToken} (h : StillStored R past (cztKey id) expiry payload)
    (ht : R.token.unmarshal payload = .ok t) : t.expiresAt = expiry.sec := by
  obtain ⟨before, e, after, _, hdates, hthen, _⟩ := h
  rw [ledgerAfter_snoc] at hthen
  rcases hdates.stored with ⟨a, _, _, hkind⟩ | ⟨t', hget, hsec, _⟩
  · rw [kindOf_cztKey] at hkind
    cases hkind
  · cases hthen.symm.trans hget
    rw [R.token.unmarshal_marshal] at ht
    cases ht
    exact hsec

/-! ### What the checks make of it -/

/-- The check on an assignment is late in its last second, and never comes for zero. -/
theorem honoursRole_iff {a : RoleAssignment} {expiry : Time} (h : a.expiresAt = expiry.sec) :
    HonoursRole ctx a expiry ↔
      ¬(expiry < txTime ctx ∧ (ctx.now = expiry.sec ∨ expiry.sec = 0)) := by
  have hactive : a.activeAt ctx.now ↔ expiry.sec = 0 ∨ ctx.now ≤ expiry.sec := by
    rw [RoleAssignment.activeAt, h]
  constructor
  · intro hhonours ⟨hafter, hcase⟩
    obtain ⟨reason, herror⟩ := hhonours.after hafter
    refine checkRoleExpiration_eq_error herror (hactive.mpr ?_)
    rcases hcase with hsame | hzero
    · exact .inr (le_of_eq hsame)
    · exact .inl hzero
  · intro hnot
    refine ⟨fun hbefore => ?_, fun hafter => ?_⟩
    · exact checkRoleExpiration_eq_ok.mpr (hactive.mpr (.inr (Time.sec_le hbefore)))
    · have hexpired : ¬a.activeAt ctx.now := by
        intro hact
        rcases hactive.mp hact with hzero | hle
        · exact hnot ⟨hafter, .inr hzero⟩
        · exact hnot ⟨hafter, .inl (le_antisymm hle (Time.sec_le hafter))⟩
      cases hcheck : checkRoleExpiration ctx a with
      | error reason => exact ⟨reason, rfl⟩
      | ok u => exact absurd (checkRoleExpiration_eq_ok.mp hcheck) hexpired

/-- For its own subject, a stored token fails the expiry test from its second on. -/
theorem validCrossZoneToken_expired {tokenID requestedZone : String} {payload : B}
    {t : CrossZoneToken} (hget : l.get (cztKey (trimSpace tokenID)) = some payload)
    (ht : R.token.unmarshal payload = .ok t) :
    validCrossZoneToken R l ctx tokenID t.subjectID requestedZone =
      .ok (some "cross-zone token expired") ↔ t.expiresAt ≤ ctx.now := by
  have hdecode : wrapError ("failed to unmarshal cross-zone token: " ++ ·)
      (R.token.unmarshal payload) = .ok t := Except.wrapError_eq_ok.mpr ht
  unfold validCrossZoneToken
  simp only [hget, hdecode, Except.ok_bind]
  rw [if_neg (by simp)]
  by_cases hexpired : t.expiresAt ≤ ctx.now
  · simp [hexpired, pure, Except.pure]
  · rw [if_neg hexpired]
    refine iff_of_false (fun h => ?_) hexpired
    split at h
    · exact absurd (Except.ok.inj h) (by decide)
    · cases h

/-- The test on a token is early in its last second. -/
theorem honoursToken_iff {tokenID requestedZone : String} {payload : B} {t : CrossZoneToken}
    {expiry : Time} (hget : l.get (cztKey (trimSpace tokenID)) = some payload)
    (ht : R.token.unmarshal payload = .ok t) (h : t.expiresAt = expiry.sec) :
    HonoursToken R l ctx tokenID requestedZone t expiry ↔
      ¬(txTime ctx < expiry ∧ ctx.now = expiry.sec) := by
  have hexpired : validCrossZoneToken R l ctx tokenID t.subjectID requestedZone =
      .ok (some "cross-zone token expired") ↔ t.expiresAt ≤ ctx.now :=
    validCrossZoneToken_expired hget ht
  rw [h] at hexpired
  constructor
  · intro hhonours ⟨hbefore, hsame⟩
    exact hhonours.before hbefore (hexpired.mpr (le_of_eq hsame.symm))
  · intro hnot
    refine ⟨fun hbefore hfails => ?_, fun hafter => hexpired.mpr (Time.sec_le hafter)⟩
    exact hnot ⟨hbefore, le_antisymm (Time.sec_le hbefore) (hexpired.mp hfails)⟩

/-- **Expiry instants are honoured exactly outside their own second.** What a call stored
for an instant and is still there is taken for valid before it and for expired after it,
but for the rest of an assignment's last second, the start of a token's, and assignments
that end in the second zero. -/
theorem expiry_honoured_iff (R : Runtime B) (past : List (Event B)) (ctx : Context)
    (expiry : Time) (payload : B) :
    (∀ subject a, StillStored R past (roleKey subject) expiry payload →
      R.role.unmarshal payload = .ok a →
      (HonoursRole ctx a expiry ↔
        ¬(expiry < txTime ctx ∧ (ctx.now = expiry.sec ∨ expiry.sec = 0)))) ∧
    ∀ tokenID requestedZone t, StillStored R past (cztKey (trimSpace tokenID)) expiry payload →
      R.token.unmarshal payload = .ok t →
      (HonoursToken R (ledgerAfter R past) ctx tokenID requestedZone t expiry ↔
        ¬(txTime ctx < expiry ∧ ctx.now = expiry.sec)) := by
  constructor
  · intro subject a hstored ha
    exact honoursRole_iff (hstored.role ha)
  · intro tokenID requestedZone t hstored ht
    have hsec := hstored.token ht
    obtain ⟨_, _, _, _, _, _, hnow⟩ := hstored
    exact honoursToken_iff hnow ht hsec

/-- Texts with a fraction of a second. -/
def fractionRuntime : Runtime Document :=
  .documents []
    [("1970-01-01T00:03:20Z", .unix 200 0), ("1970-01-01T00:08:20.9Z", .unix 500 900000000)]
    [(.unix 110 0, "1970-01-01 00:01:50 +0000 UTC")] [(bobsText, bobsToken)]

/-- A farmer until 200 s, with a token for the South until 500.9 s. -/
def datedRun : List (Event Document) :=
  [.invoke (mockContext "01" 100 "root" .admin "" 1)
      (.assignRole "bob" "Farmer" "North" "1970-01-01T00:03:20Z" "n1"),
    .invoke (mockContext "02" 110 "root" .admin "" 1)
      (.issueCrossZoneToken "bob" "South" "1970-01-01T00:08:20.9Z" "n2")]

/-- Half way through a second. -/
def halfPast (second : Int64) : Context :=
  {mockContext "03" second "bob" .farmer "North" 2 with timestamp := ⟨second, 500000000⟩}

def bobsRole : RoleAssignment := ⟨"bob", .farmer, ["North"], "root", 100, 200⟩

def southToken : CrossZoneToken :=
  ⟨bobsToken, "bob", "North", ["South"], "root", 110, 500, "n2"⟩

theorem datedRun_role :
    StillStored fractionRuntime datedRun (roleKey "bob") (.unix 200 0) (.role bobsRole) :=
  ⟨[], _, [_], rfl, .assigned (by decide) (by decide) (by decide), by decide, by decide⟩

theorem datedRun_token :
    StillStored fractionRuntime datedRun (cztKey (trimSpace bobsToken)) (.unix 500 900000000)
      (.token southToken) :=
  ⟨[_], _, [], rfl, .issued (invoke_answers (by decide +kernel)) (by decide), by decide, by decide⟩

/-- Half a second late the role is still good, and 0.4 s early the token is expired. -/
theorem datedRun_misjudged :
    StillStored fractionRuntime datedRun (roleKey "bob") (.unix 200 0) (.role bobsRole) ∧
      ¬HonoursRole (halfPast 200) bobsRole (.unix 200 0) ∧
      StillStored fractionRuntime datedRun (cztKey (trimSpace bobsToken)) (.unix 500 900000000)
        (.token southToken) ∧
      ¬HonoursToken fractionRuntime (ledgerAfter fractionRuntime datedRun) (halfPast 500) bobsToken
        "South" southToken (.unix 500 900000000) := by
  refine ⟨datedRun_role, fun h => ?_, datedRun_token, fun h => ?_⟩
  · obtain ⟨reason, herror⟩ := h.after (by decide)
    cases herror
  · exact h.before (by decide) (by decide)

/-- In the seconds around, both are honoured. -/
theorem expiry_honoured_bob :
    HonoursRole (halfPast 199) bobsRole (.unix 200 0) ∧
      HonoursToken fractionRuntime (ledgerAfter fractionRuntime datedRun) (halfPast 499) bobsToken
        "South" southToken (.unix 500 900000000) :=
  ⟨((expiry_honoured_iff fractionRuntime datedRun (halfPast 199) (.unix 200 0) _).1 "bob" bobsRole
      datedRun_role rfl).mpr (by decide),
    ((expiry_honoured_iff fractionRuntime datedRun (halfPast 499) (.unix 500 900000000) _).2 bobsToken
      "South" southToken datedRun_token rfl).mpr (by decide)⟩

end FarmChain.Chaincode
