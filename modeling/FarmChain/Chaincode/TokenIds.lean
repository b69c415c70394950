import FarmChain.Chaincode.Tokens

/-! The identifiers of cross-zone tokens over a run.

An identifier is the hash of the user, the transaction's time and the nonce, joined
without separators; the issuer is no part of it, and the nonces of two issuers are not
compared. Even with a hash that never collides, identifiers are unique exactly as far as
these joined texts are (`token_ids_unique_iff`). -/
namespace FarmChain.Chaincode

open Strings Run

variable {B : Type}

/-- The text an `IssueCrossZoneToken` that succeeds hashes. -/
def tokenText (R : Runtime B) (l : Ledger B) : Event B → Option String
  | .invoke ctx (.issueCrossZoneToken userID targetZonesCSV expiresAtISO nonce) =>
    if succeeds R l ctx (.issueCrossZoneToken userID targetZonesCSV expiresAtISO nonce) then
      some (userID ++ R.timeString (txTime ctx) ++ nonce)
    else none
  | _ => none

/-- The identifier a successful call returns. -/
def returnedToken (R : Runtime B) (l : Ledger B) : Event B → Option String
  | .invoke ctx call =>
    match invoke R l ctx call with
    | .ok (.token tokenID, _) => some tokenID
    | _ => none
  | .publishCRL .. => none

def tokenTexts (R : Runtime B) (events : List (Event B)) : List String :=
  emits (step R) (tokenText R) ∅ events

def returnedTokens (R : Runtime B) (events : List (Event B)) : List String :=
  emits (step R) (returnedToken R) ∅ events

/-- A run in which an identifier names one token. -/
structure TokensUnique (R : Runtime B) (events : List (Event B)) : Prop where
  /-- A token goes where there is none. -/
  fresh : ∀ before e after tokenID, events = before ++ e :: after →
    returnedToken R (ledgerAfter R before) e = some tokenID →
      (ledgerAfter R before).get (cztKey tokenID) = none
  /-- No two calls return the same identifier. -/
  distinct : (returnedTokens R events).Nodup
  /-- An identifier that was issued and revoked lets nobody in any more. -/
  revoked : ∀ before e middle after tokenID, events = before ++ e :: (middle ++ after) →
    tokenID ∈ returnedTokens R before → RevokesToken R tokenID (ledgerAfter R before) e →
      ∀ ctx givenID userID requestedZone, trimSpace givenID = tokenID →
        validCrossZoneToken R (ledgerAfter R (before ++ e :: middle)) ctx givenID userID
          requestedZone ≠ .ok none

variable {R : Runtime B} {l : Ledger B} {e : Event B}

/-! ### One step -/

/-- Only `IssueCrossZoneToken` returns an identifier, and it is the one it stores. -/
theorem returnedToken_eq_some {tokenID : String} :
    returnedToken R l e = some tokenID ↔ IssuedAs R tokenID l e := by
  constructor
  · intro h
    cases e with
    | publishCRL => cases h
    | invoke ctx call =>
      unfold returnedToken at h
      dsimp only at h
      split at h
      · rename_i ws hinvoke
        cases h
        obtain ⟨caller, _, _, _, _, hc, _, heffect, _⟩ := invoke_effect hinvoke
        cases heffect with
        | issued issuer found zoned expiry =>
          exact ⟨_, rfl, ctx, caller, _, _, _, _, _, _, _, ⟨rfl, hc, ws, hinvoke⟩, issuer, found,
            zoned, expiry, rfl⟩
      · cases h
  · intro h
    obtain ⟨t, rfl, _, _, _, _, _, _, _, _, _, hcommits, _⟩ := h
    obtain ⟨rfl, _, ws, hinvoke⟩ := hcommits
    simp only [returnedToken, hinvoke]

/-- The identifier is the hash of the text. -/
theorem returnedToken_eq (R : Runtime B) (l : Ledger B) (e : Event B) :
    returnedToken R l e = (tokenText R l e).map R.sha256Hex := by
  cases e with
  | publishCRL => rfl
  | invoke ctx call =>
    cases hinvoke : invoke R l ctx call with
    | error message =>
      have hfails : succeeds R l ctx call = false := by
        rw [succeeds, hinvoke]
        rfl
      cases call <;> simp [returnedToken, tokenText, hinvoke, hfails]
    | ok out =>
      obtain ⟨response, ws⟩ := out
      have hok : succeeds R l ctx call = true := succeeds_eq_true.mpr ⟨response, ws, hinvoke⟩
      obtain ⟨_, _, _, _, _, _, _, heffect, _⟩ := invoke_effect hinvoke
      cases heffect <;> simp [returnedToken, tokenText, hinvoke, hok, newTokenID]

theorem returnedTokens_eq (R : Runtime B) (events : List (Event B)) :
    returnedTokens R events = (tokenTexts R events).map R.sha256Hex := by
  induction events using List.reverseRecOn with
  | nil => rfl
  | append_singleton events e ih =>
    rw [returnedTokens, tokenTexts, emits_snoc, emits_snoc, List.map_append,
      returnedToken_eq, ← returnedTokens, ← tokenTexts, ih]
    cases tokenText R (run (step R) ∅ events) e <;> rfl

/-- A token that is there was issued. -/
theorem mem_returnedTokens {events : List (Event B)} {tokenID : String}
    (h : (ledgerAfter R events).get (cztKey tokenID) ≠ none) :
    tokenID ∈ returnedTokens R events := by
  obtain ⟨payload, hpayload⟩ := Option.ne_none_iff_exists'.mp h
  obtain ⟨t, _, hid, before, e, after, rfl, hissues, _⟩ := tokenRecord R events hpayload
  exact emits_split (returnedToken_eq_some.mpr ⟨t, hid, hissues⟩)

/-! ### After a revocation -/

theorem RevokesToken.get (hl : WellIndexed R l) {tokenID : String} (h : RevokesToken R tokenID l e) :
    (step R l e).get (cztKey tokenID) = none := by
  have hcase := tokenStep hl tokenID e
  generalize (step R l e).get (cztKey tokenID) = o at hcase ⊢
  cases hcase with
  | issued _ issues =>
    obtain ⟨_, _, _, _, _, _, _, _, _, hissue, _⟩ := issues
    obtain ⟨_, _, _, _, hrevoke, _⟩ := h
    cases (hissue.unique hrevoke).2.2.1
  | revoked => rfl
  | kept leaves => exact absurd h leaves.unrevoked

/-- A token that is not there is not brought back unless it is issued. -/
theorem get_of_unissued (hl : WellIndexed R l) {tokenID : String}
    (hfree : l.get (cztKey tokenID) = none) (h : returnedToken R l e ≠ some tokenID) :
    (step R l e).get (cztKey tokenID) = none := by
  have hcase := tokenStep hl tokenID e
  generalize (step R l e).get (cztKey tokenID) = o at hcase ⊢
  cases hcase with
  | issued named issues => exact absurd (returnedToken_eq_some.mpr ⟨_, named, issues⟩) h
  | revoked => rfl
  | kept => exact hfree

/-- With no identifier returned twice, a revoked token stays away. -/
theorem revoked_stays (R : Runtime B) {before middle after : List (Event B)} {e : Event B}
    {tokenID : String} (hnodup : (returnedTokens R (before ++ e :: (middle ++ after))).Nodup)
    (hissued : tokenID ∈ returnedTokens R before)
    (hrevokes : RevokesToken R tokenID (ledgerAfter R before) e) :
    (ledgerAfter R (before ++ e :: middle)).get (cztKey tokenID) = none := by
  have hsince : Since (step R) (RevokesToken R tokenID)
      (fun l e => returnedToken R l e ≠ some tokenID) ∅ (before ++ e :: middle) := by
    refine ⟨before, e, middle, rfl, hrevokes, ?_⟩
    rw [← List.map_id (returnedTokens R _)] at hnodup
    have hfresh := (always_fresh id hnodup hissued).2
    exact (always_append.mp hfresh).1.mono fun _ _ h hreturned => h tokenID hreturned rfl
  exact hsince.induction (WellIndexed R) (fun l => l.get (cztKey tokenID) = none)
    (fun _ e hl => wellIndexed_step hl e) (fun _ _ hl h => h.get hl)
    (fun _ _ hl hfree h => get_of_unissued hl hfree h) (wellIndexed_empty R)

/-- **Identifiers are unique exactly as far as the texts they are made from.** -/
theorem token_ids_unique_iff (hash : Function.Injective R.sha256Hex) (events : List (Event B)) :
    TokensUnique R events ↔ (tokenTexts R events).Nodup := by
  have hnodup_iff : (returnedTokens R events).Nodup ↔ (tokenTexts R events).Nodup := by
    rw [returnedTokens_eq]
    exact List.nodup_map_iff hash
  rw [← hnodup_iff]
  constructor
  · exact fun h => h.distinct
  · intro hnodup
    refine ⟨fun before e after tokenID hsplit hreturned => ?_, hnodup,
      fun before e middle after tokenID hsplit hissued hrevokes ctx givenID userID requestedZone hid =>
        ?_⟩
    · by_contra htaken
      exact not_mem_emits hnodup hsplit hreturned (mem_returnedTokens htaken)
    · subst hsplit
      rw [Ne, validCrossZoneToken_eq_none, hid, revoked_stays R hnodup hissued hrevokes]
      intro ⟨_, hpayload, _⟩
      cases hpayload

/-! ### Two issuers with one text -/

/-- The hash of the one text, and no collisions. -/
def hashingRuntime : Runtime Document := {fieldRuntime with sha256Hex := Equiv.swap bobsText bobsToken}

theorem hashingRuntime_injective : Function.Injective hashingRuntime.sha256Hex :=
  (Equiv.swap bobsText bobsToken).injective

/-- An administrator gives Bob a token at second 110, under the nonce. -/
def issuesToBob (txID admin nonce : String) : Event Document :=
  .invoke (mockContext txID 110 admin .admin "" 1)
    (.issueCrossZoneToken "bob" "South" "1970-01-01T00:08:20Z" nonce)

def bobsRun : List (Event Document) :=
  [.invoke (mockContext "01" 100 "root" .admin "" 1) (.assignRole "bob" "Farmer" "North" "" "n1"),
    issuesToBob "02" "root" "n2"]

/-- One token, and later another one under another nonce. -/
theorem token_ids_unique_bob : TokensUnique hashingRuntime (bobsRun ++ [issuesToBob "03" "ada" "n3"]) :=
  (token_ids_unique_iff hashingRuntime_injective _).mpr (by decide +kernel)

def revokesBobs : Event Document :=
  .invoke (mockContext "04" 120 "root" .admin "" 1) (.revokeCrossZoneToken bobsToken "n3")

/-- Three administrators give Bob a token in the same second under the same nonce. The second
call overwrites the token of the first, and the third brings it back after it was revoked. -/
theorem token_ids_not_unique :
    Function.Injective hashingRuntime.sha256Hex ∧
    ¬TokensUnique hashingRuntime
      (bobsRun ++ [issuesToBob "03" "ada" "n2", revokesBobs, issuesToBob "05" "eve" "n2"]) ∧
    returnedTokens hashingRuntime
      (bobsRun ++ [issuesToBob "03" "ada" "n2", revokesBobs, issuesToBob "05" "eve" "n2"]) =
        [bobsToken, bobsToken, bobsToken] := by
  have hreturned : returnedTokens hashingRuntime
      (bobsRun ++ [issuesToBob "03" "ada" "n2", revokesBobs, issuesToBob "05" "eve" "n2"]) =
        [bobsToken, bobsToken, bobsToken] := by decide +kernel
  refine ⟨hashingRuntime_injective, fun h => ?_, hreturned⟩
  have hdistinct := h.distinct
  rw [hreturned] at hdistinct
  exact absurd hdistinct (by decide)

end FarmChain.Chaincode
