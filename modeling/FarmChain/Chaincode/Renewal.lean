import FarmChain.Chaincode.Access

/-! What renewing a role changes.

`RenewRole` reads the assignment of the trimmed subject and writes it back under the
subject as given. With spaces around the subject the assignment in force keeps its old
expiry and a second record appears that no operation reads; so the renewals of a run do
what they are for exactly when every one of them names a trimmed subject
(`renewals_exact_iff`). -/
namespace FarmChain.Chaincode

open Strings Run

variable {B : Type}

/-- What a successful `RenewRole` should do: the assignment in force for the subject
changes in its expiry, and no other role record changes. -/
def RenewsOnly (R : Runtime B) (l : Ledger B) (ctx : Context)
    (subjectID expiresAtISO nonce : String) : Prop :=
  let l' := commit R l ctx (.renewRole subjectID expiresAtISO nonce)
  ∃ a expiry, getRoleAssignment R l subjectID = .ok a ∧
    R.parseRFC3339 (trimSpace expiresAtISO) = .ok expiry ∧
    getRoleAssignment R l' subjectID = .ok {a with expiresAt := expiry.sec} ∧
    ∀ key, kindOf key = .role → key ≠ roleKey (trimSpace subjectID) → l'.get key = l.get key

/-- Every `RenewRole` of the run that succeeds does so. -/
def RenewalsExact (R : Runtime B) (events : List (Event B)) : Prop :=
  ∀ before ctx subjectID expiresAtISO nonce after,
    events = before ++ .invoke ctx (.renewRole subjectID expiresAtISO nonce) :: after →
    succeeds R (ledgerAfter R before) ctx (.renewRole subjectID expiresAtISO nonce) = true →
    RenewsOnly R (ledgerAfter R before) ctx subjectID expiresAtISO nonce

/-- Every `RenewRole` of the run that succeeds names its subject without spaces around it. -/
def RenewalsTrimmed (R : Runtime B) (events : List (Event B)) : Prop :=
  ∀ before ctx subjectID expiresAtISO nonce after,
    events = before ++ .invoke ctx (.renewRole subjectID expiresAtISO nonce) :: after →
    succeeds R (ledgerAfter R before) ctx (.renewRole subjectID expiresAtISO nonce) = true →
    trimSpace subjectID = subjectID

variable {R : Runtime B} {l : Ledger B} {ctx : Context} {subjectID expiresAtISO nonce : String}

/-! ### One renewal -/

/-- A renewal writes one role record: the assignment it read, under the subject as given. -/
theorem renewRole_writes
    (h : succeeds R l ctx (.renewRole subjectID expiresAtISO nonce) = true) :
    ∃ a expiry, getRoleAssignment R l subjectID = .ok a ∧
      R.parseRFC3339 (trimSpace expiresAtISO) = .ok expiry ∧
      ∀ key, kindOf key = .role →
        (commit R l ctx (.renewRole subjectID expiresAtISO nonce)).get key =
          if key = roleKey subjectID then some (R.role.marshal {a with expiresAt := expiry.sec})
          else l.get key := by
  obtain ⟨response, ws, hinvoke⟩ := succeeds_eq_true.mp h
  obtain ⟨caller, own, entry, heffect, hget⟩ := commit_get hinvoke
  cases heffect with
  | @renewed _ _ _ a _ _ found hexpiry =>
    obtain ⟨expiry, hparse, rfl, _⟩ := parseFutureExpiry_required hexpiry
    refine ⟨a, expiry, found, hparse, fun key hkey => ?_⟩
    rw [hget key (by simp [hkey]), Store.get_apply_singleton]

/-- A renewal does only what it is for when the subject is trimmed, or when both records
already are as it would leave them. -/
theorem renewsOnly_iff
    (h : succeeds R l ctx (.renewRole subjectID expiresAtISO nonce) = true) :
    RenewsOnly R l ctx subjectID expiresAtISO nonce ↔
      trimSpace subjectID = subjectID ∨
        ∃ a expiry, getRoleAssignment R l subjectID = .ok a ∧
          R.parseRFC3339 (trimSpace expiresAtISO) = .ok expiry ∧ a.expiresAt = expiry.sec ∧
          l.get (roleKey subjectID) = some (R.role.marshal a) := by
  obtain ⟨a, expiry, hfound, hparse, hwrites⟩ := renewRole_writes h
  have hown := hwrites (roleKey subjectID) (kindOf_roleKey _)
  rw [if_pos rfl] at hown
  constructor
  · intro ⟨a', expiry', hfound', hparse', hrenewed, hothers⟩
    cases hfound.symm.trans hfound'
    cases hparse.symm.trans hparse'
    by_cases htrim : trimSpace subjectID = subjectID
    · exact .inl htrim
    · have hne : roleKey subjectID ≠ roleKey (trimSpace subjectID) :=
        fun hkey => htrim (roleKey_inj.mp hkey).symm
      -- the assignment in force was not written
      have hkept := (hwrites (roleKey (trimSpace subjectID)) (kindOf_roleKey _)).trans
        (if_neg hne.symm)
      rw [getRoleAssignment_congr hkept, hfound, Except.ok.injEq] at hrenewed
      have hstored := hothers (roleKey subjectID) (kindOf_roleKey _) hne
      rw [hown, ← hrenewed] at hstored
      exact .inr ⟨a, expiry, hfound, hparse, congrArg RoleAssignment.expiresAt hrenewed,
        hstored.symm⟩
  · rintro (htrim | ⟨a', expiry', hfound', hparse', hexpiry, hstored⟩)
    · refine ⟨a, expiry, hfound, hparse, ?_, fun key hkey hne => ?_⟩
      · refine getRoleAssignment_eq_ok.mpr ⟨(getRoleAssignment_eq_ok.mp hfound).1, _, ?_,
          R.role.unmarshal_marshal _⟩
        rw [htrim]
        exact hown
      · rw [htrim] at hne
        exact (hwrites key hkey).trans (if_neg hne)
    · cases hfound.symm.trans hfound'
      cases hparse.symm.trans hparse'
      have hsame : {a with expiresAt := expiry.sec} = a := by rw [← hexpiry]
      have hkept (key : String) (hkey : kindOf key = .role) :
          (commit R l ctx (.renewRole subjectID expiresAtISO nonce)).get key = l.get key := by
        rw [hwrites key hkey, hsame]
        split
        · rename_i heq
          rw [heq, hstored]
        · rfl
      refine ⟨a, expiry, hfound, hparse, ?_, fun key hkey _ => hkept key hkey⟩
      rw [hsame, getRoleAssignment_congr (hkept _ (kindOf_roleKey _)), hfound]

/-! ### Over a run -/

/-- While renewals are exact, no role record stands under a subject with spaces around it. -/
theorem RenewalsExact.untrimmed_absent {events : List (Event B)} (h : RenewalsExact R events)
    {subject : String} (hs : trimSpace subject ≠ subject) (past : List (Event B)) :
    past <+: events → (ledgerAfter R past).get (roleKey subject) = none := by
  induction past using List.reverseRecOn with
  | nil => exact fun _ => Store.get_empty _
  | append_singleton past e ih =>
    intro hearlier
    have hbefore := ih ((List.prefix_append past [e]).trans hearlier)
    have hcase := roleStep (wellIndexed_ledgerAfter R past) subject e
    rw [ledgerAfter_snoc]
    generalize hafter : (step R (ledgerAfter R past) e).get (roleKey subject) = o at hcase ⊢
    cases hcase with
    | assigned assigns =>
      obtain ⟨_, _, _, _, _, _, _, _, _, _, _, rfl, _⟩ := assigns
      exact absurd (trimSpace_trimSpace _) hs
    | renewed renews =>
      -- an exact renewal writes no second record
      obtain ⟨ctx, caller, expiresAtISO, nonce, hcommits, _⟩ := renews
      obtain ⟨rfl, _, ws, hinvoke⟩ := hcommits
      obtain ⟨rest, hrest⟩ := hearlier
      have hexact := h past ctx subject expiresAtISO nonce rest (by simp [← hrest])
        (succeeds_eq_true.mpr ⟨_, ws, hinvoke⟩)
      obtain ⟨_, _, _, _, _, hothers⟩ := hexact
      have hkept := hothers (roleKey subject) (kindOf_roleKey _)
        fun hkey => hs (roleKey_inj.mp hkey).symm
      rw [← hafter]
      exact hkept.trans hbefore
    | removed => rfl
    | kept => exact hbefore

/-- **The renewals of a run do what they are for exactly when they name trimmed subjects.** -/
theorem renewals_exact_iff (R : Runtime B) (events : List (Event B)) :
    RenewalsExact R events ↔ RenewalsTrimmed R events := by
  constructor
  · intro h before ctx subjectID expiresAtISO nonce after hsplit hsucceeds
    by_contra htrim
    have habsent := h.untrimmed_absent htrim before ⟨_, hsplit.symm⟩
    rcases (renewsOnly_iff hsucceeds).mp
      (h before ctx subjectID expiresAtISO nonce after hsplit hsucceeds) with
      htrimmed | ⟨_, _, _, _, _, hstored⟩
    · exact htrim htrimmed
    · cases habsent.symm.trans hstored
  · intro h before ctx subjectID expiresAtISO nonce after hsplit hsucceeds
    exact (renewsOnly_iff hsucceeds).mpr
      (.inl (h before ctx subjectID expiresAtISO nonce after hsplit hsucceeds))

/-- A farmer whose role is renewed under a name with a space before it. -/
def spacedRenewal : List (Event Document) :=
  [.invoke (mockContext "01" 100 "root" .admin "" 1)
      (.assignRole "bob" "Farmer" "North" "1970-01-01T00:03:20Z" "n1"),
    .invoke (mockContext "02" 110 "root" .admin "" 1)
      (.renewRole " bob" "1970-01-01T00:08:20Z" "n2")]

/-- The renewal succeeds, the role still ends at 200 s, and there is a second record. -/
theorem spacedRenewal_misses : ¬RenewalsExact fieldRuntime spacedRenewal ∧
    getRoleAssignment fieldRuntime (ledgerAfter fieldRuntime spacedRenewal) " bob" =
      .ok ⟨"bob", .farmer, ["North"], "root", 100, 200⟩ ∧
    (ledgerAfter fieldRuntime spacedRenewal).get (roleKey " bob") =
      some (.role ⟨"bob", .farmer, ["North"], "root", 100, 500⟩) := by
  refine ⟨fun h => ?_, by decide, by decide⟩
  have hexact := h [_] _ _ _ _ [] rfl (by decide)
  obtain ⟨_, _, _, _, _, hothers⟩ := hexact
  exact absurd (hothers (roleKey " bob") (by decide) (by decide)) (by decide)

end FarmChain.Chaincode
