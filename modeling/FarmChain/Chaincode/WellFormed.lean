import FarmChain.Chaincode.AuditLog
import FarmChain.Chaincode.Denials
import FarmChain.Chaincode.Tokens

/-! What is on the ledger after any run.

`GoodRecord` says of a value what it must be for its key: it decodes, and what it decodes
to is well formed. Every write of a transaction is good where every record it was made
from is (`Consumes.good`, `Effect.good`, `Logs.good`), so after every run of transactions
with hexadecimal identifiers every record is. Tokens expire no earlier than they were
issued but for one case: a transaction so late that Go's count of seconds wraps takes every
expiry for a future one (`stored_wellFormed_iff`). -/
namespace FarmChain.Chaincode

open Strings Run

variable {B : Type}

/-- A stored zone list: zones and the wildcard, each once. -/
structure ZoneList (zones : List String) : Prop where
  nodup : zones.Nodup
  stored : ∀ z ∈ zones, IsStoredZone z

structure RoleAssignment.WellFormed (a : RoleAssignment) : Prop where
  role : a.role ∈ validRoles
  subject : a.subjectID ≠ ""
  trimmed : trimSpace a.subjectID = a.subjectID
  zones : ZoneList a.zones
  bound : a.role = .gateway ∨ a.role = .sensor → a.zones ≠ []

structure CrossZoneToken.WellFormed (t : CrossZoneToken) : Prop where
  zones : ZoneList t.targetZones
  targets : t.targetZones ≠ []
  subject : trimSpace t.subjectID ≠ ""

/-- What a value must be to stand under a key of the kind. -/
inductive GoodRecord (R : Runtime B) (payload : B) : Kind → Prop
  | role {a : RoleAssignment} (decodes : R.role.unmarshal payload = .ok a) (good : a.WellFormed) :
      GoodRecord R payload .role
  | czt {t : CrossZoneToken} (decodes : R.token.unmarshal payload = .ok t) (good : t.WellFormed) :
      GoodRecord R payload .czt
  | nonce {n : Nonce} (decodes : R.nonce.unmarshal payload = .ok n) : GoodRecord R payload .nonce
  | audit {entry : AuditEntry} (decodes : R.audit.unmarshal payload = .ok entry) :
      GoodRecord R payload .audit
  | nonceIndex {keys : List String} (decodes : R.index.unmarshal payload = .ok keys)
      (listed : ∀ key ∈ keys, kindOf key = .nonce) : GoodRecord R payload .nonceIndex
  | auditIndex {keys : List String} (decodes : R.index.unmarshal payload = .ok keys)
      (listed : ∀ key ∈ keys, kindOf key = .audit) : GoodRecord R payload .auditIndex
  | sensor : GoodRecord R payload .sensor
  | crl : GoodRecord R payload .crl
  | other : GoodRecord R payload .other

def WellFormed (R : Runtime B) (l : Ledger B) : Prop :=
  ∀ key payload, l.get key = some payload → GoodRecord R payload (kindOf key)

/-- No token on the ledger expires before it was issued. -/
def Lifetimes (R : Runtime B) (l : Ledger B) : Prop :=
  ∀ tokenID payload t, l.get (cztKey tokenID) = some payload →
    R.token.unmarshal payload = .ok t → t.issuedAt ≤ t.expiresAt

/-- A token is issued at an instant whose seconds wrap, for an expiry whose seconds do not. -/
def IssuesWrapped (R : Runtime B) (l : Ledger B) (e : Event B) : Prop :=
  ∃ ctx userID targetZonesCSV expiresAtISO nonce expiry,
    e = .invoke ctx (.issueCrossZoneToken userID targetZonesCSV expiresAtISO nonce) ∧
    succeeds R l ctx (.issueCrossZoneToken userID targetZonesCSV expiresAtISO nonce) = true ∧
    R.parseRFC3339 (trimSpace expiresAtISO) = .ok expiry ∧
    (txTime ctx).Wrapped ∧ ¬expiry.Wrapped

/-- Every write is good. -/
def GoodWrites (R : Runtime B) (ws : WriteSet B) : Prop :=
  ∀ w ∈ ws, ∀ payload, w.2 = some payload → GoodRecord R payload (kindOf w.1)

/-- Nothing on the ledger fails to decode where an operation reads it: each of these
functions ends with a result, or for one of its other reasons. -/
structure Readable (R : Runtime B) (l : Ledger B) : Prop where
  assignment : ∀ subjectID, trimSpace subjectID ≠ "" →
    l.get (roleKey (trimSpace subjectID)) ≠ none → ∃ a, getRoleAssignment R l subjectID = .ok a
  token : ∀ ctx tokenID userID requestedZone,
    ∃ reason, validCrossZoneToken R l ctx tokenID userID requestedZone = .ok reason
  index : ∀ key ∈ [auditIndexKey, nonceIndexKey], ∃ keys, getStringIndex R l key = .ok keys
  auditLog : ∀ ctx caller, getCallerIdentity R ctx = .ok caller → mayReadAudit caller.role = true →
    ∃ entries, getAuditLog R l ctx = .ok entries
  prune : ∀ ctx caller beforeUnix nonce, getCallerIdentity R ctx = .ok caller →
    caller.id ≠ "" → nonce ≠ "" → l.get (nonceKey caller.id nonce) = none → caller.role = .admin →
      ∃ result, pruneNonces R l ctx beforeUnix nonce = .ok result

variable {R : Runtime B} {l : Ledger B} {ctx : Context}

/-! ### What is stored is good -/

theorem WellFormed.nonceIndex (h : WellFormed R l) :
    ∃ keys, getStringIndex R l nonceIndexKey = .ok keys ∧ ∀ key ∈ keys, kindOf key = .nonce := by
  unfold getStringIndex
  cases hget : l.get nonceIndexKey with
  | none => exact ⟨[], rfl, fun _ hkey => by cases hkey⟩
  | some payload =>
    have hgood := h _ _ hget
    rw [kindOf_nonceIndexKey] at hgood
    cases hgood with
    | nonceIndex decodes listed => exact ⟨_, by simp [decodes], listed⟩

theorem WellFormed.auditIndex (h : WellFormed R l) :
    ∃ keys, getStringIndex R l auditIndexKey = .ok keys ∧ ∀ key ∈ keys, kindOf key = .audit := by
  unfold getStringIndex
  cases hget : l.get auditIndexKey with
  | none => exact ⟨[], rfl, fun _ hkey => by cases hkey⟩
  | some payload =>
    have hgood := h _ _ hget
    rw [kindOf_auditIndexKey] at hgood
    cases hgood with
    | auditIndex decodes listed => exact ⟨_, by simp [decodes], listed⟩

/-- A role record decodes to an assignment that is well formed. -/
theorem WellFormed.role (h : WellFormed R l) {subjectID : String} {payload : B}
    (hget : l.get (roleKey subjectID) = some payload) :
    ∃ a, R.role.unmarshal payload = .ok a ∧ a.WellFormed := by
  have hgood := h _ _ hget
  rw [kindOf_roleKey] at hgood
  cases hgood with
  | role decodes good => exact ⟨_, decodes, good⟩

theorem WellFormed.token (h : WellFormed R l) {tokenID : String} {payload : B}
    (hget : l.get (cztKey tokenID) = some payload) :
    ∃ t, R.token.unmarshal payload = .ok t ∧ t.WellFormed := by
  have hgood := h _ _ hget
  rw [kindOf_cztKey] at hgood
  cases hgood with
  | czt decodes good => exact ⟨_, decodes, good⟩

theorem WellFormed.assignment (h : WellFormed R l) {subjectID : String} {a : RoleAssignment}
    (ha : getRoleAssignment R l subjectID = .ok a) : a.WellFormed := by
  obtain ⟨_, payload, hget, hdecode⟩ := getRoleAssignment_eq_ok.mp ha
  obtain ⟨a', hdecode', hwell⟩ := h.role hget
  cases hdecode.symm.trans hdecode'
  exact hwell

/-! ### What is written is good -/

theorem GoodWrites.append {a b : WriteSet B} (ha : GoodWrites R a) (hb : GoodWrites R b) :
    GoodWrites R (a ++ b) := by
  intro w hw
  rcases List.mem_append.mp hw with hw | hw
  · exact ha w hw
  · exact hb w hw

theorem goodWrites_nil : GoodWrites R [] := fun w hw => by cases hw

theorem GoodWrites.put {key : String} {payload : B} {ws : WriteSet B} (hws : GoodWrites R ws)
    (h : GoodRecord R payload (kindOf key)) : GoodWrites R ((key, some payload) :: ws) := by
  intro w hw payload' hpayload
  rcases List.mem_cons.mp hw with rfl | hw
  · cases hpayload
    exact h
  · exact hws w hw payload' hpayload

theorem goodWrites_put {key : String} {payload : B} (h : GoodRecord R payload (kindOf key)) :
    GoodWrites R [(key, some payload)] := goodWrites_nil.put h

theorem goodWrites_delete (keys : List String) : GoodWrites R (keys.map deleteState) := by
  intro w hw payload hpayload
  obtain ⟨key, _, rfl⟩ := List.mem_map.mp hw
  cases hpayload

theorem goodRecord_role {key : String} {a : RoleAssignment} (h : a.WellFormed) :
    GoodRecord R (R.role.marshal a) (kindOf (roleKey key)) := by
  rw [kindOf_roleKey]
  exact .role (R.role.unmarshal_marshal a) h

theorem goodRecord_token {key : String} {t : CrossZoneToken} (h : t.WellFormed) :
    GoodRecord R (R.token.marshal t) (kindOf (cztKey key)) := by
  rw [kindOf_cztKey]
  exact .czt (R.token.unmarshal_marshal t) h

theorem goodRecord_nonceIndex {keys : List String} (h : ∀ key ∈ keys, kindOf key = .nonce) :
    GoodRecord R (R.index.marshal keys) (kindOf nonceIndexKey) := by
  rw [kindOf_nonceIndexKey]
  exact .nonceIndex (R.index.unmarshal_marshal keys) h

/-- The consumed nonce is listed under its own key. -/
theorem Consumes.good (h : WellFormed R l) {caller : CallerIdentity} {nonce : Option String}
    {ws : WriteSet B} (hc : Consumes R l ctx caller nonce ws) : GoodWrites R ws := by
  cases nonce with
  | none =>
    cases hc
    exact goodWrites_nil
  | some nonce =>
    obtain ⟨_, _, _, keys, hkeys, rfl⟩ := validateNonce_eq_ok.mp hc
    obtain ⟨_, hlisted, hkinds⟩ := h.nonceIndex
    cases hkeys.symm.trans hlisted
    rw [putStringIndex]
    refine (goodWrites_put (goodRecord_nonceIndex fun key hkey => ?_)).put ?_
    · rcases List.mem_append.mp hkey with hkey | hkey
      · exact hkinds key hkey
      · rw [List.mem_singleton.mp hkey, kindOf_nonceKey]
    · rw [kindOf_nonceKey]
      exact .nonce (R.nonce.unmarshal_marshal _)

/-- The entry is listed under a key of its own, whatever sequence number that took. -/
theorem Logs.good (h : WellFormed R l) (hhex : IsHex ctx.txID) {entry : Option AuditEntry}
    {ws : WriteSet B} (hlog : Logs R l ctx entry ws) : GoodWrites R ws := by
  cases entry with
  | none =>
    cases hlog
    exact goodWrites_nil
  | some entry =>
    obtain ⟨key, hlog⟩ := hlog
    obtain ⟨keys, hkeys, heq⟩ := writeAuditEntry_eq_ok.mp hlog
    cases heq
    obtain ⟨_, hlisted, hkinds⟩ := h.auditIndex
    cases hkeys.symm.trans hlisted
    have hkind : kindOf (entryKey l ctx) = .audit := (entryKey_new hhex).2
    rw [putStringIndex]
    refine GoodWrites.put (goodWrites_put ?_) ?_
    · rw [kindOf_auditIndexKey]
      refine .auditIndex (R.index.unmarshal_marshal _) fun key hkey => ?_
      rcases List.mem_append.mp hkey with hkey | hkey
      · exact hkinds key hkey
      · rw [List.mem_singleton.mp hkey, hkind]
    · rw [hkind]
      exact .audit (R.audit.unmarshal_marshal _)

theorem normalizeZones_zoneList {order : MapOrder} {zonesCSV : String} {required : Bool}
    {zones : List String} (h : normalizeZones R order zonesCSV required = .ok zones) :
    ZoneList zones :=
  ⟨normalizeZones_nodup h, normalizeZones_stored h⟩

/-- A new assignment is well formed. -/
theorem newAssignment_wellFormed {caller : CallerIdentity} {subjectID roleName zonesCSV : String}
    {zones : List String} {expiresAt : Int} (subject : trimSpace subjectID ≠ "")
    (valid : isRoleValid ⟨trimSpace roleName⟩ = true)
    (zoned : normalizeZonesForRole R ctx.mapOrder ⟨trimSpace roleName⟩ zonesCSV = .ok zones) :
    (newAssignment ctx caller subjectID roleName zones expiresAt).WellFormed := by
  rw [normalizeZonesForRole_eq] at zoned
  refine ⟨by simpa [isRoleValid, newAssignment] using valid, subject, trimSpace_trimSpace _,
    normalizeZones_zoneList zoned, fun hbound => (normalizeZones_walk zoned).2 ?_⟩
  simpa [zoneBound, newAssignment] using hbound

/-- A call's own writes are good: it renews what was good, and prunes what was listed. -/
theorem Effect.good (h : WellFormed R l) {caller : CallerIdentity} {call : Call}
    {response : Response} {own : WriteSet B} {entry : Option AuditEntry}
    (heffect : Effect R l ctx caller call response own entry) : GoodWrites R own := by
  cases heffect with
  | assigned _ subject valid zoned =>
    exact goodWrites_put (goodRecord_role (newAssignment_wellFormed subject valid zoned))
  | revoked => exact goodWrites_delete [_]
  | renewed _ found =>
    have hold := h.assignment found
    exact goodWrites_put
      (goodRecord_role ⟨hold.role, hold.subject, hold.trimmed, hold.zones, hold.bound⟩)
  | @checked _ _ _ _ decision =>
    cases decision with
    | grant => exact goodWrites_nil
    | deny reason => exact goodWrites_nil
    | expire => exact goodWrites_delete [_]
  | issued _ found zoned _ =>
    exact goodWrites_put (goodRecord_token ⟨normalizeZones_zoneList zoned,
      (normalizeZones_walk zoned).2 rfl, (getRoleAssignment_eq_ok.mp found).1⟩)
  | tokenRevoked => exact goodWrites_delete [_]
  | read => exact goodWrites_nil
  | @pruned _ _ keys kept dropped _ index swept =>
    obtain ⟨_, hlisted, hkinds⟩ := h.nonceIndex
    cases index.symm.trans hlisted
    rw [putStringIndex]
    refine (goodWrites_delete dropped).append
      (goodWrites_put (goodRecord_nonceIndex fun key hkey => ?_))
    exact hkinds key (pruneLoop_mem swept (.inl hkey))
  | sensed =>
    refine goodWrites_put ?_
    rw [kindOf_sensorKey]
    exact .sensor

/-! ### Over a run -/

/-- The transactions' identifiers are hexadecimal. -/
def HexTxs (events : List (Event B)) : Prop := ∀ id ∈ events.filterMap Event.txID, IsHex id

instance (events : List (Event B)) : Decidable (HexTxs events) :=
  List.decidableBAll IsHex (events.filterMap Event.txID)

theorem WellFormed.apply (h : WellFormed R l) {ws : WriteSet B} (hws : GoodWrites R ws) :
    WellFormed R (l.apply ws) :=
  Store.forall_get_apply h hws

theorem wellFormed_step (h : WellFormed R l) {e : Event B} (hhex : HexTxs [e]) :
    WellFormed R (step R l e) := by
  have hcase := stepCase R l e
  generalize step R l e = l' at hcase ⊢
  cases hcase with
  | fails => exact h
  | @publishes serialHex entry =>
    have hgood : GoodRecord R entry (kindOf (crlKey serialHex)) := by
      rw [kindOf_crlKey]
      exact .crl
    exact h.apply (goodWrites_put hgood)
  | @commits ctx caller call response consumed own logged entry hcommits hconsumes heffect hlogs =>
    have htx : IsHex ctx.txID := hhex _ (by rw [hcommits.event]; exact List.mem_singleton_self _)
    exact h.apply (((Consumes.good h hconsumes).append (heffect.good h)).append (hlogs.good h htx))

theorem wellFormed_ledgerAfter (R : Runtime B) (events : List (Event B)) (hhex : HexTxs events) :
    WellFormed R (ledgerAfter R events) := by
  induction events using List.reverseRecOn with
  | nil =>
    intro key payload hget
    cases hget
  | append_singleton events e ih =>
    rw [ledgerAfter_snoc]
    unfold HexTxs at hhex
    rw [List.filterMap_append] at hhex
    exact wellFormed_step (ih fun id hid => hhex id (List.mem_append_left _ hid))
      fun id hid => hhex id (List.mem_append_right _ hid)

/-! ### What can be read -/

/-- Every key of audit entries that is listed can be read. -/
theorem WellFormed.readAuditEntries (h : WellFormed R l) (keys : List String)
    (hkinds : ∀ key ∈ keys, kindOf key = .audit) :
    ∃ entries, readAuditEntries R l keys = .ok entries := by
  induction keys with
  | nil => exact ⟨[], rfl⟩
  | cons key rest ih =>
    obtain ⟨entries, hrest⟩ := ih fun k hk => hkinds k (List.mem_cons_of_mem key hk)
    unfold Chaincode.readAuditEntries
    cases hget : l.get key with
    | none => exact ⟨entries, hrest⟩
    | some payload =>
      have hgood := h key payload hget
      rw [hkinds key (List.mem_cons_self ..)] at hgood
      cases hgood with
      | @audit entry decodes =>
        exact ⟨entry :: entries, by simp [Except.bind_eq_ok, decodes, hrest]⟩

/-- Every key of nonces that is listed can be swept. -/
theorem WellFormed.pruneLoop (h : WellFormed R l) (beforeUnix : Int) (own : String)
    (keys : List String) (hkinds : ∀ key ∈ keys, kindOf key = .nonce) :
    ∃ split, pruneLoop R l beforeUnix own keys = .ok split := by
  induction keys with
  | nil => exact ⟨_, rfl⟩
  | cons key rest ih =>
    obtain ⟨⟨kept, dropped⟩, hrest⟩ := ih fun k hk => hkinds k (List.mem_cons_of_mem key hk)
    unfold Chaincode.pruneLoop
    cases hget : l.get key with
    | none => exact ⟨_, hrest⟩
    | some payload =>
      have hgood := h key payload hget
      rw [hkinds key (List.mem_cons_self ..)] at hgood
      cases hgood with
      | @nonce record decodes =>
        by_cases hgo : record.timestamp < beforeUnix ∧ key ≠ own
        · exact ⟨(kept, key :: dropped), by simp [Except.bind_eq_ok, decodes, hrest, hgo]⟩
        · exact ⟨(key :: kept, dropped), by simp [Except.bind_eq_ok, decodes, hrest, hgo]⟩

theorem WellFormed.readable (h : WellFormed R l) : Readable R l where
  assignment subjectID hsubject hget := by
    obtain ⟨payload, hpayload⟩ := Option.ne_none_iff_exists'.mp hget
    obtain ⟨a, hdecode, _⟩ := h.role hpayload
    exact ⟨a, getRoleAssignment_eq_ok.mpr ⟨hsubject, payload, hpayload, hdecode⟩⟩
  token ctx tokenID userID requestedZone := by
    unfold validCrossZoneToken
    cases hget : l.get (cztKey (trimSpace tokenID)) with
    | none => exact ⟨_, rfl⟩
    | some payload =>
      obtain ⟨t, hdecode, _⟩ := h.token hget
      simp only [hdecode, wrapError, Except.ok_bind]
      split
      · exact ⟨_, rfl⟩
      · split
        · exact ⟨_, rfl⟩
        · split <;> exact ⟨_, rfl⟩
  index key hkey := by
    simp only [List.mem_cons, List.not_mem_nil, or_false] at hkey
    rcases hkey with rfl | rfl
    · obtain ⟨keys, hkeys, _⟩ := h.auditIndex
      exact ⟨keys, hkeys⟩
    · obtain ⟨keys, hkeys, _⟩ := h.nonceIndex
      exact ⟨keys, hkeys⟩
  auditLog ctx caller hc hreader := by
    obtain ⟨keys, hkeys, hkinds⟩ := h.auditIndex
    have hlast : ∀ key ∈ lastThousand keys, kindOf key = .audit := by
      intro key hkey
      refine hkinds key ?_
      unfold lastThousand at hkey
      split at hkey
      · exact List.mem_of_mem_drop hkey
      · exact hkey
    obtain ⟨entries, hentries⟩ := h.readAuditEntries _ hlast
    exact ⟨entries, getAuditLog_eq_ok.mpr ⟨caller, hc, hreader, keys, hkeys, hentries⟩⟩
  prune ctx caller beforeUnix nonce hc hid hn hfree hadmin := by
    obtain ⟨keys, hkeys, hkinds⟩ := h.nonceIndex
    obtain ⟨log, hlog, _⟩ := h.auditIndex
    obtain ⟨split, hsplit⟩ := h.pruneLoop beforeUnix (nonceKey caller.id nonce) keys hkinds
    exact ⟨_, pruneNonces_eq_ok.mpr ⟨caller, hc, _,
      validateNonce_eq_ok.mpr ⟨hid, hn, hfree, keys, hkeys, rfl⟩, hadmin, keys, hkeys, split, hsplit, _,
      writeAuditEntry_eq_ok.mpr ⟨log, hlog, rfl⟩, rfl, rfl⟩⟩

/-! ### Lifetimes -/

/-- What is issued expires no earlier, unless the transaction's seconds alone wrap. -/
theorem Issues.lifetime_iff {t : CrossZoneToken} {e : Event B} (h : Issues R t l e) :
    t.issuedAt ≤ t.expiresAt ↔ ¬IssuesWrapped R l e := by
  obtain ⟨ctx, _, _, _, _, _, _, _, _, hcommits, _, _, _, hexpiry, rfl⟩ := h
  obtain ⟨expiry, hparse, rfl, hafter⟩ := parseFutureExpiry_required hexpiry
  show (txTime ctx).sec ≤ expiry.sec ↔ _
  rw [Time.sec_le_iff_of_after hafter]
  constructor
  · intro hwraps ⟨_, _, _, _, _, expiry', hevent, _, hparse', hnow, hnot⟩
    cases hcommits.event.symm.trans hevent
    cases hparse.symm.trans hparse'
    exact hnot (hwraps hnow)
  · intro hnone hnow
    by_contra hnot
    obtain ⟨ws, hok⟩ := hcommits.succeeds
    exact hnone ⟨_, _, _, _, _, expiry, hcommits.event, succeeds_eq_true.mpr ⟨_, ws, hok⟩, hparse,
      hnow, hnot⟩

theorem IssuesWrapped.issues {e : Event B} (h : IssuesWrapped R l e) : ∃ t, Issues R t l e := by
  obtain ⟨ctx, userID, targetZonesCSV, expiresAtISO, nonce, _, rfl, hsucceeds, _⟩ := h
  obtain ⟨response, ws, hok⟩ := succeeds_eq_true.mp hsucceeds
  obtain ⟨caller, _, _, _, _, hc, _, heffect, _, _⟩ := invoke_effect hok
  cases heffect with
  | issued issuer found zoned expiry =>
    exact ⟨_, _, _, _, _, _, _, _, _, _, ⟨rfl, hc, ws, hok⟩, issuer, found, zoned, expiry, rfl⟩

theorem not_issuesWrapped {call : Call} (h : ¬(txTime ctx).Wrapped) :
    ¬IssuesWrapped R l (.invoke ctx call) := by
  intro ⟨_, _, _, _, _, _, hevent, _, _, hnow, _⟩
  cases hevent
  exact h hnow

/-- Every stored token was issued in the run, and every issued token is stored at once. -/
theorem lifetimes_iff (R : Runtime B) (events : List (Event B)) :
    (∀ past later, events = past ++ later → Lifetimes R (ledgerAfter R past)) ↔
      Always (step R) (fun l e => ¬IssuesWrapped R l e) ∅ events := by
  constructor
  · intro h
    refine always_of_split fun before e after hsplit hwrapped => ?_
    obtain ⟨t, hissues⟩ := hwrapped.issues
    have hrecord : TokenRecord R (before ++ [e]) t := since_last hissues
    have hlives := h (before ++ [e]) after (by rw [hsplit]; simp) t.tokenID _ t hrecord.get
      (R.token.unmarshal_marshal t)
    exact hissues.lifetime_iff.mp hlives hwrapped
  · intro h past later hsplit tokenID payload t hget hdecode
    obtain ⟨_, rfl, _, before, e, after, hpast, hissues, _⟩ := tokenRecord R past hget
    rw [R.token.unmarshal_marshal] at hdecode
    cases hdecode
    rw [hsplit, hpast, List.append_assoc, List.cons_append] at h
    exact hissues.lifetime_iff.mpr h.at

/-- **Every stored record is well formed**, and none of the operations' readers ever finds
one it cannot decode; and every stored token expires no earlier than it was issued exactly
when no token was issued at an instant whose seconds wrap, for an expiry whose seconds do
not. -/
theorem stored_wellFormed_iff (R : Runtime B) (events : List (Event B)) (hhex : HexTxs events) :
    ((∀ past later, events = past ++ later → WellFormed R (ledgerAfter R past) ∧
        Lifetimes R (ledgerAfter R past) ∧ Readable R (ledgerAfter R past)) ↔
      Always (step R) (fun l e => ¬IssuesWrapped R l e) ∅ events) ∧
    ∀ past later, events = past ++ later →
      WellFormed R (ledgerAfter R past) ∧ Readable R (ledgerAfter R past) := by
  have hwell (past later : List (Event B)) (hsplit : events = past ++ later) :
      WellFormed R (ledgerAfter R past) := by
    refine wellFormed_ledgerAfter R past fun id hid => hhex id ?_
    rw [hsplit, List.filterMap_append]
    exact List.mem_append_left _ hid
  refine ⟨?_, fun past later hsplit => ⟨hwell past later hsplit, (hwell past later hsplit).readable⟩⟩
  rw [← lifetimes_iff]
  constructor
  · exact fun h past later hsplit => (h past later hsplit).2.1
  · exact fun h past later hsplit => ⟨hwell past later hsplit, h past later hsplit,
      (hwell past later hsplit).readable⟩

/-- A token issued in good time. -/
theorem stored_wellFormed_token :
    WellFormed fieldRuntime (ledgerAfter fieldRuntime tokenRun) ∧
      Lifetimes fieldRuntime (ledgerAfter fieldRuntime tokenRun) ∧
      Readable fieldRuntime (ledgerAfter fieldRuntime tokenRun) :=
  (stored_wellFormed_iff fieldRuntime tokenRun (by decide)).1.mpr
    ⟨not_issuesWrapped (by decide), not_issuesWrapped (by decide), trivial⟩ tokenRun [] (by simp)

/-! ### At the end of time -/

/-- The first second that wraps, and the token it gives Bob. -/
def lastSecond : Int64 := 9223371974719179008

def lateText : String := "bob292277024627-12-06 15:30:08 +0000 UTCn2"

def lateToken : String := "16e0fc033240d377d667a4119f24b40ee7a28776dc83654ea1a26f079251c830"

def lateRuntime : Runtime Document :=
  .documents [] [("1970-01-01T00:08:20Z", .unix 500 0)]
    [(.unix lastSecond 0, "292277024627-12-06 15:30:08 +0000 UTC")] [(lateText, lateToken)]

def lateRun : List (Event Document) :=
  [.invoke (mockContext "01" 100 "root" .admin "" 1) (.assignRole "bob" "Farmer" "North" "" "n1"),
    .invoke (mockContext "02" lastSecond "root" .admin "" 1)
      (.issueCrossZoneToken "bob" "South" "1970-01-01T00:08:20Z" "n2")]

/-- A token is stored that expired ages before it was issued. -/
theorem lateRun_expired : HexTxs lateRun ∧
    (ledgerAfter lateRuntime lateRun).get (cztKey lateToken) = some (.token
      ⟨lateToken, "bob", "North", ["South"], "root", 9223371974719179008, 500, "n2"⟩) ∧
    ¬Lifetimes lateRuntime (ledgerAfter lateRuntime lateRun) := by
  have hstored : (ledgerAfter lateRuntime lateRun).get (cztKey lateToken) = some (.token
      ⟨lateToken, "bob", "North", ["South"], "root", 9223371974719179008, 500, "n2"⟩) := by
    decide +kernel
  refine ⟨by decide, hstored, fun h => ?_⟩
  exact absurd (h _ _ _ hstored rfl) (by decide)

end FarmChain.Chaincode
