import FarmChain.Chaincode.Guards

/-! The audit log over a run.

With distinct hexadecimal transaction identifiers every logging transaction finds
its own key free, so its entry goes under its identifier. `AuditState` is the
invariant: the index lists the keys of the entries in the order they were logged,
each is stored as logged, and no other key holds an entry.

An entry of `CheckAccess` names the caller, the zone, the decision and its reason, and
not the user it was about (`checkAccess_entry_iff`). -/
namespace FarmChain.Chaincode

open Strings Run

variable {B : Type}

def Event.txID : Event B → Option String
  | .invoke ctx _ => some ctx.txID
  | .publishCRL .. => none

/-- The network gives every transaction its own hexadecimal identifier. -/
structure DistinctTxs (events : List (Event B)) : Prop where
  hex : ∀ id ∈ events.filterMap Event.txID, IsHex id
  nodup : (events.filterMap Event.txID).Nodup

/-- The identifier of a transaction that committed and logs: all calls log but reading
the log itself. -/
def loggedTx (R : Runtime B) (l : Ledger B) : Event B → Option String
  | .invoke ctx call => if succeeds R l ctx call ∧ call ≠ .getAuditLog then some ctx.txID else none
  | .publishCRL .. => none

/-- The logging transactions of a run, in commit order. -/
def loggedTxs (R : Runtime B) (events : List (Event B)) : List String :=
  emits (step R) (loggedTx R) ∅ events

/-- The step leaves every audit entry as it is and, if it logs, adds exactly its own. -/
def AddsOwnEntry (R : Runtime B) (l : Ledger B) (e : Event B) : Prop :=
  match loggedTx R l e with
  | none => ∀ key, kindOf key = .audit → (step R l e).get key = l.get key
  | some tx => l.get (auditKey tx) = none ∧
    (∃ entry : AuditEntry, entry.txID = tx ∧
      (step R l e).get (auditKey tx) = some (R.audit.marshal entry)) ∧
    ∀ key, kindOf key = .audit → key ≠ auditKey tx → (step R l e).get key = l.get key

/-- The ledger's audit log is exactly these entries. -/
structure AuditState (R : Runtime B) (entries : List AuditEntry) (l : Ledger B) : Prop where
  index : getStringIndex R l auditIndexKey = .ok (entries.map fun entry => auditKey entry.txID)
  stored : ∀ entry ∈ entries, l.get (auditKey entry.txID) = some (R.audit.marshal entry)
  only : ∀ key, kindOf key = .audit → l.get key ≠ none →
    key ∈ entries.map fun entry => auditKey entry.txID
  hex : ∀ entry ∈ entries, IsHex entry.txID

variable {R : Runtime B} {l : Ledger B} {e : Event B}

/-- A step that changes no audit key keeps the log. -/
theorem AuditState.of_eq {entries : List AuditEntry} {l' : Ledger B} (h : AuditState R entries l)
    (heq : ∀ key, kindOf key = .audit ∨ kindOf key = .auditIndex → l'.get key = l.get key) :
    AuditState R entries l' where
  index := getStringIndex_congr (heq auditIndexKey (.inr kindOf_auditIndexKey)) ▸ h.index
  stored entry hentry := by
    rw [heq _ (.inl (h.hex entry hentry).kindOf_auditKey)]
    exact h.stored entry hentry
  only key hkey hget := h.only key hkey (heq key (.inl hkey) ▸ hget)
  hex := h.hex

theorem Commits.loggedTx {ctx : Context} {caller : CallerIdentity} {call : Call}
    {response : Response} (h : Commits R l e ctx caller call response) :
    loggedTx R l e = if call ≠ .getAuditLog then some ctx.txID else none := by
  obtain ⟨rfl, _, ws, hok⟩ := h
  simp [Chaincode.loggedTx, succeeds_eq_true.mpr ⟨response, ws, hok⟩]

theorem loggedTx_eq_none (h : ∀ ctx caller call response, ¬Commits R l e ctx caller call response) :
    loggedTx R l e = none := by
  cases e with
  | publishCRL => rfl
  | invoke ctx call =>
    refine if_neg fun hlogs => ?_
    obtain ⟨response, ws, hok⟩ := succeeds_eq_true.mp hlogs.1
    obtain ⟨caller, _, _, _, _, hc, _⟩ := invoke_effect hok
    exact h ctx caller call response ⟨rfl, hc, ws, hok⟩

theorem Effect.ne_getAuditLog {ctx : Context} {caller : CallerIdentity} {call : Call}
    {response : Response} {own : WriteSet B} {entry : AuditEntry}
    (h : Effect R l ctx caller call response own (some entry)) : call ≠ .getAuditLog := by
  generalize hentry : some entry = logged at h
  cases h with
  | read => cases hentry
  | _ => simp

/-- With no entry under the identifier yet, the transaction's entry goes there. -/
theorem entryKey_of_free {ctx : Context} (h : l.get (auditKey ctx.txID) = none) :
    entryKey l ctx = auditKey ctx.txID := by
  have hzero : auditSequence l ctx.txID = 0 :=
    l.firstFree_eq_zero _ (by simpa [auditKeyWithSequence] using h)
  simp [entryKey, hzero, auditKeyWithSequence]

theorem AuditState.free {entries : List AuditEntry} (h : AuditState R entries l) {id : String}
    (hhex : IsHex id) (hfresh : id ∉ entries.map (·.txID)) : l.get (auditKey id) = none := by
  by_contra htaken
  obtain ⟨entry, hentry, hkey⟩ := List.mem_map.mp (h.only _ hhex.kindOf_auditKey htaken)
  exact hfresh (List.mem_map.mpr ⟨entry, hentry, auditKey_inj.mp hkey⟩)

/-- Logging under a fresh identifier appends the entry. -/
theorem AuditState.append {entries : List AuditEntry} (h : AuditState R entries l)
    {ctx : Context} {entry : AuditEntry} {logged : WriteSet B}
    (hlogs : Logs R l ctx (some entry) logged) (hhex : IsHex ctx.txID)
    (hfree : l.get (auditKey ctx.txID) = none) {l' : Ledger B}
    (heq : ∀ key, kindOf key = .audit ∨ kindOf key = .auditIndex → l'.get key = l.get key) :
    AuditState R (entries ++ [entry.stamped ctx]) (l'.apply logged) := by
  have hkey := entryKey_of_free hfree
  have hget (key : String) (hk : kindOf key = .audit) : (l'.apply logged).get key =
      if key = auditKey ctx.txID then some (R.audit.marshal (entry.stamped ctx)) else l.get key := by
    rw [hlogs.get_entry l' hk, hkey, heq key (.inl hk)]
  refine ⟨?_, fun entry' hentry => ?_, fun key hk htaken => ?_, fun entry' hentry => ?_⟩
  · obtain ⟨keys, hkeys, hput⟩ := hlogs.index
    cases h.index.symm.trans hkeys
    rw [getStringIndex_put (hput l'), hkey, List.map_append]
    rfl
  · rcases List.mem_append.mp hentry with hold | hnew
    · have hne : auditKey entry'.txID ≠ auditKey ctx.txID := by
        intro heq'
        have hstored := h.stored entry' hold
        rw [heq', hfree] at hstored
        cases hstored
      rw [hget _ (h.hex entry' hold).kindOf_auditKey, if_neg hne]
      exact h.stored entry' hold
    · rw [List.mem_singleton.mp hnew]
      show (l'.apply logged).get (auditKey ctx.txID) = _
      rw [hget _ hhex.kindOf_auditKey, if_pos rfl]
  · rw [hget key hk] at htaken
    rw [List.map_append, List.mem_append]
    split at htaken
    · rename_i hown
      exact .inr (List.mem_singleton.mpr hown)
    · exact .inl (h.only key hk htaken)
  · rcases List.mem_append.mp hentry with hold | hnew
    · exact h.hex entry' hold
    · rw [List.mem_singleton.mp hnew]
      exact hhex

/-- One step: a logging transaction with a fresh identifier appends its entry. -/
theorem AuditState.step {entries : List AuditEntry} (h : AuditState R entries l)
    (hl : WellIndexed R l) (hhex : ∀ id, e.txID = some id → IsHex id)
    (hfresh : ∀ id, e.txID = some id → id ∉ entries.map (·.txID)) :
    AddsOwnEntry R l e ∧ ∃ added : Option AuditEntry, added.map (·.txID) = loggedTx R l e ∧
      AuditState R (entries ++ added.toList) (Chaincode.step R l e) := by
  have hcase := stepCase R l e
  unfold AddsOwnEntry
  generalize Chaincode.step R l e = l' at hcase ⊢
  cases hcase with
  | fails hfails =>
    rw [loggedTx_eq_none hfails]
    exact ⟨fun _ _ => rfl, none, rfl, by simpa using h⟩
  | @publishes serialHex payload hevent =>
    subst hevent
    have hsame (key : String) (hk : kindOf key = .audit ∨ kindOf key = .auditIndex) :
        (l.write (crlKey serialHex, some payload)).get key = l.get key :=
      get_write_of_kind l (by rcases hk with hk | hk <;> simp [hk])
    exact ⟨fun key hk => hsame key (.inl hk), none, rfl, by simpa using h.of_eq hsame⟩
  | @commits ctx caller call response consumed own logged entry hcommits hconsumes heffect hlogs =>
    have hsame (key : String) (hk : kindOf key = .audit ∨ kindOf key = .auditIndex) :=
      get_audit hl hconsumes heffect hk
    have hid : e.txID = some ctx.txID := by
      rw [hcommits.event]
      rfl
    rw [hcommits.loggedTx, Store.apply_append, Store.apply_append]
    cases entry with
    | none =>
      have hread : call = .getAuditLog := by
        by_contra hne
        obtain ⟨_, hentry⟩ := heffect.logged hne
        cases hentry
      cases hlogs
      rw [if_neg (not_not.mpr hread)]
      exact ⟨fun key hk => hsame key (.inl hk), none, rfl, by simpa using h.of_eq hsame⟩
    | some entry =>
      have hfree := h.free (hhex _ hid) (hfresh _ hid)
      have hget (key : String) (hk : kindOf key = .audit) := hlogs.get_entry
        ((l.apply consumed).apply own) hk
      rw [if_pos heffect.ne_getAuditLog]
      refine ⟨⟨hfree, ⟨entry.stamped ctx, rfl, ?_⟩, fun key hk hne => ?_⟩,
        some (entry.stamped ctx), rfl, h.append hlogs (hhex _ hid) hfree hsame⟩
      · rw [hget _ (hhex _ hid).kindOf_auditKey, if_pos (entryKey_of_free hfree).symm]
      · rw [hget key hk, entryKey_of_free hfree, if_neg hne, hsame key (.inl hk)]

/-! ### Runs -/

theorem DistinctTxs.left {a b : List (Event B)} (h : DistinctTxs (a ++ b)) : DistinctTxs a := by
  obtain ⟨hhex, hnodup⟩ := h
  rw [List.filterMap_append] at hhex hnodup
  exact ⟨fun id hid => hhex id (List.mem_append_left _ hid), (List.nodup_append.mp hnodup).1⟩

theorem DistinctTxs.fresh {past : List (Event B)} (h : DistinctTxs (past ++ [e])) {id : String}
    (hid : e.txID = some id) : IsHex id ∧ id ∉ past.filterMap Event.txID := by
  obtain ⟨hhex, hnodup⟩ := h
  rw [List.filterMap_append] at hhex hnodup
  have hlast : id ∈ [e].filterMap Event.txID := by simp [hid]
  exact ⟨hhex id (List.mem_append_right _ hlast),
    fun hpast => (List.nodup_append.mp hnodup).2.2 id hpast id hlast rfl⟩

theorem loggedTx_txID {id : String} (h : loggedTx R l e = some id) : e.txID = some id := by
  cases e with
  | publishCRL => cases h
  | invoke ctx call =>
    rw [loggedTx, Option.ite_none_right_eq_some] at h
    exact h.2

theorem loggedTxs_sublist (R : Runtime B) (past : List (Event B)) :
    (loggedTxs R past).Sublist (past.filterMap Event.txID) :=
  emits_sublist (step R) (fun _ _ _ h => loggedTx_txID h) ∅ past

/-- After a run, the log is the entries of the logging transactions. -/
theorem auditState (R : Runtime B) (past : List (Event B)) (h : DistinctTxs past) :
    ∃ entries : List AuditEntry, entries.map (·.txID) = loggedTxs R past ∧
      AuditState R entries (ledgerAfter R past) := by
  revert h
  refine history_invariant (step R) (fun past l => DistinctTxs past →
    ∃ entries : List AuditEntry, entries.map (·.txID) = loggedTxs R past ∧ AuditState R entries l)
    ∅ ?_ ?_ past
  · intro _
    refine ⟨[], rfl, rfl, fun entry hentry => ?_, fun key _ hkey => absurd rfl hkey,
      fun entry hentry => ?_⟩
    · cases hentry
    · cases hentry
  · intro past e ih h
    obtain ⟨entries, hids, hstate⟩ := ih h.left
    have hstep := hstate.step (e := e) (wellIndexed_ledgerAfter R past)
      (fun id hid => (h.fresh hid).1)
      (fun id hid hmem => (h.fresh hid).2 ((loggedTxs_sublist R past).subset (hids ▸ hmem)))
    obtain ⟨_, added, hadded, hstate'⟩ := hstep
    refine ⟨entries ++ added.toList, ?_, hstate'⟩
    rw [loggedTxs, emits_snoc, List.map_append, hids]
    rw [← hadded]
    cases added <;> rfl

/-- Every step of a run adds at most its own entry. -/
theorem addsOwnEntry (R : Runtime B) {before after : List (Event B)} {e : Event B}
    (h : DistinctTxs (before ++ e :: after)) : AddsOwnEntry R (ledgerAfter R before) e := by
  have hlast : DistinctTxs (before ++ [e]) := by
    rw [List.append_cons] at h
    exact h.left
  obtain ⟨entries, hids, hstate⟩ := auditState R before hlast.left
  exact (hstate.step (wellIndexed_ledgerAfter R before) (fun id hid => (hlast.fresh hid).1)
    (fun id hid hmem => (hlast.fresh hid).2 ((loggedTxs_sublist R before).subset (hids ▸ hmem)))).1

theorem lastThousand_eq_drop (keys : List String) :
    lastThousand keys = keys.drop (keys.length - 1000) := by
  unfold lastThousand
  split
  · rfl
  · rw [Nat.sub_eq_zero_of_le (by omega), List.drop_zero]

/-- Reading the keys of stored entries gives the entries. -/
theorem readAuditEntries_stored {entries : List AuditEntry}
    (h : ∀ entry ∈ entries, l.get (auditKey entry.txID) = some (R.audit.marshal entry)) :
    readAuditEntries R l (entries.map fun entry => auditKey entry.txID) = .ok entries := by
  induction entries with
  | nil => rfl
  | cons entry rest ih =>
    have hrest := ih fun entry' hentry' => h entry' (List.mem_cons_of_mem entry hentry')
    rw [List.map_cons, readAuditEntries, h entry (List.mem_cons_self ..)]
    simp [hrest, wrapError, bind, Except.bind, pure, Except.pure]

theorem AuditState.getAuditLog {entries : List AuditEntry} (h : AuditState R entries l)
    {ctx : Context} {caller : CallerIdentity} (hc : getCallerIdentity R ctx = .ok caller)
    (hreader : mayReadAudit caller.role = true) :
    getAuditLog R l ctx = .ok (entries.drop (entries.length - 1000)) := by
  refine getAuditLog_eq_ok.mpr ⟨caller, hc, hreader, _, h.index, ?_⟩
  rw [lastThousand_eq_drop, List.length_map, ← List.map_drop]
  exact readAuditEntries_stored fun entry hentry => h.stored entry (List.mem_of_mem_drop hentry)

/-- **The audit log is append-only, complete and read back in order.** In a run whose
transactions have distinct hexadecimal identifiers: no step touches an entry but its
own, which a committed logging transaction adds under its own identifier; the index
lists the keys of all entries, each once, in commit order; and an authorised reader
gets the last thousand entries, or all of them, in that order. -/
theorem auditLog_exact (R : Runtime B) (events : List (Event B)) (h : DistinctTxs events) :
    Always (step R) (AddsOwnEntry R) ∅ events ∧
    ∃ entries : List AuditEntry, entries.map (·.txID) = loggedTxs R events ∧
      getStringIndex R (ledgerAfter R events) auditIndexKey =
        .ok (entries.map fun entry => auditKey entry.txID) ∧
      (entries.map fun entry => auditKey entry.txID).Nodup ∧
      (∀ key, kindOf key = .audit → ((ledgerAfter R events).get key ≠ none ↔
        key ∈ entries.map fun entry => auditKey entry.txID)) ∧
      (∀ entry ∈ entries, (ledgerAfter R events).get (auditKey entry.txID) =
        some (R.audit.marshal entry)) ∧
      ∀ ctx caller, getCallerIdentity R ctx = .ok caller → mayReadAudit caller.role = true →
        getAuditLog R (ledgerAfter R events) ctx =
          .ok (entries.drop (entries.length - 1000)) := by
  refine ⟨always_of_split fun before e after hsplit => addsOwnEntry R (hsplit ▸ h), ?_⟩
  obtain ⟨entries, hids, hstate⟩ := auditState R events h
  refine ⟨entries, hids, hstate.index, ?_, fun key hkey => ⟨hstate.only key hkey, fun hmem => ?_⟩,
    hstate.stored, fun ctx caller hc hreader => hstate.getAuditLog hc hreader⟩
  · have hnodup : (entries.map (·.txID)).Nodup :=
      hids ▸ h.nodup.sublist (loggedTxs_sublist R events)
    have hkeys := hnodup.map (f := auditKey) fun _ _ => auditKey_inj.mp
    rwa [List.map_map] at hkeys
  · obtain ⟨entry, hentry, rfl⟩ := List.mem_map.mp hmem
    rw [hstate.stored entry hentry]
    simp

theorem auditLog_exact_token :
    Always (step fieldRuntime) (AddsOwnEntry fieldRuntime) ∅ tokenRun :=
  (auditLog_exact fieldRuntime tokenRun ⟨by decide, by decide⟩).1

/-! ### What an entry of `CheckAccess` tells -/

/-- The call answers so, and writes this entry and the index last. -/
def WritesEntry (R : Runtime B) (l : Ledger B) (ctx : Context) (call : Call) (response : Response)
    (entry : AuditEntry) : Prop :=
  ∃ before keys, invoke R l ctx call = .ok (response, before ++
    [(entryKey l ctx, some (R.audit.marshal entry)), putStringIndex R auditIndexKey keys])

/-- Why access is denied. -/
def AccessDecision.denial : AccessDecision → Option String
  | .grant => none
  | .deny reason => some reason
  | .expire => some "role expired and auto-revoked"

theorem checkAccess_entry {ctx : Context} {caller : CallerIdentity}
    {userID permissionName requestedZone tokenID : String} {decision : AccessDecision}
    {granted : Bool} {entry : AuditEntry} (hc : getCallerIdentity R ctx = .ok caller)
    (hd : decideAccess R l ctx caller (trimSpace userID) ⟨trimSpace permissionName⟩ requestedZone
      tokenID = .ok decision)
    (h : WritesEntry R l ctx (.checkAccess userID permissionName requestedZone tokenID)
      (.access granted) entry) :
    decision.granted = granted ∧
      entry = (decision.entry caller ⟨trimSpace permissionName⟩ (trimSpace requestedZone)).stamped
        ctx := by
  obtain ⟨before, keys, hok⟩ := h
  simp only [invoke, Except.bind_eq_ok, Except.pure_eq_ok, Prod.mk.injEq] at hok
  obtain ⟨⟨granted', ws⟩, hcheck, hresponse, hws⟩ := hok
  obtain ⟨caller', hc', decision', hd', logged, hlog, hgranted, hwrites⟩ :=
    checkAccess_eq_ok.mp hcheck
  cases hc.symm.trans hc'
  cases hd.symm.trans hd'
  obtain ⟨keys', _, hlogged⟩ := writeAuditEntry_eq_ok.mp hlog
  cases hlogged
  cases hresponse
  refine ⟨hgranted, ?_⟩
  have hlast := (List.append_inj' (hwrites.trans hws) rfl).2
  have hpayload := (Prod.mk.inj (List.cons.inj hlast).1).2
  exact (R.audit.marshal_injective (Option.some.inj hpayload)).symm

/-- **An entry of `CheckAccess` identifies the zone, the decision and its ground.** Two
calls from one state write the same entry exactly when they agree in the trimmed zone
and in the decision, in the trimmed permission if it is a grant, and in the reason if
it is a denial; whose access was checked makes no difference. -/
theorem checkAccess_entry_iff (R : Runtime B) (l : Ledger B) (ctx : Context)
    {caller : CallerIdentity} {userID permissionName requestedZone tokenID userID' permissionName'
      requestedZone' tokenID' : String} {decision decision' : AccessDecision}
    {granted granted' : Bool} {entry entry' : AuditEntry}
    (hc : getCallerIdentity R ctx = .ok caller)
    (hd : decideAccess R l ctx caller (trimSpace userID) ⟨trimSpace permissionName⟩ requestedZone
      tokenID = .ok decision)
    (hd' : decideAccess R l ctx caller (trimSpace userID') ⟨trimSpace permissionName'⟩
      requestedZone' tokenID' = .ok decision')
    (h : WritesEntry R l ctx (.checkAccess userID permissionName requestedZone tokenID)
      (.access granted) entry)
    (h' : WritesEntry R l ctx (.checkAccess userID' permissionName' requestedZone' tokenID')
      (.access granted') entry') :
    entry = entry' ↔ trimSpace requestedZone = trimSpace requestedZone' ∧ granted = granted' ∧
      (granted = true → trimSpace permissionName = trimSpace permissionName') ∧
      decision.denial = decision'.denial := by
  obtain ⟨rfl, rfl⟩ := checkAccess_entry hc hd h
  obtain ⟨rfl, rfl⟩ := checkAccess_entry hc hd' h'
  cases decision <;> cases decision' <;>
    simp [AccessDecision.entry, AuditEntry.stamped, AuditEntry.of, AccessDecision.granted,
      AccessDecision.denial]

/-- Two farmers of one zone. -/
def farmersRun : List (Event Document) :=
  [.invoke (mockContext "01" 100 "root" .admin "" 1) (.assignRole "bob" "Farmer" "North" "" "n1"),
    .invoke (mockContext "02" 110 "root" .admin "" 1) (.assignRole "amy" "Farmer" "North" "" "n2")]

/-- The two are granted the same access with one and the same entry. -/
theorem checkAccess_entry_farmers : trimSpace "bob" ≠ trimSpace "amy" ∧
    ∃ entry, WritesEntry fieldRuntime (ledgerAfter fieldRuntime farmersRun)
        (mockContext "03" 200 "root" .admin "" 1) (.checkAccess "bob" "WriteSensor" "North" "")
        (.access true) entry ∧
      WritesEntry fieldRuntime (ledgerAfter fieldRuntime farmersRun)
        (mockContext "03" 200 "root" .admin "" 1) (.checkAccess "amy" "WriteSensor" "North" "")
        (.access true) entry :=
  ⟨by decide, ⟨"03", "root", "CheckAccess", "North", "GRANT", "WriteSensor", 200⟩,
    ⟨[], ["audit:01", "audit:02", "audit:03"], by decide⟩,
    ⟨[], ["audit:01", "audit:02", "audit:03"], by decide⟩⟩

/-- Another zone makes another entry. -/
theorem checkAccess_entry_zones : AuditEntry.mk "03" "root" "CheckAccess" "North" "GRANT"
    "WriteSensor" 200 ≠ ⟨"03", "root", "CheckAccess", "South", "DENY",
      "zone access denied for \"South\"", 200⟩ := by
  have hnorth : WritesEntry fieldRuntime (ledgerAfter fieldRuntime farmersRun)
      (mockContext "03" 200 "root" .admin "" 1) (.checkAccess "bob" "WriteSensor" "North" "")
      (.access true) ⟨"03", "root", "CheckAccess", "North", "GRANT", "WriteSensor", 200⟩ :=
    ⟨[], ["audit:01", "audit:02", "audit:03"], by decide⟩
  have hsouth : WritesEntry fieldRuntime (ledgerAfter fieldRuntime farmersRun)
      (mockContext "03" 200 "root" .admin "" 1) (.checkAccess "bob" "WriteSensor" "South" "")
      (.access false) ⟨"03", "root", "CheckAccess", "South", "DENY",
        "zone access denied for \"South\"", 200⟩ :=
    ⟨[], ["audit:01", "audit:02", "audit:03"], by decide⟩
  have hcaller : getCallerIdentity fieldRuntime (mockContext "03" 200 "root" .admin "" 1) =
      .ok ⟨"root", .admin, "", "1"⟩ := by decide
  have hgrant : decideAccess fieldRuntime (ledgerAfter fieldRuntime farmersRun)
      (mockContext "03" 200 "root" .admin "" 1) ⟨"root", .admin, "", "1"⟩ (trimSpace "bob")
      ⟨trimSpace "WriteSensor"⟩ "North" "" = .ok .grant := by decide
  have hdeny : decideAccess fieldRuntime (ledgerAfter fieldRuntime farmersRun)
      (mockContext "03" 200 "root" .admin "" 1) ⟨"root", .admin, "", "1"⟩ (trimSpace "bob")
      ⟨trimSpace "WriteSensor"⟩ "South" "" =
        .ok (.deny "zone access denied for \"South\"") := by decide
  intro heq
  have hsame := (checkAccess_entry_iff fieldRuntime _ _ hcaller hgrant hdeny hnorth hsouth).mp heq
  exact absurd hsame.1 (by decide)

end FarmChain.Chaincode
