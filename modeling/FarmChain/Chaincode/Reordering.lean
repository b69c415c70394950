import FarmChain.Chaincode.Footprints

/-! The order of independent transactions.

The network orders transactions as it likes. Steps of the registry keep to the footprints of
their transactions (`registry_local`), so transactions that touch different rows may be
ordered either way: each is answered the same and the same records are stored, the entries of
the indexes and of the audit log apart, which come in the order of the run
(`order_unobservable`). -/
namespace FarmChain.Chaincode

open Strings Run Footprint

variable {B : Type} {R : Runtime B} {reg reg' : Registry} {ctx : Context}

@[simp] theorem look_record (entry : Option AuditEntry) (r : Row) :
    (reg.record ctx entry).look r = reg.look r := by
  cases r <;> rfl

theorem log_record (entry : Option AuditEntry) :
    (reg.record ctx entry).log = reg.log ++ (entry.map (·.stamped ctx)).toList := rfl

/-- Two results of a call that cannot be told apart by its answer, by what it added to the log
or by a row that was the same before. -/
structure SameResult (reg reg' : Registry) (p p' : Response × Registry) : Prop where
  response : p.1.unlisted = p'.1.unlisted
  log : ∃ added, p.2.log = reg.log ++ added ∧ p'.2.log = reg'.log ++ added
  rows : ∀ r, reg.look r = reg'.look r → p.2.look r = p'.2.look r

theorem perform_agree {call : Call}
    (h : ∀ r, (footprint R).Touches (.invoke ctx call) r → reg.look r = reg'.look r) :
    Except.Agree (SameResult reg reg') (reg.perform R ctx call) (reg'.perform R ctx call) := by
  unfold Registry.perform
  refine Except.Agree.bind_eq rfl fun caller hcaller => ?_
  have hspends : ∀ r, call.spends caller r → reg.look r = reg'.look r :=
    fun r hr => h r (.inr ⟨caller, hcaller, .inl hr⟩)
  have hreads : ∀ r, call.reads caller r → reg.look r = reg'.look r :=
    fun r hr => h r (.inl ⟨caller, hcaller, hr⟩)
  have hchanges : ∀ r, call.changes R ctx r → reg.look r = reg'.look r :=
    fun r hr => h r (.inr ⟨caller, hcaller, .inr hr⟩)
  refine Except.Agree.bind (consumeOf_agree hspends) fun spent spent' hspent => ?_
  refine Except.Agree.bind_eq rfl fun _ _ => ?_
  refine Except.Agree.bind (act_agree hreads hchanges) fun act act' halike => ?_
  obtain ⟨spend, hwithin, rfl, rfl⟩ := hspent
  refine Except.Agree.pure ⟨halike.response, ?_, fun r hr => ?_⟩
  · refine ⟨(act.entry.map (·.stamped ctx)).toList, ?_, ?_⟩
    · rw [log_record, halike.log, hwithin.log]
    · rw [log_record, halike.log', hwithin.log, halike.entry]
  · rw [look_record, look_record]
    exact halike.change _ _ r (hwithin.rowwise _ _ r hr)

theorem perform_frame {call : Call} {p : Response × Registry}
    (h : reg.perform R ctx call = .ok p) {r : Row}
    (hr : ¬(footprint R).writes (.invoke ctx call) r) : p.2.look r = reg.look r := by
  simp only [Registry.perform, Except.bind_eq_ok, Except.pure_eq_ok] at h
  obtain ⟨caller, hcaller, spent, hspent, _, _, act, hact, rfl⟩ := h
  have hagree : Except.Agree _ (reg.consumeOf R ctx caller call.nonce)
      (reg.consumeOf R ctx caller call.nonce) := consumeOf_agree fun _ _ => rfl
  rw [hspent] at hagree
  obtain ⟨spend, hwithin, rfl, _⟩ := hagree
  show ((act.change (spend reg)).record ctx act.entry).look r = reg.look r
  rw [look_record, (act_within hact).frame _ r fun hc => hr ⟨caller, hcaller, .inr hc⟩]
  exact hwithin.frame reg r fun hs => hr ⟨caller, hcaller, .inl hs⟩

/-! ### The registry keeps to the footprints -/

/-- What a transaction is told, a listing of the log apart, and what it adds to the log. -/
def Registry.outcome (R : Runtime B) (reg : Registry) (e : Event B) :
    Option (Except String Response) × List AuditEntry :=
  ((reg.answerTo R e).map (Except.map Response.unlisted), (reg.step R e).log.drop reg.log.length)

theorem step_agree {e : Event B}
    (h : ∀ r, (footprint R).Touches e r → reg.look r = reg'.look r) :
    reg.outcome R e = reg'.outcome R e ∧ ∀ r, (footprint R).Touches e r →
      (reg.step R e).look r = (reg'.step R e).look r := by
  cases e with
  | publishCRL serialHex entry =>
    refine ⟨?_, fun r hr => ?_⟩
    · simp [Registry.outcome, Registry.answerTo, Registry.step, Registry.revoke]
    · have hrow : r = .certificate serialHex := hr.elim False.elim id
      subst hrow
      simp [Registry.look, Registry.step, Registry.revoke]
  | invoke ctx call =>
    rcases (perform_agree h).results with ⟨message, hp, hp'⟩ | ⟨p, p', hp, hp', hsame⟩
    · simp only [Registry.outcome, Registry.answerTo, Registry.step, hp, hp', List.drop_length]
      exact ⟨trivial, h⟩
    · obtain ⟨added, hlog, hlog'⟩ := hsame.log
      simp only [Registry.outcome, Registry.answerTo, Registry.step, hp, hp', hlog, hlog',
        List.drop_left]
      refine ⟨?_, fun r hr => hsame.rows r (h r hr)⟩
      show (some (Except.ok p.1.unlisted), added) = (some (Except.ok p'.1.unlisted), added)
      rw [hsame.response]

theorem registry_local (R : Runtime B) :
    (footprint R).Local (Registry.step R) (Registry.outcome R) Registry.look where
  frame reg e r hr := by
    cases e with
    | publishCRL serialHex entry =>
      cases r with
      | certificate serial =>
        have hne : serial ≠ serialHex := fun hs => hr (congrArg Row.certificate hs)
        simp only [Registry.look, Registry.step, Registry.revoke, Function.update_of_ne hne]
      | _ => rfl
    | invoke ctx call =>
      cases hperform : reg.perform R ctx call with
      | error message => simp only [Registry.step, hperform]
      | ok p =>
        simp only [Registry.step, hperform]
        exact perform_frame hperform hr
  answer _ _ _ h := (step_agree h).1
  effect _ _ _ h r hr := (step_agree h).2 r (.inr hr)

theorem step_log (R : Runtime B) (reg : Registry) (e : Event B) :
    (reg.step R e).log = reg.log ++ (reg.outcome R e).2 := by
  have hprefix : ∃ added, (reg.step R e).log = reg.log ++ added := by
    cases e with
    | publishCRL serialHex entry => exact ⟨[], (List.append_nil _).symm⟩
    | invoke ctx call =>
      cases hperform : reg.perform R ctx call with
      | error message =>
        simp only [Registry.step, hperform]
        exact ⟨[], (List.append_nil _).symm⟩
      | ok p =>
        have hagree : Except.Agree (SameResult reg reg) (reg.perform R ctx call)
          (reg.perform R ctx call) := perform_agree fun _ _ => rfl
        rw [hperform] at hagree
        obtain ⟨added, hlog, _⟩ := SameResult.log hagree
        simp only [Registry.step, hperform]
        exact ⟨added, hlog⟩
  obtain ⟨added, hadded⟩ := hprefix
  show _ = reg.log ++ (reg.step R e).log.drop reg.log.length
  rw [hadded, List.drop_left]

/-- The log is what the transactions added, in the order of the run. -/
theorem log_transcript (R : Runtime B) (reg : Registry) (es : List (Event B)) :
    (run (Registry.step R) reg es).log = reg.log ++
      (transcript (Registry.step R) (Registry.outcome R) reg es).flatMap fun p => p.2.2 := by
  induction es generalizing reg with
  | nil => exact (List.append_nil _).symm
  | cons e rest ih =>
    show (run (Registry.step R) (reg.step R e) rest).log = reg.log ++
      ((reg.outcome R e).2 ++ (transcript (Registry.step R) (Registry.outcome R)
        (reg.step R e) rest).flatMap fun p => p.2.2)
    rw [ih, step_log, List.append_assoc]

/-! ### The contract -/

/-- What the contract tells a transaction, a listing of the log apart. -/
def told (R : Runtime B) (l : Ledger B) (e : Event B) : Option (Except String Response) :=
  (answerTo R l e).map (Except.map Response.unlisted)

/-- Two ledgers with the same records; the indexes list the same keys. -/
structure SameRecords (R : Runtime B) (l l' : Ledger B) : Prop where
  roles : ∀ subjectID, l.get (roleKey subjectID) = l'.get (roleKey subjectID)
  tokens : ∀ tokenID, l.get (cztKey tokenID) = l'.get (cztKey tokenID)
  nonces : ∀ subjectID nonce, l.get (nonceKey subjectID nonce) = l'.get (nonceKey subjectID nonce)
  readings : ∀ deviceID unixNano,
    l.get (sensorKey deviceID unixNano) = l'.get (sensorKey deviceID unixNano)
  entries : ∀ key, kindOf key = .audit → l.get key = l'.get key
  nonceIndex : ∃ keys keys', getStringIndex R l nonceIndexKey = .ok keys ∧
    getStringIndex R l' nonceIndexKey = .ok keys' ∧ keys.Perm keys'
  auditIndex : ∃ keys keys', getStringIndex R l auditIndexKey = .ok keys ∧
    getStringIndex R l' auditIndexKey = .ok keys' ∧ keys.Perm keys'

/-- The same entries under the same keys. -/
theorem AuditState.get_eq {entries entries' : List AuditEntry} {l l' : Ledger B}
    (h : AuditState R entries l) (h' : AuditState R entries' l') (hperm : entries.Perm entries')
    {key : String} (hkey : kindOf key = .audit) (hget : l.get key ≠ none) :
    l.get key = l'.get key := by
  obtain ⟨entry, hentry, rfl⟩ := List.mem_map.mp (h.only key hkey hget)
  rw [h.stored entry hentry, h'.stored entry (hperm.mem_iff.mp hentry)]

/-- Tables with the same rows are stored alike. -/
theorem Holds.get_eq {K V : Type} {t : Table K V String B} {l l' : Ledger B}
    {rows rows' : K → Option V} (h : t.Holds l rows) (h' : t.Holds l' rows') {k : K}
    (hrow : rows k = rows' k) : l.get (t.key k) = l'.get (t.key k) := by
  rw [h k, h' k, hrow]

theorem sameRecords {l l' : Ledger B} (h : Represents R reg l) (h' : Represents R reg' l')
    (hlook : reg.look = reg'.look) (hlog : reg.log.Perm reg'.log) : SameRecords R l l' where
  roles subjectID := Holds.get_eq h.roles h'.roles (Cell.role.inj (congrFun hlook (.role subjectID)))
  tokens tokenID := Holds.get_eq h.tokens h'.tokens (Cell.token.inj (congrFun hlook (.token tokenID)))
  nonces subjectID nonce :=
    have hrow := Cell.nonce.inj (congrFun hlook (.nonce (nonceName subjectID nonce)))
    Holds.get_eq h.nonces h'.nonces hrow.1
  readings deviceID unixNano :=
    have hrow := Cell.reading.inj (congrFun hlook (.reading (deviceID, unixNano)))
    Holds.get_eq (t := sensorTable R) (k := (deviceID, unixNano)) h.readings h'.readings hrow
  entries key hkey := by
    by_cases hget : l.get key = none
    · by_contra hne
      have hget' : l'.get key ≠ none := fun h => hne (hget.trans h.symm)
      exact hne (h'.log.get_eq h.log hlog.symm hkey hget').symm
    · exact h.log.get_eq h'.log hlog hkey hget
  nonceIndex := by
    have hlisted : reg.listed.Perm reg'.listed :=
      List.perm_iff_count.mpr fun name => (Cell.nonce.inj (congrFun hlook (.nonce name))).2
    exact ⟨_, _, h.listed, h'.listed, hlisted.map _⟩
  auditIndex := ⟨_, _, h.log.index, h'.log.index, hlog.map _⟩

theorem DistinctTxs.perm {es es' : List (Event B)} (h : DistinctTxs es) (hperm : es.Perm es') :
    DistinctTxs es' := by
  have hids := hperm.filterMap Event.txID
  exact ⟨fun id hid => h.hex id (hids.mem_iff.mpr hid), hids.nodup_iff.mp h.nodup⟩

/-- What the contract tells is what the registry gives out. -/
theorem told_transcript (R : Runtime B) {es : List (Event B)} (h : DistinctTxs es) :
    Represents R (Registry.after R es) (ledgerAfter R es) ∧
      transcript (step R) (told R) ∅ es =
        (transcript (Registry.step R) (Registry.outcome R) .empty es).map fun p => (p.1, p.2.1) := by
  have hstep (l : Ledger B) (reg : Registry) (e : Event B) (hs : Represents R reg l)
      (hfresh : FreshTx l e) : Represents R (reg.step R e) (step R l e) ∧
        some (e, told R l e) = some (e, (reg.outcome R e).1) := by
    obtain ⟨hnext, hanswer⟩ := step_agrees hs hfresh
    refine ⟨hnext, ?_⟩
    unfold told
    rw [hanswer]
    rfl
  obtain ⟨hrep, htold⟩ := simulation hstep (represents_empty R) (freshTx_run R h)
  refine ⟨hrep, htold.trans ?_⟩
  exact emits_post (fun p : Event B × (Option (Except String Response) × List AuditEntry) =>
    (p.1, p.2.1)) (fun reg e => some (e, Registry.outcome R reg e)) Registry.empty es

/-- **The order of independent transactions does not show.** Runs that differ by swapping
neighbours that touch different rows tell every transaction the same, failures with their texts
included, and leave the same records. -/
theorem order_unobservable (R : Runtime B) {es es' : List (Event B)}
    (h : Reorders (footprint R).Independent es es') (hdistinct : DistinctTxs es) :
    (transcript (step R) (told R) ∅ es).Perm (transcript (step R) (told R) ∅ es') ∧
      SameRecords R (ledgerAfter R es) (ledgerAfter R es') := by
  obtain ⟨hrep, htold⟩ := told_transcript R hdistinct
  obtain ⟨hrep', htold'⟩ := told_transcript R (hdistinct.perm h.perm)
  obtain ⟨hlook, hperm⟩ := (registry_local R).reorder h .empty
  refine ⟨?_, sameRecords hrep hrep' hlook ?_⟩
  · rw [htold, htold']
    exact hperm.map _
  · show (run (Registry.step R) .empty es).log.Perm (run (Registry.step R) .empty es').log
    rw [log_transcript, log_transcript]
    exact (hperm.flatMap_right _).append_left _

/-- Two assignments to different subjects, with different nonces. -/
theorem assignRole_independent {ctx ctx' : Context} {caller caller' : CallerIdentity}
    {s s' roleName roleName' zones zones' expires expires' nonce nonce' : String}
    (hc : getCallerIdentity R ctx = .ok caller) (hc' : getCallerIdentity R ctx' = .ok caller')
    (hsubject : trimSpace s ≠ trimSpace s')
    (hnonce : nonceKey caller.id nonce ≠ nonceKey caller'.id nonce') :
    (footprint R).Independent (.invoke ctx (.assignRole s roleName zones expires nonce))
      (.invoke ctx' (.assignRole s' roleName' zones' expires' nonce')) := by
  have htouches {ctx : Context} {caller : CallerIdentity} {s roleName zones expires nonce : String}
      (hc : getCallerIdentity R ctx = .ok caller) (r : Row)
      (h : (footprint R).Touches (.invoke ctx (.assignRole s roleName zones expires nonce)) r) :
      r = .nonce (nonceName caller.id nonce) ∨ r = .role (trimSpace s) := by
    rcases h with ⟨_, _, hreads⟩ | ⟨known, hknown, hwrites⟩
    · exact hreads.elim
    · obtain rfl : known = caller := Except.ok.inj (hknown.symm.trans hc)
      rcases hwrites with ⟨_, hnonce, hspent⟩ | hrole
      · cases hnonce
        exact .inl hspent
      · exact .inr hrole
  refine independent_of_disjoint fun r h h' => ?_
  rcases htouches hc r h with rfl | rfl <;> rcases htouches hc' _ h' with heq | heq
  · exact hnonce (congrArg Subtype.val (Row.nonce.inj heq))
  · cases heq
  · cases heq
  · exact hsubject (Row.role.inj heq)

/-- The two farmers may be assigned in either order. -/
theorem order_unobservable_farmers :
    SameRecords fieldRuntime (ledgerAfter fieldRuntime farmersRun)
      (ledgerAfter fieldRuntime farmersRun.reverse) := by
  have hroot (ctx : Context) (h : ctx = mockContext "01" 100 "root" .admin "" 1 ∨
      ctx = mockContext "02" 110 "root" .admin "" 1) :
      getCallerIdentity fieldRuntime ctx = .ok ⟨"root", .admin, "", "1"⟩ := by
    rcases h with rfl | rfl <;> decide
  exact (order_unobservable fieldRuntime (.swap [] [] (assignRole_independent
    (hroot _ (.inl rfl)) (hroot _ (.inr rfl)) (by decide) (by decide)))
    ⟨by decide, by decide⟩).2

end FarmChain.Chaincode
