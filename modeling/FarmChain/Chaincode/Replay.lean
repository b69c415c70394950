import FarmChain.Chaincode.Guards

/-! Nonces over a run.

A call that succeeds leaves a record of its nonce, under a key joined from the caller
and the nonce; a call whose key is taken is refused. `nonceStep` lists everything an
event can do to one such key: take it, free it by pruning, or leave it. A record
therefore stays until a pruning that reaches back behind its time
(`nonce_spent_once`). -/
namespace FarmChain.Chaincode

open Strings Run

variable {B : Type}

def Nonce.key (n : Nonce) : String := nonceKey n.subjectID n.value

theorem Nonce.key_mk (subjectID value txID : String) (timestamp : Int) :
    Nonce.key ⟨subjectID, value, txID, timestamp⟩ = nonceKey subjectID value := rfl

/-- The record of a call's nonce. -/
def Call.record (ctx : Context) (caller : CallerIdentity) (call : Call) : Option Nonce :=
  call.nonce.map fun nonce => ⟨caller.id, nonce, ctx.txID, ctx.now⟩

/-- A call that succeeded and left this record. -/
def Spends (R : Runtime B) (n : Nonce) (l : Ledger B) (e : Event B) : Prop :=
  ∃ ctx caller call response, Commits R l e ctx caller call response ∧
    call.record ctx caller = some n

/-- A successful `PruneNonces` that left this record of its own. -/
def Prunes (R : Runtime B) (beforeUnix : Int) (own : Nonce) (l : Ledger B) (e : Event B) : Prop :=
  ∃ ctx caller nonce count,
    Commits R l e ctx caller (.pruneNonces beforeUnix nonce) (.pruned count) ∧
    own = ⟨caller.id, nonce, ctx.txID, ctx.now⟩

variable {R : Runtime B} {l : Ledger B} {e : Event B}

theorem Prunes.spends {beforeUnix : Int} {own : Nonce} (h : Prunes R beforeUnix own l e) :
    Spends R own l e := by
  obtain ⟨ctx, caller, nonce, count, hcommits, rfl⟩ := h
  exact ⟨ctx, caller, _, _, hcommits, rfl⟩

theorem Commits.spends {ctx : Context} {caller : CallerIdentity} {call : Call}
    {response : Response} {nonce : String} (h : Commits R l e ctx caller call response)
    (hn : call.nonce = some nonce) : Spends R ⟨caller.id, nonce, ctx.txID, ctx.now⟩ l e := by
  refine ⟨ctx, caller, call, response, h, ?_⟩
  rw [Call.record, hn]
  rfl

theorem Commits.prunes {ctx : Context} {caller : CallerIdentity} {beforeUnix : Int}
    {nonce : String} {response : Response}
    (h : Commits R l e ctx caller (.pruneNonces beforeUnix nonce) response) :
    Prunes R beforeUnix ⟨caller.id, nonce, ctx.txID, ctx.now⟩ l e := by
  obtain ⟨ws, hok⟩ := h.succeeds
  simp only [invoke, Except.bind_eq_ok, Except.pure_eq_ok, Prod.mk.injEq] at hok
  obtain ⟨⟨count, ws⟩, _, rfl, _⟩ := hok
  exact ⟨ctx, caller, nonce, count, h, rfl⟩

/-- An event leaves at most one record. -/
theorem Spends.unique {n n' : Nonce} (h : Spends R n l e) (h' : Spends R n' l e) : n = n' := by
  obtain ⟨_, _, _, _, hcommits, hn⟩ := h
  obtain ⟨_, _, _, _, hcommits', hn'⟩ := h'
  obtain ⟨rfl, rfl, rfl, -⟩ := hcommits.unique hcommits'
  rw [hn] at hn'
  exact Option.some.inj hn'

/-! ### The sweep of a pruning -/

/-- The record under a key is old enough to go and not the pruning call's own. -/
def sweeps (R : Runtime B) (l : Ledger B) (beforeUnix : Int) (own key : String) : Bool :=
  match (l.get key).map R.nonce.unmarshal with
  | some (.ok record) => record.timestamp < beforeUnix && key ≠ own
  | _ => false

theorem sweeps_eq_true {beforeUnix : Int} {own key : String} :
    sweeps R l beforeUnix own key = true ↔ ∃ payload record, l.get key = some payload ∧
      R.nonce.unmarshal payload = .ok record ∧ record.timestamp < beforeUnix ∧ key ≠ own := by
  unfold sweeps
  cases l.get key with
  | none => simp
  | some payload => cases hdecode : R.nonce.unmarshal payload <;> simp [hdecode]

/-- The loop drops the listed keys whose record goes and keeps the others that have one. -/
theorem pruneLoop_eq {beforeUnix : Int} {own : String} {keys kept dropped : List String}
    (h : pruneLoop R l beforeUnix own keys = .ok (kept, dropped)) :
    kept = keys.filter (fun key => (l.get key).isSome && !sweeps R l beforeUnix own key) ∧
      dropped = keys.filter (sweeps R l beforeUnix own) := by
  induction keys generalizing kept dropped with
  | nil =>
    cases h
    exact ⟨rfl, rfl⟩
  | cons first rest ih =>
    unfold pruneLoop at h
    split at h
    · rename_i hfree
      have hstays : sweeps R l beforeUnix own first = false := by
        unfold sweeps
        rw [hfree]
        rfl
      obtain ⟨hkept, hdropped⟩ := ih h
      rw [List.filter_cons_of_neg (by simp [hfree]), List.filter_cons_of_neg (by simp [hstays])]
      exact ⟨hkept, hdropped⟩
    · rename_i payload hget
      simp only [Except.bind_eq_ok, Except.wrapError_eq_ok] at h
      obtain ⟨record, hdecode, ⟨kept', dropped'⟩, hrest, hsplit⟩ := h
      obtain ⟨hkept, hdropped⟩ := ih hrest
      have hfirst : sweeps R l beforeUnix own first =
          (decide (record.timestamp < beforeUnix) && decide (first ≠ own)) := by
        unfold sweeps
        rw [hget, Option.map_some, hdecode]
      split at hsplit
      · rename_i hgo
        cases hsplit
        rw [List.filter_cons_of_neg (by simp [hfirst, hgo]),
          List.filter_cons_of_pos (by simp [hfirst, hgo]), hdropped]
        exact ⟨hkept, rfl⟩
      · rename_i hstay
        cases hsplit
        have hstays : sweeps R l beforeUnix own first = false := by
          rw [hfirst, ← Bool.decide_and]
          exact decide_eq_false hstay
        rw [List.filter_cons_of_pos (by simp [hget, hstays]),
          List.filter_cons_of_neg (by simp [hstays]), hkept]
        exact ⟨rfl, hdropped⟩

/-! ### One key -/

/-- A nonce's key after consuming it, or another. -/
theorem Consumes.get_nonce {ctx : Context} {caller : CallerIdentity} {nonce : String}
    {ws : WriteSet B} (h : Consumes R l ctx caller (some nonce) ws) (l' : Ledger B) {key : String}
    (hkey : kindOf key = .nonce) : (l'.apply ws).get key =
      if key = nonceKey caller.id nonce then
        some (R.nonce.marshal ⟨caller.id, nonce, ctx.txID, ctx.now⟩) else l'.get key := by
  obtain ⟨_, _, _, keys, _, rfl⟩ := validateNonce_eq_ok.mp h
  have hindex : key ≠ nonceIndexKey := ne_of_kind (by rw [hkey, kindOf_nonceIndexKey]; decide)
  rw [Store.apply_cons, Store.apply_cons, Store.apply_nil, putStringIndex, Store.get_write,
    if_neg hindex, Store.get_write]

/-- Sweeping clears the dropped keys and leaves the others. -/
theorem get_sweep (l' : Ledger B) (kept dropped : List String) {key : String}
    (hkey : kindOf key = .nonce) :
    (l'.apply (dropped.map deleteState ++ [putStringIndex R nonceIndexKey kept])).get key =
      if key ∈ dropped then none else l'.get key := by
  have hindex : key ≠ nonceIndexKey := ne_of_kind (by rw [hkey, kindOf_nonceIndexKey]; decide)
  rw [Store.apply_append, putStringIndex, Store.get_apply_singleton, if_neg hindex]
  exact Store.get_apply_erase l' dropped key

/-- What an event makes of the record under a nonce key. -/
inductive NonceStep (R : Runtime B) (key : String) (l : Ledger B) (e : Event B) : Option B → Prop
  | spent {n : Nonce} (named : n.key = key) (spends : Spends R n l e) (free : l.get key = none) :
      NonceStep R key l e (some (R.nonce.marshal n))
  | swept {beforeUnix : Int} {own : Nonce} {keys : List String} (prunes : Prunes R beforeUnix own l e)
      (index : getStringIndex R l nonceIndexKey = .ok keys) (listed : key ∈ keys)
      (sweeps : sweeps R l beforeUnix own.key key = true) : NonceStep R key l e none
  | kept (unspent : ∀ n : Nonce, n.key = key → ¬Spends R n l e)
      (unswept : ∀ beforeUnix own keys, Prunes R beforeUnix own l e →
        getStringIndex R l nonceIndexKey = .ok keys → key ∈ keys →
          sweeps R l beforeUnix own.key key = false) : NonceStep R key l e (l.get key)

theorem nonceStep_of_fails {key : String}
    (h : ∀ ctx caller call response, ¬Commits R l e ctx caller call response) :
    NonceStep R key l e (l.get key) := by
  refine .kept (fun n _ hspends => ?_) fun beforeUnix own keys hprunes => ?_
  · obtain ⟨_, _, _, _, hcommits, _⟩ := hspends
    exact absurd hcommits (h _ _ _ _)
  · obtain ⟨_, _, _, _, hcommits, _⟩ := hprunes
    exact absurd hcommits (h _ _ _ _)

/-- A call whose nonce has another key, and which prunes nothing, keeps the record. -/
theorem Commits.nonceStep_kept {ctx : Context} {caller : CallerIdentity} {call : Call}
    {response : Response} {key : String} (h : Commits R l e ctx caller call response)
    (hkey : ∀ n, call.record ctx caller = some n → n.key ≠ key)
    (hcall : ∀ beforeUnix nonce, call ≠ .pruneNonces beforeUnix nonce) :
    NonceStep R key l e (l.get key) := by
  refine .kept (fun n hn hspends => ?_) fun beforeUnix own keys hprunes => ?_
  · obtain ⟨_, _, _, _, h', hrecord⟩ := hspends
    obtain ⟨rfl, rfl, rfl, -⟩ := h.unique h'
    exact absurd hn (hkey n hrecord)
  · obtain ⟨_, _, _, _, h', _⟩ := hprunes
    obtain ⟨-, -, rfl, -⟩ := h.unique h'
    exact absurd rfl (hcall _ _)

theorem Commits.nonceStep {ctx : Context} {caller : CallerIdentity} {call : Call}
    {response : Response} {consumed own : WriteSet B} {entry : Option AuditEntry} {key : String}
    (h : Commits R l e ctx caller call response)
    (hconsumes : Consumes R l ctx caller call.nonce consumed)
    (heffect : Effect R l ctx caller call response own entry) (hkey : kindOf key = .nonce) :
    NonceStep R key l e (((l.apply consumed).apply own).get key) := by
  rcases heffect.own_cases with ⟨hrecord, hcall⟩ | ⟨beforeUnix, nonce, keys, kept, dropped, rfl,
    hindex, hsweep, rfl⟩
  · -- the call's own writes are no nonces
    rw [get_apply_of_records _ hrecord (by simp [hkey])]
    cases hn : call.nonce with
    | none =>
      rw [hn] at hconsumes
      cases hconsumes
      refine h.nonceStep_kept (fun n hrecord => ?_) hcall
      rw [Call.record, hn] at hrecord
      cases hrecord
    | some nonce =>
      rw [hn] at hconsumes
      rw [hconsumes.get_nonce l hkey]
      split
      · rename_i heq
        subst heq
        exact .spent rfl (h.spends hn) (validateNonce_eq_ok.mp hconsumes).2.2.1
      · rename_i hne
        refine h.nonceStep_kept (fun n hrecord hnkey => ?_) hcall
        rw [Call.record, hn] at hrecord
        cases hrecord
        exact hne hnkey.symm
  · have hprunes := h.prunes
    have hfree := (validateNonce_eq_ok.mp hconsumes).2.2.1
    have hmem : key ∈ dropped ↔ key ∈ keys ∧
        sweeps R l beforeUnix (nonceKey caller.id nonce) key = true := by
      rw [(pruneLoop_eq hsweep).2, List.mem_filter]
    rw [get_sweep _ _ _ hkey, hconsumes.get_nonce l hkey]
    split
    · rename_i hdropped
      obtain ⟨hlisted, hsweeps⟩ := hmem.mp hdropped
      exact .swept hprunes hindex hlisted hsweeps
    · rename_i hdropped
      split
      · rename_i heq
        subst heq
        exact .spent rfl hprunes.spends hfree
      · rename_i hne
        refine .kept (fun n hn hspends => ?_) fun beforeUnix' own' keys' hprunes' hindex' hlisted => ?_
        · cases hprunes.spends.unique hspends
          exact hne hn.symm
        · cases hprunes.spends.unique hprunes'.spends
          obtain ⟨_, _, _, _, hcommits', _⟩ := hprunes'
          cases (h.unique hcommits').2.2.1
          cases hindex.symm.trans hindex'
          exact Bool.eq_false_iff.mpr fun hsweeps => hdropped (hmem.mpr ⟨hlisted, hsweeps⟩)

theorem Nonce.kindOf_key (n : Nonce) : kindOf n.key = .nonce := kindOf_nonceKey _ _

theorem nonceStep (R : Runtime B) (l : Ledger B) (e : Event B) {key : String}
    (hkey : kindOf key = .nonce) : NonceStep R key l e ((step R l e).get key) := by
  have hcase := stepCase R l e
  generalize step R l e = l' at hcase ⊢
  cases hcase with
  | fails hfails => exact nonceStep_of_fails hfails
  | @publishes serialHex entry hevent =>
    have hframe : (l.write (crlKey serialHex, some entry)).get key = l.get key :=
      get_write_of_kind l (by simp [hkey])
    rw [hframe]
    refine nonceStep_of_fails fun ctx caller call response h => ?_
    cases hevent.symm.trans h.event
  | commits hcommits hconsumes heffect hlogs =>
    rw [Store.apply_append, hlogs.get _ (by simp [hkey]) (by simp [hkey]), Store.apply_append]
    exact hcommits.nonceStep hconsumes heffect hkey

/-- A call that goes through found its key free and leaves its record there. -/
theorem Spends.get {n : Nonce} (h : Spends R n l e) :
    l.get n.key = none ∧ (step R l e).get n.key = some (R.nonce.marshal n) := by
  have hcase := nonceStep R l e n.kindOf_key
  generalize (step R l e).get n.key = o at hcase ⊢
  cases hcase with
  | spent named spends free =>
    cases h.unique spends
    exact ⟨free, rfl⟩
  | swept prunes _ _ hsweeps =>
    cases h.unique prunes.spends
    obtain ⟨_, _, _, _, _, hne⟩ := sweeps_eq_true.mp hsweeps
    exact absurd rfl hne
  | kept unspent => exact absurd h (unspent n rfl)

/-! ### A nonce is spent once -/

/-- **A nonce is accepted at most once until it is pruned.** If two calls of one caller
with one nonce both succeed, some pruning between them reached back behind the time of
the first. -/
theorem nonce_spent_once (R : Runtime B) (before middle : List (Event B)) {first second : Event B}
    {ctx ctx' : Context} {caller caller' : CallerIdentity} {call call' : Call}
    {response response' : Response} {nonce : String}
    (h : Commits R (ledgerAfter R before) first ctx caller call response)
    (h' : Commits R (ledgerAfter R (before ++ first :: middle)) second ctx' caller' call' response')
    (hid : caller'.id = caller.id) (hn : call.nonce = some nonce) (hn' : call'.nonce = some nonce) :
    Sometime (step R) (fun l e => ∃ beforeUnix own, Prunes R beforeUnix own l e ∧
      ctx.now < beforeUnix) (ledgerAfter R (before ++ [first])) middle := by
  let n : Nonce := ⟨caller.id, nonce, ctx.txID, ctx.now⟩
  have hstored : (ledgerAfter R (before ++ [first])).get n.key = some (R.nonce.marshal n) := by
    rw [ledgerAfter_snoc]
    exact (h.spends hn).get.2
  have hfree : (run (step R) (ledgerAfter R (before ++ [first])) middle).get n.key ≠
      some (R.nonce.marshal n) := by
    have hlast : (ledgerAfter R (before ++ first :: middle)).get n.key = none := by
      have hfree := (h'.spends hn').get.1
      rw [Nonce.key, hid] at hfree
      exact hfree
    rw [List.append_cons, ledgerAfter, run_append] at hlast
    rw [ledgerAfter, hlast]
    exact (Option.some_ne_none _).symm
  -- the record was there and is not any more
  refine (sometime_or_initially (I := fun _ => True)
    (J := fun l => l.get n.key ≠ some (R.nonce.marshal n)) (fun _ _ _ => trivial) ?_ trivial
    hfree).resolve_left fun hne => hne hstored
  intro e _ l _ hgone
  have hcase := nonceStep R l e n.kindOf_key
  generalize (step R l e).get n.key = o at hcase hgone
  cases hcase with
  | spent _ _ free =>
    rw [free]
    exact .inl (Option.some_ne_none _).symm
  | kept => exact .inl hgone
  | swept prunes _ _ hsweeps =>
    obtain ⟨payload, record, hget, hdecode, hold, _⟩ := sweeps_eq_true.mp hsweeps
    by_cases hrecord : l.get n.key = some (R.nonce.marshal n)
    · cases hget.symm.trans hrecord
      rw [R.nonce.unmarshal_marshal] at hdecode
      cases hdecode
      exact .inr ⟨_, _, prunes, hold⟩
    · exact .inl hrecord

/-- An administrator's call and the pruning after it. -/
def rootRevokes (txID : String) (seconds : Int64) : Event Document :=
  .invoke (mockContext txID seconds "root" .admin "" 1) (.revokeRole "bob" "n1")

def rootPrunes : Event Document :=
  .invoke (mockContext "02" 300 "root" .admin "" 1) (.pruneNonces 200 "n2")

/-- A nonce that is pruned and used again. -/
theorem nonce_spent_once_root : Sometime (step fieldRuntime)
    (fun l e => ∃ beforeUnix own, Prunes fieldRuntime beforeUnix own l e ∧ 100 < beforeUnix)
    (ledgerAfter fieldRuntime ([] ++ [rootRevokes "01" 100])) [rootPrunes] := by
  have hfirst : Commits fieldRuntime (ledgerAfter fieldRuntime []) (rootRevokes "01" 100)
      (mockContext "01" 100 "root" .admin "" 1) ⟨"root", .admin, "", "1"⟩ (.revokeRole "bob" "n1")
      .done := ⟨rfl, by decide, invoke_answers (by decide +kernel)⟩
  have hsecond : Commits fieldRuntime
      (ledgerAfter fieldRuntime ([] ++ rootRevokes "01" 100 :: [rootPrunes]))
      (rootRevokes "03" 310) (mockContext "03" 310 "root" .admin "" 1) ⟨"root", .admin, "", "1"⟩
      (.revokeRole "bob" "n1") .done := ⟨rfl, by decide, invoke_answers (by decide +kernel)⟩
  have hspent := nonce_spent_once fieldRuntime [] [rootPrunes] hfirst hsecond rfl rfl rfl
  rwa [show (mockContext "01" 100 "root" .admin "" 1).now = 100 by decide] at hspent

end FarmChain.Chaincode
