import FarmChain.Chaincode.NonceSpaces

/-! Pruning and the index of nonces.

`PruneNonces` reads the index as committed, without the nonce it is just consuming,
and what it keeps of that replaces the index it has extended. The record of its own
nonce therefore stays without an entry, in every later state: no pruning reaches it
any more. That is the only way the index goes wrong (`NonceIndex`): everything else
listed is present and everything else present is listed, each once. -/
namespace FarmChain.Chaincode

open Strings Run

variable {B : Type}

/-- The index lists exactly the keys of the nonce records present, each once. -/
def IndexExact (R : Runtime B) (l : Ledger B) : Prop :=
  ∃ keys, getStringIndex R l nonceIndexKey = .ok keys ∧ keys.Nodup ∧
    ∀ key, key ∈ keys ↔ kindOf key = .nonce ∧ l.get key ≠ none

/-- The key holds this nonce record. -/
def HoldsNonce (R : Runtime B) (l : Ledger B) (key : String) (n : Nonce) : Prop :=
  kindOf key = .nonce ∧ ∃ payload, l.get key = some payload ∧ R.nonce.unmarshal payload = .ok n

/-- A pruning of the run left this record of its own. -/
def LeftBehind (R : Runtime B) (own : Nonce) (past : List (Event B)) : Prop :=
  Sometime (step R) (fun l e => ∃ beforeUnix, Prunes R beforeUnix own l e) ∅ past

variable {R : Runtime B} {l : Ledger B} {e : Event B}

theorem Prunes.unique {before before' : Int} {own own' : Nonce} (h : Prunes R before own l e)
    (h' : Prunes R before' own' l e) : before = before' ∧ own = own' := by
  have hown := h.spends.unique h'.spends
  obtain ⟨_, _, _, _, hcommits, _⟩ := h
  obtain ⟨_, _, _, _, hcommits', _⟩ := h'
  cases (hcommits.unique hcommits').2.2.1
  exact ⟨rfl, hown⟩

/-! ### What an event makes of the index -/

/-- The keys a pruning keeps in the index. -/
def keptKeys (R : Runtime B) (l : Ledger B) (beforeUnix : Int) (own : String)
    (keys : List String) : List String :=
  keys.filter fun key => (l.get key).isSome && !sweeps R l beforeUnix own key

inductive IndexStep (R : Runtime B) (l : Ledger B) (e : Event B) (keys : List String) :
    List String → Prop
  | spent {n : Nonce} (spends : Spends R n l e) (unpruned : ∀ before own, ¬Prunes R before own l e) :
      IndexStep R l e keys (keys ++ [n.key])
  | swept {beforeUnix : Int} {own : Nonce} (prunes : Prunes R beforeUnix own l e) :
      IndexStep R l e keys (keptKeys R l beforeUnix own.key keys)
  | kept (unspent : ∀ n, ¬Spends R n l e) : IndexStep R l e keys keys

theorem Commits.indexStep {ctx : Context} {caller : CallerIdentity} {call : Call}
    {response : Response} {consumed own : WriteSet B} {entry : Option AuditEntry}
    {keys : List String} (h : Commits R l e ctx caller call response)
    (hconsumes : Consumes R l ctx caller call.nonce consumed)
    (heffect : Effect R l ctx caller call response own entry)
    (hkeys : getStringIndex R l nonceIndexKey = .ok keys) :
    ∃ keys', getStringIndex R ((l.apply consumed).apply own) nonceIndexKey = .ok keys' ∧
      IndexStep R l e keys keys' := by
  rcases heffect.own_cases with ⟨hrecord, hcall⟩ | ⟨beforeUnix, nonce, keys', kept, dropped, rfl,
    hindex, hsweep, rfl⟩
  · -- the call's own writes are neither nonces nor their index
    have hown : ((l.apply consumed).apply own).get nonceIndexKey =
        (l.apply consumed).get nonceIndexKey :=
      get_apply_of_records _ hrecord (by simp)
    rw [getStringIndex_congr hown]
    cases hn : call.nonce with
    | none =>
      rw [hn] at hconsumes
      cases hconsumes
      refine ⟨keys, hkeys, .kept fun n hspends => ?_⟩
      obtain ⟨_, _, _, _, h', hrecord'⟩ := hspends
      obtain ⟨rfl, rfl, rfl, -⟩ := h.unique h'
      rw [Call.record, hn] at hrecord'
      cases hrecord'
    | some nonce =>
      rw [hn] at hconsumes
      obtain ⟨listed, hlisted, hput⟩ := hconsumes.index
      cases hkeys.symm.trans hlisted
      rw [← Nonce.key_mk caller.id nonce ctx.txID ctx.now] at hput
      refine ⟨_, getStringIndex_put (hput l), .spent (h.spends hn) fun before own' hprunes => ?_⟩
      obtain ⟨_, _, _, _, h', _⟩ := hprunes
      obtain ⟨-, -, rfl, -⟩ := h.unique h'
      exact hcall _ _ rfl
  · cases hkeys.symm.trans hindex
    refine ⟨kept, getStringIndex_put ?_, ?_⟩
    · simp [putStringIndex, Store.get_write]
    · rw [(pruneLoop_eq hsweep).1, ← Nonce.key_mk caller.id nonce ctx.txID ctx.now]
      exact .swept h.prunes

theorem indexStep {keys : List String} (e : Event B)
    (hkeys : getStringIndex R l nonceIndexKey = .ok keys) :
    ∃ keys', getStringIndex R (step R l e) nonceIndexKey = .ok keys' ∧
      IndexStep R l e keys keys' := by
  have hcase := stepCase R l e
  generalize step R l e = l' at hcase ⊢
  cases hcase with
  | fails hfails =>
    refine ⟨keys, hkeys, .kept fun n hspends => ?_⟩
    obtain ⟨_, _, _, _, hcommits, _⟩ := hspends
    exact hfails _ _ _ _ hcommits
  | @publishes serialHex entry hevent =>
    have hframe : (l.write (crlKey serialHex, some entry)).get nonceIndexKey =
        l.get nonceIndexKey :=
      get_write_of_kind l (by simp)
    rw [getStringIndex_congr hframe]
    refine ⟨keys, hkeys, .kept fun n hspends => ?_⟩
    obtain ⟨_, _, _, _, hcommits, _⟩ := hspends
    cases hevent.symm.trans hcommits.event
  | @commits _ _ _ _ consumed own logged _ hcommits hconsumes heffect hlogs =>
    have hframe : (l.apply (consumed ++ own ++ logged)).get nonceIndexKey =
        ((l.apply consumed).apply own).get nonceIndexKey := by
      rw [Store.apply_append, hlogs.get _ (by simp) (by simp), Store.apply_append]
    rw [getStringIndex_congr hframe]
    exact hcommits.indexStep hconsumes heffect hkeys

/-! ### The index over a run -/

/-- What the index lists after a run: present records, each once, and all of them but
those that prunings left behind. -/
structure NonceIndex (R : Runtime B) (past : List (Event B)) (l : Ledger B) (keys : List String) :
    Prop where
  index : getStringIndex R l nonceIndexKey = .ok keys
  nodup : keys.Nodup
  listed : ∀ key ∈ keys, kindOf key = .nonce ∧ l.get key ≠ none
  present : ∀ key, kindOf key = .nonce → l.get key ≠ none →
    key ∈ keys ∨ ∃ own : Nonce, own.key = key ∧ LeftBehind R own past
  left : ∀ own, LeftBehind R own past → l.get own.key = some (R.nonce.marshal own) ∧ own.key ∉ keys

theorem leftBehind_snoc {own : Nonce} {past : List (Event B)} :
    LeftBehind R own (past ++ [e]) ↔
      LeftBehind R own past ∨ ∃ before, Prunes R before own (ledgerAfter R past) e :=
  sometime_snoc

/-- A call that prunes nothing appends its key. -/
theorem NonceIndex.spent {past : List (Event B)} {keys : List String}
    (h : NonceIndex R past (ledgerAfter R past) keys) {n : Nonce}
    (hspends : Spends R n (ledgerAfter R past) e)
    (hunpruned : ∀ before own, ¬Prunes R before own (ledgerAfter R past) e)
    (hindex : getStringIndex R (step R (ledgerAfter R past) e) nonceIndexKey =
      .ok (keys ++ [n.key])) :
    NonceIndex R (past ++ [e]) (step R (ledgerAfter R past) e) (keys ++ [n.key]) := by
  obtain ⟨hfree, htaken⟩ := hspends.get
  have hget (key : String) (hkey : kindOf key = .nonce) (hne : key ≠ n.key) :
      (step R (ledgerAfter R past) e).get key = (ledgerAfter R past).get key := by
    have hcase := nonceStep R (ledgerAfter R past) e hkey
    generalize (step R (ledgerAfter R past) e).get key = o at hcase ⊢
    cases hcase with
    | spent named spends =>
      rw [spends.unique hspends] at named
      exact absurd named.symm hne
    | swept prunes => exact absurd prunes (hunpruned _ _)
    | kept => rfl
  have hpast {own : Nonce} (hleft : LeftBehind R own (past ++ [e])) : LeftBehind R own past :=
    (leftBehind_snoc.mp hleft).resolve_right fun hcase => hunpruned _ _ hcase.choose_spec
  have hunlisted : n.key ∉ keys := fun hmem => (h.listed _ hmem).2 hfree
  refine ⟨hindex, ?_, fun key hmem => ?_, fun key hkey hsome => ?_, fun own hleft => ?_⟩
  · exact List.Nodup.append h.nodup (List.nodup_singleton _) (by simpa using hunlisted)
  · rcases List.mem_append.mp hmem with hold | hnew
    · obtain ⟨hkey, hsome⟩ := h.listed key hold
      refine ⟨hkey, ?_⟩
      rw [hget key hkey fun heq => hunlisted (heq ▸ hold)]
      exact hsome
    · rw [List.mem_singleton.mp hnew]
      exact ⟨n.kindOf_key, by rw [htaken]; exact nofun⟩
  · by_cases hne : key = n.key
    · exact .inl (List.mem_append_right _ (List.mem_singleton.mpr hne))
    · rw [hget key hkey hne] at hsome
      rcases h.present key hkey hsome with hold | ⟨own, hown, hleft⟩
      · exact .inl (List.mem_append_left _ hold)
      · exact .inr ⟨own, hown, leftBehind_snoc.mpr (.inl hleft)⟩
  · obtain ⟨hstored, hold⟩ := h.left own (hpast hleft)
    have hne : own.key ≠ n.key := by
      intro heq
      rw [heq, hfree] at hstored
      cases hstored
    rw [hget _ own.kindOf_key hne]
    exact ⟨hstored, by simp [hold, hne]⟩

/-- A pruning keeps what it does not sweep and leaves its own record behind. -/
theorem NonceIndex.swept {past : List (Event B)} {keys : List String}
    (h : NonceIndex R past (ledgerAfter R past) keys) {beforeUnix : Int} {own : Nonce}
    (hprunes : Prunes R beforeUnix own (ledgerAfter R past) e)
    (hindex : getStringIndex R (step R (ledgerAfter R past) e) nonceIndexKey =
      .ok (keptKeys R (ledgerAfter R past) beforeUnix own.key keys)) :
    NonceIndex R (past ++ [e]) (step R (ledgerAfter R past) e)
      (keptKeys R (ledgerAfter R past) beforeUnix own.key keys) := by
  obtain ⟨hfree, htaken⟩ := hprunes.spends.get
  have hkept {key : String} : key ∈ keptKeys R (ledgerAfter R past) beforeUnix own.key keys ↔
      key ∈ keys ∧ (ledgerAfter R past).get key ≠ none ∧
        sweeps R (ledgerAfter R past) beforeUnix own.key key = false := by
    simp [keptKeys, List.mem_filter, Option.isSome_iff_ne_none]
  refine ⟨hindex, h.nodup.filter _, fun key hmem => ?_, fun key hkey hsome => ?_,
    fun own' hleft => ?_⟩
  · obtain ⟨hold, hsome, hstays⟩ := hkept.mp hmem
    have hkey := (h.listed key hold).1
    refine ⟨hkey, ?_⟩
    have hcase := nonceStep R (ledgerAfter R past) e hkey
    generalize (step R (ledgerAfter R past) e).get key = o at hcase ⊢
    cases hcase with
    | spent => exact Option.some_ne_none _
    | swept prunes _ _ hsweeps =>
      obtain ⟨rfl, rfl⟩ := hprunes.unique prunes
      rw [hstays] at hsweeps
      cases hsweeps
    | kept => exact hsome
  · have hcase := nonceStep R (ledgerAfter R past) e hkey
    generalize (step R (ledgerAfter R past) e).get key = o at hcase hsome
    cases hcase with
    | spent named spends =>
      rw [spends.unique hprunes.spends] at named
      exact .inr ⟨own, named, leftBehind_snoc.mpr (.inr ⟨_, hprunes⟩)⟩
    | swept => exact absurd rfl hsome
    | kept _ unswept =>
      rcases h.present key hkey hsome with hold | ⟨own', hown, hleft⟩
      · exact .inl (hkept.mpr ⟨hold, hsome, unswept _ _ keys hprunes h.index hold⟩)
      · exact .inr ⟨own', hown, leftBehind_snoc.mpr (.inl hleft)⟩
  · rcases leftBehind_snoc.mp hleft with hearlier | ⟨before, hnow⟩
    · obtain ⟨hstored, hunlisted⟩ := h.left own' hearlier
      refine ⟨?_, fun hmem => hunlisted (hkept.mp hmem).1⟩
      have hcase := nonceStep R (ledgerAfter R past) e own'.kindOf_key
      generalize (step R (ledgerAfter R past) e).get own'.key = o at hcase ⊢
      cases hcase with
      | spent _ _ free => cases free.symm.trans hstored
      | swept _ index listed =>
        cases h.index.symm.trans index
        exact absurd listed hunlisted
      | kept => exact hstored
    · obtain ⟨-, rfl⟩ := hprunes.unique hnow
      exact ⟨htaken, fun hmem => (hkept.mp hmem).2.1 hfree⟩

/-- An event that consumes no nonce leaves the index and the records alone. -/
theorem NonceIndex.kept {past : List (Event B)} {keys : List String}
    (h : NonceIndex R past (ledgerAfter R past) keys)
    (hunspent : ∀ n, ¬Spends R n (ledgerAfter R past) e)
    (hindex : getStringIndex R (step R (ledgerAfter R past) e) nonceIndexKey = .ok keys) :
    NonceIndex R (past ++ [e]) (step R (ledgerAfter R past) e) keys := by
  have hget (key : String) (hkey : kindOf key = .nonce) :
      (step R (ledgerAfter R past) e).get key = (ledgerAfter R past).get key := by
    have hcase := nonceStep R (ledgerAfter R past) e hkey
    generalize (step R (ledgerAfter R past) e).get key = o at hcase ⊢
    cases hcase with
    | spent _ spends => exact absurd spends (hunspent _)
    | swept prunes => exact absurd prunes.spends (hunspent _)
    | kept => rfl
  have hleft {own : Nonce} : LeftBehind R own (past ++ [e]) ↔ LeftBehind R own past :=
    leftBehind_snoc.trans (or_iff_left fun hcase => hunspent _ hcase.choose_spec.spends)
  refine ⟨hindex, h.nodup, fun key hmem => ?_, fun key hkey hsome => ?_, fun own hown => ?_⟩
  · obtain ⟨hkey, hsome⟩ := h.listed key hmem
    exact ⟨hkey, by rw [hget key hkey]; exact hsome⟩
  · rw [hget key hkey] at hsome
    simpa only [hleft] using h.present key hkey hsome
  · rw [hget _ own.kindOf_key]
    exact h.left own (hleft.mp hown)

theorem nonceIndex (R : Runtime B) (past : List (Event B)) :
    ∃ keys, NonceIndex R past (ledgerAfter R past) keys := by
  refine history_invariant (step R) (fun past l => ∃ keys, NonceIndex R past l keys) ∅ ?_ ?_ past
  · refine ⟨[], rfl, List.nodup_nil, nofun, fun key _ h => absurd (Store.get_empty key) h,
      fun own hleft => ?_⟩
    obtain ⟨before, _, _, hsplit, _⟩ := hleft
    cases before <;> cases hsplit
  · intro past e ih
    obtain ⟨keys, h⟩ := ih
    obtain ⟨keys', hindex, hstep⟩ := indexStep e h.index
    refine ⟨keys', ?_⟩
    cases hstep with
    | spent spends unpruned => exact NonceIndex.spent h spends unpruned hindex
    | swept prunes => exact NonceIndex.swept h prunes hindex
    | kept unspent => exact NonceIndex.kept h unspent hindex

/-! ### What a pruning does -/

/-- The answer of a pruning counts the listed keys it sweeps. -/
theorem Commits.pruned_length {ctx : Context} {caller : CallerIdentity} {beforeUnix : Int}
    {nonce : String} {count : Nat} {keys : List String}
    (h : Commits R l e ctx caller (.pruneNonces beforeUnix nonce) (.pruned count))
    (hkeys : getStringIndex R l nonceIndexKey = .ok keys) :
    (keys.filter (sweeps R l beforeUnix (nonceKey caller.id nonce))).length = count := by
  obtain ⟨ws, hok⟩ := h.succeeds
  obtain ⟨caller', consumed, own, entry, logged, hc, _, heffect, _, _⟩ := invoke_effect hok
  cases h.identity.symm.trans hc
  cases heffect with
  | pruned _ index swept =>
    cases hkeys.symm.trans index
    rw [(pruneLoop_eq swept).2]

/-- What a pruning makes of one key: its own record, nothing, or what was there. -/
inductive PruneCase (R : Runtime B) (l : Ledger B) (beforeUnix : Int) (own : Nonce)
    (keys : List String) (key : String) : Option B → Prop
  | own (named : key = own.key) (free : l.get key = none) :
      PruneCase R l beforeUnix own keys key (some (R.nonce.marshal own))
  | gone (listed : key ∈ keys) (sweeps : sweeps R l beforeUnix own.key key = true) :
      PruneCase R l beforeUnix own keys key none
  | stays (unswept : key ∈ keys → sweeps R l beforeUnix own.key key = false) :
      PruneCase R l beforeUnix own keys key (l.get key)

theorem Prunes.case {beforeUnix : Int} {own : Nonce} {keys : List String}
    (h : Prunes R beforeUnix own l e) (hkeys : getStringIndex R l nonceIndexKey = .ok keys)
    {key : String} (hkey : kindOf key = .nonce) :
    PruneCase R l beforeUnix own keys key ((step R l e).get key) := by
  have hcase := nonceStep R l e hkey
  generalize (step R l e).get key = o at hcase ⊢
  cases hcase with
  | spent named spends free =>
    cases spends.unique h.spends
    exact .own named.symm free
  | swept prunes index listed sweeps =>
    obtain ⟨rfl, rfl⟩ := h.unique prunes
    cases hkeys.symm.trans index
    exact .gone listed sweeps
  | kept _ unswept => exact .stays (unswept _ _ keys h hkeys)

/-- A listed record old enough is swept, unless it is the pruning call's own. -/
theorem HoldsNonce.sweeps {key own : String} {n : Nonce} {beforeUnix : Int}
    (h : HoldsNonce R l key n) :
    Chaincode.sweeps R l beforeUnix own key = true ↔ n.timestamp < beforeUnix ∧ key ≠ own := by
  obtain ⟨_, payload, hget, hdecode⟩ := h
  rw [sweeps_eq_true]
  constructor
  · intro hcase
    obtain ⟨payload', n', hget', hdecode', hswept⟩ := hcase
    cases hget.symm.trans hget'
    cases hdecode.symm.trans hdecode'
    exact hswept
  · exact fun hswept => ⟨payload, n, hget, hdecode, hswept⟩

section
variable {past : List (Event B)} {keys : List String} {beforeUnix : Int} {own : Nonce}

/-- The keys a pruning removes are the listed ones it sweeps. -/
theorem NonceIndex.removed_iff (h : NonceIndex R past l keys) (hprunes : Prunes R beforeUnix own l e)
    (key : String) : key ∈ keys.filter (sweeps R l beforeUnix own.key) ↔
      kindOf key = .nonce ∧ l.get key ≠ none ∧ (step R l e).get key = none := by
  rw [List.mem_filter]
  constructor
  · intro hcase
    obtain ⟨hlisted, hsweeps⟩ := hcase
    obtain ⟨hkey, hsome⟩ := h.listed key hlisted
    refine ⟨hkey, hsome, ?_⟩
    have hcase := hprunes.case h.index hkey
    generalize (step R l e).get key = o at hcase ⊢
    cases hcase with
    | own _ free => exact absurd free hsome
    | gone => rfl
    | stays unswept =>
      rw [unswept hlisted] at hsweeps
      cases hsweeps
  · intro hcase
    obtain ⟨hkey, hsome, hgone⟩ := hcase
    have hcase := hprunes.case h.index hkey
    generalize (step R l e).get key = o at hcase hgone
    cases hcase with
    | own => cases hgone
    | gone listed sweeps => exact ⟨listed, sweeps⟩
    | stays => exact absurd hgone hsome

/-- A record that is recent enough stays. -/
theorem NonceIndex.recent_stays (h : NonceIndex R past l keys)
    (hprunes : Prunes R beforeUnix own l e) {key : String} {n : Nonce} (hn : HoldsNonce R l key n)
    (hrecent : beforeUnix ≤ n.timestamp) : HoldsNonce R (step R l e) key n := by
  obtain ⟨hkey, payload, hget, hdecode⟩ := hn
  refine ⟨hkey, ?_⟩
  have hcase := hprunes.case h.index hkey
  generalize (step R l e).get key = o at hcase ⊢
  cases hcase with
  | own _ free => cases free.symm.trans hget
  | gone _ hsweeps =>
    have hold := (HoldsNonce.sweeps ⟨hkey, payload, hget, hdecode⟩).mp hsweeps
    omega
  | stays => exact ⟨payload, hget, hdecode⟩

/-- An old record that is still there is the pruning call's own, or one that an earlier
pruning left behind. -/
theorem NonceIndex.old_left (h : NonceIndex R past l keys) (hprunes : Prunes R beforeUnix own l e)
    {key : String} {n : Nonce} (hn : HoldsNonce R (step R l e) key n)
    (hold : n.timestamp < beforeUnix) : key = own.key ∨ LeftBehind R n past := by
  obtain ⟨hkey, payload, hget, hdecode⟩ := hn
  have hcase := hprunes.case h.index hkey
  generalize (step R l e).get key = o at hcase hget
  cases hcase with
  | own named => exact .inl named
  | gone => cases hget
  | stays unswept =>
    have hholds : HoldsNonce R l key n := ⟨hkey, payload, hget, hdecode⟩
    rcases h.present key hkey (by rw [hget]; exact nofun) with hlisted | ⟨own', rfl, hleft⟩
    · refine .inl ?_
      by_contra hne
      have hsweeps := hholds.sweeps.mpr ⟨hold, hne⟩
      rw [unswept hlisted] at hsweeps
      cases hsweeps
    · cases hget.symm.trans (h.left own' hleft).1
      rw [R.nonce.unmarshal_marshal] at hdecode
      cases hdecode
      exact .inr hleft

end

/-- **Pruning is complete but for what earlier prunings left behind.** In every reachable
state the index lists exactly the nonce records present if and only if no pruning has
succeeded before. A successful pruning answers with the number of records it removes
and removes none that is recent enough; it leaves no older one but its own if and only
if no earlier pruning left one that old. -/
theorem pruneNonces_complete_iff (R : Runtime B) (past : List (Event B)) :
    (IndexExact R (ledgerAfter R past) ↔ ∀ own, ¬LeftBehind R own past) ∧
    ∀ e ctx caller beforeUnix nonce count,
      Commits R (ledgerAfter R past) e ctx caller (.pruneNonces beforeUnix nonce) (.pruned count) →
      (∃ removed : List String, removed.Nodup ∧ removed.length = count ∧ ∀ key, key ∈ removed ↔
        kindOf key = .nonce ∧ (ledgerAfter R past).get key ≠ none ∧
          (ledgerAfter R (past ++ [e])).get key = none) ∧
      (∀ key n, HoldsNonce R (ledgerAfter R past) key n → beforeUnix ≤ n.timestamp →
        HoldsNonce R (ledgerAfter R (past ++ [e])) key n) ∧
      ((∀ key n, HoldsNonce R (ledgerAfter R (past ++ [e])) key n → n.timestamp < beforeUnix →
          key = nonceKey caller.id nonce) ↔
        ∀ own, LeftBehind R own past → beforeUnix ≤ own.timestamp) := by
  obtain ⟨keys, h⟩ := nonceIndex R past
  constructor
  · constructor
    · intro hexact own hleft
      obtain ⟨keys', hindex, _, hlists⟩ := hexact
      cases h.index.symm.trans hindex
      obtain ⟨hstored, hunlisted⟩ := h.left own hleft
      exact hunlisted ((hlists own.key).mpr ⟨own.kindOf_key, by rw [hstored]; exact nofun⟩)
    · intro hnone
      refine ⟨keys, h.index, h.nodup, fun key => ⟨h.listed key, fun hcase => ?_⟩⟩
      refine (h.present key hcase.1 hcase.2).resolve_right fun hleft => ?_
      obtain ⟨own, _, hleft⟩ := hleft
      exact hnone own hleft
  · intro e ctx caller beforeUnix nonce count hcommits
    have hprunes := hcommits.prunes
    have hlength := hcommits.pruned_length h.index
    have hrun := ledgerAfter_snoc R past e
    rw [← Nonce.key_mk caller.id nonce ctx.txID ctx.now] at hlength ⊢
    generalize (⟨caller.id, nonce, ctx.txID, ctx.now⟩ : Nonce) = own at hprunes hlength ⊢
    refine ⟨⟨_, h.nodup.filter _, hlength, fun key => ?_⟩, fun key n hn hrecent => ?_,
      fun hcomplete left hleft => ?_, fun hrecent key n hn hold => ?_⟩
    · rw [hrun]
      exact h.removed_iff hprunes key
    · rw [hrun]
      exact h.recent_stays hprunes hn hrecent
    · -- a record left behind outlives this pruning, and is not its own
      obtain ⟨_, hafter⟩ := nonceIndex R (past ++ [e])
      have hstored := (hafter.left left (leftBehind_snoc.mpr (.inl hleft))).1
      by_contra hold
      have hsame := hcomplete left.key left
        ⟨left.kindOf_key, _, hstored, R.nonce.unmarshal_marshal left⟩ (by omega)
      have hfree := hprunes.spends.get.1
      rw [← hsame, (h.left left hleft).1] at hfree
      cases hfree
    · rw [hrun] at hn
      refine (h.old_left hprunes hn hold).resolve_right fun hleft => ?_
      have := hrecent n hleft
      omega

/-- An administrator prunes, with nothing to prune. -/
def earlyPruning : Event Document :=
  .invoke (mockContext "01" 100 "root" .admin "" 1) (.pruneNonces 50 "n1")

/-- The index does not list the nonce of the pruning, and the next pruning leaves it
although it is older. -/
theorem pruneNonces_leaves_own :
    ¬IndexExact fieldRuntime (ledgerAfter fieldRuntime [earlyPruning]) ∧
    Commits fieldRuntime (ledgerAfter fieldRuntime [earlyPruning]) rootPrunes
      (mockContext "02" 300 "root" .admin "" 1) ⟨"root", .admin, "", "1"⟩ (.pruneNonces 200 "n2")
      (.pruned 0) ∧
    HoldsNonce fieldRuntime (ledgerAfter fieldRuntime [earlyPruning, rootPrunes])
      (nonceKey "root" "n1") ⟨"root", "n1", "01", 100⟩ := by
  refine ⟨fun hexact => ?_, ⟨rfl, by decide, invoke_answers (by decide +kernel)⟩, by decide,
    .nonce ⟨"root", "n1", "01", 100⟩, by decide, rfl⟩
  obtain ⟨keys, hindex, _, hlists⟩ := hexact
  have hempty : getStringIndex fieldRuntime (ledgerAfter fieldRuntime [earlyPruning])
      nonceIndexKey = .ok [] := by decide
  cases hempty.symm.trans hindex
  have hlisted := (hlists (nonceKey "root" "n1")).mpr ⟨by decide, by decide⟩
  cases hlisted

/-- A pruning that removes one record and says so. -/
theorem pruneNonces_complete_root : ∃ removed : List String, removed.Nodup ∧ removed.length = 1 ∧
    nonceKey "root" "n1" ∈ removed := by
  have hcommits : Commits fieldRuntime (ledgerAfter fieldRuntime [rootRevokes "01" 100]) rootPrunes
      (mockContext "02" 300 "root" .admin "" 1) ⟨"root", .admin, "", "1"⟩ (.pruneNonces 200 "n2")
      (.pruned 1) := ⟨rfl, by decide, invoke_answers (by decide +kernel)⟩
  obtain ⟨⟨removed, hnodup, hlength, hremoved⟩, _⟩ :=
    (pruneNonces_complete_iff fieldRuntime [rootRevokes "01" 100]).2 _ _ _ _ _ _ hcommits
  exact ⟨removed, hnodup, hlength, (hremoved _).mpr ⟨by decide, by decide, by decide⟩⟩

end FarmChain.Chaincode
