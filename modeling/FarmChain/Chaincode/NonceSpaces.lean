import FarmChain.Chaincode.Replay

/-! The nonces of one caller beside those of the others.

A nonce is recorded under `nonce:<caller>:<nonce>`, and both texts may contain the
colon: caller `a` with nonce `b:c` and caller `a:b` with nonce `c` share one key.
Without pruning, a key is taken exactly when some call with that key went through
(`taken_iff`), so a caller's nonces are its own exactly as long as no other caller
has used a pair that joins to the same text. -/
namespace FarmChain.Chaincode

open Strings Run

variable {B : Type}

/-- The id of the caller an event comes from, when it can be read. -/
def Event.callerID (R : Runtime B) : Event B → Option String
  | .invoke ctx _ =>
    match getCallerIdentity R ctx with
    | .ok caller => some caller.id
    | .error _ => none
  | .publishCRL .. => none

/-- The run without the operations of one caller. -/
def without (R : Runtime B) (id : String) (events : List (Event B)) : List (Event B) :=
  events.filter fun e => e.callerID R ≠ some id

/-- The event is a call of `PruneNonces`. -/
def Event.IsPruning (e : Event B) : Prop :=
  ∃ ctx beforeUnix nonce, e = .invoke ctx (.pruneNonces beforeUnix nonce)

/-- The caller invokes an operation with this nonce. -/
def Uses (R : Runtime B) (id nonce : String) (e : Event B) : Prop :=
  ∃ ctx call caller, e = .invoke ctx call ∧ getCallerIdentity R ctx = .ok caller ∧ caller.id = id ∧
    call.nonce = some nonce

/-- The guards that come after the nonce let the call through. -/
def PassesGuards (R : Runtime B) (l : Ledger B) (e : Event B) : Prop :=
  ∃ ctx call caller, e = .invoke ctx call ∧ getCallerIdentity R ctx = .ok caller ∧
    call.authorised caller.role = true ∧ call.argumentsValid R l ctx caller

/-- `validateNonce` lets the caller use the nonce. -/
def Accepts (R : Runtime B) (l : Ledger B) (ctx : Context) (id nonce : String) : Prop :=
  ∃ ws, validateNonce R l ctx id nonce = .ok ws

/-- The caller itself already succeeded with the nonce. -/
def SpentBy (R : Runtime B) (id nonce : String) (past : List (Event B)) : Prop :=
  ∃ n : Nonce, n.subjectID = id ∧ n.value = nonce ∧ Sometime (step R) (Spends R n) ∅ past

variable {R : Runtime B} {l : Ledger B} {e : Event B}

/-! ### The keys taken -/

theorem Prunes.isPruning {beforeUnix : Int} {own : Nonce} (h : Prunes R beforeUnix own l e) :
    e.IsPruning := by
  obtain ⟨ctx, _, nonce, _, hcommits, _⟩ := h
  exact ⟨ctx, beforeUnix, nonce, hcommits.event⟩

/-- Without pruning, a nonce key holds the record of the call that took it. -/
theorem nonce_record_iff (R : Runtime B) (past : List (Event B)) (hprune : ∀ e ∈ past, ¬e.IsPruning)
    {key : String} (hkey : kindOf key = .nonce) {payload : B} :
    (ledgerAfter R past).get key = some payload ↔
      ∃ n : Nonce, n.key = key ∧ payload = R.nonce.marshal n ∧
        Sometime (step R) (Spends R n) ∅ past := by
  revert payload hprune
  refine history_invariant (step R) (fun past l => (∀ e ∈ past, ¬e.IsPruning) → ∀ {payload : B},
    l.get key = some payload ↔ ∃ n : Nonce, n.key = key ∧ payload = R.nonce.marshal n ∧
      Sometime (step R) (Spends R n) ∅ past) ∅ ?_ ?_ past
  · intro _ payload
    refine ⟨nofun, fun hcase => ?_⟩
    obtain ⟨_, _, _, before, _, _, hsplit, _⟩ := hcase
    cases before <;> cases hsplit
  · intro past e ih hprune payload
    have hpast := @ih fun e he => hprune e (List.mem_append_left _ he)
    have hlast : ¬e.IsPruning := hprune e (List.mem_append_right _ (List.mem_singleton_self e))
    have hcase := nonceStep R (run (step R) ∅ past) e hkey
    generalize (step R (run (step R) ∅ past) e).get key = o at hcase ⊢
    simp only [sometime_snoc]
    cases hcase with
    | @spent n named spends free =>
      constructor
      · intro h
        exact ⟨n, named, (Option.some.inj h).symm, .inr spends⟩
      · intro hcase
        obtain ⟨m, hm, rfl, hearlier | hnow⟩ := hcase
        · cases free.symm.trans (hpast.mpr ⟨m, hm, rfl, hearlier⟩)
        · rw [spends.unique hnow]
    | swept prunes => exact absurd prunes.isPruning hlast
    | kept unspent =>
      rw [hpast]
      refine exists_congr fun n => and_congr_right fun hn => and_congr_right fun _ => ?_
      exact (or_iff_left (unspent n hn)).symm

/-- Without pruning, a key is taken when some call with that key went through. -/
theorem taken_iff (R : Runtime B) (past : List (Event B)) (hprune : ∀ e ∈ past, ¬e.IsPruning)
    {key : String} (hkey : kindOf key = .nonce) :
    (ledgerAfter R past).get key ≠ none ↔
      ∃ n : Nonce, n.key = key ∧ Sometime (step R) (Spends R n) ∅ past := by
  rw [Option.ne_none_iff_exists']
  constructor
  · intro hcase
    obtain ⟨payload, h⟩ := hcase
    obtain ⟨n, hn, _, hspent⟩ := (nonce_record_iff R past hprune hkey).mp h
    exact ⟨n, hn, hspent⟩
  · intro hcase
    obtain ⟨n, hn, hspent⟩ := hcase
    exact ⟨_, (nonce_record_iff R past hprune hkey).mpr ⟨n, hn, rfl, hspent⟩⟩

/-- Without pruning, one key is taken once. -/
theorem spent_unique (R : Runtime B) (past : List (Event B)) (hprune : ∀ e ∈ past, ¬e.IsPruning)
    {m n : Nonce} (hkey : m.key = n.key) (hm : Sometime (step R) (Spends R m) ∅ past)
    (hn : Sometime (step R) (Spends R n) ∅ past) : m = n := by
  have hstored : (ledgerAfter R past).get n.key = some (R.nonce.marshal n) :=
    (nonce_record_iff R past hprune n.kindOf_key).mpr ⟨n, rfl, rfl, hn⟩
  have hstored' := (nonce_record_iff R past hprune n.kindOf_key).mpr ⟨m, hkey, rfl, hm⟩
  exact R.nonce.marshal_injective (Option.some.inj (hstored'.symm.trans hstored))

theorem WellIndexed.accepts_iff (hl : WellIndexed R l) {ctx : Context} {id nonce : String} :
    Accepts R l ctx id nonce ↔ id ≠ "" ∧ nonce ≠ "" ∧ l.get (nonceKey id nonce) = none := by
  obtain ⟨keys, hkeys, _⟩ := hl.nonce
  constructor
  · intro hcase
    obtain ⟨ws, h⟩ := hcase
    obtain ⟨hid, hn, hfree, _⟩ := validateNonce_eq_ok.mp h
    exact ⟨hid, hn, hfree⟩
  · intro hcase
    obtain ⟨hid, hn, hfree⟩ := hcase
    exact ⟨_, validateNonce_eq_ok.mpr ⟨hid, hn, hfree, keys, hkeys, rfl⟩⟩

/-! ### What an event does to a key that may be taken -/

theorem Spends.uses {n : Nonce} (h : Spends R n l e) :
    Uses R n.subjectID n.value e ∧ n.value ≠ "" ∧ PassesGuards R l e := by
  obtain ⟨ctx, caller, call, response, hcommits, hn⟩ := h
  obtain ⟨nonce, hnonce, rfl⟩ := Option.map_eq_some_iff.mp hn
  obtain ⟨ws, hok⟩ := hcommits.succeeds
  obtain ⟨caller', hadmits⟩ := succeeds_iff.mp (succeeds_eq_true.mpr ⟨response, ws, hok⟩)
  cases hcommits.identity.symm.trans hadmits.identity
  exact ⟨⟨ctx, call, caller, hcommits.event, hcommits.identity, rfl, hnonce⟩,
    (hadmits.nonce nonce hnonce).1,
    ctx, call, caller, hcommits.event, hcommits.identity, hadmits.authorised, hadmits.arguments⟩

/-- A call with an unused nonce goes through when its other guards let it. -/
theorem WellIndexed.spends (hl : WellIndexed R l) {id nonce : String} (h : Uses R id nonce e)
    (hn : nonce ≠ "") (hfree : l.get (nonceKey id nonce) = none) (hguards : PassesGuards R l e) :
    ∃ n : Nonce, n.key = nonceKey id nonce ∧ Spends R n l e := by
  obtain ⟨ctx, call, caller, rfl, hc, rfl, hnonce⟩ := h
  obtain ⟨_, _, _, hevent, hc', hauth, hargs⟩ := hguards
  cases hevent
  cases hc.symm.trans hc'
  obtain ⟨keys, hkeys, _⟩ := hl.nonce
  have hadmits : Admits R l ctx call caller := by
    refine ⟨hc, fun nonce' hnonce' => ?_, hauth, hargs, fun _ => hl.audit⟩
    cases hnonce.symm.trans hnonce'
    exact ⟨hn, hfree, keys, hkeys⟩
  obtain ⟨response, ws, hok⟩ := succeeds_eq_true.mp (succeeds_iff.mpr ⟨caller, hadmits⟩)
  have hcommits : Commits R l (.invoke ctx call) ctx caller call response := ⟨rfl, hc, ws, hok⟩
  exact ⟨_, Nonce.key_mk _ _ _ _, hcommits.spends hnonce⟩

/-- A key is taken after an event that prunes nothing when it was before, or when the
event is a call with that key whose guards let it through. -/
theorem WellIndexed.taken_step (hl : WellIndexed R l) (hprune : ¬e.IsPruning) {key : String}
    (hkey : kindOf key = .nonce) :
    (step R l e).get key ≠ none ↔ l.get key ≠ none ∨
      (∃ id nonce, Uses R id nonce e ∧ nonceKey id nonce = key ∧ nonce ≠ "") ∧
        PassesGuards R l e := by
  have hcase := nonceStep R l e hkey
  generalize (step R l e).get key = o at hcase ⊢
  cases hcase with
  | @spent n named spends free =>
    obtain ⟨huses, hn, hguards⟩ := spends.uses
    exact iff_of_true nofun (.inr ⟨⟨_, _, huses, named, hn⟩, hguards⟩)
  | swept prunes => exact absurd prunes.isPruning hprune
  | kept unspent =>
    refine ⟨.inl, fun hcase => ?_⟩
    rcases hcase with htaken | ⟨⟨id, nonce, huses, rfl, hn⟩, hguards⟩
    · exact htaken
    · intro hfree
      obtain ⟨n, hnkey, hspends⟩ := hl.spends huses hn hfree hguards
      exact unspent n hnkey hspends

/-! ### Removing one caller -/

/-- The caller spends no nonce that joins to this key. -/
def KeepsOff (R : Runtime B) (id key : String) (past : List (Event B)) : Prop :=
  ∀ n : Nonce, n.subjectID = id → n.key = key → ¬Sometime (step R) (Spends R n) ∅ past

/-- The others' operations with this key pass their own guards in the run exactly when
they do in the run without the caller. -/
def GuardsAlike (R : Runtime B) (id key : String) (past : List (Event B)) : Prop :=
  ∀ before e after, past = before ++ e :: after → e.callerID R ≠ some id →
    (∃ id' nonce, Uses R id' nonce e ∧ nonceKey id' nonce = key) →
    (PassesGuards R (ledgerAfter R before) e ↔ PassesGuards R (ledgerAfter R (without R id before)) e)

theorem Uses.callerID {id nonce : String} (h : Uses R id nonce e) : e.callerID R = some id := by
  obtain ⟨ctx, call, caller, rfl, hc, rfl, _⟩ := h
  simp only [Event.callerID, hc]

/-- Under both conditions a key is taken in the run when it is without the caller. -/
theorem taken_without (R : Runtime B) {id key : String} (hkey : kindOf key = .nonce)
    (past : List (Event B)) (hprune : ∀ e ∈ past, ¬e.IsPruning) (hoff : KeepsOff R id key past)
    (halike : GuardsAlike R id key past) :
    (ledgerAfter R past).get key ≠ none ↔ (ledgerAfter R (without R id past)).get key ≠ none := by
  induction past using List.reverseRecOn with
  | nil => rfl
  | append_singleton past e ih =>
    have hoffPast : KeepsOff R id key past := fun n hid hnkey hspent =>
      hoff n hid hnkey (sometime_snoc.mpr (.inl hspent))
    have hih := ih (fun e he => hprune e (List.mem_append_left _ he)) hoffPast
      fun before e' after hsplit => halike before e' (after ++ [e]) (by rw [hsplit]; simp)
    have hlast : e ∈ past ++ [e] := List.mem_append_right _ (List.mem_singleton_self e)
    have hstep := (wellIndexed_ledgerAfter R past).taken_step (hprune e hlast) hkey
    rw [ledgerAfter_snoc, hstep]
    by_cases hid : e.callerID R = some id
    · -- of the removed caller's own events none takes the key
      have hwithout : without R id (past ++ [e]) = without R id past := by
        simp [without, List.filter_append, hid]
      rw [hwithout, ← hih]
      refine or_iff_left_of_imp fun hcase => ?_
      obtain ⟨⟨id', nonce, huses, rfl, hn⟩, hguards⟩ := hcase
      cases huses.callerID.symm.trans hid
      intro hfree
      obtain ⟨n, hnkey, hspends⟩ := (wellIndexed_ledgerAfter R past).spends huses hn hfree hguards
      have hown : n.subjectID = id := Option.some.inj (hspends.uses.1.callerID.symm.trans hid)
      exact hoff n hown hnkey (sometime_snoc.mpr (.inr hspends))
    · have hwithout : without R id (past ++ [e]) = without R id past ++ [e] := by
        simp [without, List.filter_append, hid]
      rw [hwithout, ledgerAfter_snoc,
        (wellIndexed_ledgerAfter R _).taken_step (hprune e hlast) hkey, hih]
      refine or_congr_right (and_congr_right fun hcase => ?_)
      obtain ⟨id', nonce, huses, hnonce, _⟩ := hcase
      exact halike past e [] rfl hid ⟨id', nonce, huses, hnonce⟩

/-! ### Whose nonces they are -/

/-- **A caller's nonces are its own as far as the joined texts are.** In a run without
pruning, `validateNonce` rejects exactly what the caller itself has spent if and only
if the nonce is not empty and no other caller has spent one that joins to the same
key. Removing another caller's operations changes nothing as long as that caller spends
no such nonce, and the operations that use one pass their own guards with and without
it. -/
theorem nonce_spaces (R : Runtime B) (past : List (Event B)) (ctx : Context)
    {subject other nonce : String} (hsubject : subject ≠ "")
    (hprune : ∀ e ∈ past, ¬e.IsPruning) :
    ((¬Accepts R (ledgerAfter R past) ctx subject nonce ↔ SpentBy R subject nonce past) ↔
      nonce ≠ "" ∧ ∀ n : Nonce, n.subjectID ≠ subject → n.key = nonceKey subject nonce →
        ¬Sometime (step R) (Spends R n) ∅ past) ∧
    (KeepsOff R other (nonceKey subject nonce) past →
      GuardsAlike R other (nonceKey subject nonce) past →
      (Accepts R (ledgerAfter R past) ctx subject nonce ↔
        Accepts R (ledgerAfter R (without R other past)) ctx subject nonce)) := by
  have hkey : kindOf (nonceKey subject nonce) = .nonce := kindOf_nonceKey subject nonce
  have haccepts (events : List (Event B)) : Accepts R (ledgerAfter R events) ctx subject nonce ↔
      subject ≠ "" ∧ nonce ≠ "" ∧ (ledgerAfter R events).get (nonceKey subject nonce) = none :=
    (wellIndexed_ledgerAfter R events).accepts_iff
  constructor
  · rw [haccepts]
    by_cases hn : nonce = ""
    · refine iff_of_false (fun hiff => ?_) fun hcase => hcase.1 hn
      obtain ⟨n, _, hvalue, before, e, _, _, hspends⟩ := hiff.mp fun hcase => hcase.2.1 hn
      exact hspends.uses.2.1 (hvalue.trans hn)
    · have hrejects : ¬(subject ≠ "" ∧ nonce ≠ "" ∧
          (ledgerAfter R past).get (nonceKey subject nonce) = none) ↔
          ∃ n : Nonce, n.key = nonceKey subject nonce ∧ Sometime (step R) (Spends R n) ∅ past := by
        rw [← taken_iff R past hprune hkey]
        simp [hsubject, hn]
      rw [hrejects]
      constructor
      · intro hiff
        refine ⟨hn, fun n hother hnkey hspent => ?_⟩
        obtain ⟨own, hid, hvalue, hown⟩ := hiff.mp ⟨n, hnkey, hspent⟩
        have hsame : n.key = own.key := by rw [hnkey, Nonce.key, hid, hvalue]
        rw [spent_unique R past hprune hsame hspent hown] at hother
        exact hother hid
      · intro hcase
        obtain ⟨_, hothers⟩ := hcase
        constructor
        · intro hspent
          obtain ⟨n, hnkey, hspends⟩ := hspent
          by_cases hid : n.subjectID = subject
          · have hvalue : n.value = nonce := by
              rw [Nonce.key, hid, nonceKey, nonceKey] at hnkey
              exact append_inj_left hnkey
            exact ⟨n, hid, hvalue, hspends⟩
          · exact absurd hspends (hothers n hid hnkey)
        · intro hspent
          obtain ⟨n, hid, hvalue, hspends⟩ := hspent
          exact ⟨n, by rw [Nonce.key, hid, hvalue], hspends⟩
  · intro hoff halike
    rw [haccepts, haccepts]
    refine and_congr_right fun _ => and_congr_right fun _ => not_iff_not.mp ?_
    exact taken_without R hkey past hprune hoff halike

/-- Two administrators, one of whom has a colon in the id. -/
def sharedRun : List (Event Document) :=
  [.invoke (mockContext "01" 100 "a:b" .admin "" 1) (.revokeRole "bob" "c")]

/-- Caller `a:b` spends nonce `c`, and caller `a` can no longer use nonce `b:c`. -/
theorem nonce_spaces_shared :
    ¬Accepts fieldRuntime (ledgerAfter fieldRuntime sharedRun) (mockContext "02" 200 "a" .admin "" 2)
      "a" "b:c" ∧
    ¬SpentBy fieldRuntime "a" "b:c" sharedRun ∧
    Accepts fieldRuntime (ledgerAfter fieldRuntime (without fieldRuntime "a:b" sharedRun))
      (mockContext "02" 200 "a" .admin "" 2) "a" "b:c" := by
  have hprune : ∀ e ∈ sharedRun, ¬e.IsPruning := by
    intro e he
    rw [sharedRun, List.mem_singleton] at he
    subst he
    intro hcase
    obtain ⟨_, _, _, hevent⟩ := hcase
    cases hevent
  have hcommits : Commits fieldRuntime ∅
      (.invoke (mockContext "01" 100 "a:b" .admin "" 1) (.revokeRole "bob" "c"))
      (mockContext "01" 100 "a:b" .admin "" 1) ⟨"a:b", .admin, "", "1"⟩ (.revokeRole "bob" "c")
      .done := ⟨rfl, by decide, invoke_answers (by decide +kernel)⟩
  have hspent : Sometime (step fieldRuntime) (Spends fieldRuntime ⟨"a:b", "c", "01", 100⟩) ∅
      sharedRun := ⟨[], _, [], rfl, hcommits.spends rfl⟩
  refine ⟨fun haccepts => ?_, fun hcase => ?_, ?_⟩
  · have hfree := ((wellIndexed_ledgerAfter _ _).accepts_iff.mp haccepts).2.2
    exact (taken_iff fieldRuntime sharedRun hprune (kindOf_nonceKey _ _)).mpr
      ⟨⟨"a:b", "c", "01", 100⟩, by decide, hspent⟩ hfree
  · obtain ⟨n, hid, hvalue, hown⟩ := hcase
    have hkey : n.key = Nonce.key ⟨"a:b", "c", "01", 100⟩ := by
      rw [Nonce.key, hid, hvalue]
      decide
    rw [spent_unique fieldRuntime sharedRun hprune hkey hown hspent] at hid
    exact absurd hid (by decide)
  · exact (wellIndexed_ledgerAfter _ _).accepts_iff.mpr ⟨by decide, by decide, by decide⟩

/-- What `RevokeRole` asks after its nonce does not depend on the ledger. -/
theorem passesGuards_revokeRole {l' : Ledger B} {ctx : Context} {subjectID nonce : String} :
    PassesGuards R l (.invoke ctx (.revokeRole subjectID nonce)) ↔
      PassesGuards R l' (.invoke ctx (.revokeRole subjectID nonce)) := by
  unfold PassesGuards
  refine exists_congr fun _ => exists_congr fun call => exists_congr fun _ =>
    and_congr_right fun hevent => ?_
  cases hevent
  rfl

/-- Two administrators who use the same nonce. -/
def pairRun : List (Event Document) :=
  [rootRevokes "01" 100,
    .invoke (mockContext "02" 200 "ada" .admin "" 2) (.revokeRole "bob" "n1")]

/-- What `root` may still use does not depend on `ada`. -/
theorem nonce_spaces_pair :
    Accepts fieldRuntime (ledgerAfter fieldRuntime pairRun) (mockContext "03" 300 "root" .admin "" 1)
        "root" "n1" ↔
      Accepts fieldRuntime (ledgerAfter fieldRuntime (without fieldRuntime "ada" pairRun))
        (mockContext "03" 300 "root" .admin "" 1) "root" "n1" := by
  have hrevokes : ∀ e ∈ pairRun, ∃ ctx, e = .invoke ctx (.revokeRole "bob" "n1") := by
    intro e he
    simp only [pairRun, rootRevokes, List.mem_cons, List.not_mem_nil, or_false] at he
    rcases he with rfl | rfl
    · exact ⟨_, rfl⟩
    · exact ⟨_, rfl⟩
  refine (nonce_spaces fieldRuntime pairRun _ (by decide) fun e he => ?_).2 ?_ ?_
  · obtain ⟨_, rfl⟩ := hrevokes e he
    intro hcase
    obtain ⟨_, _, _, hevent⟩ := hcase
    cases hevent
  · intro n hid hkey _
    rw [Nonce.key, hid] at hkey
    have hchars := congrArg String.toList hkey
    simp [nonceKey, nonceKeyPrefix] at hchars
  · intro before e after hsplit _ _
    have he : e ∈ pairRun := by
      rw [hsplit]
      exact List.mem_append_right _ (List.mem_cons_self ..)
    obtain ⟨_, rfl⟩ := hrevokes e he
    exact passesGuards_revokeRole

end FarmChain.Chaincode
