import Mathlib.Tactic.Linarith
import FarmChain.Gateway.Handle

/-! How old a cached decision may be.

Any number of threads run `handle_reading`, and the cache is invalidated from anywhere. A
thread that has asked Fabric may be held up before it stores the answer: the entry's time
then runs from the store, and what was invalidated meanwhile comes back. -/
namespace FarmChain.Gateway.Staleness

inductive Op where
  | handle (reading : SensorReading)
  /-- The next operation of the call, with what Fabric returns should it be asked. -/
  | proceed (answer : Except Failure (Option Decision)) (submission : Except Failure Unit)
  | invalidate (key : String)
  | invalidateAll

/-- An operation, and the clock when it takes place. -/
structure Tick where
  now : Rat
  op : Op

def Op.proceeds : Op → Bool
  | .proceed _ _ => true
  | _ => false

def Op.covers (key : String) : Op → Bool
  | .invalidate k => k = key
  | .invalidateAll => true
  | _ => false

/-- What an operation of `handle_reading` reads. -/
def input (now : Rat) (answer : Except Failure (Option Decision)) (submission : Except Failure Unit) :
    Task → Input
  | .looking _ | .storing _ _ => .time now
  | .checking _ => .answer answer
  | .submitting _ => .submitted submission
  | _ => .none

/-- A caller's next step. It is in `check_access` for as long as it does not move, and an
invalidation leaves it where it is. -/
def callerMove (gw : Config) {T : Type} (_ : T) (task : Task) (g : Shared) (tick : Tick) :
    Option Outcome :=
  match tick.op with
  | .handle reading => if task = .idle then some (.verifying reading, g, none) else none
  | .proceed answer submission => handleMove gw task g (input tick.now answer submission task)
  | .invalidate key => some (task, {g with policyCache := g.policyCache.invalidate key}, none)
  | .invalidateAll => some (task, {g with policyCache := g.policyCache.invalidateAll}, none)

section
variable (gw : Config) {T : Type} [DecidableEq T]

abbrev after (s : Threads.System T Task Shared) (as : List (Threads.Action T Tick)) :
    Threads.System T Task Shared :=
  Run.run (Threads.step (callerMove gw)) s as

/-- Callers at rest, with a cache as `__init__` makes it. -/
def resting (T : Type) (timeoutSeconds ttlSeconds : Rat) (positive : 0 < ttlSeconds) :
    Threads.System T Task Shared where
  own _ := .idle
  shared := unused timeoutSeconds ttlSeconds positive

/-- `handle_reading` takes its decision from the cache. -/
def Hits (reading : SensorReading) (decision : Decision) (s : Threads.System T Task Shared)
    (a : Threads.Action T Tick) : Prop :=
  s.own a.thread = .looking reading ∧
    (Threads.step (callerMove gw) s a).own a.thread = .deciding reading (some decision)

/-- Fabric makes a decision for a caller. -/
def Answers (reading : SensorReading) (decision : Option Decision)
    (s : Threads.System T Task Shared) (a : Threads.Action T Tick) : Prop :=
  s.own a.thread = .checking reading ∧ ∃ submission, a.input.op = .proceed (.ok decision) submission

/-- A caller stores under a key. -/
def stores (key : String) (s : Threads.System T Task Shared) (a : Threads.Action T Tick) : Bool :=
  match s.own a.thread with
  | .storing reading _ => gw.policyKey reading = key && a.input.op.proceeds
  | _ => false

/-- Where a cached decision comes from: Fabric made it, its caller was held up, then stored
it, and nothing was stored under the key since. -/
structure Provenance (s : Threads.System T Task Shared) (as : List (Threads.Action T Tick))
    (key : String) (decision : Option Decision) where
  reading : SensorReading
  past : List (Threads.Action T Tick)
  check : Threads.Action T Tick
  between : List (Threads.Action T Tick)
  store : Threads.Action T Tick
  since : List (Threads.Action T Tick)
  split : as = past ++ check :: (between ++ store :: since)
  keyed : gw.policyKey reading = key
  checked : Answers reading decision (after gw s past) check
  waited : Run.Always (Threads.step (callerMove gw))
    (fun _ a => a.thread = check.thread → a.input.op.proceeds = false)
    (Threads.step (callerMove gw) (after gw s past) check) between
  thread : store.thread = check.thread
  proceeds : store.input.op.proceeds = true
  last : Run.Always (Threads.step (callerMove gw)) (fun s a => stores gw key s a = false)
    (after gw s (past ++ check :: (between ++ [store]))) since

/-- The decision is stored when it is made, and no invalidation of its key comes between. -/
structure Provenance.Prompt {s : Threads.System T Task Shared} {as : List (Threads.Action T Tick)}
    {key : String} {decision : Option Decision} (p : Provenance gw s as key decision) : Prop where
  time : p.store.input.now ≤ p.check.input.now
  covered : ∀ a ∈ p.between, a.input.op.covers key = false

end

/-! ### What a step does -/

/-- Only a store puts anything into the cache. -/
theorem moved_within {gw : Config} {g g' : Shared} {input : Input} {task task' : Task}
    {o : Option Event} (h : Moved gw g input task (task', g', o))
    (htask : ∀ reading decision, task ≠ .storing reading decision) :
    PolicyCache.Within g'.policyCache g.policyCache := by
  cases h with
  | quiet _ _ _ _ _ _ _ hcache => exact hcache ▸ .refl _
  | raised _ _ _ _ hcache => exact hcache ▸ .refl _
  | missed reading now => exact PolicyCache.within_get now _ _
  | hit reading now decision hget => exact PolicyCache.within_get now _ _
  | stored reading decision => exact absurd rfl (htask reading decision)
  | emitted | put | taken | verified | rejected | answered | granted | denied | submitted
  | appended => exact .refl _

/-- Only Fabric's answer brings a thread to where it stores. -/
theorem moved_storing {gw : Config} {g g' : Shared} {input : Input} {task : Task}
    {reading : SensorReading} {decision : Option Decision} {o : Option Event}
    (h : Moved gw g input task (.storing reading decision, g', o)) :
    task = .checking reading ∧ input = .answer (.ok decision) := by
  cases h with
  | quiet _ _ _ _ htask => cases htask
  | answered _ _ hinput => exact ⟨rfl, hinput⟩

section
variable {gw : Config} {T : Type} [DecidableEq T] {s : Threads.System T Task Shared}
  {a : Threads.Action T Tick}

variable (gw) in
/-- A caller about to store does so when it moves. -/
theorem step_storing {reading : SensorReading} {decision : Option Decision}
    (h : s.own a.thread = .storing reading decision) (hop : a.input.op.proceeds = true) :
    Threads.step (callerMove gw) s a =
      ⟨Function.update s.own a.thread (.deciding reading decision),
        {s.shared with policyCache :=
          s.shared.policyCache.stored a.input.now (gw.policyKey reading) decision}⟩ := by
  refine Threads.step_of_move (o := none) ?_
  unfold callerMove
  rw [h]
  cases hcall : a.input.op with
  | proceed answer submission =>
    simp only [handleMove, input, PolicyCache.set_default]
  | handle | invalidate | invalidateAll =>
    rw [hcall] at hop
    cases hop

/-- Fabric's answer brings its caller to where it stores. -/
theorem step_answers {reading : SensorReading} {decision : Option Decision}
    (h : Answers reading decision s a) :
    (Threads.step (callerMove gw) s a).own a.thread = .storing reading decision := by
  obtain ⟨htask, submission, hop⟩ := h
  have hmove : callerMove gw a.thread (s.own a.thread) s.shared a.input =
      some (.storing reading decision, s.shared, none) := by
    unfold callerMove
    rw [hop, htask]
    rfl
  rw [Threads.step_of_move hmove]
  exact Function.update_self ..

/-- Held up, it stays where it is. -/
theorem step_waiting {reading : SensorReading} {decision : Option Decision} {t : T}
    (h : s.own t = .storing reading decision)
    (hop : a.thread = t → a.input.op.proceeds = false) :
    (Threads.step (callerMove gw) s a).own t = .storing reading decision := by
  by_cases ht : t = a.thread
  · subst ht
    rcases Threads.step_cases (callerMove gw) s a with ⟨task, g, o, hmove, hstep, _⟩ | ⟨hstep, _⟩
    · rw [hstep]
      show Function.update s.own a.thread task a.thread = _
      rw [Function.update_self, ← h]
      unfold callerMove at hmove
      cases hcall : a.input.op with
      | handle reading' =>
        rw [hcall, h] at hmove
        cases hmove
      | proceed answer submission =>
        rw [hcall] at hop
        cases hop rfl
      | invalidate | invalidateAll =>
        rw [hcall] at hmove
        cases hmove
        rfl
    · rw [hstep]
      exact h
  · rw [Threads.step_own_of_ne ht]
    exact h

/-- A caller is about to store what Fabric has just answered it, or was so before and is
held up. -/
theorem storing_cases {reading : SensorReading} {decision : Option Decision} {t : T}
    (h : (Threads.step (callerMove gw) s a).own t = .storing reading decision) :
    (a.thread = t ∧ Answers reading decision s a) ∨
      s.own t = .storing reading decision ∧ (a.thread = t → a.input.op.proceeds = false) := by
  by_cases ht : t = a.thread
  · subst ht
    rcases Threads.step_cases (callerMove gw) s a with ⟨task, g, o, hmove, hstep, _⟩ | ⟨hstep, _⟩
    · rw [hstep] at h
      replace h : Function.update s.own a.thread task a.thread = _ := h
      rw [Function.update_self] at h
      subst h
      unfold callerMove at hmove
      cases hcall : a.input.op with
      | handle reading' =>
        rw [hcall] at hmove
        dsimp only at hmove
        split at hmove <;> cases hmove
      | proceed answer submission =>
        rw [hcall] at hmove
        obtain ⟨htask, hanswer⟩ := moved_storing (handleMove_cases hmove)
        refine .inl ⟨rfl, htask, submission, ?_⟩
        rw [htask] at hanswer
        cases hanswer
        exact hcall
      | invalidate | invalidateAll =>
        rw [hcall] at hmove
        exact .inr ⟨(Prod.mk.inj (Option.some.inj hmove)).1, fun _ => rfl⟩
    · rw [hstep] at h
      refine .inr ⟨h, fun _ => ?_⟩
      by_contra hop
      have hstored := step_storing gw h (Bool.eq_true_of_not_eq_false hop)
      rw [hstep] at hstored
      have hown := congrArg (fun s => s.own a.thread) hstored
      rw [h] at hown
      dsimp only at hown
      rw [Function.update_self] at hown
      cases hown
  · rw [Threads.step_own_of_ne ht] at h
    exact .inr ⟨h, fun heq => absurd heq.symm ht⟩

variable (gw) in
/-- A caller stores, or the cache holds no more than before. -/
theorem step_cache (s : Threads.System T Task Shared) (a : Threads.Action T Tick) :
    (∃ reading decision, s.own a.thread = .storing reading decision ∧
        a.input.op.proceeds = true) ∨
      ((∀ key, stores gw key s a = false) ∧ PolicyCache.Within
        (Threads.step (callerMove gw) s a).shared.policyCache s.shared.policyCache) := by
  by_cases hstoring : ∃ reading decision, s.own a.thread = .storing reading decision ∧
    a.input.op.proceeds = true
  · exact .inl hstoring
  · refine .inr ⟨fun key => ?_, ?_⟩
    · unfold stores
      split
      · rename_i reading decision htask
        have hop : a.input.op.proceeds = false :=
          Bool.eq_false_iff.mpr fun hop => hstoring ⟨reading, decision, htask, hop⟩
        rw [hop, Bool.and_false]
      · rfl
    · rcases Threads.step_cases (callerMove gw) s a with ⟨task, g, o, hmove, hstep, _⟩ | ⟨hstep, _⟩
      · rw [hstep]
        unfold callerMove at hmove
        cases hcall : a.input.op with
        | handle reading' =>
          rw [hcall] at hmove
          dsimp only at hmove
          split at hmove <;> cases hmove
          exact .refl _
        | proceed answer submission =>
          rw [hcall] at hmove
          refine moved_within (handleMove_cases hmove) fun reading decision htask => ?_
          exact hstoring ⟨reading, decision, htask, by rw [hcall]; rfl⟩
        | invalidate key =>
          rw [hcall] at hmove
          cases hmove
          exact PolicyCache.within_invalidate key _
        | invalidateAll =>
          rw [hcall] at hmove
          cases hmove
          exact PolicyCache.within_invalidateAll _
      · rw [hstep]
        exact .refl _

variable (gw) in
/-- An invalidation leaves nothing under the keys it covers. -/
theorem step_covers {key : String} (h : a.input.op.covers key = true) :
    (Threads.step (callerMove gw) s a).shared.policyCache.entries.get key = none := by
  unfold Threads.step callerMove
  cases hcall : a.input.op with
  | handle | proceed =>
    rw [hcall] at h
    cases h
  | invalidate k =>
    rw [hcall] at h
    obtain rfl : k = key := of_decide_eq_true h
    exact (Dict.get_erase _ k k).trans (if_pos rfl)
  | invalidateAll => rfl

/-- An entry was there before, or a caller has stored it. -/
theorem step_entry {key : String} {entry : CacheEntry Decision}
    (h : (Threads.step (callerMove gw) s a).shared.policyCache.entries.get key = some entry) :
    (∃ reading, gw.policyKey reading = key ∧ s.own a.thread = .storing reading entry.value ∧
        a.input.op.proceeds = true) ∨
      stores gw key s a = false ∧ a.input.op.covers key = false ∧
        s.shared.policyCache.entries.get key = some entry := by
  have hcovers : a.input.op.covers key = false := by
    rw [Bool.eq_false_iff]
    intro hcovers
    cases (step_covers gw hcovers).symm.trans h
  rcases step_cache gw s a with ⟨reading, decision, htask, hop⟩ | ⟨hstores, hwithin⟩
  · rw [step_storing gw htask hop] at h
    dsimp only at h
    rw [PolicyCache.get_stored] at h
    by_cases hkey : key = gw.policyKey reading
    · rw [if_pos hkey] at h
      cases h
      exact .inl ⟨reading, hkey.symm, htask, hop⟩
    · rw [if_neg hkey] at h
      refine .inr ⟨?_, hcovers, h⟩
      unfold stores
      rw [htask]
      dsimp only
      rw [decide_eq_false (Ne.symm hkey), Bool.false_and]
  · exact .inr ⟨hstores key, hcovers, hwithin.entries key entry h⟩

variable (gw) in
theorem step_ttlSeconds (s : Threads.System T Task Shared) (a : Threads.Action T Tick) :
    (Threads.step (callerMove gw) s a).shared.policyCache.ttlSeconds =
      s.shared.policyCache.ttlSeconds := by
  rcases step_cache gw s a with ⟨reading, decision, htask, hop⟩ | ⟨_, hwithin⟩
  · rw [step_storing gw htask hop]
    rfl
  · exact hwithin.ttlSeconds

/-- A decision taken from the cache is there, and its time is not up. -/
theorem Hits.entry {reading : SensorReading} {decision : Decision} (h : Hits gw reading decision s a) :
    ∃ entry, s.shared.policyCache.entries.get (gw.policyKey reading) = some entry ∧
      entry.value = some decision ∧ a.input.now < entry.expiresAt := by
  obtain ⟨hlooking, hdeciding⟩ := h
  rcases Threads.step_cases (callerMove gw) s a with ⟨task, g, o, hmove, hstep, _⟩ | ⟨hstep, _⟩
  · rw [hstep] at hdeciding
    replace hdeciding : Function.update s.own a.thread task a.thread = _ := hdeciding
    rw [Function.update_self] at hdeciding
    subst hdeciding
    unfold callerMove at hmove
    rw [hlooking] at hmove
    cases hcall : a.input.op with
    | handle | invalidate | invalidateAll =>
      rw [hcall] at hmove
      cases hmove
    | proceed answer submission =>
      rw [hcall] at hmove
      refine PolicyCache.get_eq_some ?_
      simp only [handleMove, input] at hmove
      split at hmove
      · cases hmove
      · rename_i found policyCache hget
        cases hmove
        exact congrArg Prod.fst hget
  · rw [hstep, hlooking] at hdeciding
    cases hdeciding

end

/-! ### Runs -/

section
variable {gw : Config} {T : Type} [DecidableEq T] {s : Threads.System T Task Shared}

/-- What a key has at the end it had throughout, if nothing was stored there; and then no
invalidation has covered it. -/
theorem entry_before {key : String} {entry : CacheEntry Decision}
    {since : List (Threads.Action T Tick)}
    (hlast : Run.Always (Threads.step (callerMove gw)) (fun s a => stores gw key s a = false)
      s since)
    (h : (after gw s since).shared.policyCache.entries.get key = some entry) :
    s.shared.policyCache.entries.get key = some entry ∧
      ∀ a ∈ since, a.input.op.covers key = false := by
  induction since generalizing s with
  | nil => exact ⟨h, List.forall_mem_nil _⟩
  | cons a rest ih =>
    obtain ⟨hnext, hrest⟩ := ih hlast.2 h
    rcases step_entry hnext with ⟨reading, hkey, htask, hop⟩ | ⟨_, hcovers, hentry⟩
    · have hstores : stores gw key s a = true := by
        unfold stores
        rw [htask]
        dsimp only
        rw [decide_eq_true hkey, hop]
        rfl
      cases hstores.symm.trans hlast.1
    · refine ⟨hentry, fun a' ha' => ?_⟩
      rcases List.mem_cons.mp ha' with rfl | hlater
      · exact hcovers
      · exact hrest a' hlater

theorem storing_after {reading : SensorReading} {decision : Option Decision} {t : T}
    {between : List (Threads.Action T Tick)}
    (hwaited : Run.Always (Threads.step (callerMove gw))
      (fun _ a => a.thread = t → a.input.op.proceeds = false) s between)
    (h : s.own t = .storing reading decision) :
    (after gw s between).own t = .storing reading decision := by
  induction between generalizing s with
  | nil => exact h
  | cons a rest ih => exact ih hwaited.2 (step_waiting h hwaited.1)

variable (gw) in
theorem after_ttlSeconds (s : Threads.System T Task Shared) (as : List (Threads.Action T Tick)) :
    (after gw s as).shared.policyCache.ttlSeconds = s.shared.policyCache.ttlSeconds :=
  Run.run_invariant (Threads.step (callerMove gw))
    (fun s' => s'.shared.policyCache.ttlSeconds = s.shared.policyCache.ttlSeconds)
    (fun s' a h => (step_ttlSeconds gw s' a).trans h) s as rfl

variable {key : String} {decision : Option Decision} {as : List (Threads.Action T Tick)}

/-- A caller about to store was answered by Fabric, and has been held up since. -/
theorem answered_since {ttlSeconds timeoutSeconds : Rat} {positive : 0 < ttlSeconds}
    (as : List (Threads.Action T Tick)) {reading : SensorReading} {t : T}
    (h : (after gw (resting T timeoutSeconds ttlSeconds positive) as).own t =
      .storing reading decision) :
    Run.Since (Threads.step (callerMove gw))
      (fun s a => a.thread = t ∧ Answers reading decision s a)
      (fun _ a => a.thread = t → a.input.op.proceeds = false)
      (resting T timeoutSeconds ttlSeconds positive) as := by
  induction as using List.reverseRecOn with
  | nil => cases h
  | append_singleton as a ih =>
    rw [after, Run.run_snoc] at h
    rcases storing_cases h with hanswers | ⟨hold, hwaits⟩
    · exact Run.since_last hanswers
    · exact (ih hold).snoc hwaits

/-- What is in the cache has a provenance. -/
theorem entry_provenance {ttlSeconds timeoutSeconds : Rat} {positive : 0 < ttlSeconds}
    (as : List (Threads.Action T Tick)) {entry : CacheEntry Decision}
    (h : (after gw (resting T timeoutSeconds ttlSeconds positive)
      as).shared.policyCache.entries.get key = some entry) :
    Nonempty (Provenance gw (resting T timeoutSeconds ttlSeconds positive) as key entry.value) := by
  induction as using List.reverseRecOn with
  | nil => cases h
  | append_singleton as a ih =>
    rw [after, Run.run_snoc] at h
    rcases step_entry h with ⟨reading, hkey, htask, hop⟩ | ⟨hstores, _, hentry⟩
    · obtain ⟨past, check, between, rfl, ⟨hthread, hchecked⟩, hwaited⟩ := answered_since as htask
      exact ⟨{
        reading, past, check, between, store := a, since := []
        split := by simp
        keyed := hkey
        checked := hchecked
        waited := hthread ▸ hwaited
        thread := hthread.symm
        proceeds := hop
        last := trivial }⟩
    · obtain ⟨p⟩ := ih hentry
      refine ⟨{p with
        since := p.since ++ [a]
        split := by simp [p.split]
        last := p.last.snoc ?_ }⟩
      have hsplit : as = p.past ++ p.check :: (p.between ++ [p.store]) ++ p.since := by
        simp [p.split]
      rw [← Run.run_append, ← hsplit]
      exact hstores

/-- The entry whose decision has this provenance: its time runs from the store, and no
invalidation has come after that. -/
theorem Provenance.entry (p : Provenance gw s as key decision) {entry : CacheEntry Decision}
    (h : (after gw s as).shared.policyCache.entries.get key = some entry) :
    entry.expiresAt = p.store.input.now + s.shared.policyCache.ttlSeconds ∧
      ∀ a ∈ p.since, a.input.op.covers key = false := by
  have hsplit : as = p.past ++ p.check :: (p.between ++ [p.store]) ++ p.since := by
    simp [p.split]
  have hstored : after gw s (p.past ++ p.check :: (p.between ++ [p.store])) =
      Threads.step (callerMove gw) (after gw s (p.past ++ p.check :: p.between)) p.store := by
    rw [← List.cons_append, ← List.append_assoc]
    exact Run.run_snoc ..
  have hstoring : (after gw s (p.past ++ p.check :: p.between)).own p.store.thread =
      .storing p.reading decision := by
    rw [after, Run.run_append, p.thread]
    show (after gw (Threads.step (callerMove gw) (after gw s p.past) p.check) p.between).own _ = _
    exact storing_after p.waited (step_answers p.checked)
  rw [hsplit, after, Run.run_append] at h
  obtain ⟨hentry, hcovers⟩ := entry_before p.last h
  rw [hstored, step_storing gw hstoring p.proceeds] at hentry
  dsimp only at hentry
  rw [PolicyCache.get_stored, if_pos p.keyed.symm, after_ttlSeconds] at hentry
  cases hentry
  exact ⟨rfl, hcovers⟩

end

section
variable (gw : Config) {T : Type} [DecidableEq T] (timeoutSeconds ttlSeconds : Rat)
  (positive : 0 < ttlSeconds)

/-- A decision taken from the cache, in any run of any callers, was made by Fabric. Where it
was stored when it was made, and nothing invalidated its key between, it is read before
its time is up and nothing has invalidated its key since; elsewhere something has, or
it could be read at a time too late. -/
theorem hit_bounded_iff (as : List (Threads.Action T Tick)) (a : Threads.Action T Tick)
    (reading : SensorReading) (decision : Decision)
    (h : Hits gw reading decision (after gw (resting T timeoutSeconds ttlSeconds positive) as) a) :
    Nonempty (Provenance gw (resting T timeoutSeconds ttlSeconds positive) as
      (gw.policyKey reading) (some decision)) ∧
    ∀ p : Provenance gw (resting T timeoutSeconds ttlSeconds positive) as (gw.policyKey reading)
        (some decision),
      (p.Prompt → a.input.now < p.check.input.now + ttlSeconds ∧
        ∀ b ∈ p.between ++ p.store :: p.since, b.input.op.covers (gw.policyKey reading) = false) ∧
      ((∀ b ∈ p.between ++ p.store :: p.since,
          b.input.op.covers (gw.policyKey reading) = false) →
        (∀ now, a.input.now ≤ now → ((after gw (resting T timeoutSeconds ttlSeconds positive)
            as).shared.policyCache.get now (gw.policyKey reading)).1 = some decision →
          now < p.check.input.now + ttlSeconds) →
        p.Prompt) := by
  obtain ⟨entry, hentry, hvalue, hlive⟩ := h.entry
  refine ⟨hvalue ▸ entry_provenance as hentry, fun p => ?_⟩
  obtain ⟨hexpires, hsince⟩ := p.entry hentry
  replace hexpires : entry.expiresAt = p.store.input.now + ttlSeconds := hexpires
  have hstore : p.store.input.op.covers (gw.policyKey reading) = false := by
    have hop := p.proceeds
    cases hcall : p.store.input.op with
    | proceed => rfl
    | handle | invalidate | invalidateAll =>
      rw [hcall] at hop
      cases hop
  constructor
  · intro hprompt
    constructor
    · have htime := hprompt.time
      rw [hexpires] at hlive
      linarith
    · intro b hb
      rcases List.mem_append.mp hb with hbetween | hb
      · exact hprompt.covered b hbetween
      · rcases List.mem_cons.mp hb with rfl | hb
        · exact hstore
        · exact hsince b hb
  · intro hcovers hreads
    refine ⟨?_, fun b hb => hcovers b (List.mem_append_left _ hb)⟩
    -- Otherwise the entry outlives the decision: a read at the end of the decision's time,
    -- or now should that be past, still finds it.
    by_contra hlate
    have hlate' : max a.input.now (p.check.input.now + ttlSeconds) < entry.expiresAt := by
      refine max_lt hlive ?_
      rw [hexpires]
      linarith
    have hhit := (PolicyCache.get_of_live hentry hlate').trans hvalue
    exact absurd (hreads _ (le_max_left _ _) hhit) (not_lt.mpr (le_max_right _ _))

end

/-! One caller handles two readings of a probe; before it stores the answer to the first,
another may invalidate the cache. -/

def probe : SensorReading := {deviceId := "probe", readingId := "1", value := 65}

def proceed (now : Rat) : Threads.Action Bool Tick :=
  ⟨true, now, .proceed (.ok (some (.text "GRANT"))) (.ok ())⟩

/-- Up to Fabric's answer. -/
def asking : List (Threads.Action Bool Tick) := [⟨true, 0, .handle probe⟩, proceed 0, proceed 0]

/-- From the store of it to the next reading's look into the cache. -/
def storing (stored read : Rat) : List (Threads.Action Bool Tick) :=
  [proceed stored, proceed stored, proceed stored, ⟨true, read, .handle probe⟩, proceed read]

def probeRun (held : List (Threads.Action Bool Tick)) (stored read : Rat) :
    List (Threads.Action Bool Tick) :=
  asking ++ proceed 0 :: (held ++ proceed stored :: storing stored read)

def probeStart : Threads.System Bool Task Shared := resting Bool 60 300 fiveMinutes_positive

/-- The answer is stored when it is given. -/
def promptProvenance : Provenance unsignedGateway probeStart (probeRun [] 0 200)
    (unsignedGateway.policyKey probe) (some (.text "GRANT")) where
  reading := probe
  past := asking
  check := proceed 0
  between := []
  store := proceed 0
  since := storing 0 200
  split := rfl
  keyed := rfl
  checked := ⟨by decide +kernel, .ok (), rfl⟩
  waited := trivial
  thread := rfl
  proceeds := rfl
  last := by decide +kernel

/-- It is stored after an invalidation, and a while later. -/
def lateProvenance : Provenance unsignedGateway probeStart
    (probeRun [⟨false, 50, .invalidateAll⟩] 100 350) (unsignedGateway.policyKey probe)
    (some (.text "GRANT")) where
  reading := probe
  past := asking
  check := proceed 0
  between := [⟨false, 50, .invalidateAll⟩]
  store := proceed 100
  since := storing 100 350
  split := rfl
  keyed := rfl
  checked := ⟨by decide +kernel, .ok (), rfl⟩
  waited := by decide +kernel
  thread := rfl
  proceeds := rfl
  last := by decide +kernel

theorem hit_bounded_probe :
    (proceed 200).input.now < promptProvenance.check.input.now + 300 ∧
    ∀ b ∈ promptProvenance.between ++ promptProvenance.store :: promptProvenance.since,
      b.input.op.covers (unsignedGateway.policyKey probe) = false := by
  have hhits : Hits unsignedGateway probe (.text "GRANT")
      (after unsignedGateway probeStart (probeRun [] 0 200)) (proceed 200) :=
    ⟨by decide +kernel, by decide +kernel⟩
  exact ((hit_bounded_iff unsignedGateway 60 300 fiveMinutes_positive (probeRun [] 0 200)
    (proceed 200) probe (.text "GRANT") hhits).2
      promptProvenance).1 ⟨by decide +kernel, List.forall_mem_nil _⟩

/-- On a clock that does not run back, a decision is read fifty seconds after its time is up,
and three hundred after its key was invalidated. -/
theorem hit_late :
    ((probeRun [⟨false, 50, .invalidateAll⟩] 100 350 ++ [proceed 350]).map
      fun a => a.input.now).Pairwise (· ≤ ·) ∧
    Hits unsignedGateway probe (.text "GRANT")
      (after unsignedGateway probeStart (probeRun [⟨false, 50, .invalidateAll⟩] 100 350))
      (proceed 350) ∧
    ∃ p : Provenance unsignedGateway probeStart (probeRun [⟨false, 50, .invalidateAll⟩] 100 350)
        (unsignedGateway.policyKey probe) (some (.text "GRANT")),
      p.check.input.now + 300 ≤ 350 ∧
        ∃ b ∈ p.between, b.input.op.covers (unsignedGateway.policyKey probe) = true := by
  refine ⟨by decide +kernel, ⟨by decide +kernel, by decide +kernel⟩, lateProvenance, ?_,
    ⟨false, 50, .invalidateAll⟩, List.mem_cons_self .., rfl⟩
  decide +kernel

end FarmChain.Gateway.Staleness
