import FarmChain.Gateway.Loop

/-! Readings handled one after another.

`handle_reading` from its call to its end, with nothing between its operations: what the
moves of one thread come to when no other moves. The cache answers for Fabric until an
entry's time is up, and it answers for a key, which is not quite a device and a zone. -/
namespace FarmChain.Gateway

/-- One call of `handle_reading`, with what its operations find outside. -/
structure Handling where
  reading : SensorReading
  /-- The clock as `get` reads it, and as `set` does. -/
  lookAt : Rat
  storeAt : Rat
  /-- What Fabric would answer now, about any device and zone. -/
  checkAccess : String → String → Except Failure (Option Decision)
  submitSensorReading : Except Failure Unit

/-- How a call ends. -/
inductive Handled where
  | raised
  /-- The signature did not verify. -/
  | invalid
  /-- `submit_sensor_reading` was called, and returned or raised. -/
  | submitted (result : Except Failure Unit)
  /-- Access was denied. -/
  | discarded
  deriving DecidableEq

/-- Whether the reading was submitted, where it came to a decision. -/
def Handled.granted : Handled → Option Bool
  | .submitted _ => some true
  | .discarded => some false
  | .raised | .invalid => none

/-- `handle_reading` once it has a decision. -/
def Handling.conclude (c : Handling) (decision : Option Decision) (g : Shared) : Handled × Shared :=
  if decisionIsGrant decision then
    match c.submitSensorReading with
    | .error failure => (.submitted (.error failure), g)
    | .ok _ =>
      (.submitted (.ok ()), {g with liveReadings := g.liveReadings ++ [c.reading.toPayload]})
  else (.discarded, g)

/-- `handle_reading` when the cache has no decision. -/
def Handling.ask (gw : Config) (c : Handling) (g : Shared) : Handled × Shared :=
  match c.checkAccess c.reading.deviceId (gw.zoneOf c.reading) with
  | .error _ => (.raised, g)
  | .ok decision =>
    match g.policyCache.set c.storeAt (gw.policyKey c.reading) decision none with
    | .error _ => (.raised, g)
    | .ok policyCache => c.conclude decision {g with policyCache}

def handleReading (gw : Config) (g : Shared) (c : Handling) : Handled × Shared :=
  match gw.verifySignature c.reading with
  | .error _ => (.raised, g)
  | .ok false => (.invalid, g)
  | .ok true =>
    match g.policyCache.get c.lookAt (gw.policyKey c.reading) with
    | (some decision, policyCache) => c.conclude (some decision) {g with policyCache}
    | (none, policyCache) => c.ask gw {g with policyCache}

/-! ### The moves of one thread -/

/-- What the call's next operation reads. -/
def Handling.input (gw : Config) (c : Handling) : Task → Input
  | .looking _ => .time c.lookAt
  | .checking reading => .answer (c.checkAccess reading.deviceId (gw.zoneOf reading))
  | .storing _ _ => .time c.storeAt
  | .submitting _ => .submitted c.submitSensorReading
  | _ => .none

/-- Up to `k` moves of `handle_reading`, with nothing between them. -/
def handleMoves (gw : Config) (c : Handling) : Nat → Task → Shared → Task × Shared
  | 0, task, g => (task, g)
  | k + 1, task, g =>
    match handleMove gw task g (c.input gw task) with
    | none => (task, g)
    | some (task', g', _) => handleMoves gw c k task' g'

/-- Where the thread stands when the call has ended. -/
def Handled.task : Handled → Task
  | .raised | .submitted (.error _) => .raised
  | .invalid | .submitted (.ok _) | .discarded => .idle

section
variable (gw : Config) (c : Handling)

theorem handleMoves_succ {k : Nat} {task task' : Task} {g g' : Shared} {o : Option Event}
    (h : handleMove gw task g (c.input gw task) = some (task', g', o)) :
    handleMoves gw c (k + 1) task g = handleMoves gw c k task' g' := by
  show (match handleMove gw task g (c.input gw task) with
    | none => (task, g)
    | some (task', g', _) => handleMoves gw c k task' g') = _
  rw [h]

@[simp] theorem handleMoves_idle (k : Nat) (g : Shared) :
    handleMoves gw c k .idle g = (.idle, g) := by
  cases k <;> rfl

@[simp] theorem handleMoves_raised (k : Nat) (g : Shared) :
    handleMoves gw c k .raised g = (.raised, g) := by
  cases k <;> rfl

theorem handleMoves_conclude (k : Nat) (decision : Option Decision) (g : Shared) :
    handleMoves gw c (k + 3) (.deciding c.reading decision) g =
      ((c.conclude decision g).1.task, (c.conclude decision g).2) := by
  rw [handleMoves_succ gw c rfl]
  unfold Handling.conclude
  split
  · cases hsubmit : c.submitSensorReading with
    | error failure =>
      have hmove : handleMove gw (.submitting c.reading) g (c.input gw (.submitting c.reading)) =
          raise g := by
        simp only [handleMove, Handling.input, hsubmit]
      rw [handleMoves_succ gw c hmove, handleMoves_raised]
      rfl
    | ok =>
      have hmove : handleMove gw (.submitting c.reading) g (c.input gw (.submitting c.reading)) =
          some (.appending c.reading, g, some (.submitted c.reading)) := by
        simp only [handleMove, Handling.input, hsubmit]
      rw [handleMoves_succ gw c hmove, handleMoves_succ gw c rfl, handleMoves_idle]
      rfl
  · exact handleMoves_idle gw c _ g

theorem handleMoves_ask (k : Nat) (g : Shared) :
    handleMoves gw c (k + 5) (.checking c.reading) g = ((c.ask gw g).1.task, (c.ask gw g).2) := by
  unfold Handling.ask
  cases hcheck : c.checkAccess c.reading.deviceId (gw.zoneOf c.reading) with
  | error failure =>
    have hmove : handleMove gw (.checking c.reading) g (c.input gw (.checking c.reading)) =
        raise g := by
      simp only [handleMove, Handling.input, hcheck]
    rw [handleMoves_succ gw c hmove, handleMoves_raised]
    rfl
  | ok decision =>
    have hchecked : handleMove gw (.checking c.reading) g (c.input gw (.checking c.reading)) =
        some (.storing c.reading decision, g, none) := by
      simp only [handleMove, Handling.input, hcheck]
    rw [handleMoves_succ gw c hchecked]
    cases hset : g.policyCache.set c.storeAt (gw.policyKey c.reading) decision none with
    | error failure => cases (PolicyCache.set_default _ _ _ _).symm.trans hset
    | ok policyCache =>
      have hstored : handleMove gw (.storing c.reading decision) g
          (c.input gw (.storing c.reading decision)) =
          some (.deciding c.reading decision, {g with policyCache}, none) := by
        simp only [handleMove, Handling.input, hset]
      rw [handleMoves_succ gw c hstored]
      dsimp only
      rw [hset]
      exact handleMoves_conclude gw c k decision _

/-- A call is the moves of a thread that no other interrupts. -/
theorem handleMoves_handleReading (k : Nat) (g : Shared) :
    handleMoves gw c (k + 7) (.verifying c.reading) g =
      ((handleReading gw g c).1.task, (handleReading gw g c).2) := by
  unfold handleReading
  cases hverify : gw.verifySignature c.reading with
  | error failure =>
    have hmove : handleMove gw (.verifying c.reading) g (c.input gw (.verifying c.reading)) =
        raise g := by
      simp only [handleMove, hverify]
    rw [handleMoves_succ gw c hmove, handleMoves_raised]
    rfl
  | ok verified =>
    cases verified with
    | false =>
      have hmove : handleMove gw (.verifying c.reading) g (c.input gw (.verifying c.reading)) =
          some (.idle, g, none) := by
        simp only [handleMove, hverify]
      rw [handleMoves_succ gw c hmove, handleMoves_idle]
      rfl
    | true =>
      have hverified : handleMove gw (.verifying c.reading) g
          (c.input gw (.verifying c.reading)) = some (.looking c.reading, g, none) := by
        simp only [handleMove, hverify]
      rw [handleMoves_succ gw c hverified]
      cases hget : g.policyCache.get c.lookAt (gw.policyKey c.reading) with
      | mk found policyCache =>
        cases found with
        | none =>
          have hmissed : handleMove gw (.looking c.reading) g (c.input gw (.looking c.reading)) =
              some (.checking c.reading, {g with policyCache}, none) := by
            simp only [handleMove, Handling.input, hget]
          rw [handleMoves_succ gw c hmissed]
          exact handleMoves_ask gw c k _
        | some decision =>
          have hhit : handleMove gw (.looking c.reading) g (c.input gw (.looking c.reading)) =
              some (.deciding c.reading (some decision), {g with policyCache}, none) := by
            simp only [handleMove, Handling.input, hget]
          rw [handleMoves_succ gw c hhit]
          exact handleMoves_conclude gw c (k + 2) (some decision) _

end

/-! ### What a call does -/

/-- The call puts a device and a zone to Fabric and gets an answer. -/
structure Asks (gw : Config) (device zone : String) (decision : Option Decision) (g : Shared)
    (c : Handling) : Prop where
  verified : gw.verifySignature c.reading = .ok true
  ofDevice : c.reading.deviceId = device
  ofZone : gw.zoneOf c.reading = zone
  missed : (g.policyCache.get c.lookAt (gw.policyKey c.reading)).1 = none
  answered : c.checkAccess device zone = .ok decision

/-- The calls, by where the decision comes from. -/
inductive Decided (gw : Config) (g : Shared) (c : Handling) : Handled × Shared → Prop
  | unverified (handled : Handled) (hhandled : handled = .raised ∨ handled = .invalid)
    (hverify : gw.verifySignature c.reading ≠ .ok true) : Decided gw g c (handled, g)
  | cached (decision : Decision) (policyCache : PolicyCache Decision)
    (hfound : (g.policyCache.get c.lookAt (gw.policyKey c.reading)).1 = some decision)
    (hcache : (g.policyCache.get c.lookAt (gw.policyKey c.reading)).2 = policyCache) :
    Decided gw g c (c.conclude (some decision) {g with policyCache})
  | unanswered (policyCache : PolicyCache Decision) (failure : Failure)
    (hcache : (g.policyCache.get c.lookAt (gw.policyKey c.reading)).2 = policyCache)
    (hcheck : c.checkAccess c.reading.deviceId (gw.zoneOf c.reading) = .error failure) :
    Decided gw g c (.raised, {g with policyCache})
  | asked (policyCache : PolicyCache Decision) (decision : Option Decision)
    (hasks : Asks gw c.reading.deviceId (gw.zoneOf c.reading) decision g c)
    (hcache : (g.policyCache.get c.lookAt (gw.policyKey c.reading)).2.stored c.storeAt
      (gw.policyKey c.reading) decision = policyCache) :
    Decided gw g c (c.conclude decision {g with policyCache})

/-- A call is one of these. -/
theorem handleReading_cases (gw : Config) (g : Shared) (c : Handling) :
    Decided gw g c (handleReading gw g c) := by
  unfold handleReading
  split
  · rename_i failure hverify
    exact .unverified .raised (.inl rfl) (by rw [hverify]; nofun)
  · rename_i hverify
    exact .unverified .invalid (.inr rfl) (by rw [hverify]; nofun)
  · rename_i hverify
    split
    · rename_i decision policyCache hget
      exact .cached decision policyCache (congrArg Prod.fst hget) (congrArg Prod.snd hget)
    · rename_i policyCache hget
      have hcache : (g.policyCache.get c.lookAt (gw.policyKey c.reading)).2 = policyCache :=
        congrArg Prod.snd hget
      unfold Handling.ask
      split
      · rename_i failure hcheck
        exact .unanswered policyCache failure hcache hcheck
      · rename_i decision hcheck
        dsimp only
        rw [PolicyCache.set_default]
        have hasks : Asks gw c.reading.deviceId (gw.zoneOf c.reading) decision g c :=
          ⟨hverify, rfl, rfl, congrArg Prod.fst hget, hcheck⟩
        exact .asked _ decision hasks (by rw [hcache])

/-! ### Whose answer is used

A device and a zone are put to Fabric, and the answer is stored under the key that joins
them. The next reading with that key gets it. -/

/-- What a call leaves behind. -/
abbrev handle (gw : Config) (g : Shared) (c : Handling) : Shared := (handleReading gw g c).2

/-- The gateway's state after some calls. -/
abbrev handledAll (gw : Config) (g : Shared) (cs : List Handling) : Shared :=
  Run.run (handle gw) g cs

/-- A gateway whose cache is as `__init__` makes it. -/
def unused (timeoutSeconds ttlSeconds : Rat) (positive : 0 < ttlSeconds) : Shared where
  receiver := .fresh timeoutSeconds
  policyCache := {ttlSeconds, positive}

/-- The times at which the calls read the clock do not decrease. -/
def Clocked (cs : List Handling) : Prop :=
  (cs.flatMap fun c => [c.lookAt, c.storeAt]).Pairwise (· ≤ ·)

theorem Clocked.lookAt_le {before after : List Handling} {c c' : Handling}
    (h : Clocked (before ++ after ++ [c])) (hc' : c' ∈ after) : c'.lookAt ≤ c.lookAt := by
  unfold Clocked at h
  rw [List.flatMap_append] at h
  refine (List.pairwise_append.mp h).2.2 c'.lookAt ?_ c.lookAt (List.mem_cons_self ..)
  exact List.mem_flatMap.mpr ⟨c', List.mem_append_right _ hc', List.mem_cons_self ..⟩

section
variable (gw : Config)

/-- The call stores an answer under a key. -/
def Stores (key : String) (g : Shared) (c : Handling) : Prop :=
  gw.policyKey c.reading = key ∧
    ∃ decision, Asks gw c.reading.deviceId (gw.zoneOf c.reading) decision g c

/-- Fabric gave this answer about the reading's own device and zone: to this call, or to an
earlier one that stored it less than the time to live ago. -/
def OwnAnswer (g : Shared) (before : List Handling) (c : Handling) (decision : Option Decision) :
    Prop :=
  Asks gw c.reading.deviceId (gw.zoneOf c.reading) decision (handledAll gw g before) c ∨
    Run.Sometime (handle gw) (fun g' earlier =>
      Asks gw c.reading.deviceId (gw.zoneOf c.reading) decision g' earlier ∧
        c.lookAt < earlier.storeAt + g.policyCache.ttlSeconds) g before

/-- What the cache has for the call, if anything, was stored for the same device and zone. -/
def OwnEntry (g : Shared) (before : List Handling) (c : Handling) : Prop :=
  ((handledAll gw g before).policyCache.get c.lookAt (gw.policyKey c.reading)).1 ≠ none →
    ∀ start last rest, before = start ++ last :: rest →
      Stores gw (gw.policyKey c.reading) (handledAll gw g start) last →
      Run.Always (handle gw) (fun g later => ¬ Stores gw (gw.policyKey c.reading) g later)
        (handle gw (handledAll gw g start) last) rest →
      last.reading.deviceId = c.reading.deviceId ∧ gw.zoneOf last.reading = gw.zoneOf c.reading

/-- The last call that stored under a key stored this entry. -/
def LastStored (ttlSeconds : Rat) (key : String) (entry : CacheEntry Decision) (g : Shared)
    (before : List Handling) : Prop :=
  Run.Since (handle gw)
    (fun g c => gw.policyKey c.reading = key ∧
      Asks gw c.reading.deviceId (gw.zoneOf c.reading) entry.value g c ∧
      entry.expiresAt = c.storeAt + ttlSeconds)
    (fun g c => ¬ Stores gw key g c) g before

end

section
variable {gw : Config} {g : Shared} {c : Handling}

@[simp] theorem conclude_policyCache (decision : Option Decision) (g : Shared) :
    (c.conclude decision g).2.policyCache = g.policyCache := by
  unfold Handling.conclude
  split
  · split <;> rfl
  · rfl

@[simp] theorem conclude_granted (decision : Option Decision) (g : Shared) :
    (c.conclude decision g).1.granted = some (decisionIsGrant decision) := by
  unfold Handling.conclude
  split
  · rename_i hgrant
    rw [hgrant]
    split <;> rfl
  · rename_i hgrant
    rw [Bool.eq_false_iff.mpr hgrant]
    rfl

/-- What is in the cache after a call was there before, or the call has stored it. -/
theorem handleReading_entry {key : String} {entry : CacheEntry Decision}
    (h : (handleReading gw g c).2.policyCache.entries.get key = some entry) :
    (gw.policyKey c.reading = key ∧
        Asks gw c.reading.deviceId (gw.zoneOf c.reading) entry.value g c ∧
        entry.expiresAt = c.storeAt + g.policyCache.ttlSeconds) ∨
      ¬ Stores gw key g c ∧ g.policyCache.entries.get key = some entry := by
  have hcases := handleReading_cases gw g c
  generalize handleReading gw g c = next at h hcases
  cases hcases with
  | unverified handled hhandled hverify =>
    refine .inr ⟨fun hstores => ?_, h⟩
    obtain ⟨_, decision, hasks⟩ := hstores
    exact hverify hasks.verified
  | cached decision policyCache hfound hcache =>
    rw [conclude_policyCache] at h
    subst hcache
    refine .inr ⟨fun hstores => ?_, PolicyCache.get_entries h⟩
    obtain ⟨_, decision', hasks⟩ := hstores
    cases hfound.symm.trans hasks.missed
  | unanswered policyCache failure hcache hcheck =>
    subst hcache
    refine .inr ⟨fun hstores => ?_, PolicyCache.get_entries h⟩
    obtain ⟨_, decision', hasks⟩ := hstores
    cases hcheck.symm.trans hasks.answered
  | asked policyCache decision hasks hcache =>
    subst hcache
    rw [conclude_policyCache, PolicyCache.get_stored] at h
    by_cases hkey : key = gw.policyKey c.reading
    · rw [if_pos hkey, PolicyCache.get_ttlSeconds] at h
      cases h
      exact .inl ⟨hkey.symm, hasks, rfl⟩
    · rw [if_neg hkey] at h
      exact .inr ⟨fun hstores => hkey hstores.1.symm, PolicyCache.get_entries h⟩

theorem handleReading_ttlSeconds :
    (handleReading gw g c).2.policyCache.ttlSeconds = g.policyCache.ttlSeconds := by
  have hcases := handleReading_cases gw g c
  generalize handleReading gw g c = next at hcases
  cases hcases with
  | unverified handled hhandled hverify => rfl
  | cached decision policyCache hfound hcache =>
    rw [conclude_policyCache, ← hcache]
    exact PolicyCache.get_ttlSeconds ..
  | unanswered policyCache failure hcache hcheck =>
    rw [← hcache]
    exact PolicyCache.get_ttlSeconds ..
  | asked policyCache decision hasks hcache =>
    rw [conclude_policyCache, ← hcache]
    exact PolicyCache.get_ttlSeconds ..

/-- A call that gets an answer leaves it in the cache. -/
theorem handleReading_stores {decision : Option Decision}
    (h : Asks gw c.reading.deviceId (gw.zoneOf c.reading) decision g c) :
    (handle gw g c).policyCache.entries.get (gw.policyKey c.reading) =
      some ⟨decision, c.storeAt + g.policyCache.ttlSeconds⟩ := by
  unfold handle
  have hcases := handleReading_cases gw g c
  generalize handleReading gw g c = next at hcases
  cases hcases with
  | unverified handled hhandled hverify => exact absurd h.verified hverify
  | cached decision' policyCache hfound hcache => cases hfound.symm.trans h.missed
  | unanswered policyCache failure hcache hcheck => cases hcheck.symm.trans h.answered
  | asked policyCache decision' hasks hcache =>
    cases hasks.answered.symm.trans h.answered
    rw [conclude_policyCache, ← hcache, PolicyCache.get_stored, if_pos rfl,
      PolicyCache.get_ttlSeconds]

/-- While an entry's time is not up, a call stores nothing in its place. -/
theorem handleReading_keeps {key : String} {entry : CacheEntry Decision} {decision : Decision}
    (hentry : g.policyCache.entries.get key = some entry) (hvalue : entry.value = some decision)
    (hlive : c.lookAt < entry.expiresAt) :
    ¬ Stores gw key g c ∧ (handle gw g c).policyCache.entries.get key = some entry := by
  have hnot : ¬ Stores gw key g c := by
    intro hstores
    obtain ⟨hkey, decision', hasks⟩ := hstores
    have hmissed := hasks.missed
    rw [hkey, PolicyCache.get_of_live hentry hlive, hvalue] at hmissed
    cases hmissed
  refine ⟨hnot, ?_⟩
  have hget : (g.policyCache.get c.lookAt (gw.policyKey c.reading)).2.entries.get key = some entry :=
    PolicyCache.get_keeps hentry fun _ => hlive
  unfold handle
  have hcases := handleReading_cases gw g c
  generalize handleReading gw g c = next at hcases
  cases hcases with
  | unverified handled hhandled hverify => exact hentry
  | cached decision' policyCache hfound hcache =>
    rw [conclude_policyCache, ← hcache]
    exact hget
  | unanswered policyCache failure hcache hcheck =>
    rw [← hcache]
    exact hget
  | asked policyCache decision' hasks hcache =>
    have hne : key ≠ gw.policyKey c.reading := fun hkey => hnot ⟨hkey.symm, decision', hasks⟩
    rw [conclude_policyCache, ← hcache, PolicyCache.get_stored, if_neg hne]
    exact hget

theorem handledAll_keeps {key : String} {entry : CacheEntry Decision} {decision : Decision}
    (hvalue : entry.value = some decision) (later : List Handling)
    (hlive : ∀ c ∈ later, c.lookAt < entry.expiresAt)
    (hentry : g.policyCache.entries.get key = some entry) :
    Run.Always (handle gw) (fun g c => ¬ Stores gw key g c) g later := by
  induction later generalizing g with
  | nil => trivial
  | cons c rest ih =>
    obtain ⟨hnot, hkept⟩ := handleReading_keeps hentry hvalue (hlive c (List.mem_cons_self ..))
    exact ⟨hnot, ih (fun c' hc' => hlive c' (List.mem_cons_of_mem c hc')) hkept⟩

/-- A reading is submitted on a grant and discarded on anything else, from the cache or
from Fabric. -/
theorem handleReading_granted {granted : Bool} (h : (handleReading gw g c).1.granted = some granted) :
    ∃ decision, decisionIsGrant decision = granted ∧
      ((∃ found, (g.policyCache.get c.lookAt (gw.policyKey c.reading)).1 = some found ∧
          decision = some found) ∨
        Asks gw c.reading.deviceId (gw.zoneOf c.reading) decision g c) := by
  have hcases := handleReading_cases gw g c
  generalize handleReading gw g c = next at h hcases
  cases hcases with
  | unverified handled hhandled hverify => rcases hhandled with rfl | rfl <;> cases h
  | cached decision policyCache hfound hcache =>
    rw [conclude_granted] at h
    exact ⟨some decision, Option.some.inj h, .inl ⟨decision, hfound, rfl⟩⟩
  | unanswered policyCache failure hcache hcheck => cases h
  | asked policyCache decision hasks hcache =>
    rw [conclude_granted] at h
    exact ⟨decision, Option.some.inj h, .inr hasks⟩

end

section
variable (gw : Config) (timeoutSeconds ttlSeconds : Rat) (positive : 0 < ttlSeconds)

theorem handledAll_ttlSeconds (before : List Handling) :
    (handledAll gw (unused timeoutSeconds ttlSeconds positive) before).policyCache.ttlSeconds =
      ttlSeconds :=
  Run.run_invariant (handle gw) (fun g => g.policyCache.ttlSeconds = ttlSeconds)
    (fun _ _ h => handleReading_ttlSeconds.trans h) _ before rfl

/-- What is in the cache was stored by the last call that stored under its key. -/
theorem lastStored (before : List Handling) {key : String} {entry : CacheEntry Decision}
    (h : (handledAll gw (unused timeoutSeconds ttlSeconds positive) before).policyCache.entries.get
      key = some entry) :
    LastStored gw ttlSeconds key entry (unused timeoutSeconds ttlSeconds positive) before := by
  induction before using List.reverseRecOn with
  | nil => cases h
  | append_singleton before c ih =>
    have httl := handledAll_ttlSeconds gw timeoutSeconds ttlSeconds positive before
    rw [handledAll, Run.run_snoc] at h
    rcases handleReading_entry h with ⟨hkey, hasks, hexpires⟩ | ⟨hstores, hold⟩
    · rw [httl] at hexpires
      exact Run.since_last ⟨hkey, hasks, hexpires⟩
    · exact Run.Since.snoc (ih hold) hstores

/-- A call whose entry in the cache is its own is decided by Fabric's answer about its own
device and zone. -/
theorem ownAnswer_of_ownEntry {before : List Handling} {c : Handling} {granted : Bool}
    (hown : OwnEntry gw (unused timeoutSeconds ttlSeconds positive) before c)
    (h : (handleReading gw (handledAll gw (unused timeoutSeconds ttlSeconds positive) before)
      c).1.granted = some granted) :
    ∃ decision, decisionIsGrant decision = granted ∧
      OwnAnswer gw (unused timeoutSeconds ttlSeconds positive) before c decision := by
  obtain ⟨decision, hgrant, hsource⟩ := handleReading_granted h
  refine ⟨decision, hgrant, ?_⟩
  rcases hsource with ⟨found, hfound, rfl⟩ | hasks
  · obtain ⟨entry, hentry, hvalue, hlive⟩ := PolicyCache.get_eq_some hfound
    obtain ⟨start, last, rest, hsplit, ⟨hkey, hasks, hexpires⟩, hrest⟩ :=
      lastStored gw timeoutSeconds ttlSeconds positive before hentry
    have hstores : Stores gw (gw.policyKey c.reading)
        (handledAll gw (unused timeoutSeconds ttlSeconds positive) start) last :=
      ⟨hkey, entry.value, hasks⟩
    have hhit : ((handledAll gw (unused timeoutSeconds ttlSeconds positive) before).policyCache.get
        c.lookAt (gw.policyKey c.reading)).1 ≠ none := by
      rw [hfound]
      nofun
    obtain ⟨hdevice, hzone⟩ := hown hhit start last rest hsplit hstores hrest
    rw [hvalue, hdevice, hzone] at hasks
    rw [hexpires] at hlive
    exact .inr ⟨start, last, rest, hsplit, hasks, hlive⟩
  · exact .inl hasks

/-- Where Fabric has granted access to the call's own device and zone, its entry in the
cache is its own: until its time is up nothing is stored over it. -/
theorem ownEntry_of_ownAnswer {before : List Handling} {c : Handling} {decision : Option Decision}
    (hclock : Clocked (before ++ [c])) (hgrant : decisionIsGrant decision = true)
    (h : OwnAnswer gw (unused timeoutSeconds ttlSeconds positive) before c decision) :
    OwnEntry gw (unused timeoutSeconds ttlSeconds positive) before c := by
  rcases h with hasks | ⟨start, own, rest, rfl, hasks, hlive⟩
  · exact fun hhit => absurd hasks.missed hhit
  · intro _ start' last rest' hsplit hstores hrest'
    obtain ⟨value, rfl⟩ : ∃ value, decision = some value := by
      cases decision with
      | none => cases hgrant
      | some value => exact ⟨value, rfl⟩
    have hkey : gw.policyKey own.reading = gw.policyKey c.reading := by
      unfold Config.policyKey
      rw [hasks.ofDevice, hasks.ofZone]
    have hasks' : Asks gw own.reading.deviceId (gw.zoneOf own.reading) (some value)
        (handledAll gw (unused timeoutSeconds ttlSeconds positive) start) own := by
      rw [hasks.ofDevice, hasks.ofZone]
      exact hasks
    have hentry := handleReading_stores hasks'
    rw [hkey, handledAll_ttlSeconds] at hentry
    have hrest : Run.Always (handle gw) (fun g c' => ¬ Stores gw (gw.policyKey c.reading) g c')
        (handle gw (handledAll gw (unused timeoutSeconds ttlSeconds positive) start) own) rest :=
      handledAll_keeps rfl rest (fun later hlater =>
        lt_of_le_of_lt (hclock.lookAt_le (List.mem_cons_of_mem own hlater)) hlive) hentry
    obtain rfl : own = last :=
      Run.last_unique hsplit ⟨hkey, some value, hasks'⟩ hrest hstores hrest'
    exact ⟨hasks.ofDevice, hasks.ofZone⟩

/-- Where a call's entry in the cache is its own, it is decided by Fabric's answer about its own
device and zone, given to it or less than the time to live ago; a reading that is submitted
is submitted on such a grant only there. -/
theorem submitted_on_own_grant_iff (before : List Handling) (c : Handling)
    (hclock : Clocked (before ++ [c])) :
    (∀ result, (handleReading gw (handledAll gw (unused timeoutSeconds ttlSeconds positive) before)
        c).1 = .submitted result →
      ((∃ decision, decisionIsGrant decision = true ∧
          OwnAnswer gw (unused timeoutSeconds ttlSeconds positive) before c decision) ↔
        OwnEntry gw (unused timeoutSeconds ttlSeconds positive) before c)) ∧
    ((handleReading gw (handledAll gw (unused timeoutSeconds ttlSeconds positive) before)
        c).1 = .discarded →
      OwnEntry gw (unused timeoutSeconds ttlSeconds positive) before c →
      ∃ decision, decisionIsGrant decision = false ∧
        OwnAnswer gw (unused timeoutSeconds ttlSeconds positive) before c decision) := by
  constructor
  · intro result h
    constructor
    · intro hanswer
      obtain ⟨decision, hgrant, hanswer⟩ := hanswer
      exact ownEntry_of_ownAnswer gw _ _ _ hclock hgrant hanswer
    · exact fun hown => ownAnswer_of_ownEntry gw _ _ _ hown (congrArg Handled.granted h)
  · exact fun h hown => ownAnswer_of_ownEntry gw _ _ _ hown (congrArg Handled.granted h)

end

/-! A sensor `probe:7` in zone `north`, and a sensor `probe` in zone `7:north`: one key.
Fabric grants access to the first only. -/

def unsignedGateway : Config where
  zone := "north"
  verifySignature reading := .ok reading.signature.isNone

def probeHandling (deviceId zone : String) (lookAt storeAt : Rat) : Handling where
  reading := {deviceId, readingId := "1", value := 65, zone := some zone}
  lookAt := lookAt
  storeAt := storeAt
  checkAccess device zone :=
    .ok (some (.text (if device = "probe:7" ∧ zone = "north" then "GRANT" else "DENY")))
  submitSensorReading := .ok ()

theorem last_of_singleton {a b : Handling} {start rest : List Handling}
    (h : [a] = start ++ b :: rest) : a = b := by
  cases start with
  | nil => exact (List.cons.inj h).1
  | cons first start => cases start <;> cases h

theorem fiveMinutes_positive : (0 : Rat) < 300 := by norm_num

/-- The same sensor twice: submitted on the grant it was given two seconds before. -/
theorem submitted_on_own_grant_probe : ∃ decision, decisionIsGrant decision = true ∧
    OwnAnswer unsignedGateway (unused 60 300 fiveMinutes_positive) [probeHandling "probe:7" "north" 0 1]
      (probeHandling "probe:7" "north" 3 4) decision := by
  have hsubmitted : (handleReading unsignedGateway (handledAll unsignedGateway
      (unused 60 300 fiveMinutes_positive) [probeHandling "probe:7" "north" 0 1])
      (probeHandling "probe:7" "north" 3 4)).1 = .submitted (.ok ()) := by
    decide +kernel
  refine ((submitted_on_own_grant_iff unsignedGateway 60 300 fiveMinutes_positive
    [probeHandling "probe:7" "north" 0 1] (probeHandling "probe:7" "north" 3 4) ?_).1 (.ok ())
    hsubmitted).mpr ?_
  · unfold Clocked
    decide +kernel
  · intro _ start last rest hsplit _ _
    cases last_of_singleton hsplit
    exact ⟨rfl, rfl⟩

/-- The other sensor after it: submitted, though Fabric would have denied it. -/
theorem submitted_on_foreign_grant :
    Clocked [probeHandling "probe:7" "north" 0 1, probeHandling "probe" "7:north" 3 4] ∧
    (handleReading unsignedGateway (handledAll unsignedGateway
      (unused 60 300 fiveMinutes_positive) [probeHandling "probe:7" "north" 0 1])
      (probeHandling "probe" "7:north" 3 4)).1 = .submitted (.ok ()) ∧
    (probeHandling "probe" "7:north" 3 4).checkAccess "probe" "7:north" =
      .ok (some (.text "DENY")) ∧
    ∀ decision, decisionIsGrant decision = true →
      ¬ OwnAnswer unsignedGateway (unused 60 300 fiveMinutes_positive)
        [probeHandling "probe:7" "north" 0 1] (probeHandling "probe" "7:north" 3 4) decision := by
  refine ⟨?_, by decide +kernel, by decide, fun decision hgrant hanswer => ?_⟩
  · unfold Clocked
    decide +kernel
  · rcases hanswer with hasks | ⟨start, own, rest, hsplit, hasks, _⟩
    · exact absurd hasks.missed (by decide +kernel)
    · cases last_of_singleton hsplit
      exact absurd hasks.ofDevice (by decide)

end FarmChain.Gateway
