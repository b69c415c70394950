import FarmChain.Gateway.Loop

/-! What a move does to the readings still to be handled.

An assembled reading leaves `process_packet` twice: it is returned to the source's
thread, which handles it, and it is put on the queue, from which the main loop takes and
handles it again. So work is counted: a reading that no one rejects or denies is, at
every moment, on the queue, with a thread, or done. A `Weights` says how much a reading
owes at each of these places, and a move that turns no reading away balances. -/
namespace FarmChain.Gateway

/-- The assembly of a reading of a kind. -/
def assembles (p : SensorReading → Bool) : Event → Bool
  | .emitted reading => p reading
  | _ => false

/-- A way to weigh the readings of a kind: what each still owes, from the queue on. -/
structure Weights where
  ofReading : SensorReading → Bool
  ofPayload : Payload → Bool
  queued : Nat
  handling : Nat
  appending : Nat
  /-- Whether taking a reading from the queue, and submitting one, counts as done. -/
  takes : Bool
  submits : Bool
  queued_eq : queued = handling + takes.toNat
  handling_eq : handling = appending + submits.toNat
  payload_eq : ∀ reading, appending * (ofPayload reading.toPayload).toNat =
    appending * (ofReading reading).toNat

namespace Weights
variable (w : Weights)

def unit (reading : SensorReading) : Nat := (w.ofReading reading).toNat

def ofTask : Task → Nat
  | .putting reading => (w.queued + w.handling) * w.unit reading
  | .verifying reading | .looking reading | .checking reading | .storing reading _
  | .deciding reading _ | .submitting reading => w.handling * w.unit reading
  | .appending reading => w.appending * w.unit reading
  | _ => 0

def ofShared (g : Shared) : Nat :=
  w.queued * g.receiver.readings.countP w.ofReading +
    w.appending * g.liveReadings.countP w.ofPayload

def spent : Event → Bool
  | .taken reading => w.takes && w.ofReading reading
  | .submitted reading => w.submits && w.ofReading reading
  | _ => false

def gained : Event → Bool := assembles w.ofReading

theorem ofTask_of_none {task : Task} (h : task.reading = none) : w.ofTask task = 0 := by
  cases task <;> first | rfl | cases h

theorem countP_singleton {α : Type} (p : α → Bool) (a : α) : [a].countP p = (p a).toNat := by
  cases h : p a <;> simp [h]

theorem countP_cons (reading : SensorReading) (rest : List SensorReading) :
    (reading :: rest).countP w.ofReading = w.unit reading + rest.countP w.ofReading := by
  rw [← List.singleton_append, List.countP_append, countP_singleton, unit]

/-- A reading the queue hands over owes what it still owes then, and what that counted. -/
theorem queued_unit (reading : SensorReading) : w.queued * w.unit reading =
    w.handling * w.unit reading + (w.takes && w.ofReading reading).toNat := by
  rw [w.queued_eq, Nat.add_mul, unit]
  cases w.takes <;> cases w.ofReading reading <;> rfl

theorem handling_unit (reading : SensorReading) : w.handling * w.unit reading =
    w.appending * w.unit reading + (w.submits && w.ofReading reading).toNat := by
  rw [w.handling_eq, Nat.add_mul, unit]
  cases w.submits <;> cases w.ofReading reading <;> rfl

end Weights

/-- Nothing goes wrong in a step: no call raises, and no reading is turned away. -/
structure Smooth (gw : Config) (task : Task) (o : Option Event) : Prop where
  raised : o ≠ some .raised
  verified : ∀ reading, task = .verifying reading → gw.verifySignature reading = .ok true
  granted : ∀ reading decision, task = .deciding reading decision → decisionIsGrant decision = true

section
variable {gw : Config} {g : Shared} {input : Input} {task task' : Task} {g' : Shared}
  {o : Option Event}

/-- A smooth move neither loses work nor makes any, other than by assembling a reading. -/
theorem Moved.balance (h : Moved gw g input task (task', g', o)) (hsmooth : Smooth gw task o)
    (w : Weights) : w.ofTask task' + w.ofShared g' + o.toList.countP w.spent =
      w.ofTask task + w.ofShared g + (w.queued + w.handling) * o.toList.countP w.gained := by
  cases h with
  | quiet _ _ _ htask htask' hreadings _ _ hlive =>
    have hshared : w.ofShared g' = w.ofShared g := by
      unfold Weights.ofShared
      rw [hreadings, hlive]
    rw [w.ofTask_of_none htask, w.ofTask_of_none htask', hshared]
    rfl
  | raised => exact absurd rfl hsmooth.raised
  | emitted p now firstSeen receiver reading hcollect =>
    have hreadings := (collect_frame now firstSeen p g.receiver).2.1
    rw [hcollect] at hreadings
    have hshared : w.ofShared {g with receiver} = w.ofShared g := by
      unfold Weights.ofShared
      rw [hreadings]
    rw [hshared, Option.toList_some, Weights.countP_singleton, Weights.countP_singleton]
    show (w.queued + w.handling) * w.unit reading + w.ofShared g + 0 =
      0 + w.ofShared g + (w.queued + w.handling) * w.unit reading
    omega
  | put reading =>
    show w.handling * w.unit reading +
        (w.queued * (g.receiver.readings ++ [reading]).countP w.ofReading +
          w.appending * g.liveReadings.countP w.ofPayload) + 0 =
      (w.queued + w.handling) * w.unit reading +
        (w.queued * g.receiver.readings.countP w.ofReading +
          w.appending * g.liveReadings.countP w.ofPayload) + _ * 0
    rw [List.countP_append, Weights.countP_singleton, Nat.mul_add, Nat.add_mul, ← Weights.unit]
    omega
  | taken reading rest hreadings =>
    have hhead := w.queued_unit reading
    rw [Option.toList_some, Weights.countP_singleton]
    show w.handling * w.unit reading + (w.queued * rest.countP w.ofReading +
          w.appending * g.liveReadings.countP w.ofPayload) + (w.takes && w.ofReading reading).toNat =
      0 + (w.queued * g.receiver.readings.countP w.ofReading +
          w.appending * g.liveReadings.countP w.ofPayload) + _ * 0
    rw [hreadings, w.countP_cons, Nat.mul_add]
    omega
  | verified reading => rfl
  | rejected reading hverify => cases (hsmooth.verified reading rfl).symm.trans hverify
  | missed reading now => rfl
  | hit reading now decision => rfl
  | answered reading decision => rfl
  | stored reading decision => rfl
  | granted reading decision => rfl
  | denied reading decision hdenied =>
    cases (hsmooth.granted reading decision rfl).symm.trans hdenied
  | submitted reading =>
    have hunit := w.handling_unit reading
    rw [Option.toList_some, Weights.countP_singleton]
    show w.appending * w.unit reading + w.ofShared g + (w.submits && w.ofReading reading).toNat =
      w.handling * w.unit reading + w.ofShared g + _ * 0
    omega
  | appended reading =>
    show 0 + (w.queued * g.receiver.readings.countP w.ofReading +
          w.appending * (g.liveReadings ++ [reading.toPayload]).countP w.ofPayload) + 0 =
      w.appending * w.unit reading + (w.queued * g.receiver.readings.countP w.ofReading +
          w.appending * g.liveReadings.countP w.ofPayload) + _ * 0
    rw [List.countP_append, Weights.countP_singleton, Nat.mul_add, w.payload_eq, ← Weights.unit]
    omega

/-- The reading a thread is at work on, if any, is known; so is each on the queue. -/
def Task.Knows (known : SensorReading → Prop) (task : Task) : Prop :=
  ∀ reading, task.reading = some reading → known reading

def Shared.Knows (known : SensorReading → Prop) (g : Shared) : Prop :=
  ∀ reading ∈ g.receiver.readings, known reading

/-- A thread without a reading knows nothing to be shown. -/
theorem Task.knows_of_none {known : SensorReading → Prop} (h : task.reading = none) :
    task.Knows known := by
  intro reading hreading
  rw [h] at hreading
  cases hreading

/-- Readings in hand come from the move's own thread, the queue, or the receiver. -/
theorem Moved.held (h : Moved gw g input task (task', g', o)) {known : SensorReading → Prop}
    (htask : task.Knows known) (hqueue : g.Knows known)
    (hemitted : ∀ reading, o = some (.emitted reading) → known reading) :
    task'.Knows known ∧ g'.Knows known := by
  cases h with
  | quiet _ _ _ _ htask' hreadings =>
    rw [Shared.Knows, hreadings]
    exact ⟨Task.knows_of_none htask', hqueue⟩
  | raised _ _ hreadings =>
    rw [Shared.Knows, hreadings]
    exact ⟨Task.knows_of_none rfl, hqueue⟩
  | emitted p now firstSeen receiver reading hcollect =>
    have hreadings := (collect_frame now firstSeen p g.receiver).2.1
    rw [hcollect] at hreadings
    refine ⟨fun reading' heq => ?_, ?_⟩
    · cases heq
      exact hemitted reading rfl
    · show ∀ reading ∈ receiver.readings, known reading
      rw [hreadings]
      exact hqueue
  | put reading =>
    refine ⟨htask, fun reading' hmem => ?_⟩
    rcases List.mem_append.mp hmem with hold | hnew
    · exact hqueue reading' hold
    · rw [List.mem_singleton.mp hnew]
      exact htask reading rfl
  | taken reading rest hreadings =>
    rw [Shared.Knows, hreadings] at hqueue
    refine ⟨fun reading' heq => ?_, fun reading' hmem => hqueue reading' (List.mem_cons_of_mem _ hmem)⟩
    cases heq
    exact hqueue reading (List.mem_cons_self ..)
  | rejected | denied | appended => exact ⟨Task.knows_of_none rfl, hqueue⟩
  | verified | missed | hit | answered | stored | granted | submitted => exact ⟨htask, hqueue⟩

/-- The decision a thread is about to act on. -/
def Task.decision : Task → Option (Option Decision)
  | .storing _ decision | .deciding _ decision => some decision
  | _ => none

theorem Task.decision_of_none {task : Task} (h : task.reading = none) : task.decision = none := by
  cases task <;> first | rfl | cases h

/-- A check that was answered was answered with a grant. -/
def Input.granted : Input → Bool
  | .answer (.ok decision) => decisionIsGrant decision
  | _ => true

/-- The decision in hand, if any, is a grant; so is each in the cache. -/
def Task.Grants (task : Task) : Prop :=
  ∀ decision, task.decision = some decision → decisionIsGrant decision = true

def Shared.Grants (g : Shared) : Prop :=
  g.policyCache.Holds fun decision => decisionIsGrant (some decision) = true

theorem Task.grants_of_none (h : task.decision = none) : task.Grants := by
  intro decision hdecision
  rw [h] at hdecision
  cases hdecision

/-- A decision in hand is one of Fabric's or one of the cache's. -/
theorem Moved.grants (h : Moved gw g input task (task', g', o))
    (hgrant : input.granted = true)
    (htask : task.Grants) (hcache : g.Grants) : task'.Grants ∧ g'.Grants := by
  cases h with
  | quiet _ _ _ _ htask' _ _ hsame =>
    rw [Shared.Grants, hsame]
    exact ⟨Task.grants_of_none (Task.decision_of_none htask'), hcache⟩
  | raised _ _ _ _ hsame =>
    rw [Shared.Grants, hsame]
    exact ⟨Task.grants_of_none rfl, hcache⟩
  | emitted | put | taken | verified | rejected | granted | denied | submitted | appended =>
    exact ⟨Task.grants_of_none rfl, hcache⟩
  | missed reading now =>
    exact ⟨Task.grants_of_none rfl, (PolicyCache.holds_get hcache now _).2⟩
  | hit reading now decision hget =>
    obtain ⟨hvalue, hcache'⟩ := PolicyCache.holds_get hcache now (gw.policyKey reading)
    refine ⟨fun decision' heq => ?_, hcache'⟩
    cases heq
    exact hvalue decision hget
  | answered reading decision hinput =>
    refine ⟨fun decision' heq => ?_, hcache⟩
    cases heq
    rw [hinput] at hgrant
    exact hgrant
  | stored reading decision now policyCache hset =>
    refine ⟨htask, PolicyCache.holds_set hcache (fun v hv => ?_) hset⟩
    rw [← hv]
    exact htask decision rfl

/-- A reading is assembled when its key is open, and closes it. -/
theorem Moved.completes (h : Moved gw g input task (task', g', o)) :
    g.receiver.assembled ⊆ g'.receiver.assembled ∧
      ∀ reading, o = some (.emitted reading) →
        reading.key ∉ g.receiver.assembled ∧ reading.key ∈ g'.receiver.assembled := by
  cases h with
  | quiet _ _ _ _ _ _ hassembled | raised _ _ _ hassembled =>
    exact ⟨hassembled, fun _ heq => by cases heq⟩
  | emitted p now firstSeen receiver reading hcollect =>
    have hframe := (collect_frame now firstSeen p g.receiver).1
    have hcompletes := collect_completes (congrArg Prod.snd hcollect)
    rw [hcollect] at hframe hcompletes
    refine ⟨hframe, fun reading' heq => ?_⟩
    cases heq
    exact hcompletes
  | put | taken | verified | rejected | missed | hit | answered | stored | granted | denied
  | submitted | appended => exact ⟨Finset.Subset.refl _, fun _ heq => by cases heq⟩

end

end FarmChain.Gateway
