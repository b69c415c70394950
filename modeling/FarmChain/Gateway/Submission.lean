import Mathlib.Algebra.Order.BigOperators.Group.Finset
import FarmChain.Gateway.Balance

/-! How often a reading is submitted.

Over a run the moves balance, and a key is completed at most once. So a reading that was
assembled is submitted twice in all, once for each way it left `process_packet`, except
where the main loop has not come to it: then once. -/
namespace FarmChain.Gateway

/-! ### Runs -/

section
variable (gw : Config) {n : Nat}

/-- The gateway's state after some moves of its threads. -/
abbrev after (s : Threads.System (Thread n) Task Shared)
    (as : List (Threads.Action (Thread n) Input)) : Threads.System (Thread n) Task Shared :=
  Run.run (Threads.step (move gw)) s as

/-- What the moves have shown. -/
abbrev shown (s : Threads.System (Thread n) Task Shared)
    (as : List (Threads.Action (Thread n) Input)) : List Event :=
  Threads.events (move gw) s as

/-- Every reading on the queue or with a thread has been assembled. -/
structure Held (es : List Event) (s : Threads.System (Thread n) Task Shared) : Prop where
  own : ∀ t, (s.own t).Knows fun reading => .emitted reading ∈ es
  shared : s.shared.Knows fun reading => .emitted reading ∈ es

/-- Every decision in the cache or with a thread is a grant. -/
structure Grants (s : Threads.System (Thread n) Task Shared) : Prop where
  own : ∀ t, (s.own t).Grants
  shared : s.shared.Grants

/-- The key a reading's assembly completes. -/
def Event.completes : Event → Option Key
  | .emitted reading => some reading.key
  | _ => none

/-- No key is completed twice, and the receiver knows all that were. -/
structure Once (es : List Event) (s : Threads.System (Thread n) Task Shared) : Prop where
  nodup : (es.filterMap Event.completes).Nodup
  known : ∀ key ∈ es.filterMap Event.completes, key ∈ s.shared.receiver.assembled

variable {gw} {es : List Event} {s : Threads.System (Thread n) Task Shared}

theorem Held.step (h : Held es s) (a : Threads.Action (Thread n) Input) :
    Held (es ++ (Threads.observe (move gw) s a).toList) (Threads.step (move gw) s a) := by
  have hold (reading : SensorReading) (hreading : .emitted reading ∈ es) :
      .emitted reading ∈ es ++ (Threads.observe (move gw) s a).toList :=
    List.mem_append_left _ hreading
  have hown (t : Thread n) : (s.own t).Knows fun reading =>
      .emitted reading ∈ es ++ (Threads.observe (move gw) s a).toList :=
    fun reading hreading => hold reading (h.own t reading hreading)
  have hshared : s.shared.Knows fun reading =>
      .emitted reading ∈ es ++ (Threads.observe (move gw) s a).toList :=
    fun reading hreading => hold reading (h.shared reading hreading)
  have hmoved (task' : Task) (g' : Shared) (o : Option Event)
      (hmove : move gw a.thread (s.own a.thread) s.shared a.input = some (task', g', o))
      (hobserve : Threads.observe (move gw) s a = o) :
      (task'.Knows fun reading => .emitted reading ∈ es ++ (Threads.observe (move gw) s a).toList) ∧
        g'.Knows fun reading => .emitted reading ∈ es ++ (Threads.observe (move gw) s a).toList := by
    refine (move_cases hmove).held (hown a.thread) hshared fun reading heq => ?_
    rw [hobserve, heq]
    exact List.mem_append_right _ (List.mem_cons_self ..)
  obtain ⟨hown', hshared'⟩ := Threads.step_each (move gw) hmoved hown hshared
  exact ⟨hown', hshared'⟩

theorem Grants.step (h : Grants s) {a : Threads.Action (Thread n) Input}
    (hgrant : a.input.granted = true) : Grants (Threads.step (move gw) s a) := by
  obtain ⟨hown, hshared⟩ := Threads.step_each (move gw) (fun task' g' o hmove _ =>
    (move_cases hmove).grants hgrant (h.own a.thread) h.shared) h.own h.shared
  exact ⟨hown, hshared⟩

theorem Once.step (h : Once es s) (a : Threads.Action (Thread n) Input) :
    Once (es ++ (Threads.observe (move gw) s a).toList) (Threads.step (move gw) s a) := by
  rcases Threads.step_cases (move gw) s a with ⟨task', g', o, hmove, hstep, hobserve⟩ |
    ⟨hstep, hobserve⟩
  · obtain ⟨hframe, hcompletes⟩ := (move_cases hmove).completes
    rw [hstep, hobserve]
    have hknown (key : Key) (hkey : key ∈ es.filterMap Event.completes) :
        key ∈ g'.receiver.assembled := hframe (h.known key hkey)
    cases o with
    | none =>
      rw [Option.toList_none, List.append_nil]
      exact ⟨h.nodup, hknown⟩
    | some e =>
      rw [Option.toList_some]
      cases hkey : e.completes with
      | none =>
        have hsame : (es ++ [e]).filterMap Event.completes = es.filterMap Event.completes := by
          rw [List.filterMap_append, List.filterMap_cons_none hkey, List.filterMap_nil,
            List.append_nil]
        rw [← hsame] at hknown
        exact ⟨hsame ▸ h.nodup, hknown⟩
      | some key =>
        have hmore : (es ++ [e]).filterMap Event.completes = es.filterMap Event.completes ++ [key] := by
          rw [List.filterMap_append, List.filterMap_cons_some hkey, List.filterMap_nil]
        obtain ⟨hopen, hclosed⟩ : key ∉ s.shared.receiver.assembled ∧ key ∈ g'.receiver.assembled := by
          cases e with
          | emitted reading =>
            cases hkey
            exact hcompletes reading rfl
          | taken | submitted | raised => cases hkey
        constructor
        · rw [hmore]
          refine List.Nodup.append h.nodup (List.nodup_singleton _) ?_
          rw [List.disjoint_singleton]
          exact fun hmem => hopen (h.known _ hmem)
        · rw [hmore]
          intro key' hmem
          rcases List.mem_append.mp hmem with hold | hnew
          · exact hknown key' hold
          · rw [List.mem_singleton.mp hnew]
            exact hclosed
  · rw [hstep, hobserve, Option.toList_none, List.append_nil]
    exact h

variable {timeoutSeconds ttlSeconds : Rat} {positive : 0 < ttlSeconds}

theorem held_after (as : List (Threads.Action (Thread n) Input)) :
    Held (shown gw (started n timeoutSeconds ttlSeconds positive) as)
      (after gw (started n timeoutSeconds ttlSeconds positive) as) := by
  induction as using List.reverseRecOn with
  | nil => exact ⟨fun _ => Task.knows_of_none rfl, List.forall_mem_nil _⟩
  | append_singleton as a ih =>
    unfold shown after
    rw [Threads.events_snoc, Run.run_snoc]
    exact ih.step a

theorem grants_after (as : List (Threads.Action (Thread n) Input))
    (hgrant : ∀ a ∈ as, a.input.granted = true) :
    Grants (after gw (started n timeoutSeconds ttlSeconds positive) as) := by
  induction as using List.reverseRecOn with
  | nil => exact ⟨fun _ => Task.grants_of_none rfl, PolicyCache.holds_empty _ ttlSeconds positive⟩
  | append_singleton as a ih =>
    unfold after
    rw [Run.run_snoc]
    exact (ih fun a' ha' => hgrant a' (List.mem_append_left _ ha')).step
      (hgrant a (List.mem_append_right _ (List.mem_cons_self ..)))

theorem once_after (as : List (Threads.Action (Thread n) Input)) :
    Once (shown gw (started n timeoutSeconds ttlSeconds positive) as)
      (after gw (started n timeoutSeconds ttlSeconds positive) as) := by
  induction as using List.reverseRecOn with
  | nil => exact ⟨List.nodup_nil, List.forall_mem_nil _⟩
  | append_singleton as a ih =>
    unfold shown after
    rw [Threads.events_snoc, Run.run_snoc]
    exact ih.step a

end

/-- A run of the gateway from its start, with `n` packet sources. -/
structure GatewayRun (n : Nat) where
  gateway : Config
  timeoutSeconds : Rat
  ttlSeconds : Rat
  positive : 0 < ttlSeconds
  actions : List (Threads.Action (Thread n) Input)

namespace GatewayRun
variable {n : Nat} (run : GatewayRun n)

def start : Threads.System (Thread n) Task Shared :=
  started n run.timeoutSeconds run.ttlSeconds run.positive

def final : Threads.System (Thread n) Task Shared := after run.gateway run.start run.actions

def events : List Event := shown run.gateway run.start run.actions

/-- No thread is at work on a reading. -/
def Settled : Prop := ∀ t, (run.final.own t).reading = none

/-- Every reading assembled passes its verification, Fabric grants every check, and no call
raises. -/
structure Undisturbed : Prop where
  raised : .raised ∉ run.events
  verified : ∀ reading, .emitted reading ∈ run.events →
    run.gateway.verifySignature reading = .ok true
  granted : ∀ a ∈ run.actions, a.input.granted = true

variable {run}

/-- Every step of an undisturbed run is smooth. -/
theorem Undisturbed.smooth (h : run.Undisturbed)
    {before rest : List (Threads.Action (Thread n) Input)} {a : Threads.Action (Thread n) Input}
    (hsplit : run.actions = before ++ a :: rest) {s : Threads.System (Thread n) Task Shared}
    (hs : after run.gateway run.start before = s) :
    Smooth run.gateway (s.own a.thread) (Threads.observe (move run.gateway) s a) := by
  subst hs
  have hheld : Held (shown run.gateway run.start before) (after run.gateway run.start before) :=
    held_after before
  have hgrants : Grants (after run.gateway run.start before) :=
    grants_after before fun a' ha' => h.granted a' (hsplit ▸ List.mem_append_left _ ha')
  have hraised := h.raised
  have hverified := h.verified
  rw [events, hsplit, shown, Threads.events_split] at hraised hverified
  constructor
  · intro hevent
    rw [hevent] at hraised
    exact hraised (List.mem_append_right _ (List.mem_cons_self ..))
  · intro reading htask
    refine hverified reading (List.mem_append_left _ (hheld.own a.thread reading ?_))
    rw [htask]
    rfl
  · intro reading decision htask
    refine hgrants.own a.thread decision ?_
    rw [htask]
    rfl

/-- Every step of an undisturbed run balances. -/
theorem Undisturbed.balanced (h : run.Undisturbed) (w : Weights) :
    Run.Always (Threads.step (move run.gateway)) (Threads.Balanced (move run.gateway) w.ofTask
      w.ofShared w.spent w.gained (w.queued + w.handling)) run.start run.actions := by
  refine Run.always_of_split fun before a rest hsplit => ?_
  intro task' g' o hmove
  have hsmooth := h.smooth hsplit rfl
  have hobserve : Threads.observe (move run.gateway) (after run.gateway run.start before) a = o := by
    unfold Threads.observe
    rw [hmove]
  rw [hobserve] at hsmooth
  exact (move_cases hmove).balance hsmooth w

/-- What was assembled is on the queue, with a thread, or done. -/
theorem Undisturbed.conserved (h : run.Undisturbed) (w : Weights) :
    Threads.potential w.ofTask w.ofShared run.final + run.events.countP w.spent =
      (w.queued + w.handling) * run.events.countP w.gained := by
  have hidle : ∑ t : Thread n, w.ofTask (run.start.own t) = 0 :=
    Finset.sum_eq_zero fun t _ => rfl
  have hnothing : Threads.potential w.ofTask w.ofShared run.start = 0 := by
    unfold Threads.potential
    rw [hidle]
    rfl
  rw [final, after, events, shown, Threads.run_balance (h.balanced w), hnothing, Nat.zero_add]

end GatewayRun

/-! ### One reading -/

/-- To follow a reading from the queue to the main loop. -/
def Weights.taking (p : SensorReading → Bool) : Weights where
  ofReading := p
  ofPayload _ := false
  queued := 1
  handling := 0
  appending := 0
  takes := true
  submits := false
  queued_eq := rfl
  handling_eq := rfl
  payload_eq _ := by rw [Nat.zero_mul, Nat.zero_mul]

/-- To follow a reading to its submission. -/
def Weights.submitting (p : SensorReading → Bool) : Weights where
  ofReading := p
  ofPayload _ := false
  queued := 1
  handling := 1
  appending := 0
  takes := false
  submits := true
  queued_eq := rfl
  handling_eq := rfl
  payload_eq _ := by rw [Nat.zero_mul, Nat.zero_mul]

/-- To follow a reading to the live readings. -/
def Weights.listing (p : Payload → Bool) : Weights where
  ofReading reading := p reading.toPayload
  ofPayload := p
  queued := 1
  handling := 1
  appending := 1
  takes := false
  submits := false
  queued_eq := rfl
  handling_eq := rfl
  payload_eq _ := rfl

/-- A key is completed as often as a reading of it is assembled, at least. -/
theorem assembles_le_count {es : List Event} {p : SensorReading → Bool} {key : Key}
    (hp : ∀ reading, p reading = true → reading.key = key) :
    es.countP (assembles p) ≤ (es.filterMap Event.completes).count key := by
  induction es with
  | nil => exact Nat.le_refl 0
  | cons e rest ih =>
    cases e with
    | taken | submitted | raised => exact ih
    | emitted reading =>
      show (Event.emitted reading :: rest).countP (assembles p) ≤
        (reading.key :: rest.filterMap Event.completes).count key
      rw [List.countP_cons, List.count_cons]
      show _ + (if p reading = true then 1 else 0) ≤ _
      split
      · rename_i hreading
        rw [hp reading hreading, beq_self_eq_true, if_pos rfl]
        omega
      · omega

/-- A kind of reading with one key is assembled once, if it is. -/
theorem Once.assembled {n : Nat} {es : List Event} {s : Threads.System (Thread n) Task Shared}
    (h : Once es s) {reading : SensorReading} (hreading : .emitted reading ∈ es)
    {p : SensorReading → Bool} (hp : ∀ reading', p reading' = true → reading'.key = reading.key)
    (hself : p reading = true) : es.countP (assembles p) = 1 := by
  have hle := (assembles_le_count hp).trans (List.nodup_iff_count_le_one.mp h.nodup reading.key)
  have hpos : 0 < es.countP (assembles p) := List.countP_pos_iff.mpr ⟨_, hreading, hself⟩
  omega

theorem spent_taking (reading : SensorReading) :
    (Weights.taking (· = reading)).spent = (· == .taken reading) := by
  funext e
  cases e with
  | taken reading' => by_cases h : reading' = reading <;> simp [Weights.spent, Weights.taking, h]
  | emitted | submitted | raised => rfl

theorem spent_submitting (reading : SensorReading) :
    (Weights.submitting (· = reading)).spent = (· == .submitted reading) := by
  funext e
  cases e with
  | submitted reading' =>
    by_cases h : reading' = reading <;> simp [Weights.spent, Weights.submitting, h]
  | emitted | taken | raised => rfl

theorem spent_listing (p : Payload → Bool) (es : List Event) :
    es.countP (Weights.listing p).spent = 0 := by
  refine List.countP_eq_zero.mpr fun e _ => ?_
  cases e <;> exact Bool.false_ne_true

/-- Heavier weights on more readings weigh every task more. -/
theorem Weights.ofTask_mono {w w' : Weights} (hqueued : w.queued ≤ w'.queued)
    (hhandling : w.handling ≤ w'.handling) (happending : w.appending ≤ w'.appending)
    (hreading : ∀ reading, w.ofReading reading = true → w'.ofReading reading = true) (task : Task) :
    w.ofTask task ≤ w'.ofTask task := by
  have hunit (reading : SensorReading) : w.unit reading ≤ w'.unit reading := by
    unfold Weights.unit
    cases hp : w.ofReading reading with
    | false => exact Nat.zero_le _
    | true => rw [hreading reading hp]
  cases task with
  | idle | polling | finished | raised => exact Nat.le_refl 0
  | putting reading => exact Nat.mul_le_mul (Nat.add_le_add hqueued hhandling) (hunit reading)
  | appending reading => exact Nat.mul_le_mul happending (hunit reading)
  | verifying reading | looking reading | checking reading | storing reading | deciding reading
  | submitting reading => exact Nat.mul_le_mul hhandling (hunit reading)

/-- A reading is submitted once and listed once, when all threads are done with their readings,
exactly if the main loop never took it from the queue; and unless it does, never more often. -/
theorem submitted_once_iff {n : Nat} (run : GatewayRun n) (h : run.Undisturbed)
    (reading : SensorReading) (hreading : .emitted reading ∈ run.events) :
    (.taken reading ∉ run.events → run.events.count (.submitted reading) ≤ 1 ∧
        run.final.shared.liveReadings.count reading.toPayload ≤ 1) ∧
      (run.Settled → (run.events.count (.submitted reading) = 1 ∧
          run.final.shared.liveReadings.count reading.toPayload = 1 ↔
        .taken reading ∉ run.events)) := by
  have honce : Once run.events run.final := once_after run.actions
  let same : SensorReading → Bool := (· = reading)
  let alike : SensorReading → Bool := fun reading' => reading'.toPayload == reading.toPayload
  have hone : run.events.countP (assembles same) = 1 := honce.assembled hreading
    (fun reading' heq => congrArg SensorReading.key (of_decide_eq_true heq)) (decide_eq_true rfl)
  have halike : run.events.countP (assembles alike) = 1 := by
    refine honce.assembled hreading (fun reading' heq => ?_) (beq_self_eq_true _)
    have hpayload := eq_of_beq heq
    exact Prod.ext (congrArg Payload.deviceId hpayload) (congrArg Payload.readingId hpayload)
  -- the reading on the queue and in the threads, counted to each of its ends
  have htaken := h.conserved (Weights.taking same)
  have htaken' := h.conserved (Weights.taking alike)
  have hsubmitted := h.conserved (Weights.submitting same)
  have hlisted := h.conserved (Weights.listing (· == reading.toPayload))
  rw [spent_taking] at htaken
  rw [spent_submitting] at hsubmitted
  rw [spent_listing] at hlisted
  change ∑ t, (Weights.taking same).ofTask (run.final.own t) +
      (1 * run.final.shared.receiver.readings.countP same + 0 * _) +
      run.events.count (.taken reading) = (1 + 0) * run.events.countP (assembles same) at htaken
  change ∑ t, (Weights.taking alike).ofTask (run.final.own t) +
      (1 * run.final.shared.receiver.readings.countP alike + 0 * _) + _ =
      (1 + 0) * run.events.countP (assembles alike) at htaken'
  change ∑ t, (Weights.submitting same).ofTask (run.final.own t) +
      (1 * run.final.shared.receiver.readings.countP same + 0 * _) +
      run.events.count (.submitted reading) = (1 + 1) * run.events.countP (assembles same) at hsubmitted
  change ∑ t, (Weights.listing (· == reading.toPayload)).ofTask (run.final.own t) +
      (1 * run.final.shared.receiver.readings.countP alike +
        1 * run.final.shared.liveReadings.count reading.toPayload) + 0 =
      (1 + 1) * run.events.countP (assembles alike) at hlisted
  rw [hone] at htaken hsubmitted
  rw [halike] at htaken' hlisted
  have hmore (reading' : SensorReading) (heq : same reading' = true) : alike reading' = true := by
    rw [of_decide_eq_true heq]
    exact beq_self_eq_true _
  have hqueue : run.final.shared.receiver.readings.countP same ≤
      run.final.shared.receiver.readings.countP alike :=
    List.countP_mono_left fun reading' _ => hmore reading'
  constructor
  · intro hnot
    have hzero := List.count_eq_zero.mpr hnot
    have hsubmitting (task : Task) :
        (Weights.taking same).ofTask task ≤ (Weights.submitting same).ofTask task := by
      refine Weights.ofTask_mono (Nat.le_refl 1) (Nat.zero_le _) (Nat.zero_le _) ?_ task
      exact fun _ hsame => hsame
    have hlisting (task : Task) : (Weights.taking same).ofTask task ≤
        (Weights.listing (· == reading.toPayload)).ofTask task :=
      Weights.ofTask_mono (Nat.le_refl 1) (Nat.zero_le _) (Nat.zero_le _) hmore task
    have hsubmittingSum := Finset.sum_le_sum fun t (_ : t ∈ Finset.univ) =>
      hsubmitting (run.final.own t)
    have hlistingSum := Finset.sum_le_sum fun t (_ : t ∈ Finset.univ) =>
      hlisting (run.final.own t)
    omega
  · intro hsettled
    have hdone (w : Weights) : ∑ t, w.ofTask (run.final.own t) = 0 :=
      Finset.sum_eq_zero fun t _ => w.ofTask_of_none (hsettled t)
    rw [hdone] at htaken htaken' hsubmitted hlisted
    rw [← List.count_eq_zero]
    omega

/-! ### A gateway with one source -/

def probeGateway : Config where
  zone := "North"
  verifySignature reading := .ok reading.signature.isNone

/-- A packet with one residue of the number 8116. -/
def probePacket (modulus residue : Int) : Packet where
  deviceId := some "probe"
  readingId := some "7"
  modulus := some (.int modulus)
  residue := some (.int residue)

def probeReading : SensorReading where
  deviceId := "probe"
  readingId := "7"
  value := 8116
  residues := [(97, 65), (101, 36)]

/-- The source's thread receives two packets and handles the reading they complete. -/
def probeSource : List (Threads.Action (Thread 1) Input) :=
  [.none, .packet (.ok (some (.packet (probePacket 97 65)))) 0 0,
    .none, .packet (.ok (some (.packet (probePacket 101 36)))) 1 1,
    .none, .none, .time 2, .answer (.ok (some (.text "GRANT"))), .time 3, .none,
    .submitted (.ok ()), .none].map fun input => ⟨.source 0, input⟩

/-- The main loop takes the reading from the queue and handles it. -/
def probeMain : List (Threads.Action (Thread 1) Input) :=
  [.none, .none, .none, .time 4, .none, .submitted (.ok ()), .none].map fun input => ⟨.main, input⟩

def probeRun (actions : List (Threads.Action (Thread 1) Input)) : GatewayRun 1 where
  gateway := probeGateway
  timeoutSeconds := 60
  ttlSeconds := 300
  positive := by decide +kernel
  actions := actions

theorem probeSource_events : (probeRun probeSource).events =
    [.emitted probeReading, .submitted probeReading] := by
  decide +kernel

theorem probeBoth_events : (probeRun (probeSource ++ probeMain)).events =
    [.emitted probeReading, .submitted probeReading, .taken probeReading,
      .submitted probeReading] := by
  decide +kernel

/-- Only the probe's reading, which is unsigned, and only granted. -/
theorem probeRun_undisturbed {actions : List (Threads.Action (Thread 1) Input)}
    (hevents : ∀ e ∈ (probeRun actions).events,
      e ∈ [.emitted probeReading, .submitted probeReading, .taken probeReading])
    (hgranted : ∀ a ∈ actions, a.input.granted = true) : (probeRun actions).Undisturbed where
  raised hraised := by
    have hmem := hevents _ hraised
    revert hmem
    decide +kernel
  verified reading hreading := by
    have hmem := hevents _ hreading
    simp only [List.mem_cons, Event.emitted.injEq, List.not_mem_nil, reduceCtorEq, or_false] at hmem
    rw [hmem]
    rfl
  granted := hgranted

/-- A reading the main loop has not come to is submitted once and listed once. -/
theorem submitted_once_probe : (probeRun probeSource).events.count (.submitted probeReading) = 1 ∧
    (probeRun probeSource).final.shared.liveReadings.count probeReading.toPayload = 1 := by
  have hundisturbed : (probeRun probeSource).Undisturbed := by
    refine probeRun_undisturbed ?_ (by decide +kernel)
    rw [probeSource_events]
    decide +kernel
  have hreading : .emitted probeReading ∈ (probeRun probeSource).events := by
    rw [probeSource_events]
    decide +kernel
  have hsettled : (probeRun probeSource).Settled := by
    unfold GatewayRun.Settled
    decide +kernel
  refine ((submitted_once_iff (probeRun probeSource) hundisturbed probeReading
    hreading).2 hsettled).mpr ?_
  rw [probeSource_events]
  decide +kernel

/-- Once the main loop has come to it too, it is submitted twice. -/
theorem submitted_twice : (probeRun (probeSource ++ probeMain)).Undisturbed ∧
    (probeRun (probeSource ++ probeMain)).Settled ∧
    .emitted probeReading ∈ (probeRun (probeSource ++ probeMain)).events ∧
    (probeRun (probeSource ++ probeMain)).events.count (.submitted probeReading) = 2 ∧
    (probeRun (probeSource ++ probeMain)).final.shared.liveReadings.count
      probeReading.toPayload = 2 := by
  refine ⟨probeRun_undisturbed ?_ (by decide +kernel), ?_, ?_, ?_, ?_⟩
  · rw [probeBoth_events]
    decide +kernel
  · unfold GatewayRun.Settled
    decide +kernel
  · rw [probeBoth_events]
    decide +kernel
  · rw [probeBoth_events]
    decide +kernel
  · decide +kernel

end FarmChain.Gateway
