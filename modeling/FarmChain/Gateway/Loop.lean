import Mathlib.Data.Fintype.Option
import FarmChain.Lib.Threads
import FarmChain.Gateway.Assembly
import FarmChain.Gateway.PolicyCache

/-! The gateway's threads.

`Gateway.run` starts one thread for each packet source and then drains the receiver's
queue itself; both hand what they get to `handle_reading`. A task is where a thread
stands, and a move takes it over one lock-protected or external operation, so that
the moves of different threads interleave where the source lets them. An exception ends
its thread. -/
namespace FarmChain.Gateway

/-- What `check_access` returns, other than Python's `None`. -/
inductive Decision where
  | bool (b : Bool)
  | text (s : String)
  /-- A mapping: `str` of its `decision` and of its `result`. -/
  | mapping (decision result : Option String)
  | other
  deriving DecidableEq, Repr

/-- `text.upper() == "GRANT"`: no other letter than these five becomes one of them. -/
def isGrantText (text : String) : Bool := text.toList.map Char.toUpper = "GRANT".toList

def decisionIsGrant : Option Decision → Bool
  | some (.bool b) => b
  | some (.text s) => isGrantText s
  | some (.mapping decision result) => isGrantText ((decision.or result).getD "")
  | _ => false

/-- What `to_payload` makes of a reading; bytes become their hexadecimal text. -/
structure Payload where
  deviceId : String
  readingId : String
  value : Nat
  zone : Option String
  timestamp : Option Rat
  signature : Option String
  certificate : Option String
  residues : List (Nat × Int)
  deriving DecidableEq, Repr

/-- A byte's two hexadecimal digits. -/
def hexByte (b : UInt8) : List Char := [Nat.digitChar (b.toNat / 16), Nat.digitChar (b.toNat % 16)]

def Signature.payload : Signature → String
  | .text s => s
  | .bytes b => String.ofList (b.flatMap hexByte)

def SensorReading.toPayload (reading : SensorReading) : Payload where
  deviceId := reading.deviceId
  readingId := reading.readingId
  value := reading.value
  zone := reading.zone
  timestamp := reading.timestamp
  signature := reading.signature.map Signature.payload
  certificate := reading.certificate
  residues := reading.residues

/-- The gateway's zone, and how it verifies a signature, which may raise. -/
structure Config where
  zone : String
  verifySignature : SensorReading → Except Failure Bool

/-- `reading.zone or self.zone`: an empty zone counts as none. -/
def Config.zoneOf (gw : Config) (reading : SensorReading) : String :=
  match reading.zone with
  | some zone => if zone = "" then gw.zone else zone
  | none => gw.zone

def Config.policyKey (gw : Config) (reading : SensorReading) : String :=
  reading.deviceId ++ ":" ++ gw.zoneOf reading ++ ":submit_reading"

/-! ### Threads -/

/-- The main thread, the signal handler that stops it, and a thread for each of `n` sources. -/
inductive Thread (n : Nat) where
  | main
  | signal
  | source (i : Fin n)
  deriving DecidableEq, Repr

def Thread.equiv (n : Nat) : Option (Option (Fin n)) ≃ Thread n where
  toFun
    | none => .main
    | some none => .signal
    | some (some i) => .source i
  invFun
    | .main => none
    | .signal => some none
    | .source i => some (some i)
  left_inv t := by rcases t with _ | _ | i <;> rfl
  right_inv t := by cases t <;> rfl

instance (n : Nat) : Fintype (Thread n) := Fintype.ofEquiv _ (Thread.equiv n)

/-- Where a thread stands. -/
inductive Task where
  /-- At the test of its loop. -/
  | idle
  /-- In `source()`, or in `next_reading`; the signal handler between its two flags. -/
  | polling
  /-- In `process_packet` with the lock released. -/
  | putting (reading : SensorReading)
  /-- In `handle_reading`, before each of its operations. -/
  | verifying (reading : SensorReading)
  | looking (reading : SensorReading)
  | checking (reading : SensorReading)
  | storing (reading : SensorReading) (decision : Option Decision)
  | deciding (reading : SensorReading) (decision : Option Decision)
  | submitting (reading : SensorReading)
  | appending (reading : SensorReading)
  /-- The loop has ended. -/
  | finished
  /-- An exception has ended the thread. -/
  | raised
  deriving DecidableEq, Repr

/-- What the threads share. -/
structure Shared where
  receiver : Receiver
  policyCache : PolicyCache Decision
  /-- `Gateway.stop_event`. -/
  stopEvent : Bool := false
  /-- The receiver's own stop flag. -/
  stop : Bool := false
  liveReadings : List Payload := []

/-- What a move reads from outside. -/
inductive Input where
  | none
  /-- What `source()` returned, with the times that `process_packet` reads. -/
  | packet (incoming : Except Failure (Option Incoming)) (now firstSeen : Rat)
  | time (now : Rat)
  /-- What `check_access` returned. -/
  | answer (decision : Except Failure (Option Decision))
  /-- How `submit_sensor_reading` ended. -/
  | submitted (result : Except Failure Unit)
  deriving Repr

inductive Event where
  /-- `process_packet` has assembled a reading. -/
  | emitted (reading : SensorReading)
  /-- `next_reading` has returned a reading to the main loop. -/
  | taken (reading : SensorReading)
  /-- `submit_sensor_reading` was called and has returned. -/
  | submitted (reading : SensorReading)
  | raised
  deriving DecidableEq, Repr

abbrev Outcome := Task × Shared × Option Event

def raise (g : Shared) : Option Outcome := some (.raised, g, some .raised)

/-- `process_packet` up to the release of the lock. -/
def receivePacket (g : Shared) (incoming : Incoming) (now firstSeen : Rat) : Option Outcome :=
  match parsePacket incoming with
  | .error _ => raise g
  | .ok p =>
    match g.receiver.collect now firstSeen p with
    | (receiver, .error _) => raise {g with receiver}
    | (receiver, .ok none) => some (.idle, {g with receiver}, none)
    | (receiver, .ok (some reading)) =>
      some (.putting reading, {g with receiver}, some (.emitted reading))

/-- A source thread outside `handle_reading`. -/
def sourceMove (task : Task) (g : Shared) (input : Input) : Option Outcome :=
  match task, input with
  | .idle, _ => some (if g.stop then .finished else .polling, g, none)
  | .polling, .packet (.error _) _ _ => raise g
  | .polling, .packet (.ok none) _ _ => some (.idle, g, none)
  | .polling, .packet (.ok (some incoming)) now firstSeen => receivePacket g incoming now firstSeen
  | .putting reading, _ =>
    some (.verifying reading, {g with receiver := g.receiver.put reading}, none)
  | _, _ => none

/-- The main thread outside `handle_reading`. -/
def mainMove (task : Task) (g : Shared) : Option Outcome :=
  match task with
  | .idle => some (if g.stopEvent then .finished else .polling, g, none)
  | .polling =>
    match nextReading g.receiver with
    | (receiver, none) => some (.idle, {g with receiver}, none)
    | (receiver, some reading) =>
      some (.verifying reading, {g with receiver}, some (.taken reading))
  | _ => none

/-- The signal handler: `Gateway.stop`, then `LoRaReceiver.stop`. -/
def signalMove (task : Task) (g : Shared) : Option Outcome :=
  match task with
  | .idle => some (.polling, {g with stopEvent := true}, none)
  | .polling => some (.finished, {g with stop := true}, none)
  | _ => none

/-- `handle_reading`, one operation at a time, in whichever thread runs it. -/
def handleMove (gw : Config) (task : Task) (g : Shared) (input : Input) : Option Outcome :=
  match task, input with
  | .verifying reading, _ =>
    match gw.verifySignature reading with
    | .error _ => raise g
    | .ok true => some (.looking reading, g, none)
    | .ok false => some (.idle, g, none)
  | .looking reading, .time now =>
    match g.policyCache.get now (gw.policyKey reading) with
    | (none, policyCache) => some (.checking reading, {g with policyCache}, none)
    | (some decision, policyCache) =>
      some (.deciding reading (some decision), {g with policyCache}, none)
  | .checking _, .answer (.error _) => raise g
  | .checking reading, .answer (.ok decision) => some (.storing reading decision, g, none)
  | .storing reading decision, .time now =>
    match g.policyCache.set now (gw.policyKey reading) decision none with
    | .error _ => raise g
    | .ok policyCache => some (.deciding reading decision, {g with policyCache}, none)
  | .deciding reading decision, _ =>
    some (if decisionIsGrant decision then .submitting reading else .idle, g, none)
  | .submitting reading, .submitted result =>
    match result with
    | .error _ => raise g
    | .ok _ => some (.appending reading, g, some (.submitted reading))
  | .appending reading, _ =>
    some (.idle, {g with liveReadings := g.liveReadings ++ [reading.toPayload]}, none)
  | _, _ => none

/-- A thread's next move. -/
def move (gw : Config) {n : Nat} (t : Thread n) (task : Task) (g : Shared) (input : Input) :
    Option Outcome :=
  match t with
  | .signal => signalMove task g
  | .main => (mainMove task g).or (handleMove gw task g input)
  | .source _ => (sourceMove task g input).or (handleMove gw task g input)

/-- The gateway as `run` starts it, all threads at their loops. -/
def started (n : Nat) (timeoutSeconds ttlSeconds : Rat) (positive : 0 < ttlSeconds) :
    Threads.System (Thread n) Task Shared where
  own _ := .idle
  shared := {receiver := .fresh timeoutSeconds, policyCache := {ttlSeconds, positive}}

/-! ### What a move does -/

/-- The reading a thread is at work on. -/
def Task.reading : Task → Option SensorReading
  | .putting reading | .verifying reading | .looking reading | .checking reading
  | .storing reading _ | .deciding reading _ | .submitting reading | .appending reading =>
    some reading
  | _ => none

/-- The moves, by what they do to readings. -/
inductive Moved (gw : Config) (g : Shared) (input : Input) : Task → Outcome → Prop
  /-- Nothing to do with a reading: a loop's test, an empty source or queue, a flag, a packet
  that completes none. -/
  | quiet (task task' : Task) (g' : Shared) (htask : task.reading = none)
    (htask' : task'.reading = none) (hreadings : g'.receiver.readings = g.receiver.readings)
    (hassembled : g.receiver.assembled ⊆ g'.receiver.assembled)
    (hcache : g'.policyCache = g.policyCache) (hlive : g'.liveReadings = g.liveReadings) :
    Moved gw g input task (task', g', none)
  | raised (task : Task) (g' : Shared) (hreadings : g'.receiver.readings = g.receiver.readings)
    (hassembled : g.receiver.assembled ⊆ g'.receiver.assembled)
    (hcache : g'.policyCache = g.policyCache) :
    Moved gw g input task (.raised, g', some .raised)
  | emitted (p : Parsed) (now firstSeen : Rat) (receiver : Receiver) (reading : SensorReading)
    (hcollect : g.receiver.collect now firstSeen p = (receiver, .ok (some reading))) :
    Moved gw g input .polling (.putting reading, {g with receiver}, some (.emitted reading))
  | put (reading : SensorReading) :
    Moved gw g input (.putting reading)
      (.verifying reading, {g with receiver := g.receiver.put reading}, none)
  | taken (reading : SensorReading) (rest : List SensorReading)
    (hreadings : g.receiver.readings = reading :: rest) :
    Moved gw g input .polling
      (.verifying reading, {g with receiver := {g.receiver with readings := rest}},
        some (.taken reading))
  | verified (reading : SensorReading) :
    Moved gw g input (.verifying reading) (.looking reading, g, none)
  | rejected (reading : SensorReading) (hverify : gw.verifySignature reading = .ok false) :
    Moved gw g input (.verifying reading) (.idle, g, none)
  | missed (reading : SensorReading) (now : Rat) :
    Moved gw g input (.looking reading)
      (.checking reading,
        {g with policyCache := (g.policyCache.get now (gw.policyKey reading)).2}, none)
  | hit (reading : SensorReading) (now : Rat) (decision : Decision)
    (hget : (g.policyCache.get now (gw.policyKey reading)).1 = some decision) :
    Moved gw g input (.looking reading)
      (.deciding reading (some decision),
        {g with policyCache := (g.policyCache.get now (gw.policyKey reading)).2}, none)
  | answered (reading : SensorReading) (decision : Option Decision)
    (hinput : input = .answer (.ok decision)) :
    Moved gw g input (.checking reading) (.storing reading decision, g, none)
  | stored (reading : SensorReading) (decision : Option Decision) (now : Rat)
    (policyCache : PolicyCache Decision)
    (hset : g.policyCache.set now (gw.policyKey reading) decision none = .ok policyCache) :
    Moved gw g input (.storing reading decision)
      (.deciding reading decision, {g with policyCache}, none)
  | granted (reading : SensorReading) (decision : Option Decision) :
    Moved gw g input (.deciding reading decision) (.submitting reading, g, none)
  | denied (reading : SensorReading) (decision : Option Decision)
    (hdenied : decisionIsGrant decision = false) :
    Moved gw g input (.deciding reading decision) (.idle, g, none)
  | submitted (reading : SensorReading) :
    Moved gw g input (.submitting reading) (.appending reading, g, some (.submitted reading))
  | appended (reading : SensorReading) :
    Moved gw g input (.appending reading)
      (.idle, {g with liveReadings := g.liveReadings ++ [reading.toPayload]}, none)

section
variable {gw : Config} {n : Nat} {t : Thread n} {task : Task} {g : Shared} {input : Input}
  {outcome : Outcome}

theorem moved_raise (h : raise g = some outcome) : Moved gw g input task outcome := by
  cases h
  exact .raised task g rfl (Finset.Subset.refl _) rfl

theorem receivePacket_cases {incoming : Incoming} {now firstSeen : Rat}
    (h : receivePacket g incoming now firstSeen = some outcome) :
    Moved gw g input .polling outcome := by
  unfold receivePacket at h
  split at h
  · exact moved_raise h
  · rename_i p _
    obtain ⟨hassembled, hreadings, _⟩ := collect_frame now firstSeen p g.receiver
    split at h
    · rename_i receiver _ hcollect
      rw [hcollect] at hassembled hreadings
      cases h
      exact .raised .polling _ hreadings hassembled rfl
    · rename_i receiver hcollect
      rw [hcollect] at hassembled hreadings
      cases h
      exact .quiet _ _ _ rfl rfl hreadings hassembled rfl rfl
    · rename_i receiver reading hcollect
      cases h
      exact .emitted p now firstSeen receiver reading hcollect

theorem sourceMove_cases (h : sourceMove task g input = some outcome) :
    Moved gw g input task outcome := by
  unfold sourceMove at h
  split at h
  · cases h
    refine .quiet _ _ _ rfl ?_ rfl (Finset.Subset.refl _) rfl rfl
    split <;> rfl
  · exact moved_raise h
  · cases h
    exact .quiet _ _ _ rfl rfl rfl (Finset.Subset.refl _) rfl rfl
  · exact receivePacket_cases h
  · rename_i reading
    cases h
    exact .put reading
  · cases h

theorem mainMove_cases (h : mainMove task g = some outcome) : Moved gw g input task outcome := by
  unfold mainMove at h
  split at h
  · cases h
    refine .quiet _ _ _ rfl ?_ rfl (Finset.Subset.refl _) rfl rfl
    split <;> rfl
  · unfold nextReading at h
    cases hreadings : g.receiver.readings with
    | nil =>
      rw [hreadings] at h
      cases h
      exact .quiet _ _ _ rfl rfl rfl (Finset.Subset.refl _) rfl rfl
    | cons reading rest =>
      rw [hreadings] at h
      cases h
      exact .taken reading rest hreadings
  · cases h

theorem signalMove_cases (h : signalMove task g = some outcome) :
    Moved gw g input task outcome := by
  unfold signalMove at h
  split at h
  · cases h
    exact .quiet _ _ _ rfl rfl rfl (Finset.Subset.refl _) rfl rfl
  · cases h
    exact .quiet _ _ _ rfl rfl rfl (Finset.Subset.refl _) rfl rfl
  · cases h

theorem handleMove_cases (h : handleMove gw task g input = some outcome) :
    Moved gw g input task outcome := by
  unfold handleMove at h
  split at h
  · rename_i reading
    split at h
    · exact moved_raise h
    · cases h
      exact .verified reading
    · rename_i hverify
      cases h
      exact .rejected reading hverify
  · rename_i reading now
    split at h
    · rename_i policyCache hget
      cases h
      have hcache : (g.policyCache.get now (gw.policyKey reading)).2 = policyCache :=
        congrArg Prod.snd hget
      rw [← hcache]
      exact .missed reading now
    · rename_i decision policyCache hget
      cases h
      have hcache : (g.policyCache.get now (gw.policyKey reading)).2 = policyCache :=
        congrArg Prod.snd hget
      rw [← hcache]
      exact .hit reading now decision (congrArg Prod.fst hget)
  · exact moved_raise h
  · rename_i reading decision
    cases h
    exact .answered reading decision rfl
  · rename_i reading decision now
    split at h
    · exact moved_raise h
    · rename_i policyCache hset
      cases h
      exact .stored reading decision now policyCache hset
  · rename_i reading decision
    cases h
    split
    · exact .granted reading decision
    · rename_i hdenied
      exact .denied reading decision (Bool.eq_false_iff.mpr hdenied)
  · rename_i reading result
    split at h
    · exact moved_raise h
    · cases h
      exact .submitted reading
  · rename_i reading
    cases h
    exact .appended reading
  · cases h

/-- A thread's move is one of these. -/
theorem move_cases (h : move gw t task g input = some outcome) : Moved gw g input task outcome := by
  unfold move at h
  split at h
  · exact signalMove_cases h
  · rcases Option.or_eq_some_iff.mp h with hmain | ⟨_, hhandle⟩
    · exact mainMove_cases hmain
    · exact handleMove_cases hhandle
  · rcases Option.or_eq_some_iff.mp h with hsource | ⟨_, hhandle⟩
    · exact sourceMove_cases hsource
    · exact handleMove_cases hhandle

end

end FarmChain.Gateway
