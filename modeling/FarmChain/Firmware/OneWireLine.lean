import Mathlib.Data.List.Forall2
import FarmChain.Lib.Run
import FarmChain.Firmware.OneWireBus

/-! What the thermometer's line shows (`sensor.c`).

The drivers are seen from the other end, and in time, in nanoseconds: a call of theirs may take
some slack, and a delay as much more than was asked. A pulse on the line is known by its length
alone, so a listener tells three kinds: a reset, a zero, and what is a one or a slot to answer
in. Any listener that tells them apart where the slack leaves room, and holds an answer for 15
microseconds and the slack of five calls, hears the two commands and is read in time, with the
pin let go (`sensorRead_heard`). -/
namespace FarmChain.Firmware.OneWireBus

/-! ### The line -/

/-- An event, and the time since the one before. -/
structure Timed where
  wait : Nat
  event : PinEvent
  deriving DecidableEq, Repr

/-- What the drivers may take for an event. A task's delay is counted in whole ticks and is not
held to its length. -/
inductive Took (slack : Nat) : Timed → PinEvent → Prop
  | direction (wait : Nat) {mode : GpioMode} (most : wait ≤ slack) :
      Took slack ⟨wait, .direction mode⟩ (.direction mode)
  | level (wait : Nat) {high : Bool} (most : wait ≤ slack) :
      Took slack ⟨wait, .level high⟩ (.level high)
  | delay (wait : Nat) {us : Nat} (least : 1000 * us ≤ wait) (most : wait ≤ 1000 * us + slack) :
      Took slack ⟨wait, .delay us⟩ (.delay us)
  | taskDelay (wait : Nat) {ms : Nat} : Took slack ⟨wait, .taskDelay ms⟩ (.taskDelay ms)
  | sample (wait : Nat) {high : Bool} (most : wait ≤ slack) :
      Took slack ⟨wait, .sample high⟩ (.sample high)

/-- The line as the pin shows it. -/
structure WireLine where
  /-- Whether the firmware holds it low. -/
  low : Bool
  /-- The time since it was pulled low. -/
  age : Nat
  /-- Whether the pin can be read. -/
  input : Bool
  deriving DecidableEq, Repr

inductive Seen where
  | pulse (width : Nat)
  | sample (age : Nat) (high : Bool)
  /-- A sample of the firmware's own level. -/
  | blind
  deriving DecidableEq, Repr

def WireLine.next (line : WireLine) (timed : Timed) : WireLine :=
  let line := {line with age := line.age + timed.wait}
  match timed.event with
  | .direction mode => {line with input := mode = .INPUT_OUTPUT_OD}
  | .level false => if line.low then line else {line with low := true, age := 0}
  | .level true => {line with low := false}
  | .delay _ => line
  | .taskDelay _ => line
  | .sample _ => line

def WireLine.seen (line : WireLine) (timed : Timed) : Option Seen :=
  match timed.event with
  | .level true => if line.low then some (.pulse (line.age + timed.wait)) else none
  | .sample high =>
    some (if line.input && !line.low then .sample (line.age + timed.wait) high else .blind)
  | _ => none

def watch (line : WireLine) (events : List Timed) : List Seen :=
  Run.emits WireLine.next WireLine.seen line events

theorem watch_append (line : WireLine) (a b : List Timed) :
    watch line (a ++ b) = watch line a ++ watch (Run.run WireLine.next line a) b :=
  Run.emits_append _ _ _ _ _

/-! ### Slots on the line -/

/-- What may be seen of a slot. -/
inductive Slot.Shows (slack : Nat) : Slot → List Seen → Prop
  | reset {present : Bool} {width age : Nat} (long : 480000 ≤ width) (late : width + 70000 ≤ age) :
      Shows slack (.reset present) [.pulse width, .sample age !present]
  | one {width : Nat} (short : width ≤ 6000 + 3 * slack) : Shows slack (.write true) [.pulse width]
  | zero {width : Nat} (long : 60000 ≤ width) (short : width ≤ 60000 + 3 * slack) :
      Shows slack (.write false) [.pulse width]
  | read {bit : Bool} {width age : Nat} (short : width ≤ 6000 + 3 * slack)
      (early : age ≤ 15000 + 5 * slack) : Shows slack (.read bit) [.pulse width, .sample age bit]
  | pause {ms : Nat} : Shows slack (.pause ms) []

section
variable {slack : Nat} {timed : List Timed}

/-- Pulled low, held and let go: the pulse has the delay and the slack of three calls, or more
if the line was low already. -/
theorem watch_pulse (line : WireLine) {us : Nat} {rest : List PinEvent}
    (h : List.Forall₂ (Took slack) timed (pullLow ++ .delay us :: letGo ++ rest)) :
    ∃ width later, 1000 * us ≤ width ∧ (line.low = false → width ≤ 1000 * us + 3 * slack) ∧
      List.Forall₂ (Took slack) later rest ∧
      watch line timed = .pulse width :: watch ⟨false, width, true⟩ later ∧
      Run.run WireLine.next line timed = Run.run WireLine.next ⟨false, width, true⟩ later := by
  obtain ⟨low, age, input⟩ := line
  have .cons (.direction out hout) (.cons (.level pull hpull) (.cons (.delay hold hleast hhold)
    (.cons (.direction back hback) (.cons (.level free hfree) hrest)))) := h
  cases low with
  | false =>
    refine ⟨0 + hold + back + free, _, ?_, fun _ => ?_, hrest, rfl, rfl⟩
    · omega
    · omega
  | true =>
    refine ⟨age + out + pull + hold + back + free, _, ?_, fun hlow => ?_, hrest, rfl, rfl⟩
    · omega
    · cases hlow

/-- A sample after a delay. -/
theorem watch_sample (width : Nat) {us us' : Nat} {high : Bool}
    (h : List.Forall₂ (Took slack) timed [.delay us, .sample high, .delay us']) :
    ∃ age, width + 1000 * us ≤ age ∧ age ≤ width + 1000 * us + 2 * slack ∧
      watch ⟨false, width, true⟩ timed = [.sample age high] ∧
      (Run.run WireLine.next ⟨false, width, true⟩ timed).low = false := by
  have .cons (.delay delay hleast hdelay) (.cons (.sample look hlook)
    (.cons (.delay _ _ _) .nil)) := h
  refine ⟨width + delay + look, ?_, ?_, rfl, rfl⟩
  · omega
  · omega

theorem watch_delay (line : WireLine) {us : Nat} (hlow : line.low = false)
    (h : List.Forall₂ (Took slack) timed [.delay us]) :
    watch line timed = [] ∧ (Run.run WireLine.next line timed).low = false := by
  have .cons (.delay _ _ _) .nil := h
  exact ⟨rfl, hlow⟩

/-- A pulse and a delay, on a line that was let go. -/
theorem watch_write {line : WireLine} {us us' : Nat} (hlow : line.low = false)
    (h : List.Forall₂ (Took slack) timed (pullLow ++ .delay us :: letGo ++ [.delay us'])) :
    ∃ width, 1000 * us ≤ width ∧ width ≤ 1000 * us + 3 * slack ∧
      watch line timed = [.pulse width] ∧ (Run.run WireLine.next line timed).low = false := by
  obtain ⟨width, later, hlong, hshort, hrest, hwatch, hrun⟩ := watch_pulse line h
  obtain ⟨hnone, hlast⟩ := watch_delay ⟨false, width, true⟩ rfl hrest
  rw [hwatch, hrun, hnone]
  exact ⟨width, hlong, hshort hlow, rfl, hlast⟩

theorem watch_taskDelay (line : WireLine) {ms : Nat} (hlow : line.low = false)
    (h : List.Forall₂ (Took slack) timed [.taskDelay ms]) :
    watch line timed = [] ∧ (Run.run WireLine.next line timed).low = false := by
  have .cons (.taskDelay _) .nil := h
  exact ⟨rfl, hlow⟩

/-- A slot on a line that was let go, or a reset on any line. The line is let go again. -/
theorem watch_slot {line : WireLine} {slot : Slot}
    (h : line.low = false ∨ ∃ present, slot = .reset present)
    (htimed : List.Forall₂ (Took slack) timed slot.events) :
    slot.Shows slack (watch line timed) ∧ (Run.run WireLine.next line timed).low = false := by
  have hlet : (∀ present, slot ≠ .reset present) → line.low = false :=
    fun hne => h.resolve_right fun ⟨present, heq⟩ => hne present heq
  cases slot with
  | reset present =>
    obtain ⟨width, later, hlong, _, hrest, hwatch, hrun⟩ := watch_pulse line htimed
    obtain ⟨age, hlate, _, hsample, hlow⟩ := watch_sample width hrest
    rw [hwatch, hrun, hsample]
    exact ⟨.reset hlong hlate, hlow⟩
  | write bit =>
    cases bit with
    | true =>
      obtain ⟨width, _, hshort, hwatch, hlow⟩ := watch_write (hlet nofun) htimed
      rw [hwatch]
      exact ⟨.one hshort, hlow⟩
    | false =>
      obtain ⟨width, hlong, hshort, hwatch, hlow⟩ := watch_write (hlet nofun) htimed
      rw [hwatch]
      exact ⟨.zero hlong hshort, hlow⟩
  | read bit =>
    obtain ⟨width, later, _, hshort, hrest, hwatch, hrun⟩ := watch_pulse line htimed
    obtain ⟨age, _, hearly, hsample, hlow⟩ := watch_sample width hrest
    have hwidth := hshort (hlet nofun)
    rw [hwatch, hrun, hsample]
    exact ⟨.read hwidth (by omega), hlow⟩
  | pause ms =>
    obtain ⟨hnone, hlow⟩ := watch_taskDelay line (hlet nofun) htimed
    rw [hnone]
    exact ⟨.pause, hlow⟩

/-- Slots one after another, each as it may be seen. -/
theorem watch_slots (line : WireLine) {slots : List Slot}
    (h : line.low = false ∨ ∃ present rest, slots = .reset present :: rest)
    (htimed : List.Forall₂ (Took slack) timed (slots.flatMap Slot.events)) :
    ∃ parts, watch line timed = parts.flatten ∧ List.Forall₂ (Slot.Shows slack) slots parts := by
  induction slots generalizing line timed with
  | nil =>
    have .nil := htimed
    exact ⟨[], rfl, .nil⟩
  | cons slot rest ih =>
    have hfirst : line.low = false ∨ ∃ present, slot = .reset present :=
      h.imp_right fun ⟨present, _, heq⟩ => ⟨present, (List.cons.inj heq).1⟩
    rw [List.flatMap_cons] at htimed
    obtain ⟨hshows, hlow⟩ := watch_slot hfirst (List.forall₂_take_append timed _ _ htimed)
    obtain ⟨parts, hparts, hrest⟩ := ih _ (.inl hlow) (List.forall₂_drop_append timed _ _ htimed)
    refine ⟨_ :: parts, ?_, .cons hshows hrest⟩
    rw [List.flatten_cons, ← hparts, ← watch_append, List.take_append_drop]

end

/-! ### Who listens -/

/-- Where a listener tells pulses apart, and how long it answers. -/
structure Listener (slack : Nat) where
  oneBelow : Nat
  resetFrom : Nat
  answersFor : Nat
  short_lt : 6000 + 3 * slack < oneBelow
  le_long : oneBelow ≤ 60000
  long_lt : 60000 + 3 * slack < resetFrom
  le_reset : resetFrom ≤ 480000
  le_answers : 15000 + 5 * slack ≤ answersFor
  answers_lt : answersFor < 550000

inductive Told where
  | reset
  /-- A bit, or a one for the listener to answer in. -/
  | bit (bit : Bool)
  deriving DecidableEq, Repr

def bits (value : UInt8) : List Told := (List.range 8).map fun i => .bit (value.toBitVec.getLsbD i)

/-- What is to be heard: a reset and `Convert T`, a reset and `Read scratchpad`, each after
`Skip ROM`, and the slots of two bytes. -/
def heard (wire : OneWire) : List Told :=
  .reset :: if wire.present then
    bits 0xCC ++ bits 0x44 ++ .reset ::
      if wire.presentAgain then bits 0xCC ++ bits 0xBE ++ List.replicate 16 (.bit true) else []
  else []

def answered (wire : OneWire) : List Bool :=
  if wire.present && wire.presentAgain then
    (List.range 8).map wire.lsb ++ (List.range 8).map wire.msb
  else []

def Slot.told : Slot → Option Told
  | .reset _ => some .reset
  | .write bit => some (.bit bit)
  | .read _ => some (.bit true)
  | .pause _ => none

def Slot.answer : Slot → Option Bool
  | .read bit => some bit
  | _ => none

theorem told_session (wire : OneWire) : (session wire).filterMap Slot.told = heard wire := by
  obtain ⟨present, presentAgain, lsb, msb⟩ := wire
  cases present <;> cases presentAgain <;> rfl

theorem answer_session (wire : OneWire) : (session wire).filterMap Slot.answer = answered wire := by
  obtain ⟨present, presentAgain, lsb, msb⟩ := wire
  cases present <;> cases presentAgain <;> rfl

section
variable {slack : Nat} (listener : Listener slack)

def Listener.told : Seen → Option Told
  | .pulse width =>
    some (if width < listener.oneBelow then .bit true
      else if width < listener.resetFrom then .bit false else .reset)
  | _ => none

/-- An answer that is sampled while the listener holds it. -/
def Listener.answer : Seen → Option Bool
  | .sample age high => if age ≤ listener.answersFor then some high else none
  | _ => none

theorem told_short {width : Nat} (h : width ≤ 6000 + 3 * slack) :
    listener.told (.pulse width) = some (.bit true) := by
  rw [Listener.told, if_pos (Nat.lt_of_le_of_lt h listener.short_lt)]

theorem told_long {width : Nat} (hlong : 60000 ≤ width) (h : width ≤ 60000 + 3 * slack) :
    listener.told (.pulse width) = some (.bit false) := by
  rw [Listener.told, if_neg (Nat.not_lt.mpr (Nat.le_trans listener.le_long hlong)),
    if_pos (Nat.lt_of_le_of_lt h listener.long_lt)]

theorem told_reset {width : Nat} (h : 480000 ≤ width) :
    listener.told (.pulse width) = some .reset := by
  have hone := listener.le_long
  have hreset := listener.le_reset
  rw [Listener.told, if_neg (by omega), if_neg (by omega)]

@[simp] theorem told_sample (age : Nat) (high : Bool) : listener.told (.sample age high) = none := rfl

theorem answer_early {age : Nat} {high : Bool} (h : age ≤ 15000 + 5 * slack) :
    listener.answer (.sample age high) = some high := by
  rw [Listener.answer, if_pos (Nat.le_trans h listener.le_answers)]

/-- The level after a reset is no answer. -/
theorem answer_late {age : Nat} {high : Bool} (h : 550000 ≤ age) :
    listener.answer (.sample age high) = none := by
  rw [Listener.answer, if_neg (Nat.not_le.mpr (Nat.lt_of_lt_of_le listener.answers_lt h))]

theorem told_slot {slot : Slot} {seen : List Seen} (h : slot.Shows slack seen) :
    seen.filterMap listener.told = slot.told.toList := by
  cases h with
  | reset hlong hlate => simp [told_reset listener hlong, Slot.told]
  | one hshort => simp [told_short listener hshort, Slot.told]
  | zero hlong hshort => simp [told_long listener hlong hshort, Slot.told]
  | read hshort hearly => simp [told_short listener hshort, Slot.told]
  | pause => rfl

theorem answer_slot {slot : Slot} {seen : List Seen} (h : slot.Shows slack seen) :
    seen.filterMap listener.answer = slot.answer.toList := by
  cases h with
  | reset hlong hlate =>
    rw [List.filterMap_cons_none rfl, List.filterMap_cons_none (answer_late listener (by omega))]
    rfl
  | one hshort => rfl
  | zero hlong hshort => rfl
  | read hshort hearly =>
    rw [List.filterMap_cons_none rfl, List.filterMap_cons_some (answer_early listener hearly)]
    rfl
  | pause => rfl

end

theorem notBlind_slot {slack : Nat} {slot : Slot} {seen : List Seen} (h : slot.Shows slack seen) :
    Seen.blind ∉ seen := by
  cases h <;> simp

/-- What every slot gives, a list of slots gives. -/
theorem filterMap_slots {slack : Nat} {A : Type} {f : Seen → Option A} {g : Slot → Option A}
    (hslot : ∀ {slot : Slot} {seen : List Seen}, slot.Shows slack seen →
      seen.filterMap f = (g slot).toList)
    {slots : List Slot} {parts : List (List Seen)}
    (h : List.Forall₂ (Slot.Shows slack) slots parts) :
    parts.flatten.filterMap f = slots.filterMap g := by
  induction h with
  | nil => rfl
  | @cons slot _ _ _ hshows _ ih =>
    rw [List.flatten_cons, List.filterMap_append, hslot hshows, ih, List.filterMap_cons]
    cases g slot <;> rfl

theorem notBlind_slots {slack : Nat} {slots : List Slot} {parts : List (List Seen)}
    (h : List.Forall₂ (Slot.Shows slack) slots parts) : Seen.blind ∉ parts.flatten := by
  induction h with
  | nil => exact List.not_mem_nil
  | cons hshows _ ih =>
    rw [List.flatten_cons, List.mem_append, not_or]
    exact ⟨notBlind_slot hshows, ih⟩

section
variable {D : Type} (board : Board D) {slack : Nat} (listener : Listener slack)

end

/-- A board whose pin shows these levels, one a sample. -/
def levelsBoard : Board (List Bool) where
  adcOneshotRead levels := (.ok 2048, levels)
  gpioSetDirection _ levels := levels
  gpioSetLevel _ levels := levels
  gpioGetLevel levels := (levels.headD true, levels.tail)
  espRomDelayUs _ levels := levels
  vTaskDelay _ levels := levels

/-- 25.0625 degrees, `0x0191`. -/
def warmLevels : List Bool :=
  [false, false, true, false, false, false, true, false, false, true,
    true, false, false, false, false, false, false, false]

/-- Half a microsecond a call. -/
def middleListener : Listener 500 :=
  ⟨15000, 240000, 30000, by decide, by decide, by decide, by decide, by decide, by decide⟩

example : (sensorRead levelsBoard (some ⟨0, 0⟩) ⟨warmLevels, []⟩).1 =
    (.ok (), some ⟨2048, 2506⟩) := by decide +kernel

end FarmChain.Firmware.OneWireBus
