import Mathlib.Algebra.Order.Ring.Rat
import Mathlib.Tactic.Linarith
import FarmChain.Lib.Dict
import FarmChain.Lib.Rounding
import FarmChain.Lib.SlidingWindow
import FarmChain.Gateway.TimedCache

/-! The enrollment server's rate limiter.

Every caller has a deque of the times its calls were let through; a call drops the times
that are an hour old from the front and is let through while fewer than ten are left. Times
are floats, held here as the numbers they stand for, and what is compared with the hour is
their difference rounded to 53 bits. It reaches the hour from 2^-42 s below it
(`window_le_floatSub`), so a caller's deque is a limiter of `Lib/SlidingWindow` on that
caller's own calls, with that much less of a window (`attempts_run`); once the clock is past
second 2048 floats are too far apart for it to matter (`rateLimited_exact`). Calls are atomic. -/
namespace FarmChain.Gateway

open Rounding

def ENROLL_LIMIT : Nat := 10
def ENROLL_WINDOW_SECONDS : Rat := 3600

/-- `enroll_attempts`, whose missing entries are empty. -/
abbrev EnrollAttempts := Dict String (List Rat)

def EnrollAttempts.of (enrollAttempts : EnrollAttempts) (identity : String) : List Rat :=
  (enrollAttempts.get identity).getD []

/-- The difference of two floats. -/
def floatSub (a b : Rat) : Rat := nearest 53 (a - b)

/-- Whether the call is limited, and the attempts afterwards. -/
def rateLimited (now : Rat) (identity : String) (enrollAttempts : EnrollAttempts) :
    Bool × EnrollAttempts :=
  let attempts := (enrollAttempts.of identity).dropWhile fun a =>
    ENROLL_WINDOW_SECONDS ≤ floatSub now a
  if ENROLL_LIMIT ≤ attempts.length then (true, enrollAttempts.set identity attempts)
  else (false, enrollAttempts.set identity (attempts ++ [now]))

/-- One call: an identity and a time of the clock. -/
def enrollStep (enrollAttempts : EnrollAttempts) (call : String × Rat) : EnrollAttempts :=
  (rateLimited call.2 call.1 enrollAttempts).2

/-- The time of a call of the identity that is let through. -/
def unlimitedAt (identity : String) (enrollAttempts : EnrollAttempts) (call : String × Rat) :
    Option Rat :=
  if call.1 = identity ∧ (rateLimited call.2 call.1 enrollAttempts).1 = false then some call.2
  else none

/-- The times of an identity's calls that returned `False`, in a run from no attempts. -/
def unlimited (identity : String) (calls : List (String × Rat)) : List Rat :=
  Run.emits enrollStep (unlimitedAt identity) ∅ calls

/-- The times of an identity's calls. -/
def callsOf (identity : String) (calls : List (String × Rat)) : List Rat :=
  (calls.filter fun call => call.1 = identity).map Prod.snd

/-! ### Floats -/

/-- The least difference that is rounded to the window. -/
def enrollWindow : Rat := ENROLL_WINDOW_SECONDS - 1 / 2 ^ 42

/-- A float, from second 2048 on. -/
structure LateReading (t : Rat) : Prop where
  float : nearest 53 t = t
  late : 2048 ≤ t

instance (t : Rat) : Decidable (LateReading t) :=
  decidable_of_iff (nearest 53 t = t ∧ 2048 ≤ t) ⟨fun h => ⟨h.1, h.2⟩, fun h => ⟨h.float, h.late⟩⟩

/-- The window in its own last bits. -/
theorem window_eq : ENROLL_WINDOW_SECONDS = ((3600 * 2 ^ 41 : Int) : Rat) * 2 ^ (-41 : Int) ∧
    enrollWindow = (((3600 * 2 ^ 41 : Int) : Rat) - 1 / 2) * 2 ^ (-41 : Int) := by
  decide +kernel

theorem window_le_floatSub (now a : Rat) :
    ENROLL_WINDOW_SECONDS ≤ floatSub now a ↔ enrollWindow ≤ now - a := by
  rw [window_eq.1, window_eq.2]
  exact le_nearest_iff (by decide) (by decide) (by decide)

/-- Late readings are a whole number of 2^-41 s apart, so none are the window but for 2^-42 s. -/
theorem LateReading.window_iff {a now : Rat} (ha : LateReading a) (hnow : LateReading now) :
    enrollWindow ≤ now - a ↔ ENROLL_WINDOW_SECONDS ≤ now - a := by
  have hpos : (0 : Rat) < 2 ^ (-41 : Int) := by decide +kernel
  have hexp : (2 : Rat) ^ (-41 + 52 : Int) = 2048 := by decide +kernel
  obtain ⟨m, hm⟩ := exists_multiple (p := 52) (e := -41) ha.float (hexp ▸ ha.late)
  obtain ⟨n, hn⟩ := exists_multiple (p := 52) (e := -41) hnow.float (hexp ▸ hnow.late)
  rw [window_eq.1, window_eq.2, hm, hn, ← sub_mul, mul_le_mul_iff_left₀ hpos,
    mul_le_mul_iff_left₀ hpos, ← Int.cast_sub, Int.cast_le]
  exact sub_half_le_intCast

/-! ### One caller's deque -/

section
open SlidingWindow

theorem rateLimited_eq (now : Rat) (identity : String) (enrollAttempts : EnrollAttempts) :
    (rateLimited now identity enrollAttempts).1 =
      !admits ENROLL_LIMIT enrollWindow (enrollAttempts.of identity) now := by
  unfold rateLimited admits live
  simp only [window_le_floatSub]
  split
  · rename_i hfull
    simp [not_lt.mpr hfull]
  · rename_i hroom
    simp [not_le.mp hroom]

/-- A call steps its caller's deque and no other. -/
theorem attempts_step (enrollAttempts : EnrollAttempts) (call : String × Rat) (identity : String) :
    (enrollStep enrollAttempts call).of identity =
      if identity = call.1 then
        step ENROLL_LIMIT enrollWindow (enrollAttempts.of identity) call.2
      else enrollAttempts.of identity := by
  by_cases hsame : identity = call.1
  · rw [if_pos hsame, hsame]
    unfold enrollStep rateLimited step admits live EnrollAttempts.of
    simp only [window_le_floatSub]
    split
    · rename_i hfull
      rw [Dict.get_set, if_pos rfl, if_neg (by simpa using hfull)]
      rfl
    · rename_i hroom
      rw [Dict.get_set, if_pos rfl, if_pos (by simpa using hroom)]
      rfl
  · rw [if_neg hsame]
    unfold enrollStep rateLimited EnrollAttempts.of
    dsimp only
    split <;> rw [Dict.get_set, if_neg hsame]

theorem callsOf_snoc (identity : String) (calls : List (String × Rat)) (call : String × Rat) :
    callsOf identity (calls ++ [call]) =
      callsOf identity calls ++ if call.1 = identity then [call.2] else [] := by
  rw [callsOf, List.filter_append, List.map_append]
  by_cases hsame : call.1 = identity
  · rw [if_pos hsame, List.filter_cons_of_pos (by simpa using hsame)]
    rfl
  · rw [if_neg hsame, List.filter_cons_of_neg (by simpa using hsame)]
    rfl

/-- A caller's deque is a limiter on the caller's own calls. -/
theorem attempts_run (identity : String) (calls : List (String × Rat)) :
    (Run.run enrollStep ∅ calls).of identity =
      Run.run (step ENROLL_LIMIT enrollWindow) [] (callsOf identity calls) := by
  induction calls using List.reverseRecOn with
  | nil => rfl
  | append_singleton calls call ih =>
    rw [Run.run_snoc, attempts_step, callsOf_snoc]
    by_cases hsame : call.1 = identity
    · rw [if_pos hsame.symm, if_pos hsame, Run.run_snoc, ih]
    · rw [if_neg (Ne.symm hsame), if_neg hsame, List.append_nil, ih]

/-- Its admissions are the calls that returned `False`. -/
theorem unlimited_eq (identity : String) (calls : List (String × Rat)) :
    unlimited identity calls =
      admitted ENROLL_LIMIT enrollWindow (callsOf identity calls) := by
  induction calls using List.reverseRecOn with
  | nil => rfl
  | append_singleton calls call ih =>
    rw [unlimited, Run.emits_snoc, ← unlimited, ih, callsOf_snoc]
    by_cases hsame : call.1 = identity
    · rw [if_pos hsame, admitted_snoc, ← attempts_run]
      simp [unlimitedAt, admission, rateLimited_eq, hsame]
    · rw [if_neg hsame, List.append_nil, unlimitedAt, if_neg (fun h => hsame h.1)]
      exact List.append_nil _

end

/-! ### The window -/

section
variable {identity : String} {calls : List (String × Rat)} {now : Rat}

/-- Each caller's own clock does not go back either. -/
theorem callsOf_sorted (h : Nondecreasing (calls.map Prod.snd ++ [now])) :
    Nondecreasing (callsOf identity calls ++ [now]) :=
  h.sublist ((List.filter_sublist.map Prod.snd).append_right [now])

/-- What is let through within less than the window is no more than the limit. -/
theorem unlimited_le (h : Nondecreasing (calls.map Prod.snd)) (identity : String) (p : Rat → Bool)
    (hp : ∀ a ∈ unlimited identity calls, ∀ b ∈ unlimited identity calls, p a = true →
      p b = true → b - a < enrollWindow) :
    ((unlimited identity calls).filter p).length ≤ ENROLL_LIMIT := by
  have hsorted : Nondecreasing (callsOf identity calls) :=
    h.sublist (List.filter_sublist.map Prod.snd)
  rw [unlimited_eq] at hp ⊢
  refine SlidingWindow.admitted_le hsorted List.filter_sublist
    (List.pairwise_of_forall_mem_list fun a ha b hb => ?_)
  obtain ⟨ha, hpa⟩ := List.mem_filter.mp ha
  obtain ⟨hb, hpb⟩ := List.mem_filter.mp hb
  exact hp a ha b hb hpa hpb

/-- The calls let through within the last window decide. -/
theorem rateLimited_iff (h : Nondecreasing (calls.map Prod.snd ++ [now])) (identity : String) :
    (rateLimited now identity (Run.run enrollStep ∅ calls)).1 = true ↔
      ENROLL_LIMIT ≤ ((unlimited identity calls).filter
        fun a => now - a < enrollWindow).length := by
  rw [rateLimited_eq, attempts_run, SlidingWindow.admits_run (callsOf_sorted h), unlimited_eq]
  simp

/-- What was let through was called for. -/
theorem unlimited_subset {a : Rat} (ha : a ∈ unlimited identity calls) : a ∈ calls.map Prod.snd := by
  rw [unlimited_eq] at ha
  exact (List.filter_sublist.map Prod.snd).subset ((SlidingWindow.admitted_sublist _).subset ha)

end

/-- The limiter is exact for a window: a call is limited when the limit was let through within
the last one, and no window that is open at one end holds more than the limit. -/
structure ExactWindow (window : Rat) (calls : List (String × Rat)) (identity : String)
    (now : Rat) : Prop where
  limited : (rateLimited now identity (Run.run enrollStep ∅ calls)).1 = true ↔
    ((unlimited identity calls).filter fun a => now - window < a ∧ a ≤ now).length = ENROLL_LIMIT
  within : ∀ start, ((unlimited identity calls).filter fun a =>
    start ≤ a ∧ a < start + window).length ≤ ENROLL_LIMIT
  within' : ∀ start, ((unlimited identity calls).filter fun a =>
    start < a ∧ a ≤ start + window).length ≤ ENROLL_LIMIT

/-- It is for every window that the readings cannot tell from its own. -/
theorem exactWindow {window : Rat} {calls : List (String × Rat)} {now : Rat}
    (hclock : Nondecreasing (calls.map Prod.snd ++ [now]))
    (hwindow : ∀ a ∈ calls.map Prod.snd, ∀ b ∈ calls.map Prod.snd ++ [now],
      enrollWindow ≤ b - a ↔ window ≤ b - a) (identity : String) :
    ExactWindow window calls identity now := by
  have hcalls : Nondecreasing (calls.map Prod.snd) := (List.pairwise_append.mp hclock).1
  have hnear (a : Rat) (ha : a ∈ unlimited identity calls) (b : Rat)
      (hb : b ∈ unlimited identity calls) : b - a < enrollWindow ↔ b - a < window := by
    rw [← not_le, ← not_le,
      hwindow a (unlimited_subset ha) b (List.mem_append_left _ (unlimited_subset hb))]
  have hafter (start : Rat) : ((unlimited identity calls).filter fun a =>
      start < a ∧ a ≤ start + window).length ≤ ENROLL_LIMIT := by
    refine unlimited_le hcalls identity _ fun a ha b hb hpa hpb => (hnear a ha b hb).mpr ?_
    rw [decide_eq_true_iff] at hpa hpb
    linarith [hpa.1, hpb.2]
  refine ⟨?_, fun start => ?_, hafter⟩
  · have hlast : ((unlimited identity calls).filter fun a => now - window < a ∧ a ≤ now) =
        (unlimited identity calls).filter fun a => now - a < enrollWindow := by
      refine List.filter_congr fun a ha => ?_
      have hcall := unlimited_subset ha
      have hle : a ≤ now :=
        (List.pairwise_append.mp hclock).2.2 a hcall now (List.mem_singleton_self now)
      rw [decide_eq_decide, ← not_le (a := enrollWindow),
        hwindow a hcall now (List.mem_append_right _ (List.mem_singleton_self now)), not_le]
      exact ⟨fun h => by linarith [h.1], fun h => ⟨by linarith, hle⟩⟩
    have hmost := hafter (now - window)
    rw [sub_add_cancel, hlast] at hmost
    rw [rateLimited_iff hclock, hlast]
    exact ⟨fun h => le_antisymm hmost h, fun h => h.ge⟩
  · refine unlimited_le hcalls identity _ fun a ha b hb hpa hpb => (hnear a ha b hb).mpr ?_
    rw [decide_eq_true_iff] at hpa hpb
    linarith [hpa.1, hpb.2]

section
variable {calls : List (String × Rat)} {now : Rat}

theorem exactWindow_own (hclock : Nondecreasing (calls.map Prod.snd ++ [now]))
    (identity : String) : ExactWindow enrollWindow calls identity now :=
  exactWindow hclock (fun _ _ _ _ => Iff.rfl) identity

theorem exactWindow_late (hclock : Nondecreasing (calls.map Prod.snd ++ [now]))
    (hlate : ∀ t ∈ calls.map Prod.snd ++ [now], LateReading t) (identity : String) :
    ExactWindow ENROLL_WINDOW_SECONDS calls identity now := by
  refine exactWindow hclock (fun a ha b hb => ?_) identity
  exact (hlate a (List.mem_append_left _ ha)).window_iff (hlate b hb)

end

/-- **The limiter is exact for an hour less 2^-42 s, and for the hour once the clock is past
second 2048; and the calls of others make no difference.** -/
theorem rateLimited_exact (calls : List (String × Rat)) (identity : String) (now : Rat)
    (hclock : Nondecreasing (calls.map Prod.snd ++ [now])) :
    ExactWindow enrollWindow calls identity now ∧
    ((∀ t ∈ calls.map Prod.snd ++ [now], LateReading t) →
      ExactWindow ENROLL_WINDOW_SECONDS calls identity now) ∧
    (rateLimited now identity (Run.run enrollStep ∅ calls)).1 =
      (rateLimited now identity
        (Run.run enrollStep ∅ (calls.filter fun call => call.1 = identity))).1 := by
  refine ⟨exactWindow_own hclock identity, fun hlate => exactWindow_late hclock hlate identity, ?_⟩
  rw [rateLimited_eq, rateLimited_eq, attempts_run, attempts_run, callsOf, callsOf,
    List.filter_filter]
  simp

/-- An eleventh call within the hour is limited, whoever else calls; on a clock that is past
second 2048, one half a second short of the hour. -/
theorem rateLimited_eleventh :
    (rateLimited 3599 "a" (Run.run enrollStep ∅
      (("b", 0) :: (List.range 10).map fun i => ("a", (i : Rat))))).1 = true ∧
    (rateLimited 7200 "a" (Run.run enrollStep ∅
      (("b", 2048) :: List.replicate 10 ("a", 7201 / 2)))).1 = true := by
  constructor
  · refine (rateLimited_exact _ "a" 3599 ?_).1.limited.mpr ?_
    · unfold Nondecreasing
      decide +kernel
    · decide +kernel
  · refine ((rateLimited_exact _ "a" 7200 ?_).2.1 ?_).limited.mpr ?_
    · unfold Nondecreasing
      decide +kernel
    · decide +kernel
    · decide +kernel

/-- Ten calls at 0.1 s and one at 3600.1 s: their difference, less than the hour, is rounded to
it. -/
theorem rateLimited_rounds :
    let early : Rat := nearest 53 (1 / 10)
    let now : Rat := nearest 53 (36001 / 10)
    let calls := List.replicate 10 ("a", early)
    Nondecreasing (calls.map Prod.snd ++ [now]) ∧
      (rateLimited now "a" (Run.run enrollStep ∅ calls)).1 = false ∧
      ((unlimited "a" calls).filter fun a =>
        now - ENROLL_WINDOW_SECONDS < a ∧ a ≤ now).length = ENROLL_LIMIT ∧
      ¬ExactWindow ENROLL_WINDOW_SECONDS calls "a" now := by
  intro early now calls
  have hpassed : (rateLimited now "a" (Run.run enrollStep ∅ calls)).1 = false := by decide +kernel
  have hten : ((unlimited "a" calls).filter fun a =>
      now - ENROLL_WINDOW_SECONDS < a ∧ a ≤ now).length = ENROLL_LIMIT := by decide +kernel
  refine ⟨?_, hpassed, hten, fun h => ?_⟩
  · unfold Nondecreasing
    decide +kernel
  · rw [h.limited.mpr hten] at hpassed
    cases hpassed

end FarmChain.Gateway
