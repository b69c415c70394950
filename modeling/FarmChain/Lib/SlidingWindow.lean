import Mathlib.Algebra.Order.Group.Defs
import Mathlib.Algebra.Order.Group.Unbundled.Basic
import FarmChain.Lib.Run

/-! Sliding-window admission.

A limiter that keeps the times it admitted, drops them from the front once they are a
window old, and admits while fewer than the limit are left. As long as the clock does not
go back, what it keeps is exactly what it admitted within the last window (`live_run`), and
no window holds more admissions than the limit (`admitted_le`). -/
namespace FarmChain.SlidingWindow

section
variable {T : Type} [AddCommGroup T] [LinearOrder T] (limit : Nat) (window : T)

/-- The times that are not a window old yet. -/
def live (now : T) (kept : List T) : List T := kept.dropWhile fun a => window ≤ now - a

def admits (kept : List T) (now : T) : Bool := (live window now kept).length < limit

def step (kept : List T) (now : T) : List T :=
  if admits limit window kept now then live window now kept ++ [now] else live window now kept

/-- The time of an admission. -/
def admission (kept : List T) (now : T) : Option T :=
  if admits limit window kept now then some now else none

/-- The times admitted in a run. -/
def admitted (times : List T) : List T :=
  Run.emits (step limit window) (admission limit window) [] times

variable {limit window}

theorem step_eq (kept : List T) (now : T) :
    step limit window kept now =
      live window now kept ++ (admission limit window kept now).toList := by
  unfold step admission
  split
  · rfl
  · exact (List.append_nil _).symm

theorem admitted_snoc (times : List T) (now : T) :
    admitted limit window (times ++ [now]) = admitted limit window times ++
      (admission limit window (Run.run (step limit window) [] times) now).toList :=
  Run.emits_snoc _ _ _ _ _

/-- What was admitted was asked for, in that order. -/
theorem admitted_sublist (times : List T) : (admitted limit window times).Sublist times := by
  have hcarried : ∀ kept now a, admission limit window kept now = some a → some now = some a := by
    intro kept now a h
    unfold admission at h
    split at h
    · exact h
    · cases h
  have hsublist := Run.emits_sublist (step limit window) hcarried [] times
  rwa [List.filterMap_some] at hsublist

end

section
variable {T : Type} [AddCommGroup T] [LinearOrder T] [IsOrderedAddMonoid T] {limit : Nat}
  {window : T}

/-- On times in order, dropping the old from the front drops all the old. -/
theorem live_eq_filter {now : T} {kept : List T} (h : kept.Pairwise (· ≤ ·)) :
    live window now kept = kept.filter fun a => now - a < window := by
  induction kept with
  | nil => rfl
  | cons a rest ih =>
    obtain ⟨hfirst, hrest⟩ := List.pairwise_cons.mp h
    by_cases hold : window ≤ now - a
    · rw [live, List.dropWhile_cons_of_pos (by simpa using hold),
        List.filter_cons_of_neg (by simpa using hold)]
      exact ih hrest
    · rw [live, List.dropWhile_cons_of_neg (by simpa using hold), eq_comm, List.filter_eq_self]
      intro b hb
      have hle : now - b ≤ now - a := by
        rcases List.mem_cons.mp hb with rfl | hmem
        · exact le_refl _
        · exact sub_le_sub_left (hfirst b hmem) now
      exact decide_eq_true (lt_of_le_of_lt hle (not_le.mp hold))

/-- What is within the window later on is within it now. -/
theorem filter_within {m now : T} (h : m ≤ now) (l : List T) :
    (l.filter fun a => m - a < window).filter (fun a => now - a < window) =
      l.filter fun a => now - a < window := by
  rw [List.filter_filter]
  refine List.filter_congr fun a _ => ?_
  have hle : m - a ≤ now - a := sub_le_sub_right h a
  rw [Bool.eq_iff_iff, Bool.and_eq_true, decide_eq_true_iff, decide_eq_true_iff]
  exact ⟨And.left, fun hnow => ⟨hnow, lt_of_le_of_lt hle hnow⟩⟩

/-- What is kept was admitted within the last window, and all of that is kept. -/
theorem live_run {times : List T} {now : T} (h : (times ++ [now]).Pairwise (· ≤ ·)) :
    live window now (Run.run (step limit window) [] times) =
      (admitted limit window times).filter fun a => now - a < window := by
  induction times using List.reverseRecOn generalizing now with
  | nil => rfl
  | append_singleton times m ih =>
    obtain ⟨hbefore, _, hnow⟩ := List.pairwise_append.mp h
    have hm : m ≤ now := hnow m (by simp) now (List.mem_singleton_self now)
    have hsorted : (admitted limit window (times ++ [m])).Pairwise (· ≤ ·) :=
      hbefore.sublist (admitted_sublist _)
    rw [admitted_snoc] at hsorted ⊢
    rw [Run.run_snoc, step_eq, ih hbefore,
      live_eq_filter (hsorted.sublist (List.filter_sublist.append_right _)), List.filter_append,
      List.filter_append, filter_within hm]

/-- The limiter admits exactly when fewer than the limit were admitted within the last window. -/
theorem admits_run {times : List T} {now : T} (h : (times ++ [now]).Pairwise (· ≤ ·)) :
    admits limit window (Run.run (step limit window) [] times) now =
      decide (((admitted limit window times).filter fun a => now - a < window).length < limit) := by
  rw [admits, live_run h]

/-- **Admissions less than a window apart are no more than the limit.** -/
theorem admitted_le {times l : List T} (h : times.Pairwise (· ≤ ·))
    (hl : l.Sublist (admitted limit window times)) (hnear : l.Pairwise fun a b => b - a < window) :
    l.length ≤ limit := by
  induction times using List.reverseRecOn generalizing l with
  | nil =>
    have hnil : l = [] := List.sublist_nil.mp hl
    simp [hnil]
  | append_singleton times m ih =>
    have hbefore := (List.pairwise_append.mp h).1
    rw [admitted_snoc, List.sublist_append_iff] at hl
    obtain ⟨earlier, last, rfl, hearlier, hlast⟩ := hl
    obtain ⟨hnearEarlier, _, hnearLast⟩ := List.pairwise_append.mp hnear
    unfold admission at hlast
    split at hlast
    · rename_i hadmits
      rcases List.sublist_singleton.mp hlast with rfl | rfl
      · simpa using ih hbefore hearlier hnearEarlier
      · -- the earlier ones were all kept when the last was admitted
        have hkept : earlier.Sublist
            ((admitted limit window times).filter fun a => m - a < window) := by
          have hall : earlier.filter (fun a => m - a < window) = earlier :=
            List.filter_eq_self.mpr fun a ha =>
              decide_eq_true (hnearLast a ha m (List.mem_singleton_self m))
          rw [← hall]
          exact hearlier.filter _
        rw [admits_run h, decide_eq_true_iff] at hadmits
        have hle := hkept.length_le
        rw [List.length_append, List.length_singleton]
        omega
    · have hnil : last = [] := List.sublist_nil.mp hlast
      simpa [hnil] using ih hbefore hearlier hnearEarlier

end

end FarmChain.SlidingWindow
