import Mathlib.Order.Lattice
import FarmChain.Lib.Run

/-! A map whose entries end.

A key is assigned a value until a time, and from that time on the value is not found. What
is found under a key is decided by the last change that concerned it (`find_run`), and by
no change of another key (`run_filter`). -/
namespace FarmChain.TimedMap

/-- What can be done to the map. -/
inductive Change (K V T : Type) where
  | assign (key : K) (value : V) (ends : T)
  | forget (key : K)
  | clear
  deriving DecidableEq

/-- The map: a key's value and when it ends. -/
abbrev Map (K V T : Type) := K → Option (V × T)

section
variable {K V T : Type} [DecidableEq K]

def Change.Concerns (key : K) : Change K V T → Prop
  | .assign key' _ _ => key' = key
  | .forget key' => key' = key
  | .clear => True

instance (key : K) : DecidablePred (Change.Concerns (V := V) (T := T) key)
  | .assign key' _ _ => inferInstanceAs (Decidable (key' = key))
  | .forget key' => inferInstanceAs (Decidable (key' = key))
  | .clear => inferInstanceAs (Decidable True)

def Change.apply (m : Map K V T) : Change K V T → Map K V T
  | .assign key value ends => Function.update m key (some (value, ends))
  | .forget key => Function.update m key none
  | .clear => fun _ => none

theorem apply_other {m : Map K V T} {c : Change K V T} {key : K} (h : ¬c.Concerns key) :
    c.apply m key = m key := by
  cases c with
  | assign key' value ends => exact Function.update_of_ne (Ne.symm h) _ m
  | forget key' => exact Function.update_of_ne (Ne.symm h) _ m
  | clear => exact absurd trivial h

/-- A change that concerns the key assigns it or leaves nothing there. -/
theorem apply_concerned {m : Map K V T} {c : Change K V T} {key : K} {e : V × T}
    (h : c.Concerns key) : c.apply m key = some e ↔ c = .assign key e.1 e.2 := by
  cases c with
  | assign key' value ends =>
    cases (show key' = key from h)
    simp [Change.apply, Prod.ext_iff]
  | forget key' =>
    cases (show key' = key from h)
    simp [Change.apply]
  | clear => simp [Change.apply]

/-- A key has what the last change that concerned it assigned. -/
theorem run_eq_some {cs : List (Change K V T)} {key : K} {e : V × T} :
    Run.run Change.apply (fun _ => none) cs key = some e ↔
      ∃ before after, cs = before ++ .assign key e.1 e.2 :: after ∧
        ∀ c ∈ after, ¬c.Concerns key := by
  induction cs using List.reverseRecOn with
  | nil => simp [Run.run]
  | append_singleton cs c ih =>
    rw [Run.run_snoc]
    by_cases hc : c.Concerns key
    · rw [apply_concerned hc]
      constructor
      · rintro rfl
        exact ⟨cs, [], rfl, List.forall_mem_nil _⟩
      · rintro ⟨before, after, hsplit, hafter⟩
        rcases Run.snoc_split.mp hsplit with ⟨rfl, rfl, rfl⟩ | ⟨init, rfl, rfl⟩
        · rfl
        · exact absurd hc (hafter c (List.mem_append_right _ (List.mem_singleton_self c)))
    · rw [apply_other hc, ih]
      constructor
      · rintro ⟨before, after, rfl, hafter⟩
        refine ⟨before, after ++ [c], by simp, fun c' hc' => ?_⟩
        rcases List.mem_append.mp hc' with hmem | hmem
        · exact hafter c' hmem
        · exact List.mem_singleton.mp hmem ▸ hc
      · rintro ⟨before, after, hsplit, hafter⟩
        rcases Run.snoc_split.mp hsplit with ⟨rfl, rfl, rfl⟩ | ⟨init, rfl, rfl⟩
        · exact absurd rfl hc
        · exact ⟨before, init, rfl, fun c' hc' => hafter c' (List.mem_append_left _ hc')⟩

/-- Changes that do not concern a key can be left out. -/
theorem run_filter (m : Map K V T) (cs : List (Change K V T)) (key : K) :
    Run.run Change.apply m (cs.filter fun c => c.Concerns key) key =
      Run.run Change.apply m cs key := by
  induction cs using List.reverseRecOn with
  | nil => rfl
  | append_singleton cs c ih =>
    rw [List.filter_append, Run.run_snoc]
    by_cases hc : c.Concerns key
    · rw [List.filter_cons_of_pos (by simpa using hc), List.filter_nil, Run.run_snoc]
      cases c with
      | assign key' value ends =>
        cases (show key' = key from hc)
        simp [Change.apply]
      | forget key' =>
        cases (show key' = key from hc)
        simp [Change.apply]
      | clear => rfl
    · rw [List.filter_cons_of_neg (by simpa using hc), List.filter_nil, List.append_nil, ih,
        apply_other hc]

end

section
variable {K V T : Type} [LinearOrder T]

/-- The value that has not ended. -/
def find (m : Map K V T) (key : K) (now : T) : Option V :=
  ((m key).filter fun e => now < e.2).map Prod.fst

theorem find_eq_some {m : Map K V T} {key : K} {now : T} {v : V} :
    find m key now = some v ↔ ∃ ends, m key = some (v, ends) ∧ now < ends := by
  simp [find, Option.map_eq_some_iff, Option.filter_eq_some_iff]

variable [DecidableEq K]

theorem find_assign (m : Map K V T) (key key' : K) (value : V) (ends now : T) :
    find (Change.apply m (.assign key value ends)) key' now =
      if key' = key then (if now < ends then some value else none) else find m key' now := by
  by_cases h : key' = key
  · rw [if_pos h]
    subst h
    simp [find, Change.apply, Option.filter_some, apply_ite]
  · rw [if_neg h, find, apply_other (c := .assign key value ends) (Ne.symm h), find]

theorem find_forget (m : Map K V T) (key key' : K) (now : T) :
    find (Change.apply m (.forget key)) key' now =
      if key' = key then none else find m key' now := by
  by_cases h : key' = key
  · rw [if_pos h]
    subst h
    simp [find, Change.apply]
  · rw [if_neg h, find, apply_other (c := .forget key) (Ne.symm h), find]

/-- What is found is what the last change that concerned the key assigned, until it ends. -/
theorem find_run {cs : List (Change K V T)} {key : K} {now : T} {v : V} :
    find (Run.run Change.apply (fun _ => none) cs) key now = some v ↔
      ∃ before ends after, cs = before ++ .assign key v ends :: after ∧ now < ends ∧
        ∀ c ∈ after, ¬c.Concerns key := by
  rw [find_eq_some]
  constructor
  · rintro ⟨ends, hrun, hnow⟩
    obtain ⟨before, after, hsplit, hafter⟩ := run_eq_some.mp hrun
    exact ⟨before, ends, after, hsplit, hnow, hafter⟩
  · rintro ⟨before, ends, after, hsplit, hnow, hafter⟩
    exact ⟨ends, run_eq_some.mpr ⟨before, after, hsplit, hafter⟩, hnow⟩

end

end FarmChain.TimedMap
