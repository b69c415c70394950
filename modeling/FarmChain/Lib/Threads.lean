import Mathlib.Algebra.BigOperators.Group.Finset.Basic
import FarmChain.Lib.Run

/-! Threads over a shared state.

Finitely many threads, each with a state of its own, take steps in any order; a step
reads and writes the thread's own state and the shared one, and may be observed. What
is called a schedule elsewhere is here the list of steps, so a fact about every run is
a fact about every interleaving.

Work is conserved: where each step takes as much off the potential of the whole system
as it shows to be spent, and adds as much as it shows to be gained, so does a run. -/
namespace FarmChain.Threads

variable {T L G I O : Type}

/-- Each thread's own state, and the shared one. -/
structure System (T L G : Type) where
  own : T → L
  shared : G

/-- A thread's next step, with what it reads from outside. -/
structure Action (T I : Type) where
  thread : T
  input : I
  deriving DecidableEq, Repr

section
variable [DecidableEq T] (move : T → L → G → I → Option (L × G × Option O))

/-- One step; a thread that cannot take it stays where it is. -/
def step (s : System T L G) (a : Action T I) : System T L G :=
  match move a.thread (s.own a.thread) s.shared a.input with
  | some (l, g, _) => ⟨Function.update s.own a.thread l, g⟩
  | none => s

/-- What a step shows. -/
def observe (s : System T L G) (a : Action T I) : Option O :=
  match move a.thread (s.own a.thread) s.shared a.input with
  | some (_, _, o) => o
  | none => none

/-- Everything a run shows, in order. -/
def events (s : System T L G) (as : List (Action T I)) : List O :=
  Run.emits (step move) (observe move) s as

variable {move}

theorem events_snoc (s : System T L G) (as : List (Action T I)) (a : Action T I) :
    events move s (as ++ [a]) =
      events move s as ++ (observe move (Run.run (step move) s as) a).toList :=
  Run.emits_snoc (step move) (observe move) s as a

/-- What a run shows, split where it is split. -/
theorem events_split (s : System T L G) (before after : List (Action T I)) (a : Action T I) :
    events move s (before ++ a :: after) = events move s before ++
      ((observe move (Run.run (step move) s before) a).toList ++
        events move (step move (Run.run (step move) s before) a) after) :=
  Run.emits_append (step move) (observe move) s before (a :: after)

variable (move) in
/-- A step is a move of its thread, or nothing happens. -/
theorem step_cases (s : System T L G) (a : Action T I) :
    (∃ l g o, move a.thread (s.own a.thread) s.shared a.input = some (l, g, o) ∧
        step move s a = ⟨Function.update s.own a.thread l, g⟩ ∧ observe move s a = o) ∨
      step move s a = s ∧ observe move s a = none := by
  unfold step observe
  cases hmove : move a.thread (s.own a.thread) s.shared a.input with
  | none => exact .inr ⟨rfl, rfl⟩
  | some next => exact .inl ⟨next.1, next.2.1, next.2.2, rfl, rfl, rfl⟩

/-- A step that its thread can take. -/
theorem step_of_move {s : System T L G} {a : Action T I} {l : L} {g : G} {o : Option O}
    (h : move a.thread (s.own a.thread) s.shared a.input = some (l, g, o)) :
    step move s a = ⟨Function.update s.own a.thread l, g⟩ := by
  unfold step
  rw [h]

/-- A step that its thread cannot take. -/
theorem step_of_none {s : System T L G} {a : Action T I}
    (h : move a.thread (s.own a.thread) s.shared a.input = none) : step move s a = s := by
  unfold step
  rw [h]

/-- A step leaves the other threads where they are. -/
theorem step_own_of_ne {s : System T L G} {a : Action T I} {t : T} (h : t ≠ a.thread) :
    (step move s a).own t = s.own t := by
  rcases step_cases move s a with ⟨l, g, o, _, hstep, _⟩ | ⟨hstep, _⟩
  · rw [hstep]
    exact Function.update_of_ne h l s.own
  · rw [hstep]

variable (move) in
/-- A property of every thread's own state and one of the shared state, which every move
keeps, hold after every step. -/
theorem step_each {A : L → Prop} {B : G → Prop} {s : System T L G} {a : Action T I}
    (h : ∀ l g o, move a.thread (s.own a.thread) s.shared a.input = some (l, g, o) →
      observe move s a = o → A l ∧ B g)
    (hown : ∀ t, A (s.own t)) (hshared : B s.shared) :
    (∀ t, A ((step move s a).own t)) ∧ B (step move s a).shared := by
  rcases step_cases move s a with ⟨l, g, o, hmove, hstep, hobserve⟩ | ⟨hstep, _⟩
  · rw [hstep]
    obtain ⟨hA, hB⟩ := h l g o hmove hobserve
    refine ⟨fun t => ?_, hB⟩
    show A (Function.update s.own a.thread l t)
    by_cases ht : t = a.thread
    · rw [ht, Function.update_self]
      exact hA
    · rw [Function.update_of_ne ht]
      exact hown t
  · rw [hstep]
    exact ⟨hown, hshared⟩

end

/-! ### Conservation -/

section
variable [DecidableEq T] [Fintype T] {move : T → L → G → I → Option (L × G × Option O)}

/-- What the threads and the shared state have left to do. -/
def potential (own : L → Nat) (shared : G → Nat) (s : System T L G) : Nat :=
  ∑ t, own (s.own t) + shared s.shared

/-- Changing one thread changes the sum by that thread's share. -/
theorem sum_update (own : L → Nat) (f : T → L) (t : T) (l : L) :
    ∑ x, own (Function.update f t l x) + own (f t) = ∑ x, own (f x) + own l := by
  have hsplit (g : T → Nat) : ∑ x, g x = g t + ∑ x ∈ Finset.univ.erase t, g x :=
    (Finset.add_sum_erase Finset.univ g (Finset.mem_univ t)).symm
  have hothers : ∑ x ∈ Finset.univ.erase t, own (Function.update f t l x) =
      ∑ x ∈ Finset.univ.erase t, own (f x) := by
    refine Finset.sum_congr rfl fun x hx => ?_
    rw [Function.update_of_ne (Finset.ne_of_mem_erase hx)]
  rw [hsplit fun x => own (Function.update f t l x), hsplit fun x => own (f x), hothers,
    Function.update_self]
  omega

variable (move) in
/-- A step balances: what it shows as spent left the potential, and each unit it shows
as gained added `k` to it. -/
def Balanced (own : L → Nat) (shared : G → Nat) (spent gained : O → Bool) (k : Nat)
    (s : System T L G) (a : Action T I) : Prop :=
  ∀ l g o, move a.thread (s.own a.thread) s.shared a.input = some (l, g, o) →
    own l + shared g + o.toList.countP spent =
      own (s.own a.thread) + shared s.shared + k * o.toList.countP gained

variable {own : L → Nat} {shared : G → Nat} {spent gained : O → Bool} {k : Nat}

theorem step_balance {s : System T L G} {a : Action T I}
    (h : Balanced move own shared spent gained k s a) :
    potential own shared (step move s a) + (observe move s a).toList.countP spent =
      potential own shared s + k * (observe move s a).toList.countP gained := by
  rcases step_cases move s a with ⟨l, g, o, hmove, hstep, hobserve⟩ | ⟨hstep, hobserve⟩
  · have hbalance := h l g o hmove
    have hsum := sum_update own s.own a.thread l
    rw [hstep, hobserve]
    unfold potential
    dsimp only
    omega
  · rw [hstep, hobserve]
    rfl

/-- Over a run whose steps balance, what was gained is spent or still to be done. -/
theorem run_balance {s : System T L G} {as : List (Action T I)}
    (h : Run.Always (step move) (Balanced move own shared spent gained k) s as) :
    potential own shared (Run.run (step move) s as) + (events move s as).countP spent =
      potential own shared s + k * (events move s as).countP gained := by
  induction as generalizing s with
  | nil => rfl
  | cons a rest ih =>
    have hstep := step_balance h.1
    have hrest := ih h.2
    unfold events at hrest ⊢
    unfold Run.emits Run.run
    rw [List.countP_append, List.countP_append, Nat.mul_add]
    omega

end

end FarmChain.Threads
