import Mathlib.Data.List.Induction
import Mathlib.Data.List.Nodup

/-! Runs of a deterministic step function, and what held along them.

A component that takes one event at a time is a function `step : S → E → S`; a
run is the list of events it took. `Always` says that every step of a run
satisfies a predicate of the state it is taken in and its event, `Sometime` that
some step does. `Since` is the past-time operator: some step satisfied `p`, and
every later one satisfied `q`. It extends at the end of a run, which is how it is
used: an invariant that speaks about the history is carried from a run to the run
with one more event. -/
namespace FarmChain.Run

variable {S E : Type} (step : S → E → S)

/-- The state after a list of events. -/
def run (s : S) : List E → S
  | [] => s
  | e :: es => run (step s e) es

theorem run_append (s : S) (a b : List E) : run step s (a ++ b) = run step (run step s a) b := by
  induction a generalizing s with
  | nil => rfl
  | cons e rest ih => exact ih _

@[simp] theorem run_snoc (s : S) (es : List E) (e : E) :
    run step s (es ++ [e]) = step (run step s es) e := by
  rw [run_append]
  rfl

/-- What every step preserves holds after every run. -/
theorem run_invariant (I : S → Prop) (hstep : ∀ s e, I s → I (step s e)) (s : S) (es : List E)
    (h : I s) : I (run step s es) := by
  induction es generalizing s with
  | nil => exact h
  | cons e rest ih => exact ih _ (hstep s e h)

/-- An invariant that may speak about the events taken so far. -/
theorem history_invariant (I : List E → S → Prop) (s : S) (hnil : I [] s)
    (hstep : ∀ es e, I es (run step s es) → I (es ++ [e]) (step (run step s es) e)) (es : List E) :
    I es (run step s es) := by
  induction es using List.reverseRecOn with
  | nil => exact hnil
  | append_singleton es e ih =>
    rw [run_snoc]
    exact hstep es e ih

/-- Every step of the run satisfies `q`. -/
def Always (q : S → E → Prop) : S → List E → Prop
  | _, [] => True
  | s, e :: es => q s e ∧ Always q (step s e) es

instance Always.decidable {q : S → E → Prop} [∀ s e, Decidable (q s e)] :
    (s : S) → (es : List E) → Decidable (Always step q s es)
  | _, [] => .isTrue trivial
  | s, e :: es =>
    have : Decidable (Always step q (step s e) es) := Always.decidable (step s e) es
    inferInstanceAs (Decidable (q s e ∧ Always step q (step s e) es))

/-- Some step of the run satisfies `q`. -/
def Sometime (q : S → E → Prop) (s : S) (es : List E) : Prop :=
  ∃ before e after, es = before ++ e :: after ∧ q (run step s before) e

/-- Some step of the run satisfies `p`, and every step after it satisfies `q`. -/
def Since (p q : S → E → Prop) (s : S) (es : List E) : Prop :=
  ∃ before e after, es = before ++ e :: after ∧ p (run step s before) e ∧
    Always step q (step (run step s before) e) after

/-- What the steps of a run give out, in order. -/
def emits {A : Type} (f : S → E → Option A) : S → List E → List A
  | _, [] => []
  | s, e :: es => (f s e).toList ++ emits f (step s e) es

theorem emits_append {A : Type} (f : S → E → Option A) (s : S) (a b : List E) :
    emits step f s (a ++ b) = emits step f s a ++ emits step f (run step s a) b := by
  induction a generalizing s with
  | nil => rfl
  | cons e rest ih => simp only [List.cons_append, emits, run, ih, List.append_assoc]

theorem emits_snoc {A : Type} (f : S → E → Option A) (s : S) (es : List E) (e : E) :
    emits step f s (es ++ [e]) = emits step f s es ++ (f (run step s es) e).toList := by
  rw [emits_append]
  show _ ++ (_ ++ []) = _
  rw [List.append_nil]

/-- When a step only gives out what its event carries, a run gives out a part of what
its events carry, in their order. -/
theorem emits_sublist {A : Type} {f : S → E → Option A} {carried : E → Option A}
    (h : ∀ s e a, f s e = some a → carried e = some a) (s : S) (es : List E) :
    (emits step f s es).Sublist (es.filterMap carried) := by
  induction es generalizing s with
  | nil => exact List.Sublist.slnil
  | cons e rest ih =>
    have hrest := ih (step s e)
    unfold emits
    cases hf : f s e with
    | none =>
      rw [List.filterMap_cons]
      split
      · exact hrest
      · exact hrest.cons _
    | some a =>
      rw [List.filterMap_cons_some (h s e a hf)]
      exact hrest.cons_cons a

/-- Who gives out less gives out a part, in order. -/
theorem emits_part {A : Type} {f g : S → E → Option A} (h : ∀ s e a, f s e = some a → g s e = some a)
    (s : S) (es : List E) : (emits step f s es).Sublist (emits step g s es) := by
  induction es generalizing s with
  | nil => exact List.Sublist.slnil
  | cons e rest ih =>
    refine List.Sublist.append ?_ (ih _)
    cases hf : f s e with
    | none => exact List.nil_sublist _
    | some a =>
      rw [h s e a hf]

variable {step}

theorem always_append {q : S → E → Prop} {s : S} {a b : List E} :
    Always step q s (a ++ b) ↔ Always step q s a ∧ Always step q (run step s a) b := by
  induction a generalizing s with
  | nil => simp [Always, run]
  | cons e rest ih => simp only [List.cons_append, Always, run, ih, and_assoc]

theorem Always.snoc {q : S → E → Prop} {s : S} {es : List E} {e : E} (h : Always step q s es)
    (he : q (run step s es) e) : Always step q s (es ++ [e]) :=
  always_append.mpr ⟨h, he, trivial⟩

/-- The predicate at one position of the run. -/
theorem Always.at {q : S → E → Prop} {s : S} {before after : List E} {e : E}
    (h : Always step q s (before ++ e :: after)) : q (run step s before) e :=
  (always_append.mp h).2.1

/-- A run of which every position satisfies the predicate. -/
theorem always_of_split {q : S → E → Prop} {s : S} {es : List E}
    (h : ∀ before e after, es = before ++ e :: after → q (run step s before) e) :
    Always step q s es := by
  induction es generalizing s with
  | nil => trivial
  | cons e rest ih =>
    refine ⟨h [] e rest rfl, ih fun before e' after hsplit => ?_⟩
    exact h (e :: before) e' after (by rw [hsplit]; rfl)

theorem Always.mono {q r : S → E → Prop} (hqr : ∀ s e, q s e → r s e) {s : S} {es : List E}
    (h : Always step q s es) : Always step r s es := by
  induction es generalizing s with
  | nil => trivial
  | cons e rest ih => exact ⟨hqr s e h.1, ih h.2⟩

/-- What every step satisfies in the states an invariant allows, every step of a run
from such a state satisfies. -/
theorem always_of_invariant {I : S → Prop} {q : S → E → Prop} (hI : ∀ s e, I s → I (step s e))
    {s : S} {es : List E} (h : ∀ e ∈ es, ∀ s, I s → q s e) (hs : I s) : Always step q s es := by
  induction es generalizing s with
  | nil => trivial
  | cons e rest ih =>
    exact ⟨h e (List.mem_cons_self ..) s hs,
      ih (fun e' he' => h e' (List.mem_cons_of_mem e he')) (hI s e hs)⟩

/-- Events that do nothing and give out nothing can be left out. -/
theorem emits_filter {A : Type} {f : S → E → Option A} {keep : E → Bool} {s : S} {es : List E}
    (h : Always step (fun s e => keep e = false → step s e = s ∧ f s e = none) s es) :
    emits step f s (es.filter keep) = emits step f s es := by
  induction es generalizing s with
  | nil => rfl
  | cons e rest ih =>
    have hrest := ih h.2
    cases hkeep : keep e with
    | true =>
      rw [List.filter_cons_of_pos hkeep, emits, emits, hrest]
    | false =>
      obtain ⟨hstep, hnone⟩ := h.1 hkeep
      rw [hstep] at hrest
      rw [List.filter_cons_of_neg (by simp [hkeep]), emits, hnone, hstep, hrest]
      rfl

/-- A property of the final state was there from the start or some step brought it. -/
theorem sometime_or_initially {I J : S → Prop} {q : S → E → Prop}
    (hI : ∀ s e, I s → I (step s e)) {s : S} {es : List E}
    (h : ∀ e ∈ es, ∀ s, I s → J (step s e) → J s ∨ q s e) (hs : I s) (hJ : J (run step s es)) :
    J s ∨ Sometime step q s es := by
  induction es generalizing s with
  | nil => exact .inl hJ
  | cons e rest ih =>
    rcases ih (fun e' he' => h e' (List.mem_cons_of_mem e he')) (hI s e hs) hJ with
      hnext | ⟨before, e', after, rfl, hq⟩
    · exact (h e (List.mem_cons_self ..) s hs hnext).imp id fun hq => ⟨[], e, rest, rfl, hq⟩
    · exact .inr ⟨e :: before, e', after, rfl, hq⟩

/-- Where a position of a longer run is: at its end, or in the run before. -/
theorem snoc_split {es before after : List E} {e e' : E} :
    es ++ [e] = before ++ e' :: after ↔
      (before = es ∧ e' = e ∧ after = []) ∨
        ∃ init, after = init ++ [e] ∧ es = before ++ e' :: init := by
  constructor
  · intro h
    rcases List.eq_nil_or_concat after with rfl | ⟨init, last, rfl⟩
    · obtain ⟨rfl, hlast⟩ := List.append_inj' h rfl
      cases hlast
      exact .inl ⟨rfl, rfl, rfl⟩
    · rw [List.concat_eq_append, ← List.cons_append, ← List.append_assoc] at h
      obtain ⟨rfl, hlast⟩ := List.append_inj' h rfl
      cases hlast
      exact .inr ⟨init, by simp, rfl⟩
  · intro h
    rcases h with ⟨rfl, rfl, rfl⟩ | ⟨init, rfl, rfl⟩
    · rfl
    · simp

/-- Some step of a longer run is an earlier one or the last. -/
theorem sometime_snoc {q : S → E → Prop} {s : S} {es : List E} {e : E} :
    Sometime step q s (es ++ [e]) ↔ Sometime step q s es ∨ q (run step s es) e := by
  constructor
  · intro h
    obtain ⟨before, e', after, hsplit, hq⟩ := h
    rcases snoc_split.mp hsplit with ⟨rfl, rfl, rfl⟩ | ⟨init, rfl, rfl⟩
    · exact .inr hq
    · exact .inl ⟨before, e', init, rfl, hq⟩
  · intro h
    rcases h with ⟨before, e', after, rfl, hq⟩ | hq
    · exact ⟨before, e', after ++ [e], by simp, hq⟩
    · exact ⟨es, e, [], rfl, hq⟩

/-- What was given out before is given out by the longer run. -/
theorem emits_split {A : Type} {f : S → E → Option A} {s : S} {before after : List E} {e : E} {a : A}
    (h : f (run step s before) e = some a) : a ∈ emits step f s (before ++ e :: after) := by
  rw [emits_append, emits, h]
  simp
/-- A run gives out no key twice when no step gives out one that was given out before. -/
theorem nodup_emits_iff {A K : Type} {f : S → E → Option A} (key : A → K) {s : S} {es : List E} :
    ((emits step f s es).map key).Nodup ↔ ∀ before e after a, es = before ++ e :: after →
      f (run step s before) e = some a → key a ∉ (emits step f s before).map key := by
  induction es using List.reverseRecOn with
  | nil =>
    refine iff_of_true List.nodup_nil fun before e after a hsplit => ?_
    exact absurd hsplit.symm (by simp)
  | append_singleton es e ih =>
    have hlast : ((emits step f s (es ++ [e])).map key).Nodup ↔
        ((emits step f s es).map key).Nodup ∧
          ∀ a, f (run step s es) e = some a → key a ∉ (emits step f s es).map key := by
      rw [emits_snoc, List.map_append]
      cases f (run step s es) e with
      | none => simp
      | some a =>
        rw [Option.toList_some, List.map_singleton, ← List.concat_eq_append, List.nodup_concat]
        simp [and_comm]
    rw [hlast, ih]
    constructor
    · intro ⟨hearlier, hnow⟩ before e' after a hsplit
      rcases snoc_split.mp hsplit with ⟨rfl, rfl, rfl⟩ | ⟨init, rfl, rfl⟩
      · exact hnow a
      · exact hearlier before e' init a rfl
    · intro h
      exact ⟨fun before e' init a hsplit => h before e' (init ++ [e]) a (by simp [hsplit]),
        fun a => h es e [] a rfl⟩

/-- What a step of such a run gives out was not given out before. -/
theorem not_mem_emits {A : Type} {f : S → E → Option A} {s : S} {es before after : List E} {e : E}
    {a : A} (h : (emits step f s es).Nodup) (hsplit : es = before ++ e :: after)
    (ha : f (run step s before) e = some a) : a ∉ emits step f s before := by
  rw [← List.map_id (emits step f s es)] at h
  simpa using (nodup_emits_iff id).mp h before e after a hsplit ha

/-- What such a run has given out no later step gives out. -/
theorem always_fresh {A K : Type} {f : S → E → Option A} (key : A → K) {s : S} {es after : List E}
    {a : A} (h : ((emits step f s (es ++ after)).map key).Nodup) (ha : a ∈ emits step f s es) :
    Always step (fun t e => ∀ b, f t e = some b → key b ≠ key a) (run step s es) after := by
  rw [emits_append, List.map_append] at h
  refine always_of_split fun before e rest hsplit b hb hkey => ?_
  subst hsplit
  refine List.disjoint_of_nodup_append h (List.mem_map_of_mem ha) ?_
  rw [← hkey]
  exact List.mem_map_of_mem (emits_split hb)

/-- The last step of a run that satisfies a predicate is one step. -/
theorem last_unique {p : S → E → Prop} {s : S} {before after before' after' : List E} {e e' : E}
    (h : before ++ e :: after = before' ++ e' :: after') (he : p (run step s before) e)
    (hafter : Always step (fun t f => ¬ p t f) (step (run step s before) e) after)
    (he' : p (run step s before') e')
    (hafter' : Always step (fun t f => ¬ p t f) (step (run step s before') e') after') : e = e' := by
  rcases List.append_eq_append_iff.mp h with ⟨between, rfl, hbetween⟩ | ⟨between, rfl, hbetween⟩
  · cases between with
    | nil => exact (List.cons.inj hbetween).1
    | cons first rest =>
      obtain ⟨rfl, rfl⟩ := List.cons.inj hbetween
      rw [run_append] at he'
      exact absurd he' hafter.at
  · cases between with
    | nil => exact (List.cons.inj hbetween).1.symm
    | cons first rest =>
      obtain ⟨rfl, rfl⟩ := List.cons.inj hbetween
      rw [run_append] at he
      exact absurd he hafter'.at

/-- The last step starts the interval. -/
theorem since_last {p q : S → E → Prop} {s : S} {es : List E} {e : E} (h : p (run step s es) e) :
    Since step p q s (es ++ [e]) :=
  ⟨es, e, [], rfl, h, trivial⟩

/-- One more step that keeps the interval open. -/
theorem Since.snoc {p q : S → E → Prop} {s : S} {es : List E} {e : E} (h : Since step p q s es)
    (he : q (run step s es) e) : Since step p q s (es ++ [e]) := by
  obtain ⟨before, first, after, rfl, hp, hq⟩ := h
  refine ⟨before, first, after ++ [e], by simp, hp, hq.snoc ?_⟩
  rw [run_append] at he
  exact he

/-- What the first step of the interval establishes and every later one keeps, under
an invariant of all steps, holds at the end of the run. -/
theorem Since.induction {p q : S → E → Prop} (I J : S → Prop) (hI : ∀ s e, I s → I (step s e))
    (hp : ∀ s e, I s → p s e → J (step s e)) (hq : ∀ s e, I s → J s → q s e → J (step s e))
    {s : S} {es : List E} (h : Since step p q s es) (hs : I s) : J (run step s es) := by
  obtain ⟨before, e, after, rfl, hfirst, hafter⟩ := h
  rw [run_append]
  have hIbefore := run_invariant step I hI s before hs
  have hkept : ∀ (after : List E) (t : S), I t → J t → Always step q t after →
      J (run step t after) := by
    intro after
    induction after with
    | nil => exact fun t _ ht _ => ht
    | cons e rest ih =>
      exact fun t hIt ht hrest => ih _ (hI t e hIt) (hq t e hIt ht hrest.1) hrest.2
  exact hkept after _ (hI _ e hIbefore) (hp _ e hIbefore hfirst) hafter

theorem Since.mono {p p' q q' : S → E → Prop} (hp : ∀ s e, p s e → p' s e)
    (hq : ∀ s e, q s e → q' s e) {s : S} {es : List E} (h : Since step p q s es) :
    Since step p' q' s es := by
  obtain ⟨before, first, after, hes, hfirst, hafter⟩ := h
  exact ⟨before, first, after, hes, hp _ _ hfirst, hafter.mono hq⟩

/-- Events taken through a translation. -/
theorem emits_map {E' A : Type} (g : E' → E) (f : S → E → Option A) (s : S) (es : List E') :
    emits step f s (es.map g) =
      emits (fun s e => step s (g e)) (fun s e => f s (g e)) s es := by
  induction es generalizing s with
  | nil => rfl
  | cons e rest ih =>
    show _ ++ emits step f (step s (g e)) (rest.map g) = _
    rw [ih]
    rfl

/-- Two machines in states that correspond stay so and give out the same, as long as each
step is one they take alike. -/
theorem simulation {S' A : Type} {step' : S' → E → S'} {f : S → E → Option A}
    {f' : S' → E → Option A} {rel : S → S' → Prop} {pre : S → E → Prop}
    (h : ∀ s s' e, rel s s' → pre s e → rel (step s e) (step' s' e) ∧ f s e = f' s' e) {s : S}
    {s' : S'} {es : List E} (hs : rel s s') (hpre : Always step pre s es) :
    rel (run step s es) (run step' s' es) ∧ emits step f s es = emits step' f' s' es := by
  induction es generalizing s s' with
  | nil => exact ⟨hs, rfl⟩
  | cons e rest ih =>
    obtain ⟨hnext, hout⟩ := h s s' e hs hpre.1
    obtain ⟨hrun, hrest⟩ := ih hnext hpre.2
    refine ⟨hrun, ?_⟩
    show (f s e).toList ++ emits step f (step s e) rest = _
    rw [hout, hrest]
    rfl

/-- What only depends on the event is picked from the events. -/
theorem emits_carried {A : Type} (carried : E → Option A) (s : S) (es : List E) :
    emits step (fun _ e => carried e) s es = es.filterMap carried := by
  induction es generalizing s with
  | nil => rfl
  | cons e rest ih =>
    show (carried e).toList ++ _ = _
    rw [ih, List.filterMap_cons]
    cases carried e <;> rfl

/-- What is made of what a run gives out. -/
theorem emits_post {A A' : Type} (g : A → A') (f : S → E → Option A) (s : S) (es : List E) :
    emits step (fun s e => (f s e).map g) s es = (emits step f s es).map g := by
  induction es generalizing s with
  | nil => rfl
  | cons e rest ih =>
    show ((f s e).map g).toList ++ _ = ((f s e).toList ++ _).map g
    rw [ih, List.map_append]
    cases f s e <;> rfl

/-- A view of the state on which every step does what it gives out is, after a run, what the
run gave out has made of it. -/
theorem run_view {A P : Type} {f : S → E → Option A} {act : P → A → P} {view : S → P}
    (h : ∀ s e, view (step s e) = (f s e).elim (view s) (act (view s))) (s : S) (es : List E) :
    view (run step s es) = run act (view s) (emits step f s es) := by
  induction es generalizing s with
  | nil => rfl
  | cons e rest ih =>
    show view (run step (step s e) rest) = run act (view s) ((f s e).toList ++ _)
    rw [ih, h, run_append]
    cases f s e <;> rfl

/-- A log is such a view. -/
theorem run_log {A : Type} {f : S → E → Option A} {log : S → List A}
    (h : ∀ s e, log (step s e) = log s ++ (f s e).toList) (s : S) (es : List E) :
    log (run step s es) = log s ++ emits step f s es := by
  induction es generalizing s with
  | nil => exact (List.append_nil _).symm
  | cons e rest ih =>
    show log (run step (step s e) rest) = log s ++ ((f s e).toList ++ _)
    rw [ih, h, List.append_assoc]

/-! ### The last step of a kind -/

/-- `e` is the last step of the run that satisfies `p`, taken in the state `t`; `after`
is what came after it. -/
structure Last (step : S → E → S) (p : S → E → Prop) (s : S) (es : List E) (t : S) (e : E)
    (after : List E) : Prop where
  split : ∃ before, es = before ++ e :: after ∧ t = run step s before
  holds : p t e
  since : Always step (fun s e => ¬p s e) (step t e) after

section
variable {p : S → E → Prop} {s t : S} {es after : List E} {e e' : E}

theorem last_snoc (h : p (run step s es) e) :
    Last step p s (es ++ [e]) (run step s es) e [] :=
  ⟨⟨es, rfl, rfl⟩, h, trivial⟩

/-- It stays the last while no later step satisfies the predicate. -/
theorem Last.snoc (h : Last step p s es t e after) (he' : ¬p (run step s es) e') :
    Last step p s (es ++ [e']) t e (after ++ [e']) := by
  obtain ⟨before, rfl, rfl⟩ := h.split
  refine ⟨⟨before, by simp, rfl⟩, h.holds, h.since.snoc ?_⟩
  rw [run_append] at he'
  exact he'

/-- Where the run stands is where the steps from `e` on lead. -/
theorem Last.run_eq (h : Last step p s es t e after) : run step s es = run step t (e :: after) := by
  obtain ⟨before, rfl, rfl⟩ := h.split
  exact run_append step s before (e :: after)

end

end FarmChain.Run
