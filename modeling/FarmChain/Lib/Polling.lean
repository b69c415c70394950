import FarmChain.Lib.Run

/-! Polling loops.

A loop tests a flag, asks a source for an item, and hands it to a handler that may
raise; nothing in the loop catches what it raises. `poll_complete_iff` says when such a
loop hands over every item that the source offers until the flag is set: no handler
raises, unless it is on the last one. -/
namespace FarmChain.Polling

variable {S C A ε : Type}

/-- One pass: what the test of the flag finds, what the source returns, and what the
calls made in the pass read from outside. -/
structure Pass (C A : Type) where
  stop : Bool
  item : Option A
  context : C

inductive Ending (ε : Type) where
  /-- The loop has not ended yet. -/
  | polling
  | stopped
  | raised (e : ε)
  deriving DecidableEq

/-- What a loop did: the items it handed over, the state after them, and how it ended. -/
structure Result (S A ε : Type) where
  handled : List A
  state : S
  ending : Ending ε

variable (handle : C → S → A → S × Except ε Unit)

def poll (s : S) : List (Pass C A) → Result S A ε
  | [] => ⟨[], s, .polling⟩
  | pass :: rest =>
    if pass.stop then ⟨[], s, .stopped⟩
    else match pass.item with
      | none => poll s rest
      | some a =>
        match handle pass.context s a with
        | (s, .error e) => ⟨[a], s, .raised e⟩
        | (s, .ok ()) =>
          let result := poll s rest
          {result with handled := a :: result.handled}

/-- The passes before the flag is found set. -/
def live (passes : List (Pass C A)) : List (Pass C A) := passes.takeWhile fun pass => !pass.stop

/-- The items the source offers until the flag is found set. -/
def offered (passes : List (Pass C A)) : List A := (live passes).filterMap Pass.item

/-- The state after a pass, whatever the handler raises. -/
def visit (s : S) (pass : Pass C A) : S :=
  match pass.item with
  | none => s
  | some a => (handle pass.context s a).1

/-- The handler raises in a pass. -/
def Raises (s : S) (pass : Pass C A) : Prop :=
  ∃ a e, pass.item = some a ∧ (handle pass.context s a).2 = .error e

/-- After a pass in which the handler raises, nothing more is offered. -/
def OnlyLastRaises (s : S) (passes : List (Pass C A)) : Prop :=
  ∀ before pass after, live passes = before ++ pass :: after →
    Raises handle (Run.run (visit handle) s before) pass → after.filterMap Pass.item = []

variable {handle} {s : S} {pass : Pass C A} {rest passes : List (Pass C A)}

theorem live_cons (h : pass.stop = false) : live (pass :: rest) = pass :: live rest :=
  List.takeWhile_cons_of_pos (by simp [h])

theorem live_of_stop (h : pass.stop = true) : live (pass :: rest) = [] :=
  List.takeWhile_cons_of_neg (by simp [h])

/-- The condition at a pass that does not raise is the condition on the rest. -/
theorem onlyLastRaises_cons (h : pass.stop = false) (hquiet : ¬Raises handle s pass) :
    OnlyLastRaises handle s (pass :: rest) ↔ OnlyLastRaises handle (visit handle s pass) rest := by
  unfold OnlyLastRaises
  rw [live_cons h]
  constructor
  · intro hlast before pass' after hsplit hraises
    exact hlast (pass :: before) pass' after (by rw [hsplit]; rfl) hraises
  · intro hlast before pass' after hsplit hraises
    cases before with
    | nil =>
      obtain ⟨rfl, _⟩ := List.cons.inj hsplit
      exact absurd hraises hquiet
    | cons first before =>
      obtain ⟨rfl, hrest⟩ := List.cons.inj hsplit
      exact hlast before pass' after hrest hraises

/-- The condition at a pass that raises is that nothing is offered after it. -/
theorem onlyLastRaises_raised (h : pass.stop = false) (hraises : Raises handle s pass) :
    OnlyLastRaises handle s (pass :: rest) ↔ offered rest = [] := by
  unfold OnlyLastRaises
  rw [live_cons h]
  constructor
  · intro hlast
    exact hlast [] pass (live rest) rfl hraises
  · intro hnone before pass' after hsplit _
    have hafter : after ⊆ live rest := by
      cases before with
      | nil =>
        obtain ⟨_, rfl⟩ := List.cons.inj hsplit
        exact List.Subset.refl _
      | cons first before =>
        obtain ⟨_, hsplit⟩ := List.cons.inj hsplit
        rw [hsplit]
        exact List.Subset.trans (List.subset_cons_self pass' after) (List.subset_append_right before _)
    rw [offered, List.filterMap_eq_nil_iff] at hnone
    exact List.filterMap_eq_nil_iff.mpr fun pass' hmem => hnone pass' (hafter hmem)

/-- A loop hands over everything exactly if the handler raises on the last item at most. -/
theorem poll_complete_iff :
    (poll handle s passes).handled = offered passes ↔ OnlyLastRaises handle s passes := by
  induction passes generalizing s with
  | nil =>
    refine ⟨fun _ before pass after hsplit => ?_, fun _ => rfl⟩
    simp [live] at hsplit
  | cons pass rest ih =>
    unfold poll
    cases hstop : pass.stop with
    | true =>
      rw [if_pos rfl]
      refine ⟨fun _ before pass' after hsplit => ?_, fun _ => ?_⟩
      · simp [live_of_stop hstop] at hsplit
      · simp [offered, live_of_stop hstop]
    | false =>
      rw [if_neg Bool.false_ne_true, offered, live_cons hstop]
      cases hitem : pass.item with
      | none =>
        have hquiet : ¬Raises handle s pass := by simp [Raises, hitem]
        have hvisit : visit handle s pass = s := by simp [visit, hitem]
        rw [onlyLastRaises_cons hstop hquiet, hvisit, List.filterMap_cons_none hitem]
        exact ih
      | some a =>
        rw [List.filterMap_cons_some hitem]
        dsimp only
        cases hhandle : handle pass.context s a with
        | mk s' result =>
          have hvisit : visit handle s pass = s' := by simp [visit, hitem, hhandle]
          cases result with
          | error e =>
            have hraises : Raises handle s pass := ⟨a, e, hitem, by rw [hhandle]⟩
            rw [onlyLastRaises_raised hstop hraises, List.cons_inj_right, eq_comm]
            rfl
          | ok =>
            have hquiet : ¬Raises handle s pass := by simp [Raises, hitem, hhandle]
            rw [onlyLastRaises_cons hstop hquiet, hvisit, ← ih, List.cons_inj_right]
            rfl

end FarmChain.Polling
