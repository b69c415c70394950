/-! Computations that may fail.

Code that returns early with an error is a `do` block in `Except`. A guard is
`require`, so a block is a straight line of binds, and `bind_eq_ok` turns "the
block succeeded" into the list of what each line returned. -/
namespace FarmChain

/-- Return early with `message` unless `c` holds. -/
def require {ε : Type} (c : Prop) [Decidable c] (message : ε) : Except ε Unit :=
  if c then .ok () else .error message

/-- Wrap an error's text. -/
def wrapError {ε α : Type} (f : ε → ε) : Except ε α → Except ε α
  | .ok a => .ok a
  | .error e => .error (f e)

namespace Except

variable {ε α β : Type}

/-- A block succeeds when its first line does and the rest does on what it returned. -/
theorem bind_eq_ok {first : Except ε α} {rest : α → Except ε β} {b : β} :
    (first >>= rest) = .ok b ↔ ∃ a, first = .ok a ∧ rest a = .ok b := by
  cases first <;> simp [bind, Except.bind]

theorem ok_bind (a : α) (rest : α → Except ε β) : (.ok a >>= rest) = rest a := rfl

@[simp] theorem pure_eq_ok {a b : α} : (pure a : Except ε α) = .ok b ↔ a = b :=
  ⟨fun h => Except.ok.inj h, fun h => congrArg Except.ok h⟩

@[simp] theorem require_eq_ok {c : Prop} [Decidable c] {message : ε} {u : Unit} :
    require c message = .ok u ↔ c := by
  unfold require
  split <;> simp [*]

@[simp] theorem wrapError_eq_ok {f : ε → ε} {x : Except ε α} {a : α} :
    wrapError f x = .ok a ↔ x = .ok a := by
  cases x <;> simp [wrapError]

/-! ### Two runs of a block -/

/-- The same error, or results that correspond. -/
def Agree {α' : Type} (r : α → α' → Prop) : Except ε α → Except ε α' → Prop
  | .ok a, .ok a' => r a a'
  | .error e, .error e' => e = e'
  | _, _ => False

section
variable {α' β' : Type} {r : α → α' → Prop} {s : β → β' → Prop}

theorem Agree.pure {a : α} {a' : α'} (h : r a a') :
    Agree r (pure a : Except ε α) (pure a') := h

/-- Lines that agree, followed by blocks that agree on what they returned. -/
theorem Agree.bind {x : Except ε α} {x' : Except ε α'} {rest : α → Except ε β}
    {rest' : α' → Except ε β'} (h : Agree r x x')
    (hrest : ∀ a a', r a a' → Agree s (rest a) (rest' a')) :
    Agree s (x >>= rest) (x' >>= rest') := by
  cases x with
  | error e =>
    cases x' with
    | error e' => exact h
    | ok a' => cases h
  | ok a =>
    cases x' with
    | error e' => cases h
    | ok a' => exact hrest a a' h

/-- What corresponding results have in common, the two runs return alike. -/
theorem Agree.map_eq {γ : Type} {x : Except ε α} {x' : Except ε α'} {f : α → γ} {f' : α' → γ}
    (h : Agree r x x') (hf : ∀ a a', r a a' → f a = f' a') : x.map f = x'.map f' := by
  cases x with
  | error e =>
    cases x' with
    | error e' => exact congrArg Except.error h
    | ok a' => cases h
  | ok a =>
    cases x' with
    | error e' => cases h
    | ok a' => exact congrArg Except.ok (hf a a' h)

/-- One and the same block, whatever it returns. -/
theorem Agree.of_eq {r : α → α → Prop} {x x' : Except ε α} (h : x' = x)
    (hr : ∀ a, x = .ok a → r a a) : Agree r x x' := by
  subst h
  cases hx : x' with
  | error e => rfl
  | ok a => exact hr a hx

/-- Both fail with one error, or both return. -/
theorem Agree.results {x : Except ε α} {x' : Except ε α'} (h : Agree r x x') :
    (∃ e, x = .error e ∧ x' = .error e) ∨ ∃ a a', x = .ok a ∧ x' = .ok a' ∧ r a a' := by
  cases x with
  | error e =>
    cases x' with
    | error e' => exact .inl ⟨e, rfl, congrArg Except.error (Eq.symm h)⟩
    | ok a' => cases h
  | ok a =>
    cases x' with
    | error e' => cases h
    | ok a' => exact .inr ⟨a, a', rfl, rfl, h⟩

/-- One and the same line, followed by blocks that agree. -/
theorem Agree.bind_eq {x x' : Except ε α} {rest : α → Except ε β} {rest' : α → Except ε β'}
    (h : x' = x) (hrest : ∀ a, x = .ok a → Agree s (rest a) (rest' a)) :
    Agree s (x >>= rest) (x' >>= rest') := by
  subst h
  cases hx : x' with
  | error e => rfl
  | ok a => exact hrest a hx

end

end Except
end FarmChain
