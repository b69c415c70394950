import Mathlib.Order.Monotone.Basic

/-! Behaviours of a next-state relation, with stuttering.

A behaviour is an infinite sequence of states, and `Steps next` says that each of its
steps is a step of `next` or changes nothing. What every step preserves holds all along
(`invariant`), a record that steps only add to holds what they wrote (`recorded_iff`), and
under weak fairness of an action that lowers a rank, what keeps the action enabled comes to
an end (`leadsTo_of_rank`). -/
namespace FarmChain.Temporal

variable {S : Type}

/-- Each step is a step of `next` or a stutter. -/
def Steps (next : S → S → Prop) (σ : ℕ → S) : Prop :=
  ∀ n, next (σ n) (σ (n + 1)) ∨ σ (n + 1) = σ n

/-- The action can change the state. -/
def Enabled (action : S → S → Prop) (s : S) : Prop := ∃ s', action s s' ∧ s' ≠ s

/-- An action that stays enabled is taken. -/
def WeaklyFair (action : S → S → Prop) (σ : ℕ → S) : Prop :=
  ∀ n, (∀ m, n ≤ m → Enabled action (σ m)) →
    ∃ m, n ≤ m ∧ action (σ m) (σ (m + 1)) ∧ σ (m + 1) ≠ σ m

/-- Whenever `p` holds, `q` holds then or later. -/
def LeadsTo (p q : S → Prop) (σ : ℕ → S) : Prop := ∀ n, p (σ n) → ∃ m, n ≤ m ∧ q (σ m)

variable {next action : S → S → Prop} {σ : ℕ → S}

/-- What holds at first and is preserved by every step holds all along. -/
theorem invariant {I : S → Prop} (h : Steps next σ) (hinit : I (σ 0))
    (hstep : ∀ s s', next s s' → I s → I s') (n : ℕ) : I (σ n) := by
  induction n with
  | zero => exact hinit
  | succ n ih =>
    rcases h n with hnext | hstutter
    · exact hstep _ _ hnext ih
    · rwa [hstutter]

/-- A reflexive and transitive relation between the ends of every step relates an earlier
state to a later one. -/
theorem rel_of_le {r : S → S → Prop} (h : Steps next σ) (hrefl : ∀ s, r s s)
    (htrans : ∀ a b c, r a b → r b c → r a c) (hstep : ∀ s s', next s s' → r s s') {n m : ℕ}
    (hnm : n ≤ m) : r (σ n) (σ m) := by
  induction m, hnm using Nat.le_induction with
  | base => exact hrefl _
  | succ m _ ih =>
    rcases h m with hnext | hstutter
    · exact htrans _ _ _ ih (hstep _ _ hnext)
    · rwa [hstutter]

/-- What is recorded, when each step adds what it writes: what was recorded at first, and
what a step so far has written. -/
theorem recorded_iff {A : Type} {I : S → Prop} (recorded : S → A → Prop)
    {writes : S → S → A → Prop} (h : Steps next σ) (hI : ∀ n, I (σ n))
    (hstutter : ∀ s a, I s → ¬writes s s a)
    (hstep : ∀ s s', next s s' → I s → ∀ a, recorded s' a ↔ recorded s a ∨ writes s s' a)
    (n : ℕ) (a : A) :
    recorded (σ n) a ↔ recorded (σ 0) a ∨ ∃ m < n, writes (σ m) (σ (m + 1)) a := by
  induction n with
  | zero => simp
  | succ n ih =>
    have hadded : recorded (σ (n + 1)) a ↔ recorded (σ n) a ∨ writes (σ n) (σ (n + 1)) a := by
      rcases h n with hnext | hsame
      · exact hstep _ _ hnext (hI n) a
      · rw [hsame, or_iff_left (hstutter _ a (hI n))]
    rw [hadded, ih, or_assoc]
    refine or_congr Iff.rfl ⟨?_, ?_⟩
    · rintro (⟨m, hm, ha⟩ | ha)
      · exact ⟨m, Nat.lt_succ_of_lt hm, ha⟩
      · exact ⟨n, Nat.lt_succ_self n, ha⟩
    · rintro ⟨m, hm, ha⟩
      rcases Nat.lt_succ_iff_lt_or_eq.mp hm with hlt | rfl
      · exact .inl ⟨m, hlt, ha⟩
      · exact .inr ha

/-- **A fair action that is enabled while `p` holds and lowers a rank no step raises ends
`p` in `q`.** -/
theorem leadsTo_of_rank {p q : S → Prop} (rank : S → ℕ) (h : Steps next σ)
    (hfair : WeaklyFair action σ) (henabled : ∀ s, p s → Enabled action s)
    (hkeep : ∀ s s', next s s' → p s → (p s' ∧ rank s' ≤ rank s) ∨ q s')
    (hlower : ∀ s s', action s s' → p s → rank s' < rank s) : LeadsTo p q σ := by
  intro n hp
  induction hrank : rank (σ n) using Nat.strong_induction_on generalizing n with
  | _ r ih =>
    by_contra hnever
    -- without `q`, every later state keeps `p` and a rank as low
    have hstays : ∀ m, n ≤ m → p (σ m) ∧ rank (σ m) ≤ rank (σ n) := by
      intro m hm
      induction m, hm using Nat.le_induction with
      | base => exact ⟨hp, le_rfl⟩
      | succ m hm ihm =>
        rcases h m with hnext | hstutter
        · rcases hkeep _ _ hnext ihm.1 with ⟨hp', hle⟩ | hq
          · exact ⟨hp', hle.trans ihm.2⟩
          · exact absurd ⟨m + 1, Nat.le_succ_of_le hm, hq⟩ hnever
        · rwa [hstutter]
    obtain ⟨m, hm, hact, _⟩ := hfair n fun m hm => henabled _ (hstays m hm).1
    have hlt : rank (σ (m + 1)) < r := by
      have hdown := hlower _ _ hact (hstays m hm).1
      have hle := (hstays m hm).2
      omega
    obtain ⟨k, hk, hq⟩ := ih _ hlt (m + 1) (hstays (m + 1) (Nat.le_succ_of_le hm)).1 rfl
    exact hnever ⟨k, by omega, hq⟩

end FarmChain.Temporal
