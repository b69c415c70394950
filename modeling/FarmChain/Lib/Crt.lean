import Mathlib.Data.Nat.ChineseRemainder
import Mathlib.Tactic.Ring

/-! Reconstruction from residues.

For pairwise coprime moduli with product `M`, the sum of `r * (M / m) * inv (M / m) m`
has residue `r` modulo each `m`, whatever inverse `inv` picks; reduced modulo `M` it
is the least solution, and so a value is recovered exactly when it is below `M`. -/
namespace FarmChain.Crt

/-- The inverse picked is one, wherever there is one. -/
def IsInverse (inv : Nat → Nat → Nat) : Prop :=
  ∀ a m, 0 < m → Nat.Coprime a m → a * inv a m ≡ 1 [MOD m]

section
variable (inv : Nat → Nat → Nat)

/-- One residue's share of the sum. -/
def term (product : Nat) (p : Nat × Nat) : Nat :=
  p.2 * (product / p.1) * inv (product / p.1) p.1

/-- The sum over all residues. -/
def total (product : Nat) (residues : List (Nat × Nat)) : Nat :=
  (residues.map (term inv product)).sum

/-- The product of the moduli. -/
def modulus (residues : List (Nat × Nat)) : Nat := (residues.map Prod.fst).prod

/-- The reconstructed value. -/
def solution (residues : List (Nat × Nat)) : Nat :=
  total inv (modulus residues) residues % modulus residues

end

/-- Residues of positive, pairwise coprime moduli. -/
structure Coprime (residues : List (Nat × Nat)) : Prop where
  positive : ∀ p ∈ residues, 0 < p.1
  pairwise : (residues.map Prod.fst).Pairwise Nat.Coprime

variable {inv : Nat → Nat → Nat} {residues : List (Nat × Nat)}

theorem Coprime.modulus_pos (h : Coprime residues) : 0 < modulus residues := by
  refine Nat.pos_of_ne_zero fun hzero => ?_
  obtain ⟨p, hp, hp0⟩ := List.mem_map.mp (List.prod_eq_zero_iff.mp hzero)
  have hpos := h.positive p hp
  omega

/-- The other moduli's share vanishes modulo `m`. -/
theorem term_modEq_zero {product m : Nat} {q : Nat × Nat} (hco : Nat.Coprime m q.1)
    (hm : m ∣ product) (hdvd : q.1 ∣ product) :
    term inv product q ≡ 0 [MOD m] := by
  have hmul : q.1 * m ∣ product := hco.symm.mul_dvd_of_dvd_of_dvd hdvd hm
  have hquot : m ∣ product / q.1 := Nat.dvd_div_of_mul_dvd hmul
  exact (Nat.modEq_zero_iff_dvd).mpr
    (Dvd.dvd.mul_right (Dvd.dvd.mul_left hquot q.2) (inv (product / q.1) q.1))

theorem sum_modEq_zero {product m : Nat} {l : List (Nat × Nat)}
    (h : ∀ q ∈ l, term inv product q ≡ 0 [MOD m]) :
    (l.map (term inv product)).sum ≡ 0 [MOD m] := by
  induction l with
  | nil => exact Nat.ModEq.refl 0
  | cons q rest ih =>
    have hrest := ih fun q' hq' => h q' (List.mem_cons_of_mem q hq')
    rw [List.map_cons, List.sum_cons]
    exact (h q (List.mem_cons_self ..)).add hrest

theorem modulus_split (a b : List (Nat × Nat)) (p : Nat × Nat) :
    modulus (a ++ p :: b) = p.1 * modulus (a ++ b) := by
  simp only [modulus, List.map_append, List.map_cons, List.prod_append, List.prod_cons]
  ring

/-- A modulus is coprime to all the others. -/
theorem Coprime.others {a b : List (Nat × Nat)} {p q : Nat × Nat} (h : Coprime (a ++ p :: b))
    (hq : q ∈ a ++ b) : Nat.Coprime p.1 q.1 := by
  have hpairs := h.pairwise
  rw [List.map_append, List.map_cons, List.pairwise_append, List.pairwise_cons] at hpairs
  obtain ⟨_, ⟨hpb, _⟩, hab⟩ := hpairs
  rcases List.mem_append.mp hq with hqa | hqb
  · exact (hab q.1 (List.mem_map_of_mem hqa) p.1 (List.mem_cons_self ..)).symm
  · exact hpb q.1 (List.mem_map_of_mem hqb)

/-- A modulus is coprime to the product of the others. -/
theorem Coprime.quotient (h : Coprime residues) {p : Nat × Nat} (hp : p ∈ residues) :
    Nat.Coprime (modulus residues / p.1) p.1 := by
  obtain ⟨a, b, rfl⟩ := List.append_of_mem hp
  rw [modulus_split, Nat.mul_div_cancel_left _ (h.positive p hp)]
  refine Nat.coprime_list_prod_left_iff.mpr fun m hm => ?_
  obtain ⟨q, hq, rfl⟩ := List.mem_map.mp hm
  exact (h.others hq).symm

/-- The sum has every prescribed residue. -/
theorem total_modEq (hinv : IsInverse inv) (h : Coprime residues) {p : Nat × Nat}
    (hp : p ∈ residues) : total inv (modulus residues) residues ≡ p.2 [MOD p.1] := by
  have hpos := h.positive p hp
  have hquot := h.quotient hp
  obtain ⟨a, b, rfl⟩ := List.append_of_mem hp
  have hdvd (q : Nat × Nat) (hq : q ∈ a ++ p :: b) : q.1 ∣ modulus (a ++ p :: b) :=
    List.dvd_prod (List.mem_map_of_mem hq)
  have hothers : ((a ++ b).map (term inv (modulus (a ++ p :: b)))).sum ≡ 0 [MOD p.1] := by
    refine sum_modEq_zero fun q hq => term_modEq_zero (h.others hq) (hdvd p hp) (hdvd q ?_)
    exact (List.sublist_cons_self p b).append_left a |>.subset hq
  have hown : term inv (modulus (a ++ p :: b)) p ≡ p.2 [MOD p.1] := by
    have hone := (Nat.ModEq.refl p.2).mul (hinv _ p.1 hpos hquot)
    rwa [← mul_assoc, mul_one] at hone
  have hsum := hown.add hothers
  rw [Nat.add_zero] at hsum
  have htotal : total inv (modulus (a ++ p :: b)) (a ++ p :: b) =
      term inv (modulus (a ++ p :: b)) p +
        ((a ++ b).map (term inv (modulus (a ++ p :: b)))).sum := by
    simp only [total, List.map_append, List.map_cons, List.sum_append, List.sum_cons]
    ring
  rw [htotal]
  exact hsum

theorem solution_lt (h : Coprime residues) : solution inv residues < modulus residues :=
  Nat.mod_lt _ h.modulus_pos

/-- So has the reconstructed value. -/
theorem solution_modEq (hinv : IsInverse inv) (h : Coprime residues) {p : Nat × Nat}
    (hp : p ∈ residues) : solution inv residues ≡ p.2 [MOD p.1] := by
  have hdvd : p.1 ∣ modulus residues := List.dvd_prod (List.mem_map_of_mem hp)
  exact ((Nat.mod_modEq _ _).of_dvd hdvd).trans (total_modEq hinv h hp)

/-- The least value with the prescribed residues. -/
theorem solution_eq_mod (hinv : IsInverse inv) (h : Coprime residues) {value : Nat}
    (hvalue : ∀ p ∈ residues, value ≡ p.2 [MOD p.1]) :
    solution inv residues = value % modulus residues := by
  have hmod : total inv (modulus residues) residues ≡ value [MOD modulus residues] := by
    have hpairs := List.pairwise_map.mp h.pairwise
    refine (Nat.modEq_list_map_prod_iff hpairs).mpr fun p hp => ?_
    exact (total_modEq hinv h hp).trans (hvalue p hp).symm
  exact hmod

end FarmChain.Crt
