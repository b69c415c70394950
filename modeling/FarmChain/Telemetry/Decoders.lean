import FarmChain.Firmware.Decode
import FarmChain.Gateway.CrtDecode

/-! The two decoders.

The gateway sums the residues' shares, the firmware steps one modulus until the other
matches. On two residues in range both return the one value below the product of the
moduli that has them (`decoders_agree`); the gateway does so for three as well, and
gives back every value its `encode` takes. -/
namespace FarmChain.Telemetry
open Firmware Gateway

/-- Two or more residues in range, of distinct supported moduli. -/
structure Solvable (residues : List (Nat × Int)) : Prop where
  inRange : InRange residues
  nodup : (residues.map Prod.fst).Nodup
  two : 2 ≤ residues.length

/-- A value below the product of the moduli with every residue. -/
structure Solves (residues : List (Nat × Int)) (x : Nat) : Prop where
  below : x < (residues.map Prod.fst).prod
  residue : ∀ e ∈ residues, ((x % e.1 : Nat) : Int) = e.2

/-- The residues as a sequence of pairs. -/
def asPairs (residues : List (Nat × Int)) : List Item :=
  residues.map fun e => .pair (.int e.1) (.int e.2)

theorem sequenceItems_asPairs (residues : List (Nat × Int)) (index : Nat) :
    sequenceItems index (asPairs residues) = .ok (asItems residues) := by
  induction residues generalizing index with
  | nil => rfl
  | cons e rest ih =>
    show sequenceItems index (.pair (.int e.1) (.int e.2) :: asPairs rest) = _
    rw [sequenceItems, ih]
    rfl

/-- A sequence of pairs decodes as the mapping does. -/
theorem decode_asPairs (residues : List (Nat × Int)) :
    decode (.sequence (asPairs residues)) = decode (.mapping (asItems residues)) := by
  have hitems : (Residues.sequence (asPairs residues)).items =
      (Residues.mapping (asItems residues)).items := sequenceItems_asPairs residues 0
  simp only [decode, normaliseResidues, hitems]

section
variable {residues : List (Nat × Int)}

/-- The reconstructed value has every residue. -/
theorem Solvable.solution (h : Solvable residues) :
    Solves residues (Crt.solution inverse (naturals residues)) where
  below := by
    rw [← keys_naturals]
    exact Crt.solution_lt (coprime_naturals h.inRange h.nodup)
  residue := by
    intro e he
    obtain ⟨_, hnonneg, hlt⟩ := h.inRange e he
    have hmem : (e.1, e.2.toNat) ∈ naturals residues := List.mem_map_of_mem he
    have hmod := Crt.solution_modEq inverse_isInverse (coprime_naturals h.inRange h.nodup) hmem
    have heq : Crt.solution inverse (naturals residues) % e.1 = e.2.toNat % e.1 := hmod
    rw [heq, Nat.mod_eq_of_lt (by omega), Int.toNat_of_nonneg hnonneg]

/-- No other value does. -/
theorem Solvable.unique (h : Solvable residues) {x : Nat} (hx : Solves residues x) :
    x = Crt.solution inverse (naturals residues) := by
  have hmodEq : ∀ p ∈ naturals residues, x ≡ p.2 [MOD p.1] := by
    intro p hp
    obtain ⟨e, he, rfl⟩ := List.mem_map.mp hp
    have hres := hx.residue e he
    show x % e.1 = e.2.toNat % e.1
    rw [← hres, Int.toNat_natCast, Nat.mod_mod]
  rw [Crt.solution_eq_mod inverse_isInverse (coprime_naturals h.inRange h.nodup) hmodEq,
    Crt.modulus, keys_naturals, Nat.mod_eq_of_lt hx.below]

/-- The gateway returns the one value that has the residues. -/
theorem Solvable.decode (h : Solvable residues) :
    ∃ x, (∀ y, Solves residues y ↔ y = x) ∧
      decode (.mapping (asItems residues)) = .ok x ∧
      decode (.sequence (asPairs residues)) = .ok x := by
  have hdecode := decode_inRange h.inRange h.nodup h.two
  refine ⟨_, fun y => ⟨h.unique, ?_⟩, hdecode, (decode_asPairs residues).trans hdecode⟩
  rintro rfl
  exact h.solution

end

/-! ### What `encode` gives -/

theorem encode_entries {value : Nat} (h : value < MAX_VALUE) :
    ∃ d, encode value = .ok d ∧
      d.entries = MODULI.map fun modulus => (modulus, value % modulus) := by
  refine ⟨_, Except.bind_eq_ok.mpr ⟨(), Except.require_eq_ok.mpr ⟨by omega, by omega⟩, rfl⟩, ?_⟩
  rw [Int.toNat_natCast]
  rfl

/-- Some of a mapping's entries, in some order. -/
structure Among (residues : List (Nat × Int)) (d : Dict Nat Nat) : Prop where
  mem : ∀ e ∈ residues, ∃ r, (e.1, r) ∈ d.entries ∧ e.2 = (r : Nat)
  nodup : (residues.map Prod.fst).Nodup
  two : 2 ≤ residues.length

/-- All of them: the product is the full range. -/
theorem prod_of_three {l : List Nat} (hnodup : l.Nodup) (hsub : ∀ m ∈ l, m ∈ MODULI)
    (hthree : l.length = 3) : l.prod = MAX_VALUE := by
  have hperm : l.Perm MODULI := (hnodup.subperm hsub).perm_of_length_le (by rw [hthree]; decide)
  exact hperm.prod_eq

/-- A value's residues decode to it modulo the product of their moduli, all three to it. -/
theorem decode_among {value : Nat} (h : value < MAX_VALUE) :
    ∃ d, encode value = .ok d ∧ ∀ residues, Among residues d →
      decode (.mapping (asItems residues)) = .ok (value % (residues.map Prod.fst).prod) ∧
      decode (.sequence (asPairs residues)) = .ok (value % (residues.map Prod.fst).prod) ∧
      (residues.length = d.length → decode (.mapping (asItems residues)) = .ok value) := by
  obtain ⟨d, hencode, hentries⟩ := encode_entries h
  refine ⟨d, hencode, fun residues hamong => ?_⟩
  have hall (e : Nat × Int) (he : e ∈ residues) :
      e.1 ∈ MODULI ∧ e.2 = (value % e.1 : Nat) := by
    obtain ⟨r, hr, heq⟩ := hamong.mem e he
    rw [hentries] at hr
    obtain ⟨m, hm, hpair⟩ := List.mem_map.mp hr
    cases hpair
    exact ⟨hm, heq⟩
  have hdecode := decode_residues hall hamong.nodup hamong.two
  refine ⟨hdecode, (decode_asPairs residues).trans hdecode, fun hlength => ?_⟩
  have hthree : (residues.map Prod.fst).length = 3 := by
    rw [List.length_map, hlength, Dict.length, hentries]
    rfl
  have hsub : ∀ m ∈ residues.map Prod.fst, m ∈ MODULI := by
    intro m hm
    obtain ⟨e, he, rfl⟩ := List.mem_map.mp hm
    exact (hall e he).1
  rw [hdecode, prod_of_three hamong.nodup hsub hthree, Nat.mod_eq_of_lt h]

/-! ### The firmware's search -/

theorem modulusAt_mem {i : UInt8} (h : i < CRT_RESIDUE_COUNT) : modulusAt i ∈ MODULI := by
  rcases index_cases h with rfl | rfl | rfl <;> decide

theorem modulusAt_injective {i j : UInt8} (hi : i < CRT_RESIDUE_COUNT)
    (hj : j < CRT_RESIDUE_COUNT) (hne : i ≠ j) : modulusAt i ≠ modulusAt j := by
  rcases index_cases hi with rfl | rfl | rfl <;> rcases index_cases hj with rfl | rfl | rfl <;>
    first | exact absurd rfl hne | decide

/-- A pair of firmware residues as the gateway reads it. -/
def asResidues (first second : CrtResidue) : List (Nat × Int) :=
  [(modulusAt first.index, first.value.toNat), (modulusAt second.index, second.value.toNat)]

/-- Both residues below their moduli. -/
structure Reduced (first second : CrtResidue) : Prop extends Pair first second where
  below : first.value.toNat < modulusAt first.index
  belowToo : second.value.toNat < modulusAt second.index

theorem Reduced.solvable {first second : CrtResidue} (h : Reduced first second) :
    Solvable (asResidues first second) where
  inRange := by
    intro e he
    simp only [asResidues, List.mem_cons, List.not_mem_nil, or_false] at he
    rcases he with rfl | rfl
    · exact ⟨modulusAt_mem h.known, Int.natCast_nonneg _, Int.ofNat_lt.mpr h.below⟩
    · exact ⟨modulusAt_mem h.knownToo, Int.natCast_nonneg _, Int.ofNat_lt.mpr h.belowToo⟩
  nodup := by simpa [asResidues] using modulusAt_injective h.known h.knownToo h.distinct
  two := Nat.le_refl 2

/-- The search ends within as many passes as the largest modulus at what the gateway
returns, and none of its candidates has wrapped. -/
theorem crtDecode_eq_decode {first second : CrtResidue} (h : Reduced first second) :
    ∃ x < 2 ^ 32, decode (.mapping (asItems (asResidues first second))) = .ok x ∧
      ∀ passes, 103 ≤ passes → ∀ out,
        crtDecode passes (some (first, second)) (some out) = some (.ok (UInt32.ofNat x)) ∧
        ∃ k, x = first.value.toNat + k * modulusAt first.index ∧ ∀ j ≤ k,
          (candidate (moduli.getD first.index.toNat 0).toUInt32 first.value.toUInt32 j).toNat =
            first.value.toNat + j * modulusAt first.index := by
  obtain ⟨x, honly, hdecode, _⟩ := h.solvable.decode
  have hx := (honly x).mpr rfl
  have hbelow : x < modulusAt first.index * modulusAt second.index := by
    simpa [asResidues] using hx.below
  have hfirst := hx.residue (modulusAt first.index, first.value.toNat) (by simp [asResidues])
  have hsecond := hx.residue (modulusAt second.index, second.value.toNat) (by simp [asResidues])
  have hfits : modulusAt first.index * modulusAt second.index ≤ 103 * 103 :=
    Nat.mul_le_mul (modulusAt_range h.known).2 (modulusAt_range h.knownToo).2
  exact ⟨x, by omega, hdecode, fun passes hpasses out =>
    crtDecode_least h.toPair hbelow (Int.ofNat_inj.mp hfirst) (Int.ofNat_inj.mp hsecond) hpasses out⟩

/-! ### Both -/

/-- **Both decoders return the one value that has the residues.** -/
theorem decoders_agree :
    (∀ residues, Solvable residues → ∃ x, (∀ y, Solves residues y ↔ y = x) ∧
      decode (.mapping (asItems residues)) = .ok x ∧
      decode (.sequence (asPairs residues)) = .ok x) ∧
    (∀ value < MAX_VALUE, ∃ d, encode value = .ok d ∧ ∀ residues, Among residues d →
      decode (.mapping (asItems residues)) = .ok (value % (residues.map Prod.fst).prod) ∧
      decode (.sequence (asPairs residues)) = .ok (value % (residues.map Prod.fst).prod) ∧
      (residues.length = d.length → decode (.mapping (asItems residues)) = .ok value)) ∧
    (∀ first second, Reduced first second →
      ∃ x < 2 ^ 32, decode (.mapping (asItems (asResidues first second))) = .ok x ∧
        ∀ passes, 103 ≤ passes → ∀ out,
          crtDecode passes (some (first, second)) (some out) = some (.ok (UInt32.ofNat x)) ∧
          ∃ k, x = first.value.toNat + k * modulusAt first.index ∧ ∀ j ≤ k,
            (candidate (moduli.getD first.index.toNat 0).toUInt32 first.value.toUInt32 j).toNat =
              first.value.toNat + j * modulusAt first.index) :=
  ⟨fun _ h => h.decode, fun _ h => decode_among h, fun _ _ h => crtDecode_eq_decode h⟩

/-- The three residues of 1009090 decode to it, in any order and either form, and the
first two to what both decoders make of them. -/
theorem decoders_agree_highest :
    decode (.mapping (asItems [(103, 102), (97, 96), (101, 100)])) = .ok 1009090 ∧
      ∃ x < 2 ^ 32, decode (.mapping (asItems (asResidues ⟨1, 100⟩ ⟨0, 96⟩))) = .ok x ∧
        crtDecode 103 (some (⟨1, 100⟩, ⟨0, 96⟩)) (some 0) = some (.ok (UInt32.ofNat x)) := by
  constructor
  · obtain ⟨d, hencode, hdecode⟩ := decoders_agree.2.1 1009090 (by decide)
    obtain ⟨d', hencode', hentries⟩ := encode_entries (by decide : 1009090 < MAX_VALUE)
    cases hencode.symm.trans hencode'
    refine (hdecode _ ⟨?_, by decide, by decide⟩).2.2 (by rw [Dict.length, hentries]; rfl)
    rw [hentries]
    intro e he
    simp only [List.mem_cons, List.not_mem_nil, or_false] at he
    rcases he with rfl | rfl | rfl
    · exact ⟨102, by decide⟩
    · exact ⟨96, by decide⟩
    · exact ⟨100, by decide⟩
  · obtain ⟨x, hx, hdecode, hsearch⟩ := decoders_agree.2.2 ⟨1, 100⟩ ⟨0, 96⟩
      ⟨⟨by decide, by decide, by decide⟩, by decide, by decide⟩
    exact ⟨x, hx, hdecode, (hsearch 103 (Nat.le_refl _) 0).1⟩

/-- The gateway's range ends at the product of the moduli, short of the firmware's maximum. -/
theorem encode_above_range : CRT_MAX_VALUE.toNat = 1009591 ∧ 1009091 < 1009591 ∧
    encode 1009091 = .error (.value "value must be in range 0..1009090") := by
  decide

end FarmChain.Telemetry
