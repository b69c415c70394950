import Mathlib.Data.Nat.ModEq
import FarmChain.Firmware.Encode

/-! The firmware's decoder.

`crtDecode` steps through the values with the first residue until one has the second. For
residues in range it always finds one, the least there is, within as many steps as the
second modulus (`crtDecode_least`). That is the value a sensor encoded exactly when it is
below the product of the two moduli (`round_trip_iff`). -/
namespace FarmChain.Firmware

/-- The loop from a candidate on, for so many passes at most; `none` while it goes on. -/
def searchLoop (m0 m1 value : UInt32) : Nat → UInt32 → Option (Except EspErr UInt32)
  | 0, _ => none
  | passes + 1, candidate =>
    if candidate < CRT_MAX_VALUE then
      if candidate % m1 = value then some (.ok candidate)
      else searchLoop m0 m1 value passes (candidate + m0)
    else some (.error .ESP_ERR_NOT_FOUND)

/-- What `reading` points at afterwards. -/
def crtDecode (passes : Nat) (residues : Pointer (CrtResidue × CrtResidue))
    (reading : Pointer UInt32) : Option (Except EspErr UInt32) :=
  match residues, reading with
  | some (first, second), some _ =>
    if first.index ≥ CRT_RESIDUE_COUNT ∨ second.index ≥ CRT_RESIDUE_COUNT ∨
        first.index = second.index then some (.error .ESP_ERR_INVALID_ARG)
    else
      let m0 := moduli.getD first.index.toNat 0
      let m1 := moduli.getD second.index.toNat 0
      if first.value.toUInt16 ≥ m0 ∨ second.value.toUInt16 ≥ m1 then
        some (.error .ESP_ERR_INVALID_ARG)
      else searchLoop m0.toUInt32 m1.toUInt32 second.value.toUInt32 passes first.value.toUInt32
  | _, _ => some (.error .ESP_ERR_INVALID_ARG)

/-- The loop's candidates, as the machine counts them. -/
def candidate (m0 start : UInt32) : Nat → UInt32
  | 0 => start
  | i + 1 => candidate m0 start i + m0

/-! ### The search -/

/-- A candidate below the maximum is stepped up without wrapping. -/
theorem toNat_add_step {c : UInt32} (m : UInt16) (hc : c.toNat < CRT_MAX_VALUE.toNat) :
    (c + m.toUInt32).toNat = c.toNat + m.toNat := by
  have hm := m.toNat_lt
  have hmax : CRT_MAX_VALUE.toNat = 1009591 := rfl
  rw [UInt32.toNat_add, UInt16.toNat_toUInt32]
  omega

/-- As long as the candidates stay below the maximum they are those of exact arithmetic. -/
theorem toNat_candidate {start : UInt32} {m : UInt16} {k : Nat}
    (h : start.toNat + k * m.toNat < CRT_MAX_VALUE.toNat) {j : Nat} (hj : j ≤ k) :
    (candidate m.toUInt32 start j).toNat = start.toNat + j * m.toNat := by
  induction j with
  | zero => simp [candidate]
  | succ j ih =>
    have hbelow : start.toNat + j * m.toNat < CRT_MAX_VALUE.toNat :=
      lt_of_le_of_lt (Nat.add_le_add_left (Nat.mul_le_mul_right _ (by omega)) _) h
    rw [candidate, toNat_add_step m (by rw [ih (by omega)]; exact hbelow), ih (by omega),
      Nat.succ_mul, Nat.add_assoc]

/-- The search ends at the first candidate that has the value. -/
theorem searchLoop_eq {m0 : UInt16} {m1 value start : UInt32} {k passes : Nat}
    (hbound : start.toNat + k * m0.toNat < CRT_MAX_VALUE.toNat)
    (hmiss : ∀ j < k, (start.toNat + j * m0.toNat) % m1.toNat ≠ value.toNat)
    (hhit : (start.toNat + k * m0.toNat) % m1.toNat = value.toNat) (hpasses : k < passes) :
    searchLoop m0.toUInt32 m1 value passes start =
      some (.ok (UInt32.ofNat (start.toNat + k * m0.toNat))) := by
  induction k generalizing start passes with
  | zero =>
    obtain ⟨passes, rfl⟩ := Nat.exists_eq_add_of_lt hpasses
    simp only [Nat.zero_mul, Nat.add_zero, UInt32.ofNat_toNat] at hbound hhit ⊢
    rw [searchLoop, if_pos (UInt32.lt_iff_toNat_lt.mpr hbound), if_pos]
    exact UInt32.toNat_inj.mp (by rw [UInt32.toNat_mod, hhit])
  | succ k ih =>
    obtain ⟨passes, rfl⟩ := Nat.exists_eq_add_of_lt hpasses
    have hstart : start.toNat < CRT_MAX_VALUE.toNat := by omega
    have hstep := toNat_add_step m0 hstart
    have hshift (j : Nat) : (start + m0.toUInt32).toNat + j * m0.toNat =
        start.toNat + (j + 1) * m0.toNat := by
      rw [hstep, Nat.succ_mul]
      omega
    have hfirst : start % m1 ≠ value := by
      intro heq
      refine hmiss 0 (Nat.succ_pos k) ?_
      rw [Nat.zero_mul, Nat.add_zero, ← UInt32.toNat_mod, heq]
    rw [show k + 1 + passes + 1 = (k + passes + 1) + 1 by omega, searchLoop,
      if_pos (UInt32.lt_iff_toNat_lt.mpr hstart), if_neg hfirst,
      ih (by rw [hshift]; exact hbound) (fun j hj => ?_) (by rw [hshift]; exact hhit) (by omega),
      hshift]
    rw [hshift]
    exact hmiss (j + 1) (by omega)

/-! ### What it finds -/

/-- The modulus of an index. -/
def modulusAt (i : UInt8) : Nat := (moduli.getD i.toNat 0).toNat

theorem index_cases {i : UInt8} (h : i < CRT_RESIDUE_COUNT) : i = 0 ∨ i = 1 ∨ i = 2 := by
  have hlt : i.toNat < 3 := UInt8.lt_iff_toNat_lt.mp h
  have hcases : i.toNat = 0 ∨ i.toNat = 1 ∨ i.toNat = 2 := by omega
  exact hcases.imp UInt8.toNat_inj.mp (Or.imp UInt8.toNat_inj.mp UInt8.toNat_inj.mp)

theorem modulusAt_range {i : UInt8} (h : i < CRT_RESIDUE_COUNT) :
    0 < modulusAt i ∧ modulusAt i ≤ 103 := by
  rcases index_cases h with rfl | rfl | rfl <;> decide

theorem modulusAt_coprime {i j : UInt8} (hi : i < CRT_RESIDUE_COUNT) (hj : j < CRT_RESIDUE_COUNT)
    (hne : i ≠ j) : Nat.Coprime (modulusAt i) (modulusAt j) := by
  rcases index_cases hi with rfl | rfl | rfl <;> rcases index_cases hj with rfl | rfl | rfl <;>
    first | exact absurd rfl hne | decide

/-- Two residues of different moduli. -/
structure Pair (first second : CrtResidue) : Prop where
  known : first.index < CRT_RESIDUE_COUNT
  knownToo : second.index < CRT_RESIDUE_COUNT
  distinct : first.index ≠ second.index

/-- Residues in range are searched. -/
theorem crtDecode_eq_searchLoop {first second : CrtResidue} (hpair : Pair first second)
    (hfirst : first.value.toNat < modulusAt first.index)
    (hsecond : second.value.toNat < modulusAt second.index) (passes : Nat) (buffer : UInt32) :
    crtDecode passes (some (first, second)) (some buffer) =
      searchLoop (moduli.getD first.index.toNat 0).toUInt32
        (moduli.getD second.index.toNat 0).toUInt32 second.value.toUInt32 passes
        first.value.toUInt32 := by
  have hguard : ¬(first.index ≥ CRT_RESIDUE_COUNT ∨ second.index ≥ CRT_RESIDUE_COUNT ∨
      first.index = second.index) := by
    rintro (hge | hge | heq)
    · exact UInt8.not_le.mpr hpair.known hge
    · exact UInt8.not_le.mpr hpair.knownToo hge
    · exact hpair.distinct heq
  have hrange : ¬(first.value.toUInt16 ≥ moduli.getD first.index.toNat 0 ∨
      second.value.toUInt16 ≥ moduli.getD second.index.toNat 0) := by
    rintro (hge | hge)
    · rw [ge_iff_le, UInt16.le_iff_toNat_le, UInt8.toNat_toUInt16] at hge
      exact Nat.not_le.mpr hfirst hge
    · rw [ge_iff_le, UInt16.le_iff_toNat_le, UInt8.toNat_toUInt16] at hge
      exact Nat.not_le.mpr hsecond hge
  unfold crtDecode
  dsimp only
  rw [if_neg hguard, if_neg hrange]

/-- On the way to a value, from its first residue up, no other has its second residue. -/
theorem earlier_misses {m n x j : Nat} (hco : Nat.Coprime m n) (hx : x < m * n) (hj : j < x / m) :
    (x % m + j * m) % n ≠ x % n := by
  intro hhit
  have hm : 0 < m := Nat.pos_of_ne_zero fun hzero => by simp [hzero] at hj
  have hsame : x % m + j * m ≡ x [MOD m * n] :=
    (Nat.modEq_and_modEq_iff_modEq_mul hco).mp ⟨by simp [Nat.ModEq], hhit⟩
  have hlt : x % m + j * m < x :=
    calc x % m + j * m
      _ < x % m + x / m * m := Nat.add_lt_add_left (Nat.mul_lt_mul_of_pos_right hj hm) _
      _ = x := Nat.mod_add_div' x m
  exact absurd (hsame.eq_of_lt_of_lt (lt_trans hlt hx) hx) (ne_of_lt hlt)

/-- The least value with both residues is found, in exact arithmetic all along. -/
theorem crtDecode_least {first second : CrtResidue} (hpair : Pair first second) {x : Nat}
    (hx : x < modulusAt first.index * modulusAt second.index)
    (hfirst : x % modulusAt first.index = first.value.toNat)
    (hsecond : x % modulusAt second.index = second.value.toNat) {passes : Nat}
    (hpasses : 103 ≤ passes) (buffer : UInt32) :
    crtDecode passes (some (first, second)) (some buffer) = some (.ok (UInt32.ofNat x)) ∧
      ∃ k, x = first.value.toNat + k * modulusAt first.index ∧ ∀ j ≤ k,
        (candidate (moduli.getD first.index.toNat 0).toUInt32 first.value.toUInt32 j).toNat =
          first.value.toNat + j * modulusAt first.index := by
  have hco := modulusAt_coprime hpair.known hpair.knownToo hpair.distinct
  obtain ⟨hpos0, hle0⟩ := modulusAt_range hpair.known
  obtain ⟨hpos1, hle1⟩ := modulusAt_range hpair.knownToo
  have hstart : first.value.toUInt32.toNat = x % modulusAt first.index :=
    (UInt8.toNat_toUInt32 _).trans hfirst.symm
  have hvalue : second.value.toUInt32.toNat = x % modulusAt second.index :=
    (UInt8.toNat_toUInt32 _).trans hsecond.symm
  have hsplit : x % modulusAt first.index + x / modulusAt first.index * modulusAt first.index = x :=
    Nat.mod_add_div' x _
  have hpasses : x / modulusAt first.index < passes :=
    lt_of_lt_of_le (Nat.div_lt_of_lt_mul hx) (hle1.trans hpasses)
  have hmax : modulusAt first.index * modulusAt second.index ≤ 103 * 103 :=
    Nat.mul_le_mul hle0 hle1
  have hbound : first.value.toUInt32.toNat + x / modulusAt first.index * modulusAt first.index <
      CRT_MAX_VALUE.toNat := by
    rw [hstart, hsplit]
    exact lt_of_lt_of_le hx (hmax.trans (by decide))
  have hmiss : ∀ j < x / modulusAt first.index,
      (first.value.toUInt32.toNat + j * modulusAt first.index) %
        (moduli.getD second.index.toNat 0).toUInt32.toNat ≠ second.value.toUInt32.toNat := by
    intro j hj
    rw [hstart, hvalue, UInt16.toNat_toUInt32]
    exact earlier_misses hco hx hj
  have hhit : (first.value.toUInt32.toNat + x / modulusAt first.index * modulusAt first.index) %
      (moduli.getD second.index.toNat 0).toUInt32.toNat = second.value.toUInt32.toNat := by
    rw [hstart, hvalue, UInt16.toNat_toUInt32, hsplit]
    rfl
  rw [crtDecode_eq_searchLoop hpair (hfirst ▸ Nat.mod_lt x hpos0) (hsecond ▸ Nat.mod_lt x hpos1),
    ← hfirst]
  refine ⟨?_, x / modulusAt first.index, hsplit.symm, fun j hj => ?_⟩
  · rw [searchLoop_eq hbound hmiss hhit hpasses, hstart]
    show some (Except.ok (UInt32.ofNat
      (x % modulusAt first.index + x / modulusAt first.index * modulusAt first.index))) = _
    rw [hsplit]
  · rw [toNat_candidate hbound hj, hstart]
    rfl

/-! ### The round trip -/

/-- What the encoder writes at a place is the residue of that index. -/
theorem crtEncode_get {reading : UInt32} {residues buffer : List CrtResidue}
    (h : crtEncode reading (some buffer) = .ok residues) {i : UInt8} {residue : CrtResidue}
    (hi : residues[i.toNat]? = some residue) :
    i < CRT_RESIDUE_COUNT ∧ residue.index = i ∧
      residue.value.toNat = reading.toNat % modulusAt i := by
  unfold crtEncode at h
  rw [if_neg (by simp)] at h
  split at h
  · cases h
  · cases h
    rw [List.getElem?_map] at hi
    obtain ⟨index, hindex, rfl⟩ := Option.map_eq_some_iff.mp hi
    have hlt : i.toNat < 3 := (List.getElem?_eq_some_iff.mp hindex).1
    have hcount : i < CRT_RESIDUE_COUNT := UInt8.lt_iff_toNat_lt.mpr hlt
    have hmem : index = i ∧ i ∈ [0, 1, 2] := by
      rcases index_cases hcount with rfl | rfl | rfl <;> cases hindex <;> decide
    obtain ⟨rfl, hmem⟩ := hmem
    refine ⟨hcount, rfl, (residueAt_value reading hmem).trans ?_⟩
    rw [modulusAt, crtModulusForIndex, if_pos hcount]

/-- Any two residues of a reading give it modulo the product of their moduli. -/
theorem crtDecode_crtEncode {reading : UInt32} {residues buffer : List CrtResidue}
    (h : crtEncode reading (some buffer) = .ok residues) {a b : UInt8} {first second : CrtResidue}
    (ha : residues[a.toNat]? = some first) (hb : residues[b.toNat]? = some second) (hne : a ≠ b)
    {passes : Nat} (hpasses : 103 ≤ passes) (out : UInt32) :
    crtDecode passes (some (first, second)) (some out) =
      some (.ok (UInt32.ofNat (reading.toNat % (modulusAt a * modulusAt b)))) := by
  obtain ⟨hcountA, hindexA, hvalueA⟩ := crtEncode_get h ha
  obtain ⟨hcountB, hindexB, hvalueB⟩ := crtEncode_get h hb
  subst hindexA hindexB
  have hpos : 0 < modulusAt first.index * modulusAt second.index :=
    Nat.mul_pos (modulusAt_range hcountA).1 (modulusAt_range hcountB).1
  refine (crtDecode_least ⟨hcountA, hcountB, hne⟩ (Nat.mod_lt _ hpos) ?_ ?_ hpasses out).1
  · rw [Nat.mod_mul_right_mod, hvalueA]
  · rw [Nat.mod_mul_left_mod, hvalueB]

/-- **A reading survives the loss of the third residue exactly when it is below the product
of the other two moduli.** -/
theorem round_trip_iff {reading : UInt32} {residues buffer : List CrtResidue}
    (h : crtEncode reading (some buffer) = .ok residues) {a b : UInt8} {first second : CrtResidue}
    (ha : residues[a.toNat]? = some first) (hb : residues[b.toNat]? = some second) (hne : a ≠ b)
    {passes : Nat} (hpasses : 103 ≤ passes) (out : UInt32) :
    crtDecode passes (some (first, second)) (some out) = some (.ok reading) ↔
      reading.toNat < modulusAt a * modulusAt b := by
  have hpos : 0 < modulusAt a * modulusAt b :=
    Nat.mul_pos (modulusAt_range (crtEncode_get h ha).1).1 (modulusAt_range (crtEncode_get h hb).1).1
  rw [crtDecode_crtEncode h ha hb hne hpasses out, Option.some.injEq, Except.ok.injEq,
    ← UInt32.toNat_inj, UInt32.toNat_ofNat']
  have hle := Nat.mod_le reading.toNat (modulusAt a * modulusAt b)
  rw [Nat.mod_eq_of_lt (lt_of_le_of_lt hle reading.toNat_lt)]
  constructor
  · intro hsame
    rw [← hsame]
    exact Nat.mod_lt _ hpos
  · exact Nat.mod_eq_of_lt

/-- The residues of a reading in the middle of the range. -/
def midRangeResidues : List CrtResidue := [⟨0, 62⟩, ⟨1, 50⟩, ⟨2, 38⟩]

/-- The first two of them decode to another reading. -/
theorem midRange_reading_lost :
    crtEncode 500000 (some []) = .ok midRangeResidues ∧
      crtDecode 103 (some (⟨0, 62⟩, ⟨1, 50⟩)) (some 0) = some (.ok 353) := by
  decide +kernel

theorem round_trip_low :
    crtDecode 103 (some (⟨1, 51⟩, ⟨0, 53⟩)) (some 0) = some (.ok 5000) :=
  have hencode : crtEncode 5000 (some []) = .ok [⟨0, 53⟩, ⟨1, 51⟩, ⟨2, 56⟩] := by decide +kernel
  (round_trip_iff hencode (a := 1) (b := 0) rfl rfl (by decide) (Nat.le_refl _) 0).mpr (by decide)

end FarmChain.Firmware
