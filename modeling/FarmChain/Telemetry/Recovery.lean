import FarmChain.Firmware.Encode
import FarmChain.Gateway.Assembly

/-! From the sensor's number to the gateway's.

The firmware's residues arrive as packets; the gateway reads each back as a modulus and
a residue, and its first two distinct moduli decide. The number measured is the number
recovered exactly when it is below the product of those two. -/
namespace FarmChain.Telemetry
open Firmware Gateway

/-- A packet of the reading under `key` that carries one of the firmware's residues, however
it names the modulus. -/
def Delivers (key : Key) (residue : CrtResidue) (d : Delivery) : Prop :=
  ∃ p, parsePacket d.packet = .ok p ∧ p.key = key ∧
    p.modulus = (crtModulusForIndex residue.index).toNat ∧ p.residue = residue.value.toNat

theorem crtModulusForIndex_mem {i : UInt8} (hi : i ∈ [0, 1, 2]) :
    (crtModulusForIndex i).toNat ∈ MODULI := by
  simp only [List.mem_cons, List.not_mem_nil, or_false] at hi
  rcases hi with rfl | rfl | rfl <;> decide

theorem crtModulusForIndex_injective {i j : UInt8} (hi : i ∈ [0, 1, 2]) (hj : j ∈ [0, 1, 2])
    (h : (crtModulusForIndex i).toNat = (crtModulusForIndex j).toNat) : i = j := by
  simp only [List.mem_cons, List.not_mem_nil, or_false] at hi hj
  rcases hi with rfl | rfl | rfl <;> rcases hj with rfl | rfl | rfl <;> revert h <;> decide

section
variable {reading : Firmware.SensorReading} {unset residues : List CrtResidue} {residue : CrtResidue}
  {key : Key} {d : Delivery}

/-- The firmware's residues are those of the packed value, at the indices 0, 1 and 2. -/
theorem residue_of_crtEncode
    (hencode : crtEncode (encodeSensorValue reading) (some unset) = .ok residues)
    (hresidue : residue ∈ residues) : residue.index ∈ [0, 1, 2] ∧
      residue = residueAt (encodeSensorValue reading) residue.index := by
  rw [crtEncode_encodeSensorValue] at hencode
  cases hencode
  obtain ⟨i, hi, rfl⟩ := List.mem_map.mp hresidue
  exact ⟨hi, rfl⟩

/-- A packet with a firmware residue carries that residue of the packed value. -/
theorem Delivers.carries (hd : Delivers key residue d)
    (hencode : crtEncode (encodeSensorValue reading) (some unset) = .ok residues)
    (hresidue : residue ∈ residues) :
    ∃ p, Carries key (encodeSensorValue reading).toNat d p ∧
      p.modulus = (crtModulusForIndex residue.index).toNat := by
  obtain ⟨p, hparse, hkey, hmodulus, hvalue⟩ := hd
  obtain ⟨hindex, heq⟩ := residue_of_crtEncode hencode hresidue
  refine ⟨p, ⟨hparse, hkey, ?_, ?_⟩, hmodulus⟩
  · rw [hmodulus]
    exact crtModulusForIndex_mem hindex
  · rw [hvalue, hmodulus]
    have hat := residueAt_value (encodeSensorValue reading) hindex
    rw [← heq] at hat
    exact_mod_cast hat

/-- Packets with different residues of a reading name different moduli. -/
theorem Delivers.modulus_ne {residue' : CrtResidue} {d' : Delivery}
    (hencode : crtEncode (encodeSensorValue reading) (some unset) = .ok residues)
    (hresidue : residue ∈ residues) (hresidue' : residue' ∈ residues) (hne : residue ≠ residue')
    (hd : Delivers key residue d) (hd' : Delivers key residue' d') : d.modulus ≠ d'.modulus := by
  obtain ⟨p, hcarries, hmodulus⟩ := hd.carries hencode hresidue
  obtain ⟨p', hcarries', hmodulus'⟩ := hd'.carries hencode hresidue'
  obtain ⟨hindex, heq⟩ := residue_of_crtEncode hencode hresidue
  obtain ⟨hindex', heq'⟩ := residue_of_crtEncode hencode hresidue'
  rw [hcarries.modulus_eq, hcarries'.modulus_eq, hmodulus, hmodulus']
  intro hsame
  rw [heq, heq', crtModulusForIndex_injective hindex hindex' hsame] at hne
  exact hne rfl

end

/-- The gateway emits one reading with the number measured exactly when that number is
below the product of the first two distinct moduli to arrive. -/
theorem measured_recovered_iff (reading : Firmware.SensorReading) (unset residues : List CrtResidue)
    (hencode : crtEncode (encodeSensorValue reading) (some unset) = .ok residues)
    (key : Key) (start timeout : Rat) (ds : List Delivery)
    (hds : ∀ d ∈ ds, InTime start timeout d ∧ ∃ residue ∈ residues, Delivers key residue d)
    (hlost : ∃ residue ∈ residues, ∃ residue' ∈ residues, residue ≠ residue' ∧
      (∃ d ∈ ds, Delivers key residue d) ∧ ∃ d ∈ ds, Delivers key residue' d) :
    (∃ emitted, Run.emits receive emission (Receiver.fresh timeout) ds = [emitted] ∧
        emitted.value = (encodeSensorValue reading).toNat) ↔
      (encodeSensorValue reading).toNat < firstTwoProduct (ds.map Delivery.modulus) := by
  have hof : Residues.Of key (encodeSensorValue reading).toNat start timeout ds := by
    intro d hd
    obtain ⟨htime, residue, hresidue, hdelivers⟩ := hds d hd
    obtain ⟨p, hcarries, _⟩ := hdelivers.carries hencode hresidue
    exact ⟨htime, p, hcarries⟩
  have htwo : ∃ d ∈ ds, ∃ d' ∈ ds, d.modulus ≠ d'.modulus := by
    obtain ⟨residue, hresidue, residue', hresidue', hne, ⟨d, hd, hdelivers⟩, d', hd', hdelivers'⟩ :=
      hlost
    exact ⟨d, hd, d', hd',
      Delivers.modulus_ne hencode hresidue hresidue' hne hdelivers hdelivers'⟩
  obtain ⟨hpos, emitted, hemits, hvalue⟩ := emits_residues hof htwo
  rw [hemits]
  constructor
  · intro h
    obtain ⟨emitted', heq, hmeasured⟩ := h
    cases heq
    rw [← hmeasured, hvalue]
    exact Nat.mod_lt _ hpos
  · intro hlt
    refine ⟨emitted, rfl, ?_⟩
    rw [hvalue, Nat.mod_eq_of_lt hlt]

/-! ### A dry and a moist reading -/

/-- A packet that names its modulus by index. -/
def probePacket (residue : CrtResidue) : Packet where
  deviceId := some "probe"
  readingId := some "7"
  modulusIndex := some (.int residue.index.toNat)
  residue := some (.int residue.value.toNat)

def probeDelivery (time : Rat) (residue : CrtResidue) : Delivery :=
  ⟨.packet (probePacket residue), time, time⟩

theorem probeDelivery_delivers {residue : CrtResidue} (h : residue.index ∈ [0, 1, 2]) (time : Rat) :
    Delivers ("probe", "7") residue (probeDelivery time residue) := by
  refine ⟨⟨probePacket residue, "probe", "7", (crtModulusForIndex residue.index).toNat,
    residue.value.toNat⟩, ?_, rfl, rfl, rfl⟩
  obtain ⟨index, value⟩ := residue
  simp only [List.mem_cons, List.not_mem_nil, or_false] at h
  rcases h with h | h | h <;> cases h <;> rfl

theorem probeDelivery_inTime (residue : CrtResidue) : InTime 0 60 (probeDelivery 0 residue) := by
  constructor
  · exact le_refl (0 : Rat)
  · show (0 : Rat) - 0 < 60
    norm_num

/-- The number 8116 survives the loss of its second residue. -/
theorem measured_recovered_dry : ∃ emitted,
    Run.emits receive emission (Receiver.fresh 60)
        ([⟨2, 82⟩, ⟨2, 82⟩, ⟨0, 65⟩].map (probeDelivery 0)) = [emitted] ∧
      emitted.value = (encodeSensorValue ⟨40, 2150⟩).toNat := by
  refine (measured_recovered_iff ⟨40, 2150⟩ [] [⟨0, 65⟩, ⟨1, 36⟩, ⟨2, 82⟩] ?_ ("probe", "7") 0 60
    ([⟨2, 82⟩, ⟨2, 82⟩, ⟨0, 65⟩].map (probeDelivery 0)) ?_ ?_).mpr ?_
  · rfl
  · intro d hd
    obtain ⟨residue, hresidue, rfl⟩ := List.mem_map.mp hd
    have hsent : ∀ residue ∈ [(⟨2, 82⟩ : CrtResidue), ⟨2, 82⟩, ⟨0, 65⟩],
        residue.index ∈ [0, 1, 2] ∧ residue ∈ [(⟨0, 65⟩ : CrtResidue), ⟨1, 36⟩, ⟨2, 82⟩] := by
      decide
    obtain ⟨hindex, hmem⟩ := hsent residue hresidue
    exact ⟨probeDelivery_inTime residue, residue, hmem, probeDelivery_delivers hindex 0⟩
  · exact ⟨⟨2, 82⟩, by decide, ⟨0, 65⟩, by decide, by decide,
      ⟨_, List.mem_cons_self .., probeDelivery_delivers (by decide) 0⟩,
      ⟨_, by decide, probeDelivery_delivers (by decide) 0⟩⟩
  · decide

/-- The number 402076 arrives in full and in order, and 399 is emitted. -/
theorem moist_misread :
    crtEncode (encodeSensorValue ⟨2000, 2150⟩) (some []) = .ok [⟨0, 11⟩, ⟨1, 96⟩, ⟨2, 67⟩] ∧
      (∀ residue ∈ [(⟨0, 11⟩ : CrtResidue), ⟨1, 96⟩, ⟨2, 67⟩],
        InTime 0 60 (probeDelivery 0 residue) ∧
          Delivers ("probe", "7") residue (probeDelivery 0 residue)) ∧
      ¬∃ emitted, Run.emits receive emission (Receiver.fresh 60)
          ([⟨0, 11⟩, ⟨1, 96⟩, ⟨2, 67⟩].map (probeDelivery 0)) = [emitted] ∧
        emitted.value = (encodeSensorValue ⟨2000, 2150⟩).toNat := by
  refine ⟨rfl, ?_, ?_⟩
  · intro residue hresidue
    have hindices : ∀ residue ∈ [(⟨0, 11⟩ : CrtResidue), ⟨1, 96⟩, ⟨2, 67⟩],
        residue.index ∈ [0, 1, 2] := by decide
    exact ⟨probeDelivery_inTime residue, probeDelivery_delivers (hindices residue hresidue) 0⟩
  · intro h
    obtain ⟨emitted, hemits, hvalue⟩ := h
    have hvalues : (Run.emits receive emission (Receiver.fresh 60)
        ([⟨0, 11⟩, ⟨1, 96⟩, ⟨2, 67⟩].map (probeDelivery 0))).map SensorReading.value = [399] := by
      decide +kernel
    rw [hemits, List.map_singleton, hvalue] at hvalues
    revert hvalues
    decide

end FarmChain.Telemetry
