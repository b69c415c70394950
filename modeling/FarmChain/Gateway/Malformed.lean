import FarmChain.Gateway.Assembly

/-! What a malformed packet does.

A packet is malformed when its selector is no supported modulus and no index of one,
or its residue is out of range. `process_packet` checks the selector before it takes
the lock and the residue only when the second one arrives, in `decode`: a residue out
of range stays in its assembly and makes later packets of the key raise.

`malformed_inert_iff` gives the states and packets in which the call raises exactly on
a malformed packet and leaves nothing behind. -/
namespace FarmChain.Gateway

/-! ### Malformed packets -/

/-- The supported modulus a value is. -/
def namedBy (v : Value) : Option Nat :=
  match v.toInt with
  | .ok n => if n.toNat ∈ MODULI then some n.toNat else none
  | .error _ => none

/-- The modulus an index 0, 1 or 2 stands for. -/
def indexedBy (index : Int) : Option Nat := if 0 ≤ index then MODULI[index.toNat]? else none

/-- The modulus a packet selects by name or by index. -/
def Packet.selected (pkt : Packet) : Option Nat :=
  match pkt.modulus, pkt.modulusIndex, pkt.channel with
  | some modulus, _, _ => namedBy modulus
  | none, some modulusIndex, _ =>
    match modulusIndex.toInt with
    | .ok index => indexedBy index
    | .error _ => none
  | none, none, some (.int channel) => (indexedBy channel).or (namedBy (.int channel))
  | none, none, some channel => namedBy channel
  | none, none, none => none

/-- The modulus that an index -1, -2 or -3 counts from the end. -/
def Packet.fromEnd (pkt : Packet) : Option Nat :=
  match pkt.modulus, pkt.modulusIndex with
  | none, some modulusIndex =>
    match modulusIndex.toInt with
    | .ok index => if index < 0 then indexedBy (index + 3) else none
    | .error _ => none
  | _, _ => none

def malformed : Incoming → Bool
  | .other => true
  | .packet pkt =>
    match pkt.selected, pkt.residue.map Value.toInt with
    | some modulus, some (.ok residue) => ¬(0 ≤ residue ∧ residue < modulus)
    | _, _ => true

/-- `process_packet` gets as far as the lock: every field is there and converts, and the
selector is accepted, an index from the end included. -/
def readable : Incoming → Bool
  | .other => false
  | .packet pkt =>
    pkt.deviceId.isSome && pkt.readingId.isSome && (pkt.selected.or pkt.fromEnd).isSome &&
      match pkt.residue.map Value.toInt with
      | some (.ok _) => true
      | _ => false

/-! ### Reading a packet -/

theorem namedBy_eq_some {v : Value} {m : Nat} :
    namedBy v = some m ↔ ∃ n, v.toInt = .ok n ∧ supportedModulus n = .ok m := by
  unfold namedBy
  cases hv : v.toInt with
  | error e => simp
  | ok n =>
    unfold supportedModulus
    by_cases hn : n.toNat ∈ MODULI
    · simp [hn]
    · simp [hn]

theorem moduliAt_eq_ok {index : Int} {m : Nat} : moduliAt index = .ok m ↔
    (indexedBy index).or (if index < 0 then indexedBy (index + 3) else none) = some m := by
  unfold moduliAt
  have hlength : (MODULI.length : Int) = 3 := rfl
  by_cases hneg : index < 0
  · have hfirst : indexedBy index = none := if_neg (not_le.mpr hneg)
    rw [hfirst, Option.none_or]
    simp only [if_pos hneg, hlength]
    unfold indexedBy
    by_cases hbefore : index + 3 < 0
    · simp [hbefore, not_le.mpr hbefore]
    · rw [if_neg hbefore, if_pos (not_lt.mp hbefore)]
      split <;> simp_all
  · have hindex : indexedBy index = MODULI[index.toNat]? := if_pos (not_lt.mp hneg)
    simp only [if_neg hneg]
    rw [hindex, Option.or_none]
    split <;> simp_all

theorem moduliAt_supported {index : Int} {m : Nat} (h : moduliAt index = .ok m) : m ∈ MODULI := by
  unfold moduliAt at h
  generalize (if index < 0 then index + MODULI.length else index) = place at h
  dsimp only at h
  split at h
  · cases h
  · split at h
    · rename_i modulus hget
      cases h
      exact List.mem_of_getElem? hget
    · cases h

theorem supportedModulus_natCast {m m' : Nat} (h : m ∈ MODULI) :
    supportedModulus (m : Int) = .ok m' ↔ m = m' := by
  rw [supportedModulus_eq_ok]
  constructor
  · intro hsame
    exact Int.ofNat_inj.mp hsame.1
  · intro hsame
    exact ⟨congrArg Int.ofNat hsame, hsame ▸ h⟩

/-- What an index selects, once it is checked. -/
theorem moduliAt_checked {index : Int} {m : Nat} :
    (do let modulus ← moduliAt index; supportedModulus modulus) = .ok m ↔
      (indexedBy index).or (if index < 0 then indexedBy (index + 3) else none) = some m := by
  rw [← moduliAt_eq_ok, Except.bind_eq_ok]
  constructor
  · intro h
    obtain ⟨m', hm', hchecked⟩ := h
    cases (supportedModulus_natCast (moduliAt_supported hm')).mp hchecked
    exact hm'
  · intro h
    exact ⟨m, h, (supportedModulus_natCast (moduliAt_supported h)).mpr rfl⟩

/-- What a channel selects that is an integer, once it is checked. -/
theorem channelInt_checked {n : Int} {m : Nat} :
    (do let modulus ← channelModulus (.int n); supportedModulus modulus) = .ok m ↔
      (indexedBy n).or (namedBy (.int n)) = some m := by
  unfold channelModulus
  by_cases hindex : 0 ≤ n ∧ n < 3
  · have hsome : ∃ k, indexedBy n = some k := by
      unfold indexedBy
      rw [if_pos hindex.1]
      exact ⟨_, List.getElem?_eq_getElem (show n.toNat < 3 by omega)⟩
    obtain ⟨k, hk⟩ := hsome
    have hchecked := @moduliAt_checked n m
    rw [if_neg (not_lt.mpr hindex.1), Option.or_none, hk] at hchecked
    dsimp only
    rw [if_pos hindex, bind_assoc, hk]
    exact hchecked
  · have hnone : indexedBy n = none := by
      unfold indexedBy
      split
      · rename_i hpos
        exact List.getElem?_eq_none (show 3 ≤ n.toNat by omega)
      · rfl
    dsimp only
    rw [if_neg hindex, hnone, Option.none_or, namedBy_eq_some]
    simp [Except.bind_eq_ok, Value.toInt]

/-- The packets whose modulus `process_packet` accepts. -/
theorem packetModulus_eq_ok {pkt : Packet} {m : Nat} :
    packetModulus pkt = .ok m ↔ pkt.selected.or pkt.fromEnd = some m := by
  unfold packetModulus namedModulus Packet.selected Packet.fromEnd
  cases pkt.modulus with
  | some modulus =>
    dsimp only
    rw [Option.or_none, namedBy_eq_some, Except.bind_eq_ok]
  | none =>
    cases pkt.modulusIndex with
    | some modulusIndex =>
      dsimp only
      cases hindex : modulusIndex.toInt with
      | error e => simp [Except.bind_eq_ok]
      | ok index =>
        dsimp only
        rw [← moduliAt_checked]
        simp only [Except.ok_bind, bind_assoc]
    | none =>
      cases pkt.channel with
      | none => simp [Except.bind_eq_ok]
      | some channel =>
        cases channel with
        | int n =>
          dsimp only
          rw [Option.or_none]
          exact channelInt_checked
        | none => simp [channelModulus, Value.toInt, namedBy, Except.bind_eq_ok]
        | other asInt =>
          dsimp only [channelModulus]
          rw [Option.or_none, namedBy_eq_some, Except.bind_eq_ok]

theorem packetModulus_supported {pkt : Packet} {m : Nat} (h : packetModulus pkt = .ok m) :
    m ∈ MODULI := by
  obtain ⟨_, _, hsupported⟩ := Except.bind_eq_ok.mp h
  exact (supportedModulus_eq_ok.mp hsupported).2

theorem lookup_eq_ok {α : Type} {key : String} {o : Option α} {a : α} :
    lookup key o = .ok a ↔ o = some a := by
  cases o <;> simp [lookup]

theorem parsePacket_eq_ok {incoming : Incoming} {p : Parsed} : parsePacket incoming = .ok p ↔
    incoming = .packet p.pkt ∧ p.pkt.deviceId = some p.deviceId ∧
      p.pkt.readingId = some p.readingId ∧ p.pkt.selected.or p.pkt.fromEnd = some p.modulus ∧
      p.pkt.residue.map Value.toInt = some (.ok p.residue) := by
  cases incoming with
  | other => simp [parsePacket, packetToDict, Except.bind_eq_ok]
  | packet pkt =>
    simp only [parsePacket, packetToDict, Except.ok_bind, Except.bind_eq_ok, lookup_eq_ok,
      packetModulus_eq_ok, Option.map_eq_some_iff]
    constructor
    · intro h
      obtain ⟨deviceId, hdevice, readingId, hreading, m, hm, v, hv, residue, hresidue, hp⟩ := h
      cases hp
      exact ⟨rfl, hdevice, hreading, hm, v, hv, hresidue⟩
    · intro h
      obtain ⟨hpkt, hdevice, hreading, hm, v, hv, hresidue⟩ := h
      cases hpkt
      exact ⟨_, hdevice, _, hreading, _, hm, v, hv, _, hresidue, rfl⟩

theorem readable_iff {incoming : Incoming} :
    readable incoming = true ↔ ∃ p, parsePacket incoming = .ok p := by
  cases incoming with
  | other => simp [readable, parsePacket_eq_ok]
  | packet pkt =>
    unfold readable
    simp only [Bool.and_eq_true, Option.isSome_iff_exists]
    constructor
    · intro h
      obtain ⟨⟨⟨⟨deviceId, hdevice⟩, readingId, hreading⟩, m, hm⟩, hresidue⟩ := h
      split at hresidue
      · rename_i residue hconverted
        exact ⟨⟨pkt, deviceId, readingId, m, residue⟩,
          parsePacket_eq_ok.mpr ⟨rfl, hdevice, hreading, hm, hconverted⟩⟩
      · cases hresidue
    · intro h
      obtain ⟨p, hp⟩ := h
      obtain ⟨hpkt, hdevice, hreading, hm, hresidue⟩ := parsePacket_eq_ok.mp hp
      cases hpkt
      refine ⟨⟨⟨⟨_, hdevice⟩, _, hreading⟩, _, hm⟩, ?_⟩
      rw [hresidue]

/-- Among the packets that can be read, the well-formed ones. -/
theorem wellFormed_iff {incoming : Incoming} {p : Parsed} (h : parsePacket incoming = .ok p) :
    malformed incoming = false ↔
      p.pkt.selected = some p.modulus ∧ 0 ≤ p.residue ∧ p.residue < p.modulus := by
  obtain ⟨rfl, _, _, hm, hresidue⟩ := parsePacket_eq_ok.mp h
  unfold malformed
  dsimp only
  rw [hresidue]
  cases hselected : p.pkt.selected with
  | none => simp
  | some m =>
    rw [hselected, Option.some_or] at hm
    cases hm
    simp

/-! ### When a packet raises -/

def Raises (r : Receiver) (d : Delivery) : Prop :=
  ∃ e, (processPacket d.now d.firstSeen d.packet r).2 = .error e

/-- Nothing is different but that assemblies that timed out are gone. -/
structure Untouched (now : Rat) (r r' : Receiver) : Prop where
  assembled : r'.assembled = r.assembled
  readings : r'.readings = r.readings
  pending : ∀ key, r'.assemblies.get key = r.assemblies.get key ∨
    r'.assemblies.get key = none ∧
      ∃ assembly, r.assemblies.get key = some assembly ∧ r.timeoutSeconds ≤ now - assembly.firstSeen

/-- The call raises exactly on a malformed packet, and then has no effect. -/
def Inert (r : Receiver) (d : Delivery) : Prop :=
  (Raises r d ↔ malformed d.packet = true) ∧ (Raises r d → Untouched d.now r (receive r d))

/-- The residues an assembly has for other moduli are in range. -/
def OthersInRange (m : Nat) (assembly : Assembly) : Prop :=
  ∀ e ∈ assembly.residues.entries, e.1 ≠ m → e.1 ∈ MODULI ∧ 0 ≤ e.2 ∧ e.2 < e.1

instance (m : Nat) (assembly : Assembly) : Decidable (OthersInRange m assembly) :=
  inferInstanceAs (Decidable (∀ e ∈ assembly.residues.entries, _ → _))

/-- The key and modulus of a packet that has them. -/
def Incoming.place : Incoming → Option (Key × Nat)
  | .other => none
  | .packet pkt =>
    match pkt.deviceId, pkt.readingId, pkt.selected with
    | some deviceId, some readingId, some m => some ((deviceId, readingId), m)
    | _, _, _ => none

/-- A malformed packet cannot be read; a well-formed one has a key, and the key was
completed or its assembly, if it has not timed out, has no other residue out of range. -/
def Sound (r : Receiver) (d : Delivery) : Prop :=
  if malformed d.packet then readable d.packet = false
  else ∃ place ∈ d.packet.place, place.1 ∈ r.assembled ∨
    ∀ assembly ∈ (r.expire d.now).assemblies.get place.1, OthersInRange place.2 assembly

instance (r : Receiver) (d : Delivery) : Decidable (Sound r d) :=
  inferInstanceAs (Decidable (if malformed d.packet then readable d.packet = false
    else ∃ place ∈ d.packet.place, place.1 ∈ r.assembled ∨
      ∀ assembly ∈ (r.expire d.now).assemblies.get place.1, OthersInRange place.2 assembly))

section
variable {r : Receiver} {d : Delivery} {p : Parsed}

theorem sound_iff (h : parsePacket d.packet = .ok p) : Sound r d ↔
    malformed d.packet = false ∧ (p.key ∈ r.assembled ∨
      ∀ assembly, (r.expire d.now).assemblies.get p.key = some assembly →
        OthersInRange p.modulus assembly) := by
  have hreadable : readable d.packet = true := readable_iff.mpr ⟨p, h⟩
  obtain ⟨hpkt, hdevice, hreading, _, _⟩ := parsePacket_eq_ok.mp h
  unfold Sound
  cases hmalformed : malformed d.packet with
  | true => simp [hreadable]
  | false =>
    obtain ⟨hselected, _⟩ := (wellFormed_iff h).mp hmalformed
    have hplace : d.packet.place = some (p.key, p.modulus) := by
      rw [hpkt, Incoming.place, hdevice, hreading, hselected]
      rfl
    simp [hplace]

theorem mem_extended {firstSeen : Rat} {e : Nat × Int} :
    e ∈ (r.extended firstSeen p).residues.entries ↔ e = (p.modulus, p.residue) ∨
      e.1 ≠ p.modulus ∧
        ∃ assembly, r.assemblies.get p.key = some assembly ∧ e ∈ assembly.residues.entries := by
  unfold Receiver.extended
  rw [← Dict.get_eq_some (k := e.1) (v := e.2), Dict.get_set]
  by_cases heq : e.1 = p.modulus
  · simp [heq, Prod.ext_iff, eq_comm]
  · rw [if_neg heq, Dict.get_eq_some (k := e.1)]
    have hne : e ≠ (p.modulus, p.residue) := fun h => heq (congrArg Prod.fst h)
    cases hget : r.assemblies.get p.key with
    | none => simp [hne, EmptyCollection.emptyCollection]
    | some assembly => simp [hne, heq]

/-- An assembly with a packet's residue in it is in range when both are. -/
theorem inRange_extended {firstSeen : Rat} : InRange (r.extended firstSeen p).residues.entries ↔
    (p.modulus ∈ MODULI ∧ 0 ≤ p.residue ∧ p.residue < p.modulus) ∧
      ∀ assembly, r.assemblies.get p.key = some assembly → OthersInRange p.modulus assembly := by
  constructor
  · intro h
    refine ⟨h _ (mem_extended.mpr (.inl rfl)), fun assembly hget e he hne => ?_⟩
    exact h e (mem_extended.mpr (.inr ⟨hne, assembly, hget, he⟩))
  · intro h e he
    obtain ⟨hown, hothers⟩ := h
    rcases mem_extended.mp he with rfl | ⟨hne, assembly, hget, hold⟩
    · exact hown
    · exact hothers assembly hget e hold hne

/-- With a single residue in it, there are no others. -/
theorem othersInRange_of_few {firstSeen : Rat} {assembly : Assembly}
    (hfew : (r.extended firstSeen p).residues.length < 2)
    (hget : r.assemblies.get p.key = some assembly) : OthersInRange p.modulus assembly := by
  intro e he hne
  have hown : (p.modulus, p.residue) ∈ (r.extended firstSeen p).residues.entries :=
    mem_extended.mpr (.inl rfl)
  have hother : e ∈ (r.extended firstSeen p).residues.entries :=
    mem_extended.mpr (.inr ⟨hne, assembly, hget, he⟩)
  unfold Dict.length at hfew
  obtain ⟨x, hx⟩ := List.length_eq_one_iff.mp
    (Nat.le_antisymm (Nat.le_of_lt_succ hfew) (List.length_pos_of_mem hown))
  rw [hx, List.mem_singleton] at hown hother
  exact absurd (congrArg Prod.fst (hother.trans hown.symm)) hne

/-- A packet that was read raises when its assembly then has a residue out of range and
another one, and what it did stays done. -/
theorem raises_iff (h : parsePacket d.packet = .ok p) : Raises r d ↔ p.key ∉ r.assembled ∧
    2 ≤ ((r.expire d.now).extended d.firstSeen p).residues.length ∧
      ¬InRange ((r.expire d.now).extended d.firstSeen p).residues.entries := by
  unfold Raises processPacket
  rw [h]
  dsimp only
  have hcase := collect_cases d.now d.firstSeen p r
  cases hcollect : r.collect d.now d.firstSeen p with
  | mk r' result =>
    rw [hcollect] at hcase
    cases hcase with
    | known hkey => simp [hkey]
    | kept hkey hfew => simp [Nat.not_le.mpr hfew]
    | failed e hkey htwo hdecode =>
      have hrange : ¬InRange ((r.expire d.now).extended d.firstSeen p).residues.entries := by
        intro hrange
        cases hdecode.symm.trans (decode_inRange hrange (Dict.nodup _) htwo)
      simp [hkey, htwo, hrange]
    | completed value hkey htwo hdecode => simp [inRange_of_decode hdecode]

theorem receive_of_raises (h : parsePacket d.packet = .ok p) (hraises : Raises r d) :
    receive r d = r.pending d.now d.firstSeen p := by
  unfold Raises at hraises
  unfold receive
  unfold processPacket at hraises ⊢
  rw [h] at hraises ⊢
  dsimp only at hraises ⊢
  have hcase := collect_cases d.now d.firstSeen p r
  cases hcollect : r.collect d.now d.firstSeen p with
  | mk r' result =>
    rw [hcollect] at hcase hraises
    obtain ⟨e, he⟩ := hraises
    cases hcase with
    | known => cases he
    | kept => cases he
    | failed => rfl
    | completed => cases he

/-- The packet is kept in its assembly, so a call that raises under the lock has an effect. -/
theorem not_untouched (h : parsePacket d.packet = .ok p) (hraises : Raises r d) :
    ¬Untouched d.now r (receive r d) := by
  intro huntouched
  have hafter : (receive r d).assemblies.get p.key =
      some ((r.expire d.now).extended d.firstSeen p) := by
    rw [receive_of_raises h hraises]
    show ((r.expire d.now).assemblies.set p.key _).get p.key = _
    rw [Dict.get_set, if_pos rfl]
  obtain ⟨_, htwo, _⟩ := (raises_iff h).mp hraises
  rcases huntouched.pending p.key with hsame | ⟨hnone, _⟩
  · rw [hafter] at hsame
    unfold Receiver.extended at hsame htwo
    cases hget : (r.expire d.now).assemblies.get p.key with
    | none =>
      rw [hget] at htwo
      exact absurd htwo (by decide : ¬2 ≤ 1)
    | some assembly =>
      obtain ⟨hbefore, _⟩ := Dict.get_filter.mp hget
      rw [hget, hbefore] at hsame
      have hpackets := congrArg Assembly.packets (Option.some_inj.mp hsame)
      simp at hpackets
  · cases hafter.symm.trans hnone


/-- A packet that cannot be read raises before it is looked at any further. -/
theorem unreadable_step (h : readable d.packet = false) :
    Raises r d ∧ receive r d = r ∧ emission r d = none := by
  cases hparse : parsePacket d.packet with
  | ok p => cases h.symm.trans (readable_iff.mpr ⟨p, hparse⟩)
  | error e =>
    have hprocess : processPacket d.now d.firstSeen d.packet r = (r, .error e) := by
      unfold processPacket
      rw [hparse]
    unfold Raises receive emission
    rw [hprocess]
    exact ⟨⟨e, rfl⟩, rfl, rfl⟩

theorem readable_of_sound (h : Sound r d) (hwell : malformed d.packet = false) :
    readable d.packet = true := by
  unfold Sound at h
  rw [hwell, if_neg Bool.false_ne_true] at h
  obtain ⟨place, hplace, _⟩ := h
  cases hpacket : d.packet with
  | other =>
    rw [hpacket] at hplace
    cases hplace
  | packet pkt =>
    rw [hpacket] at hplace hwell
    unfold Incoming.place at hplace
    unfold malformed at hwell
    unfold readable
    dsimp only at hplace hwell ⊢
    split at hplace
    · rename_i deviceId readingId m hdevice hreading hselected
      rw [hselected] at hwell
      rw [hdevice, hreading, hselected]
      cases hresidue : pkt.residue.map Value.toInt with
      | none => simp [hresidue] at hwell
      | some result =>
        cases result with
        | error e => simp [hresidue] at hwell
        | ok residue => rfl
    · cases hplace

theorem inert_iff_sound : Inert r d ↔ Sound r d := by
  cases hparse : parsePacket d.packet with
  | error e =>
    have hunreadable : readable d.packet = false := by
      refine Bool.eq_false_iff.mpr fun hreadable => ?_
      obtain ⟨p, hp⟩ := readable_iff.mp hreadable
      cases hparse.symm.trans hp
    obtain ⟨hraises, hreceive, _⟩ := unreadable_step (r := r) hunreadable
    constructor
    · intro h
      unfold Sound
      rw [if_pos (h.1.mp hraises)]
      exact hunreadable
    · intro h
      refine ⟨⟨fun _ => ?_, fun _ => hraises⟩, fun _ => ?_⟩
      · by_contra hwell
        cases hunreadable.symm.trans (readable_of_sound h (Bool.eq_false_iff.mpr hwell))
      · rw [hreceive]
        exact ⟨rfl, rfl, fun _ => .inl rfl⟩
  | ok p =>
    rw [sound_iff hparse]
    constructor
    · intro h
      have hquiet : ¬Raises r d := fun hraises => not_untouched hparse hraises (h.2 hraises)
      refine ⟨Bool.eq_false_iff.mpr fun hmalformed => hquiet (h.1.mpr hmalformed), ?_⟩
      by_cases hkey : p.key ∈ r.assembled
      · exact .inl hkey
      · refine .inr fun assembly hget => ?_
        by_cases hfew : ((r.expire d.now).extended d.firstSeen p).residues.length < 2
        · exact othersInRange_of_few hfew hget
        · have hrange : InRange ((r.expire d.now).extended d.firstSeen p).residues.entries := by
            by_contra hrange
            exact hquiet ((raises_iff hparse).mpr ⟨hkey, Nat.le_of_not_lt hfew, hrange⟩)
          exact (inRange_extended.mp hrange).2 assembly hget
    · intro h
      obtain ⟨hwell, hothers⟩ := h
      have hquiet : ¬Raises r d := by
        intro hraises
        obtain ⟨hkey, _, hrange⟩ := (raises_iff hparse).mp hraises
        obtain ⟨hselected, hresidue⟩ := (wellFormed_iff hparse).mp hwell
        have hm : p.modulus ∈ MODULI := packetModulus_supported
          (packetModulus_eq_ok.mpr (by rw [hselected, Option.some_or]))
        exact hrange (inRange_extended.mpr ⟨⟨hm, hresidue⟩, hothers.resolve_left hkey⟩)
      exact ⟨by simp [hquiet, hwell], fun hraises => absurd hraises hquiet⟩

/-- The calls of a run raise exactly on the malformed packets, without effect, exactly where
`Sound` holds; in such a run the malformed packets make no difference to what is emitted. -/
theorem malformed_inert_iff (r : Receiver) (ds : List Delivery) :
    (Run.Always receive Inert r ds ↔ Run.Always receive Sound r ds) ∧
      (Run.Always receive Sound r ds →
        Run.emits receive emission r (ds.filter fun d => !malformed d.packet) =
          Run.emits receive emission r ds) := by
  refine ⟨⟨fun h => ?_, fun h => ?_⟩, fun h => ?_⟩
  · exact h.mono fun r d => inert_iff_sound.mp
  · exact h.mono fun r d => inert_iff_sound.mpr
  · refine Run.emits_filter (h.mono fun r d hsound hdropped => ?_)
    have hmalformed : malformed d.packet = true := by simpa using hdropped
    unfold Sound at hsound
    rw [if_pos hmalformed] at hsound
    exact (unreadable_step hsound).2

end

/-- A modulus that is none of the three is refused at once, and the reading goes on. -/
theorem malformed_inert_reading :
    Run.Always receive Inert (.fresh 60)
        [packetAt 0 97 5, packetAt 0 99 5, packetAt 0 101 5] ∧
      Run.emits receive emission (.fresh 60) [packetAt 0 97 5, packetAt 0 101 5] =
        Run.emits receive emission (.fresh 60)
          [packetAt 0 97 5, packetAt 0 99 5, packetAt 0 101 5] := by
  have hsound : Run.Always receive Sound (.fresh 60)
      [packetAt 0 97 5, packetAt 0 99 5, packetAt 0 101 5] := by decide +kernel
  obtain ⟨hinert, hemits⟩ := malformed_inert_iff (.fresh 60)
    [packetAt 0 97 5, packetAt 0 99 5, packetAt 0 101 5]
  exact ⟨hinert.mpr hsound, hemits hsound⟩

/-- A residue out of range does not raise, and then no packet of its key can be decoded:
two good ones emit nothing, which they do when it is left out. -/
theorem outOfRange_silences :
    malformed (packetAt 0 97 200).packet = true ∧
      ¬Raises (.fresh 60) (packetAt 0 97 200) ∧
      ¬Untouched 0 (.fresh 60) (receive (.fresh 60) (packetAt 0 97 200)) ∧
      Run.emits receive emission (.fresh 60)
        [packetAt 0 97 200, packetAt 0 101 5, packetAt 0 103 5] = [] ∧
      (Run.emits receive emission (.fresh 60)
        [packetAt 0 101 5, packetAt 0 103 5]).map SensorReading.value = [5] := by
  refine ⟨by decide, ?_, ?_, by decide +kernel, by decide +kernel⟩
  · intro h
    obtain ⟨e, he⟩ := h
    have hnone : (processPacket 0 0 (packetAt 0 97 200).packet (.fresh 60)).2 = .ok none := by
      decide +kernel
    cases hnone.symm.trans he
  · intro h
    have hkept : ((receive (.fresh 60) (packetAt 0 97 200)).assemblies.get ("a", "1")).isSome := by
      decide +kernel
    rcases h.pending ("a", "1") with hsame | ⟨hnone, _⟩
    · rw [hsame] at hkept
      cases hkept
    · rw [hnone] at hkept
      cases hkept

end FarmChain.Gateway
