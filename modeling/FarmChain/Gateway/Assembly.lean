import Mathlib.Tactic.Linarith
import FarmChain.Gateway.LoraRx

/-! What one packet does to the receiver, and the reading a run of residues assembles.

`collect_cases` says all a packet can do under the lock. From it: a key is completed
at most once, whatever arrives; and when only residues of one value arrive for a key,
in time, the first two distinct moduli complete it, with the value reduced modulo their
product. -/
namespace FarmChain.Gateway

/-- A call of `processPacket`, with the two times it reads. -/
structure Delivery where
  packet : Incoming
  now : Rat
  firstSeen : Rat
  deriving DecidableEq, Repr

def receive (r : Receiver) (d : Delivery) : Receiver :=
  (processPacket d.now d.firstSeen d.packet r).1

/-- The reading a call returns. -/
def emission (r : Receiver) (d : Delivery) : Option SensorReading :=
  match (processPacket d.now d.firstSeen d.packet r).2 with
  | .ok reading => reading
  | .error _ => none

def SensorReading.key (reading : SensorReading) : Key := (reading.deviceId, reading.readingId)

/-! ### One packet -/

/-- The receiver with a packet's residue in its assembly. -/
def Receiver.pending (now firstSeen : Rat) (p : Parsed) (r : Receiver) : Receiver :=
  {r.expire now with
    assemblies := (r.expire now).assemblies.set p.key ((r.expire now).extended firstSeen p)}

/-- The receiver with a packet's key completed. -/
def Receiver.completed (now firstSeen : Rat) (p : Parsed) (r : Receiver) : Receiver :=
  {r.pending now firstSeen p with
    assemblies := (r.pending now firstSeen p).assemblies.erase p.key
    assembled := insert p.key r.assembled}

/-- What a packet does while it holds the lock. -/
inductive Collected (now firstSeen : Rat) (p : Parsed) (r : Receiver) :
    Receiver × Except Failure (Option SensorReading) → Prop
  /-- The key was completed before. -/
  | known (hkey : p.key ∈ r.assembled) : Collected now firstSeen p r (r.expire now, .ok none)
  /-- One modulus so far. -/
  | kept (hkey : p.key ∉ r.assembled)
    (hfew : ((r.expire now).extended firstSeen p).residues.length < 2) :
    Collected now firstSeen p r (r.pending now firstSeen p, .ok none)
  /-- The residues do not decode. -/
  | failed (e : Failure) (hkey : p.key ∉ r.assembled)
    (htwo : 2 ≤ ((r.expire now).extended firstSeen p).residues.length)
    (hdecode : decode (.mapping (asItems
      ((r.expire now).extended firstSeen p).residues.entries)) = .error e) :
    Collected now firstSeen p r (r.pending now firstSeen p, .error e)
  | completed (value : Nat) (hkey : p.key ∉ r.assembled)
    (htwo : 2 ≤ ((r.expire now).extended firstSeen p).residues.length)
    (hdecode : decode (.mapping (asItems
      ((r.expire now).extended firstSeen p).residues.entries)) = .ok value) :
    Collected now firstSeen p r (r.completed now firstSeen p,
      .ok (some (p.reading value ((r.expire now).extended firstSeen p))))

theorem collect_cases (now firstSeen : Rat) (p : Parsed) (r : Receiver) :
    Collected now firstSeen p r (r.collect now firstSeen p) := by
  unfold Receiver.collect
  dsimp only
  split
  · rename_i hkey
    exact .known hkey
  · rename_i hkey
    split
    · rename_i hfew
      exact .kept hkey hfew
    · rename_i hfew
      split
      · rename_i e hdecode
        exact .failed e hkey (Nat.le_of_not_lt hfew) hdecode
      · rename_i value hdecode
        exact .completed value hkey (Nat.le_of_not_lt hfew) hdecode

/-- An assembly survives while it has not timed out. -/
theorem expire_get {now : Rat} {r : Receiver} {key : Key} {assembly : Assembly}
    (h : r.assemblies.get key = some assembly) (htime : now - assembly.firstSeen < r.timeoutSeconds) :
    (r.expire now).assemblies.get key = some assembly :=
  Dict.get_filter.mpr ⟨h, decide_eq_true (not_le.mpr htime)⟩

/-- What a packet leaves of the completed keys and the queue. -/
theorem collect_frame (now firstSeen : Rat) (p : Parsed) (r : Receiver) :
    r.assembled ⊆ (r.collect now firstSeen p).1.assembled ∧
      (r.collect now firstSeen p).1.readings = r.readings ∧
      (r.collect now firstSeen p).1.timeoutSeconds = r.timeoutSeconds := by
  have hcase := collect_cases now firstSeen p r
  generalize r.collect now firstSeen p = result at hcase ⊢
  cases hcase with
  | known => exact ⟨Finset.Subset.refl _, rfl, rfl⟩
  | kept => exact ⟨Finset.Subset.refl _, rfl, rfl⟩
  | failed => exact ⟨Finset.Subset.refl _, rfl, rfl⟩
  | completed => exact ⟨Finset.subset_insert _ _, rfl, rfl⟩

/-- A packet that completes its key finds it open and closes it. -/
theorem collect_completes {now firstSeen : Rat} {p : Parsed} {r : Receiver} {reading : SensorReading}
    (h : (r.collect now firstSeen p).2 = .ok (some reading)) :
    reading.key ∉ r.assembled ∧ reading.key ∈ (r.collect now firstSeen p).1.assembled := by
  have hcase := collect_cases now firstSeen p r
  generalize r.collect now firstSeen p = result at hcase h ⊢
  cases hcase with
  | known => cases h
  | kept => cases h
  | failed => cases h
  | completed value hkey =>
    cases h
    exact ⟨hkey, Finset.mem_insert_self _ _⟩

/-! ### Residues of one value -/

/-- The modulus a delivered packet names. -/
def Delivery.modulus (d : Delivery) : Nat :=
  match parsePacket d.packet with
  | .ok p => p.modulus
  | .error _ => 0

/-- A delivery that carries one residue of a value, under its key. -/
structure Carries (key : Key) (value : Nat) (d : Delivery) (p : Parsed) : Prop where
  parsed : parsePacket d.packet = .ok p
  key : p.key = key
  modulus : p.modulus ∈ MODULI
  residue : p.residue = (value % p.modulus : Nat)

/-- A delivery taken before an assembly of `start` times out. -/
def InTime (start timeout : Rat) (d : Delivery) : Prop :=
  start ≤ d.firstSeen ∧ d.now - start < timeout

theorem Carries.modulus_eq {key : Key} {value : Nat} {d : Delivery} {p : Parsed}
    (h : Carries key value d p) : d.modulus = p.modulus := by
  unfold Delivery.modulus
  rw [h.parsed]

/-- A delivery whose packet completes nothing. -/
theorem receive_of_none {r r' : Receiver} {d : Delivery} {p : Parsed}
    (hparse : parsePacket d.packet = .ok p) (h : r.collect d.now d.firstSeen p = (r', .ok none)) :
    receive r d = r' ∧ emission r d = none := by
  have hprocess : processPacket d.now d.firstSeen d.packet r = (r', .ok none) := by
    unfold processPacket
    rw [hparse]
    dsimp only
    rw [h]
  unfold receive emission
  rw [hprocess]
  exact ⟨rfl, rfl⟩

/-- A delivery whose packet completes a reading. -/
theorem receive_of_some {r r' : Receiver} {d : Delivery} {p : Parsed} {reading : SensorReading}
    (hparse : parsePacket d.packet = .ok p)
    (h : r.collect d.now d.firstSeen p = (r', .ok (some reading))) :
    receive r d = r'.put reading ∧ emission r d = some reading := by
  have hprocess : processPacket d.now d.firstSeen d.packet r =
      (r'.put reading, .ok (some reading)) := by
    unfold processPacket
    rw [hparse]
    dsimp only
    rw [h]
  unfold receive emission
  rw [hprocess]
  exact ⟨rfl, rfl⟩

/-- A key with one residue of the value, in time. -/
structure Waiting (key : Key) (value : Nat) (start timeout : Rat) (m : Nat) (r : Receiver) :
    Prop where
  timeout : r.timeoutSeconds = timeout
  unknown : key ∉ r.assembled
  modulus : m ∈ MODULI
  pending : ∃ assembly, r.assemblies.get key = some assembly ∧ start ≤ assembly.firstSeen ∧
    assembly.residues.entries = [(m, ((value % m : Nat) : Int))]

section
variable {key : Key} {value : Nat} {start timeout : Rat} {m : Nat} {r : Receiver} {d : Delivery}
  {p : Parsed}

/-- A waiting assembly with the next residue in it. -/
theorem Waiting.extended (h : Waiting key value start timeout m r) (hd : Carries key value d p)
    (htime : InTime start timeout d) : start ≤ ((r.expire d.now).extended d.firstSeen p).firstSeen ∧
      ((r.expire d.now).extended d.firstSeen p).residues.entries =
        if p.modulus = m then [(m, ((value % m : Nat) : Int))]
        else [(m, ((value % m : Nat) : Int)), (p.modulus, ((value % p.modulus : Nat) : Int))] := by
  obtain ⟨assembly, hget, hstart, hentries⟩ := h.pending
  have hnow : d.now - assembly.firstSeen < r.timeoutSeconds := by
    rw [h.timeout]
    linarith [htime.2]
  have hkept : (r.expire d.now).assemblies.get p.key = some assembly := by
    rw [hd.key]
    exact expire_get hget hnow
  unfold Receiver.extended
  rw [hkept]
  refine ⟨hstart, ?_⟩
  show Dict.put p.modulus p.residue assembly.residues.entries = _
  rw [hentries, hd.residue]
  split
  · rename_i heq
    simp [Dict.put, heq]
  · rename_i hne
    simp [Dict.put, Ne.symm hne]

theorem collect_kept {now firstSeen : Rat} (hkey : p.key ∉ r.assembled)
    (hfew : ((r.expire now).extended firstSeen p).residues.length < 2) :
    r.collect now firstSeen p = (r.pending now firstSeen p, .ok none) := by
  have hcase := collect_cases now firstSeen p r
  cases hresult : r.collect now firstSeen p with
  | mk r' result =>
    rw [hresult] at hcase
    cases hcase with
    | known hknown => exact absurd hknown hkey
    | kept => rfl
    | failed e _ htwo => omega
    | completed value _ htwo => omega

theorem collect_completed {now firstSeen : Rat} (hkey : p.key ∉ r.assembled)
    (htwo : 2 ≤ ((r.expire now).extended firstSeen p).residues.length)
    (hdecode : decode (.mapping (asItems
      ((r.expire now).extended firstSeen p).residues.entries)) = .ok value) :
    r.collect now firstSeen p = (r.completed now firstSeen p,
      .ok (some (p.reading value ((r.expire now).extended firstSeen p)))) := by
  have hcase := collect_cases now firstSeen p r
  cases hresult : r.collect now firstSeen p with
  | mk r' result =>
    rw [hresult] at hcase
    cases hcase with
    | known hknown => exact absurd hknown hkey
    | kept _ hfew => omega
    | failed e _ _ herror => cases herror.symm.trans hdecode
    | completed value' _ _ hvalue =>
      cases hvalue.symm.trans hdecode
      rfl

/-- A packet that leaves its assembly with one residue. -/
theorem waiting_of_one (hd : Carries key value d p) (htimeout : r.timeoutSeconds = timeout)
    (hunknown : key ∉ r.assembled)
    (hstart : start ≤ ((r.expire d.now).extended d.firstSeen p).firstSeen)
    (hentries : ((r.expire d.now).extended d.firstSeen p).residues.entries =
      [(m, ((value % m : Nat) : Int))]) (hm : m ∈ MODULI) :
    Waiting key value start timeout m (receive r d) ∧ emission r d = none := by
  have hfew : ((r.expire d.now).extended d.firstSeen p).residues.length < 2 := by
    rw [Dict.length, hentries]
    exact Nat.lt_succ_self 1
  have hkept := collect_kept (by rw [hd.key]; exact hunknown) hfew
  obtain ⟨hreceive, hnone⟩ := receive_of_none hd.parsed hkept
  refine ⟨?_, hnone⟩
  rw [hreceive]
  refine ⟨htimeout, hunknown, hm, _, ?_, hstart, hentries⟩
  show ((r.expire d.now).assemblies.set p.key _).get key = _
  rw [Dict.get_set, if_pos hd.key.symm]

/-- The first residue opens the assembly. -/
theorem Carries.opens (hd : Carries key value d p) (htime : InTime start timeout d)
    (htimeout : r.timeoutSeconds = timeout) (hunknown : key ∉ r.assembled)
    (hnew : r.assemblies.get key = none) :
    Waiting key value start timeout p.modulus (receive r d) ∧ emission r d = none := by
  have hnone : (r.expire d.now).assemblies.get p.key = none := by
    rw [hd.key]
    exact Dict.get_filter_none hnew
  have hstart : start ≤ ((r.expire d.now).extended d.firstSeen p).firstSeen := by
    unfold Receiver.extended
    rw [hnone]
    exact htime.1
  refine waiting_of_one hd htimeout hunknown hstart ?_ hd.modulus
  unfold Receiver.extended
  rw [hnone, ← hd.residue]
  rfl

/-- The residue it has again changes nothing but the packets it keeps. -/
theorem Waiting.again (h : Waiting key value start timeout m r) (hd : Carries key value d p)
    (htime : InTime start timeout d) (hm : p.modulus = m) :
    Waiting key value start timeout m (receive r d) ∧ emission r d = none := by
  obtain ⟨hstart, hentries⟩ := h.extended hd htime
  rw [if_pos hm] at hentries
  exact waiting_of_one hd h.timeout h.unknown hstart hentries h.modulus

/-- The second modulus completes the reading, modulo the product of the two. -/
theorem Waiting.completes (h : Waiting key value start timeout m r) (hd : Carries key value d p)
    (htime : InTime start timeout d) (hm : p.modulus ≠ m) :
    key ∈ (receive r d).assembled ∧
      ∃ reading, emission r d = some reading ∧ reading.value = value % (m * p.modulus) := by
  obtain ⟨_, hentries⟩ := h.extended hd htime
  rw [if_neg hm] at hentries
  have hunknown : p.key ∉ r.assembled := by
    rw [hd.key]
    exact h.unknown
  have hproduct : (((r.expire d.now).extended d.firstSeen p).residues.entries.map Prod.fst).prod =
      m * p.modulus := by
    simp [hentries]
  have hdecode : decode (.mapping (asItems
      ((r.expire d.now).extended d.firstSeen p).residues.entries)) =
      .ok (value % (m * p.modulus)) := by
    rw [← hproduct]
    exact decode_residues (by simp [hentries, h.modulus, hd.modulus]) (Dict.nodup _)
      (by simp [hentries])
  have htwo : 2 ≤ ((r.expire d.now).extended d.firstSeen p).residues.length := by
    rw [Dict.length, hentries]
    exact Nat.le_refl 2
  obtain ⟨hreceive, hsome⟩ := receive_of_some hd.parsed (collect_completed hunknown htwo hdecode)
  refine ⟨?_, _, hsome, rfl⟩
  rw [hreceive]
  show key ∈ insert p.key r.assembled
  rw [hd.key]
  exact Finset.mem_insert_self _ _

/-- A completed key stays silent. -/
theorem Carries.silent (hd : Carries key value d p) (hknown : key ∈ r.assembled) :
    key ∈ (receive r d).assembled ∧ emission r d = none := by
  have hkey : p.key ∈ r.assembled := by
    rw [hd.key]
    exact hknown
  have hcollect : r.collect d.now d.firstSeen p = (r.expire d.now, .ok none) := if_pos hkey
  obtain ⟨hreceive, hnone⟩ := receive_of_none hd.parsed hcollect
  rw [hreceive]
  exact ⟨hknown, hnone⟩

end

/-! ### A run of residues of one value -/

/-- The product of the first two distinct moduli. -/
def firstTwoProduct : List Nat → Nat
  | [] => 1
  | m :: rest => m * (rest.find? (· ≠ m)).getD 1

/-- Deliveries of residues of one value, in time. -/
def Residues.Of (key : Key) (value : Nat) (start timeout : Rat) (ds : List Delivery) : Prop :=
  ∀ d ∈ ds, InTime start timeout d ∧ ∃ p, Carries key value d p

section
variable {key : Key} {value : Nat} {start timeout : Rat} {m : Nat} {r : Receiver}
  {ds : List Delivery}

theorem emits_silent (h : Residues.Of key value start timeout ds) (hknown : key ∈ r.assembled) :
    Run.emits receive emission r ds = [] := by
  induction ds generalizing r with
  | nil => rfl
  | cons d rest ih =>
    obtain ⟨_, p, hd⟩ := h d (List.mem_cons_self ..)
    obtain ⟨hstill, hnone⟩ := hd.silent hknown
    unfold Run.emits
    rw [hnone, ih (fun d' hd' => h d' (List.mem_cons_of_mem d hd')) hstill]
    rfl

/-- A waiting key is completed by the first other modulus. -/
theorem emits_waiting (h : Residues.Of key value start timeout ds)
    (hwaiting : Waiting key value start timeout m r) {m' : Nat}
    (hother : (ds.map Delivery.modulus).find? (· ≠ m) = some m') :
    ∃ reading, Run.emits receive emission r ds = [reading] ∧ reading.value = value % (m * m') := by
  induction ds generalizing r with
  | nil => cases hother
  | cons d rest ih =>
    obtain ⟨htime, p, hd⟩ := h d (List.mem_cons_self ..)
    have hrest : Residues.Of key value start timeout rest :=
      fun d' hd' => h d' (List.mem_cons_of_mem d hd')
    unfold Run.emits
    rw [List.map_cons, List.find?_cons, hd.modulus_eq] at hother
    by_cases hm : p.modulus = m
    · rw [decide_eq_false (fun hne => hne hm)] at hother
      obtain ⟨hstill, hnone⟩ := hwaiting.again hd htime hm
      rw [hnone]
      exact ih hrest hstill hother
    · rw [decide_eq_true hm] at hother
      cases hother
      obtain ⟨hknown, reading, hsome, hvalue⟩ := hwaiting.completes hd htime hm
      refine ⟨reading, ?_, hvalue⟩
      rw [hsome, emits_silent hrest hknown]
      rfl

/-- Of two distinct numbers in a list one differs from the first. -/
theorem find_other (m : Nat) (rest : List Nat) (h : ∃ a ∈ m :: rest, ∃ b ∈ m :: rest, a ≠ b) :
    ∃ m', rest.find? (· ≠ m) = some m' := by
  cases hfind : rest.find? (· ≠ m) with
  | some m' => exact ⟨m', rfl⟩
  | none =>
    have hsame (a : Nat) (ha : a ∈ m :: rest) : a = m := by
      rcases List.mem_cons.mp ha with heq | hrest
      · exact heq
      · simpa using List.find?_eq_none.mp hfind a hrest
    obtain ⟨a, ha, b, hb, hne⟩ := h
    exact absurd ((hsame a ha).trans (hsame b hb).symm) hne

/-- Exactly one reading, with the value modulo the product of the first two moduli. -/
theorem emits_residues (h : Residues.Of key value start timeout ds)
    (htwo : ∃ d ∈ ds, ∃ d' ∈ ds, d.modulus ≠ d'.modulus) :
    0 < firstTwoProduct (ds.map Delivery.modulus) ∧
      ∃ reading, Run.emits receive emission (Receiver.fresh timeout) ds = [reading] ∧
        reading.value = value % firstTwoProduct (ds.map Delivery.modulus) := by
  cases ds with
  | nil =>
    obtain ⟨d, hd, _⟩ := htwo
    cases hd
  | cons d rest =>
    obtain ⟨htime, p, hd⟩ := h d (List.mem_cons_self ..)
    have hrest : Residues.Of key value start timeout rest :=
      fun d' hd' => h d' (List.mem_cons_of_mem d hd')
    obtain ⟨hwaiting, hnone⟩ :=
      hd.opens (r := Receiver.fresh timeout) htime rfl (Finset.notMem_empty key) rfl
    obtain ⟨a, ha, b, hb, hne⟩ := htwo
    obtain ⟨m', hother⟩ := find_other p.modulus (rest.map Delivery.modulus)
      ⟨a.modulus, by rw [← hd.modulus_eq]; exact List.mem_map_of_mem ha,
        b.modulus, by rw [← hd.modulus_eq]; exact List.mem_map_of_mem hb, hne⟩
    have hproduct : firstTwoProduct ((d :: rest).map Delivery.modulus) = p.modulus * m' := by
      rw [List.map_cons, firstTwoProduct, hd.modulus_eq, hother]
      rfl
    have hm' : m' ∈ MODULI := by
      obtain ⟨d', hd', heq⟩ := List.mem_map.mp (List.mem_of_find?_eq_some hother)
      obtain ⟨_, p', hcarries⟩ := hrest d' hd'
      rw [← heq, hcarries.modulus_eq]
      exact hcarries.modulus
    obtain ⟨reading, hemits, hvalue⟩ := emits_waiting hrest hwaiting hother
    rw [hproduct]
    refine ⟨Nat.mul_pos (MODULI_pos hd.modulus) (MODULI_pos hm'), reading, ?_, hvalue⟩
    unfold Run.emits
    rw [hnone, hemits]
    rfl

end

/-- A packet of reading 1 of device a, with one residue. -/
def packetAt (time : Rat) (modulus : Nat) (residue : Int) : Delivery where
  packet := .packet
    {deviceId := "a", readingId := "1", modulus := some (.int modulus), residue := some (.int residue)}
  now := time
  firstSeen := time

end FarmChain.Gateway
