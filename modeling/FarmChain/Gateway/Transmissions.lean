import FarmChain.Gateway.Reassembly

/-! Two transmissions under one reading id.

A device draws the id of a reading from 16 random bits, so ids come back. Assemblies
time out, but a completed key is never forgotten: `transmission_emitted` says that a
transmission that finds nothing pending is emitted exactly if its key was not completed
before, and is completed in either case, so of two transmissions under one key the
second is swallowed. -/
namespace FarmChain.Gateway

/-- How many of some readings are of a key. -/
def countOf (key : Key) (readings : List SensorReading) : Nat :=
  readings.countP fun reading => reading.key = key

/-- A packet of the key. -/
def Delivery.For (d : Delivery) (key : Key) (p : Parsed) : Prop :=
  parsePacket d.packet = .ok p ∧ p.key = key

section
variable {key : Key} {r : Receiver} {d : Delivery} {p : Parsed} {m : Nat} {x : Int}
  {start timeout : Rat} {ds : List Delivery}

/-! ### One delivery -/

/-- A delivery that was read does what it does under the lock, and then puts a reading. -/
theorem receive_parsed (h : parsePacket d.packet = .ok p) :
    (receive r d).assemblies = (r.collect d.now d.firstSeen p).1.assemblies ∧
      (receive r d).assembled = (r.collect d.now d.firstSeen p).1.assembled ∧
      (receive r d).timeoutSeconds = r.timeoutSeconds ∧
      ∀ reading, emission r d = some reading ↔
        (r.collect d.now d.firstSeen p).2 = .ok (some reading) := by
  obtain ⟨_, _, htimeout⟩ := collect_frame d.now d.firstSeen p r
  unfold receive emission processPacket
  rw [h]
  dsimp only
  cases hcollect : r.collect d.now d.firstSeen p with
  | mk r' result =>
    rw [hcollect] at htimeout
    cases result with
    | error e => exact ⟨rfl, rfl, htimeout, fun reading => by simp⟩
    | ok o =>
      cases o with
      | none => exact ⟨rfl, rfl, htimeout, fun reading => by simp⟩
      | some emitted => exact ⟨rfl, rfl, htimeout, fun reading => by simp⟩

theorem receive_unread {e : Failure} (h : parsePacket d.packet = .error e) :
    receive r d = r ∧ emission r d = none := by
  unfold receive emission processPacket
  rw [h]
  exact ⟨rfl, rfl⟩

/-- A delivery keeps the completed keys. -/
theorem receive_assembled_subset : r.assembled ⊆ (receive r d).assembled := by
  cases hparse : parsePacket d.packet with
  | error e => rw [(receive_unread hparse).1]
  | ok p =>
    rw [(receive_parsed hparse).2.1]
    exact (collect_frame d.now d.firstSeen p r).1

theorem receive_timeout : (receive r d).timeoutSeconds = r.timeoutSeconds := by
  cases hparse : parsePacket d.packet with
  | error e => rw [(receive_unread hparse).1]
  | ok p => exact (receive_parsed hparse).2.2.1

/-- A reading's key was open before its delivery and is completed after it. -/
theorem emission_completes {reading : SensorReading} (h : emission r d = some reading) :
    reading.key ∉ r.assembled ∧ reading.key ∈ (receive r d).assembled := by
  cases hparse : parsePacket d.packet with
  | error e => cases h.symm.trans (receive_unread hparse).2
  | ok p =>
    obtain ⟨_, hassembled, _, hemission⟩ := receive_parsed (r := r) hparse
    rw [hassembled]
    exact collect_completes ((hemission reading).mp h)

/-- What a delivery for another key, or one that cannot be read, leaves of a key. -/
theorem receive_other (hother : ∀ p, ¬d.For key p) :
    (∀ assembly, r.assemblies.get key = some assembly →
        d.now - assembly.firstSeen < r.timeoutSeconds →
        (receive r d).assemblies.get key = some assembly) ∧
      (r.assemblies.get key = none → (receive r d).assemblies.get key = none) ∧
      (key ∈ (receive r d).assembled → key ∈ r.assembled) ∧
      countOf key (emission r d).toList = 0 := by
  cases hparse : parsePacket d.packet with
  | error e =>
    obtain ⟨hreceive, hemission⟩ := receive_unread (r := r) hparse
    rw [hreceive, hemission]
    exact ⟨fun assembly hget _ => hget, id, id, rfl⟩
  | ok p =>
    have hne : key ≠ p.key := fun heq => hother p ⟨hparse, heq.symm⟩
    obtain ⟨hassemblies, hassembled, _, hemission⟩ := receive_parsed (r := r) hparse
    rw [hassemblies, hassembled, collect_other hne]
    refine ⟨fun assembly hget htime => expire_get hget htime, Dict.get_filter_none, ?_, ?_⟩
    · have hcase := collect_cases d.now d.firstSeen p r
      generalize r.collect d.now d.firstSeen p = result at hcase ⊢
      cases hcase with
      | known => exact id
      | kept => exact id
      | failed => exact id
      | completed => exact fun hmem => (Finset.mem_insert.mp hmem).resolve_left hne
    · cases hsome : emission r d with
      | none => rfl
      | some reading =>
        have hreading := (hemission reading).mp hsome
        have hkey : reading.key = p.key := by
          have hcase := collect_cases d.now d.firstSeen p r
          generalize r.collect d.now d.firstSeen p = result at hcase hreading
          cases hcase with
          | known => cases hreading
          | kept => cases hreading
          | failed => cases hreading
          | completed => cases hreading; rfl
        simp [countOf, hkey, Ne.symm hne]

/-- A completed key stays silent, whatever arrives. -/
theorem count_completed (h : key ∈ r.assembled) :
    countOf key (Run.emits receive emission r ds) = 0 := by
  induction ds generalizing r with
  | nil => rfl
  | cons d rest ih =>
    have hrest := ih (receive_assembled_subset (d := d) h)
    unfold countOf at hrest ⊢
    unfold Run.emits
    rw [List.countP_append, hrest, Nat.add_zero]
    cases hsome : emission r d with
    | none => rfl
    | some reading =>
      have hne : reading.key ≠ key := fun heq => (emission_completes hsome).1 (heq ▸ h)
      simp [hne]

theorem run_assembled_subset (ds : List Delivery) :
    r.assembled ⊆ (Run.run receive r ds).assembled := by
  induction ds generalizing r with
  | nil => exact Finset.Subset.refl _
  | cons d rest ih => exact Finset.Subset.trans receive_assembled_subset ih

/-- A run that emits a reading of a key completes it. -/
theorem completed_of_count (h : 0 < countOf key (Run.emits receive emission r ds)) :
    key ∈ (Run.run receive r ds).assembled := by
  induction ds generalizing r with
  | nil => cases h
  | cons d rest ih =>
    unfold countOf at h ih
    unfold Run.emits at h
    rw [List.countP_append] at h
    cases hsome : emission r d with
    | none =>
      rw [hsome] at h
      exact ih (by simpa using h)
    | some reading =>
      by_cases hkey : reading.key = key
      · have hdone := (emission_completes hsome).2
        rw [hkey] at hdone
        exact run_assembled_subset rest hdone
      · rw [hsome] at h
        exact ih (by simpa [hkey] using h)

/-! ### A transmission -/

/-- A key with one residue, in range, that was opened no earlier than `start`. -/
structure Holding (key : Key) (start timeout : Rat) (m : Nat) (r : Receiver) : Prop where
  timeout_eq : r.timeoutSeconds = timeout
  unknown : key ∉ r.assembled
  pending : ∃ assembly x, r.assemblies.get key = some assembly ∧ start ≤ assembly.firstSeen ∧
    assembly.residues.entries = [(m, x)] ∧ InRange [(m, x)]

/-- A packet of a transmission: supported, in range and in time. -/
structure Fits (key : Key) (start timeout : Rat) (d : Delivery) (p : Parsed) : Prop where
  parsed : parsePacket d.packet = .ok p
  key_eq : p.key = key
  inRange : p.modulus ∈ MODULI ∧ 0 ≤ p.residue ∧ p.residue < p.modulus
  inTime : InTime start timeout d

/-- The assembly a packet extends, when it is to be kept. -/
theorem Fits.kept (h : Fits key start timeout d p) (htimeout : r.timeoutSeconds = timeout)
    (hunknown : key ∉ r.assembled)
    (hstart : start ≤ ((r.expire d.now).extended d.firstSeen p).firstSeen)
    (hentries : ((r.expire d.now).extended d.firstSeen p).residues.entries = [(m, x)])
    (hrange : InRange [(m, x)]) :
    Holding key start timeout m (receive r d) ∧ emission r d = none := by
  have hfew : ((r.expire d.now).extended d.firstSeen p).residues.length < 2 := by
    rw [Dict.length, hentries]
    exact Nat.lt_succ_self 1
  obtain ⟨hreceive, hnone⟩ :=
    receive_of_none h.parsed (collect_kept (by rw [h.key_eq]; exact hunknown) hfew)
  refine ⟨?_, hnone⟩
  rw [hreceive]
  refine ⟨htimeout, hunknown, _, x, ?_, hstart, hentries, hrange⟩
  show ((r.expire d.now).assemblies.set p.key _).get key = _
  rw [Dict.get_set, if_pos h.key_eq.symm]

/-- The first packet opens the assembly. -/
theorem Fits.opens (h : Fits key start timeout d p) (htimeout : r.timeoutSeconds = timeout)
    (hunknown : key ∉ r.assembled)
    (hnew : (r.expire d.now).assemblies.get key = none) :
    Holding key start timeout p.modulus (receive r d) ∧ emission r d = none := by
  have hextended : (r.expire d.now).extended d.firstSeen p =
      {firstSeen := d.firstSeen, packets := [p.pkt]
       residues := (∅ : Dict Nat Int).set p.modulus p.residue} := by
    unfold Receiver.extended
    rw [h.key_eq, hnew]
    rfl
  refine h.kept (x := p.residue) htimeout hunknown ?_ ?_ ?_
  · rw [hextended]
    exact h.inTime.1
  · rw [hextended]
    rfl
  · intro e he
    cases List.mem_singleton.mp he
    exact h.inRange

/-- The held assembly with the packet's residue in it. -/
theorem Holding.extended (hheld : Holding key start timeout m r) (h : Fits key start timeout d p) :
    ∃ x, start ≤ ((r.expire d.now).extended d.firstSeen p).firstSeen ∧
      InRange [(m, x)] ∧
      ((r.expire d.now).extended d.firstSeen p).residues.entries =
        if p.modulus = m then [(m, p.residue)] else [(m, x), (p.modulus, p.residue)] := by
  obtain ⟨assembly, x, hget, hstart, hentries, hrange⟩ := hheld.pending
  have hnow : d.now - assembly.firstSeen < r.timeoutSeconds := by
    rw [hheld.timeout_eq]
    linarith [h.inTime.2]
  have hkept : (r.expire d.now).assemblies.get p.key = some assembly := by
    rw [h.key_eq]
    exact expire_get hget hnow
  unfold Receiver.extended
  rw [hkept]
  refine ⟨x, hstart, hrange, ?_⟩
  show Dict.put p.modulus p.residue assembly.residues.entries = _
  rw [hentries]
  split
  · rename_i heq
    simp [Dict.put, heq]
  · rename_i hne
    simp [Dict.put, Ne.symm hne]

/-- A packet with the modulus it has already. -/
theorem Holding.again (hheld : Holding key start timeout m r) (h : Fits key start timeout d p)
    (hm : p.modulus = m) : Holding key start timeout m (receive r d) ∧ emission r d = none := by
  obtain ⟨_, hstart, _, hentries⟩ := hheld.extended h
  rw [if_pos hm] at hentries
  refine h.kept hheld.timeout_eq hheld.unknown hstart hentries ?_
  intro e he
  cases List.mem_singleton.mp he
  exact hm ▸ h.inRange

/-- A packet with another modulus completes the key. -/
theorem Holding.completes (hheld : Holding key start timeout m r) (h : Fits key start timeout d p)
    (hm : p.modulus ≠ m) :
    key ∈ (receive r d).assembled ∧ countOf key (emission r d).toList = 1 := by
  obtain ⟨x, _, hrange, hentries⟩ := hheld.extended h
  rw [if_neg hm] at hentries
  have hall : InRange ((r.expire d.now).extended d.firstSeen p).residues.entries := by
    rw [hentries]
    intro e he
    rcases List.mem_cons.mp he with rfl | hlast
    · exact hrange _ (List.mem_singleton_self _)
    · cases List.mem_singleton.mp hlast
      exact h.inRange
  have htwo : 2 ≤ ((r.expire d.now).extended d.firstSeen p).residues.length := by
    rw [Dict.length, hentries]
    exact Nat.le_refl 2
  have hdecode := decode_inRange hall (Dict.nodup _) htwo
  obtain ⟨_, hsome⟩ := receive_of_some h.parsed
    (collect_completed (by rw [h.key_eq]; exact hheld.unknown) htwo hdecode)
  have hkey (value : Nat) :
      (p.reading value ((r.expire d.now).extended d.firstSeen p)).key = key := h.key_eq
  have hdone := (emission_completes hsome).2
  rw [hkey] at hdone
  refine ⟨hdone, ?_⟩
  rw [hsome]
  simp [countOf, hkey]

/-- A delivery for another key leaves it held. -/
theorem Holding.other (hheld : Holding key start timeout m r) (hother : ∀ p, ¬d.For key p)
    (htime : InTime start timeout d) :
    Holding key start timeout m (receive r d) ∧ countOf key (emission r d).toList = 0 := by
  obtain ⟨hkept, _, hunknown, hcount⟩ := receive_other (r := r) hother
  obtain ⟨assembly, x, hget, hstart, hentries, hrange⟩ := hheld.pending
  refine ⟨⟨receive_timeout.trans hheld.timeout_eq, fun hmem => hheld.unknown (hunknown hmem),
    assembly, x, hkept assembly hget ?_, hstart, hentries, hrange⟩, hcount⟩
  rw [hheld.timeout_eq]
  linarith [htime.2]

/-! ### A run of deliveries -/

theorem countOf_cons : countOf key (Run.emits receive emission r (d :: ds)) =
    countOf key (emission r d).toList + countOf key (Run.emits receive emission (receive r d) ds) :=
  List.countP_append

/-- The next other modulus completes a held key; after it the key is silent. -/
theorem count_holding (hheld : Holding key start timeout m r)
    (htime : ∀ d ∈ ds, InTime start timeout d)
    (hfits : ∀ d ∈ ds, ∀ p, d.For key p → Fits key start timeout d p)
    (hother : ∃ d ∈ ds, ∃ p, d.For key p ∧ p.modulus ≠ m) :
    countOf key (Run.emits receive emission r ds) = 1 ∧
      key ∈ (Run.run receive r ds).assembled := by
  induction ds generalizing r with
  | nil =>
    obtain ⟨d, hd, _⟩ := hother
    cases hd
  | cons d rest ih =>
    have hrest (r' : Receiver) (hheld' : Holding key start timeout m r')
        (hother' : ∃ d ∈ rest, ∃ p, d.For key p ∧ p.modulus ≠ m) :=
      ih hheld' (fun d' hd' => htime d' (List.mem_cons_of_mem d hd'))
        (fun d' hd' => hfits d' (List.mem_cons_of_mem d hd')) hother'
    rw [countOf_cons]
    obtain ⟨d', hd', p', hp', hm'⟩ := hother
    by_cases hfor : ∃ p, d.For key p
    · obtain ⟨p, hp⟩ := hfor
      have hpacket := hfits d (List.mem_cons_self ..) p hp
      by_cases hm : p.modulus = m
      · obtain ⟨hstill, hnone⟩ := hheld.again hpacket hm
        rw [hnone]
        have hlater : d' ∈ rest := by
          rcases List.mem_cons.mp hd' with rfl | hlater
          · cases hp.1.symm.trans hp'.1
            exact absurd hm hm'
          · exact hlater
        obtain ⟨hcount, hdone⟩ := hrest _ hstill ⟨d', hlater, p', hp', hm'⟩
        exact ⟨(Nat.zero_add _).trans hcount, hdone⟩
      · obtain ⟨hdone, hcount⟩ := hheld.completes hpacket hm
        rw [hcount, count_completed hdone]
        exact ⟨rfl, run_assembled_subset rest hdone⟩
    · obtain ⟨hstill, hcount⟩ :=
        hheld.other (fun p hp => hfor ⟨p, hp⟩) (htime d (List.mem_cons_self ..))
      have hlater : d' ∈ rest := by
        rcases List.mem_cons.mp hd' with rfl | hlater
        · exact absurd ⟨p', hp'⟩ hfor
        · exact hlater
      obtain ⟨hcount', hdone⟩ := hrest _ hstill ⟨d', hlater, p', hp', hm'⟩
      rw [hcount, hcount']
      exact ⟨rfl, hdone⟩

/-- The packets of one reading, from the first to the last, among what else arrives. -/
structure Transmission (key : Key) (timeout : Rat) (first : Delivery) (rest : List Delivery) :
    Prop where
  starts : ∃ p, first.For key p
  inRange : ∀ d ∈ first :: rest, ∀ p, d.For key p →
    p.modulus ∈ MODULI ∧ 0 ≤ p.residue ∧ p.residue < p.modulus
  two : ∃ d ∈ first :: rest, ∃ d' ∈ first :: rest, ∃ p p', d.For key p ∧ d'.For key p' ∧
    p.modulus ≠ p'.modulus
  inTime : ∀ d ∈ first :: rest, d.now - first.now < timeout

/-- The clock, as the calls read it. -/
def clock (ds : List Delivery) : List Rat := ds.flatMap fun d => [d.now, d.firstSeen]

theorem clock_le {first : Delivery} {rest : List Delivery}
    (h : (clock (first :: rest)).Pairwise (· ≤ ·)) (hd : d ∈ first :: rest) :
    first.now ≤ d.firstSeen := by
  have hfirst (t : Rat) : t ∈ first.firstSeen :: clock rest → first.now ≤ t :=
    List.rel_of_pairwise_cons h
  rcases List.mem_cons.mp hd with rfl | hrest
  · exact hfirst _ (List.mem_cons_self ..)
  · exact hfirst _ (List.mem_cons_of_mem _
      (List.mem_flatMap.mpr ⟨d, hrest, List.mem_cons_of_mem _ (List.mem_singleton_self _)⟩))

/-- A transmission that finds no assembly of its key is emitted exactly if the key was not
completed before; the key is completed in either case. -/
theorem transmission_emitted {first : Delivery} (h : Transmission key timeout first ds)
    (hclock : (clock (first :: ds)).Pairwise (· ≤ ·)) (htimeout : r.timeoutSeconds = timeout)
    (hnew : (r.expire first.now).assemblies.get key = none) :
    countOf key (Run.emits receive emission r (first :: ds)) =
        (if key ∈ r.assembled then 0 else 1) ∧
      key ∈ (Run.run receive r (first :: ds)).assembled := by
  by_cases hknown : key ∈ r.assembled
  · rw [if_pos hknown, count_completed hknown]
    exact ⟨rfl, run_assembled_subset _ hknown⟩
  · rw [if_neg hknown]
    have htime (d : Delivery) (hd : d ∈ first :: ds) : InTime first.now timeout d :=
      ⟨clock_le hclock hd, h.inTime d hd⟩
    have hfits (d : Delivery) (hd : d ∈ first :: ds) (p : Parsed) (hp : d.For key p) :
        Fits key first.now timeout d p := ⟨hp.1, hp.2, h.inRange d hd p hp, htime d hd⟩
    obtain ⟨p, hp⟩ := h.starts
    obtain ⟨hheld, hnone⟩ :=
      (hfits first (List.mem_cons_self ..) p hp).opens htimeout hknown hnew
    obtain ⟨d, hd, d', hd', q, q', hq, hq', hdiffer⟩ := h.two
    have hother : ∃ d ∈ ds, ∃ q, d.For key q ∧ q.modulus ≠ p.modulus := by
      have hlater (e : Delivery) (he : e ∈ first :: ds) (q : Parsed) (hq : e.For key q)
          (hne : q.modulus ≠ p.modulus) : ∃ d ∈ ds, ∃ q, d.For key q ∧ q.modulus ≠ p.modulus := by
        rcases List.mem_cons.mp he with rfl | hmem
        · cases hp.1.symm.trans hq.1
          exact absurd rfl hne
        · exact ⟨e, hmem, q, hq, hne⟩
      by_cases hsame : q.modulus = p.modulus
      · exact hlater d' hd' q' hq' (fun heq => hdiffer (hsame.trans heq.symm))
      · exact hlater d hd q hq hsame
    obtain ⟨hcount, hdone⟩ := count_holding hheld
      (fun d hd => htime d (List.mem_cons_of_mem first hd))
      (fun d hd => hfits d (List.mem_cons_of_mem first hd)) hother
    rw [countOf_cons, hnone, hcount]
    exact ⟨rfl, hdone⟩

end

/-! ### Two of them -/

/-- A run with two transmissions under one key that start more than the timeout apart. -/
structure Repeats (key : Key) (timeout : Rat) (before : List Delivery) (first : Delivery)
    (firstRest between : List Delivery) (second : Delivery) (secondRest : List Delivery) : Prop where
  clock : (clock (before ++ (first :: firstRest) ++ between ++ (second :: secondRest))).Pairwise
    (· ≤ ·)
  one : Transmission key timeout first firstRest
  two : Transmission key timeout second secondRest
  apart : first.now + timeout < second.now

/-- Of two transmissions under one key not both are emitted; where nothing is pending when
the first starts, it is emitted unless the key was completed before, and the second is not. -/
theorem second_transmission_swallowed {key : Key} {timeout : Rat} {before : List Delivery}
    {first : Delivery} {firstRest between : List Delivery} {second : Delivery}
    {secondRest : List Delivery}
    (h : Repeats key timeout before first firstRest between second secondRest) :
    let r₁ := Run.run receive (.fresh timeout) before
    let r₂ := Run.run receive r₁ (first :: firstRest ++ between)
    ¬(0 < countOf key (Run.emits receive emission r₁ (first :: firstRest)) ∧
        0 < countOf key (Run.emits receive emission r₂ (second :: secondRest))) ∧
      ((r₁.expire first.now).assemblies.get key = none →
        countOf key (Run.emits receive emission r₁ (first :: firstRest)) =
            (if key ∈ r₁.assembled then 0 else 1) ∧
          countOf key (Run.emits receive emission r₂ (second :: secondRest)) = 0) := by
  intro r₁ r₂
  have hsilent (hdone : key ∈ (Run.run receive r₁ (first :: firstRest)).assembled) :
      countOf key (Run.emits receive emission r₂ (second :: secondRest)) = 0 := by
    refine count_completed ?_
    show key ∈ (Run.run receive r₁ (first :: firstRest ++ between)).assembled
    rw [Run.run_append]
    exact run_assembled_subset _ hdone
  refine ⟨fun hboth => ?_, fun hnew => ?_⟩
  · rw [hsilent (completed_of_count hboth.1)] at hboth
    exact absurd hboth.2 (Nat.lt_irrefl 0)
  · have htimeout : r₁.timeoutSeconds = timeout :=
      Run.run_invariant receive (fun r => r.timeoutSeconds = timeout)
        (fun r d hr => receive_timeout.trans hr) _ before rfl
    have hclock : (clock (first :: firstRest)).Pairwise (· ≤ ·) := by
      refine h.clock.sublist ?_
      simp only [clock, List.flatMap_append, List.append_assoc]
      exact (List.sublist_append_left _ _).trans (List.sublist_append_right _ _)
    obtain ⟨hcount, hdone⟩ := transmission_emitted h.one hclock htimeout hnew
    exact ⟨hcount, hsilent hdone⟩

theorem packetAt_parsed {m : Nat} (hm : m ∈ MODULI) (time : Rat) (x : Int) :
    ∃ p, (packetAt time m x).For ("a", "1") p ∧ p.modulus = m ∧ p.residue = x := by
  have hmodulus : supportedModulus (m : Int) = .ok m := supportedModulus_eq_ok.mpr ⟨rfl, hm⟩
  refine ⟨⟨{deviceId := "a", readingId := "1", modulus := some (.int m), residue := some (.int x)},
    "a", "1", m, x⟩, ⟨?_, rfl⟩, rfl, rfl⟩
  simp [parsePacket, packetAt, packetToDict, packetModulus, namedModulus, lookup, Value.toInt,
    Except.ok_bind, hmodulus]

/-- Two packets with different moduli make a transmission. -/
theorem transmission_packetAt {time time' timeout : Rat} {m m' : Nat} {x : Int}
    (hm : m ∈ MODULI) (hm' : m' ∈ MODULI) (hne : m ≠ m') (hx : 0 ≤ x ∧ x < m ∧ x < m')
    (htime : time - time < timeout ∧ time' - time < timeout) :
    Transmission ("a", "1") timeout (packetAt time m x) [packetAt time' m' x] := by
  obtain ⟨p, hp, hpm, hpx⟩ := packetAt_parsed hm time x
  obtain ⟨p', hp', hpm', hpx'⟩ := packetAt_parsed hm' time' x
  have hsecond : packetAt time' m' x ∈ [packetAt time m x, packetAt time' m' x] :=
    List.mem_cons_of_mem _ (List.mem_singleton_self _)
  refine ⟨⟨p, hp⟩, ?_, ⟨_, List.mem_cons_self .., _, hsecond, p, p', hp, hp', ?_⟩, ?_⟩
  · intro d hd q hq
    rcases List.mem_cons.mp hd with rfl | hd
    · cases hp.1.symm.trans hq.1
      rw [hpm, hpx]
      exact ⟨hm, hx.1, hx.2.1⟩
    · cases List.mem_singleton.mp hd
      cases hp'.1.symm.trans hq.1
      rw [hpm', hpx']
      exact ⟨hm', hx.1, hx.2.2⟩
  · rw [hpm, hpm']
    exact hne
  · intro d hd
    rcases List.mem_cons.mp hd with rfl | hd
    · exact htime.1
    · cases List.mem_singleton.mp hd
      exact htime.2

/-- Reading 1 is sent at 0 and, with another value, at 100. -/
theorem repeats_packetAt : Repeats ("a", "1") 60 [] (packetAt 0 97 5) [packetAt 1 101 5] []
    (packetAt 100 97 7) [packetAt 101 101 7] where
  clock := by decide +kernel
  one := transmission_packetAt (by decide) (by decide) (by decide) (by decide) (by decide +kernel)
  two := transmission_packetAt (by decide) (by decide) (by decide) (by decide) (by decide +kernel)
  apart := by decide +kernel

theorem swallowed_packetAt :
    ¬(0 < countOf ("a", "1") (Run.emits receive emission (.fresh 60)
          [packetAt 0 97 5, packetAt 1 101 5]) ∧
        0 < countOf ("a", "1") (Run.emits receive emission
          (Run.run receive (.fresh 60) [packetAt 0 97 5, packetAt 1 101 5])
          [packetAt 100 97 7, packetAt 101 101 7])) :=
  (second_transmission_swallowed repeats_packetAt).1

/-- The reading of 0 is emitted, the one of 100 is not. -/
theorem transmission_swallowed :
    Repeats ("a", "1") 60 [] (packetAt 0 97 5) [packetAt 1 101 5] []
        (packetAt 100 97 7) [packetAt 101 101 7] ∧
      (Run.emits receive emission (.fresh 60) [packetAt 0 97 5, packetAt 1 101 5]).map
        SensorReading.value = [5] ∧
      Run.emits receive emission
        (Run.run receive (.fresh 60) [packetAt 0 97 5, packetAt 1 101 5])
        [packetAt 100 97 7, packetAt 101 101 7] = [] :=
  ⟨repeats_packetAt, by decide +kernel, by decide +kernel⟩

end FarmChain.Gateway
