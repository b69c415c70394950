import FarmChain.Lib.Threads
import FarmChain.Gateway.Assembly

/-! Reassembly under any interleaving.

Threads call `process_packet` and `expire_incomplete`; what a call does while it holds
the lock is one step, and the steps of different threads interleave as they like. A
call that raises is over, with what it did before it raised left in place.

`reassembly_safe`: each key is emitted at most once, an emitted reading is the decoding
of the latest residues since its assembly was opened, less than the timeout before, and
no key is both assembled and pending. -/
namespace FarmChain.Gateway

/-- Where a caller of the receiver stands. -/
inductive Caller where
  | outside
  /-- In `process_packet`, before the lock. -/
  | waiting (p : Parsed)
  /-- In `process_packet`, with the lock released and a reading to put. -/
  | putting (reading : SensorReading)
  deriving DecidableEq

/-- What a caller does next, with the times it reads. -/
inductive Call where
  | processPacket (packet : Incoming)
  | lock (now firstSeen : Rat)
  | put
  | expireIncomplete (now : Rat)
  deriving DecidableEq

/-- A caller's next move, and what it raises. -/
def callMove (caller : Caller) (r : Receiver) (call : Call) :
    Option (Caller × Receiver × Option Failure) :=
  match caller, call with
  | .outside, .processPacket packet =>
    match parsePacket packet with
    | .error e => some (.outside, r, some e)
    | .ok p => some (.waiting p, r, none)
  | .waiting p, .lock now firstSeen =>
    match r.collect now firstSeen p with
    | (r, .error e) => some (.outside, r, some e)
    | (r, .ok none) => some (.outside, r, none)
    | (r, .ok (some reading)) => some (.putting reading, r, none)
  | .putting reading, .put => some (.outside, r.put reading, none)
  | .outside, .expireIncomplete now => some (.outside, r.expire now, none)
  | _, _ => none

abbrev Callers (T : Type) := Threads.System T Caller Receiver

/-- A new receiver that no thread has called yet. -/
def Callers.idle (T : Type) (timeoutSeconds : Rat) : Callers T where
  own _ := .outside
  shared := .fresh timeoutSeconds

section
variable {T : Type} [DecidableEq T]

def callStep (s : Callers T) (a : Threads.Action T Call) : Callers T :=
  Threads.step (fun _ => callMove) s a

/-! ### What a step received, opened and completed -/

omit [DecidableEq T] in
/-- The residue that a step under the lock received for a key, with its modulus. -/
def arrival (key : Key) (s : Callers T) (a : Threads.Action T Call) : Option (Nat × Int) :=
  match s.own a.thread, a.input with
  | .waiting p, .lock _ _ => if p.key = key then some (p.modulus, p.residue) else none
  | _, _ => none

omit [DecidableEq T] in
/-- The clock as read by a step that opened an assembly for a key. -/
def opening (key : Key) (s : Callers T) (a : Threads.Action T Call) : Option Rat :=
  match s.own a.thread, a.input with
  | .waiting p, .lock now firstSeen =>
    if p.key = key ∧ key ∉ s.shared.assembled ∧
      (s.shared.expire now).assemblies.get key = none then some firstSeen else none
  | _, _ => none

omit [DecidableEq T] in
/-- The reading a step completed, and the clock it read for expiry. -/
def completion (s : Callers T) (a : Threads.Action T Call) : Option (SensorReading × Rat) :=
  match s.own a.thread, a.input with
  | .waiting p, .lock now firstSeen =>
    match (s.shared.collect now firstSeen p).2 with
    | .ok (some reading) => some (reading, now)
    | _ => none
  | _, _ => none

/-- The residue that came last for a modulus. -/
def latest (m : Nat) (arrivals : List (Nat × Int)) : Option Int :=
  (arrivals.reverse.find? fun e => e.1 = m).map Prod.snd

theorem latest_snoc (m : Nat) (arrivals : List (Nat × Int)) (e : Nat × Int) :
    latest m (arrivals ++ [e]) = if m = e.1 then some e.2 else latest m arrivals := by
  unfold latest
  rw [List.reverse_append, List.reverse_singleton, List.singleton_append, List.find?_cons]
  by_cases h : m = e.1
  · rw [if_pos h, decide_eq_true h.symm]
    rfl
  · rw [if_neg h, decide_eq_false (Ne.symm h)]

/-! ### What a step does -/

/-- A caller's moves. -/
inductive Called (r : Receiver) : Caller → Call → Caller × Receiver × Option Failure → Prop
  | refused (packet : Incoming) (e : Failure) (hparse : parsePacket packet = .error e) :
    Called r .outside (.processPacket packet) (.outside, r, some e)
  | entered (packet : Incoming) (p : Parsed) (hparse : parsePacket packet = .ok p) :
    Called r .outside (.processPacket packet) (.waiting p, r, none)
  | silent (p : Parsed) (now firstSeen : Rat) (e : Option Failure)
    (hnone : ∀ reading, (r.collect now firstSeen p).2 ≠ .ok (some reading)) :
    Called r (.waiting p) (.lock now firstSeen) (.outside, (r.collect now firstSeen p).1, e)
  | completed (p : Parsed) (now firstSeen : Rat) (reading : SensorReading)
    (hreading : (r.collect now firstSeen p).2 = .ok (some reading)) :
    Called r (.waiting p) (.lock now firstSeen)
      (.putting reading, (r.collect now firstSeen p).1, none)
  | put (reading : SensorReading) :
    Called r (.putting reading) .put (.outside, r.put reading, none)
  | expired (now : Rat) :
    Called r .outside (.expireIncomplete now) (.outside, r.expire now, none)

theorem callMove_cases {caller : Caller} {r : Receiver} {call : Call}
    {outcome : Caller × Receiver × Option Failure} (h : callMove caller r call = some outcome) :
    Called r caller call outcome := by
  unfold callMove at h
  split at h
  · rename_i packet
    split at h
    · rename_i e hparse
      cases h
      exact .refused packet e hparse
    · rename_i p hparse
      cases h
      exact .entered packet p hparse
  · rename_i p now firstSeen
    have hstate {r' : Receiver} {result : Except Failure (Option SensorReading)}
        (hcollect : r.collect now firstSeen p = (r', result)) :
        r' = (r.collect now firstSeen p).1 ∧ (r.collect now firstSeen p).2 = result :=
      ⟨(congrArg Prod.fst hcollect).symm, congrArg Prod.snd hcollect⟩
    split at h
    · rename_i r' e hcollect
      cases h
      obtain ⟨rfl, hresult⟩ := hstate hcollect
      exact .silent p now firstSeen _ fun reading hreading => by cases hresult.symm.trans hreading
    · rename_i r' hcollect
      cases h
      obtain ⟨rfl, hresult⟩ := hstate hcollect
      exact .silent p now firstSeen _ fun reading hreading => by cases hresult.symm.trans hreading
    · rename_i r' reading hcollect
      cases h
      obtain ⟨rfl, hresult⟩ := hstate hcollect
      exact .completed p now firstSeen reading hresult
  · rename_i reading
    cases h
    exact .put reading
  · rename_i now
    cases h
    exact .expired now
  · cases h

/-- A caller that waits for the lock can take it. -/
theorem lock_moves (p : Parsed) (r : Receiver) (now firstSeen : Rat) :
    callMove (.waiting p) r (.lock now firstSeen) ≠ none := by
  intro hnone
  unfold callMove at hnone
  dsimp only at hnone
  split at hnone <;> cases hnone

/-- A step is a move of its thread, or nothing happens. -/
theorem callStep_cases (s : Callers T) (a : Threads.Action T Call) :
    (∃ caller r e, Called s.shared (s.own a.thread) a.input (caller, r, e) ∧
        callStep s a = ⟨Function.update s.own a.thread caller, r⟩) ∨
      callMove (s.own a.thread) s.shared a.input = none ∧ callStep s a = s := by
  cases hmove : callMove (s.own a.thread) s.shared a.input with
  | some next =>
    exact .inl ⟨next.1, next.2.1, next.2.2, callMove_cases hmove, Threads.step_of_move hmove⟩
  | none => exact .inr ⟨rfl, Threads.step_of_none hmove⟩

/-! ### The assemblies after a step -/

theorem expire_some {now : Rat} {r : Receiver} {key : Key} {assembly : Assembly}
    (h : (r.expire now).assemblies.get key = some assembly) :
    r.assemblies.get key = some assembly ∧ now - assembly.firstSeen < r.timeoutSeconds := by
  obtain ⟨hget, htime⟩ := Dict.get_filter.mp h
  exact ⟨hget, not_le.mp (of_decide_eq_true htime)⟩

/-- A packet leaves the other keys' assemblies as expiry leaves them. -/
theorem collect_other {now firstSeen : Rat} {p : Parsed} {r : Receiver} {key : Key}
    (h : key ≠ p.key) :
    (r.collect now firstSeen p).1.assemblies.get key = (r.expire now).assemblies.get key := by
  have hpending : (r.pending now firstSeen p).assemblies.get key =
      (r.expire now).assemblies.get key := by
    show ((r.expire now).assemblies.set p.key _).get key = _
    rw [Dict.get_set, if_neg h]
  have hcase := collect_cases now firstSeen p r
  generalize r.collect now firstSeen p = result at hcase ⊢
  cases hcase with
  | known => rfl
  | kept => exact hpending
  | failed => exact hpending
  | completed =>
    show ((r.pending now firstSeen p).assemblies.erase p.key).get key = _
    rw [Dict.get_erase, if_neg h, hpending]

/-- What a packet leaves under its own key is the assembly with its residue in it. -/
theorem collect_self {now firstSeen : Rat} {p : Parsed} {r : Receiver} {assembly : Assembly}
    (hkey : p.key ∉ r.assembled)
    (h : (r.collect now firstSeen p).1.assemblies.get p.key = some assembly) :
    assembly = (r.expire now).extended firstSeen p := by
  have hpending : (r.pending now firstSeen p).assemblies.get p.key =
      some ((r.expire now).extended firstSeen p) := by
    show ((r.expire now).assemblies.set p.key _).get p.key = _
    rw [Dict.get_set, if_pos rfl]
  have hcase := collect_cases now firstSeen p r
  generalize r.collect now firstSeen p = result at hcase h
  cases hcase with
  | known hknown => exact absurd hknown hkey
  | kept => exact Option.some_inj.mp (h.symm.trans hpending)
  | failed => exact Option.some_inj.mp (h.symm.trans hpending)
  | completed =>
    have herased : ((r.pending now firstSeen p).assemblies.erase p.key).get p.key = none := by
      rw [Dict.get_erase, if_pos rfl]
    cases h.symm.trans herased

/-- No key is both assembled and pending. -/
def Receiver.Apart (r : Receiver) : Prop := ∀ key ∈ r.assembled, r.assemblies.get key = none

theorem Receiver.Apart.expire {r : Receiver} (h : r.Apart) (now : Rat) : (r.expire now).Apart :=
  fun key hkey => Dict.get_filter_none (h key hkey)

theorem Receiver.Apart.collect {r : Receiver} (h : r.Apart) (now firstSeen : Rat) (p : Parsed) :
    (r.collect now firstSeen p).1.Apart := by
  have hother (key : Key) (hkey : key ∈ r.assembled) (hne : p.key ∉ r.assembled) :
      (r.pending now firstSeen p).assemblies.get key = none := by
    show ((r.expire now).assemblies.set p.key _).get key = none
    rw [Dict.get_set, if_neg (fun heq : key = p.key => hne (heq ▸ hkey))]
    exact h.expire now key hkey
  have hcase := collect_cases now firstSeen p r
  generalize r.collect now firstSeen p = result at hcase ⊢
  cases hcase with
  | known => exact h.expire now
  | kept hne => exact fun key hkey => hother key hkey hne
  | failed _ hne => exact fun key hkey => hother key hkey hne
  | completed _ hne =>
    intro key hkey
    show ((r.pending now firstSeen p).assemblies.erase p.key).get key = none
    rw [Dict.get_erase]
    split
    · rfl
    · rename_i hdiffer
      exact hother key ((Finset.mem_insert.mp hkey).resolve_left hdiffer) hne

/-! ### Where an assembly's residues are from -/

/-- A step that opens an assembly for a key. -/
def Opens (key : Key) (s : Callers T) (a : Threads.Action T Call) : Prop :=
  (opening key s a).isSome = true

/-- An assembly holds the latest residues since it was opened. -/
def Gathered (start : Callers T) (calls : List (Threads.Action T Call)) (key : Key)
    (assembly : Assembly) : Prop :=
  ∃ t first since, Run.Last callStep (Opens key) start calls t first since ∧
    opening key t first = some assembly.firstSeen ∧
    ∀ m, assembly.residues.get m =
      latest m (Run.emits callStep (arrival key) t (first :: since))

/-- A reading that the step `a` completes at the time `now`: it has two residues or more,
the latest since its assembly was opened, which was less than `timeout` ago. -/
structure Reassembled (start : Callers T) (timeout : Rat) (before : List (Threads.Action T Call))
    (a : Threads.Action T Call) (now : Rat) (reading : SensorReading) : Prop where
  completes : completion (Run.run callStep start before) a = some (reading, now)
  opened : ∃ t first since firstSeen,
    Run.Last callStep (Opens reading.key) start before t first since ∧
    opening reading.key t first = some firstSeen ∧ now - firstSeen < timeout ∧
    ∀ m, Dict.find m reading.residues =
      latest m (Run.emits callStep (arrival reading.key) t (first :: since ++ [a]))
  distinct : (reading.residues.map Prod.fst).Nodup
  two : 2 ≤ reading.residues.length
  inRange : InRange reading.residues
  decoded : decode (.mapping (asItems reading.residues)) = .ok reading.value

/-- Some step of the run completed a reading. -/
def Provenance (start : Callers T) (timeout : Rat) (calls : List (Threads.Action T Call))
    (reading : SensorReading) : Prop :=
  ∃ before a after now, calls = before ++ a :: after ∧
    Reassembled start timeout before a now reading

section
variable {start : Callers T} {timeout : Rat} {calls : List (Threads.Action T Call)}
  {a : Threads.Action T Call} {key : Key} {assembly : Assembly} {reading : SensorReading}

theorem Provenance.snoc (h : Provenance start timeout calls reading) :
    Provenance start timeout (calls ++ [a]) reading := by
  obtain ⟨before, b, after, now, rfl, hreading⟩ := h
  exact ⟨before, b, after ++ [a], now, by simp, hreading⟩

/-- A step that receives nothing for the key leaves its assembly as old as it is. -/
theorem Gathered.keep (h : Gathered start calls key assembly)
    (hnone : arrival key (Run.run callStep start calls) a = none)
    (hopening : opening key (Run.run callStep start calls) a = none) :
    Gathered start (calls ++ [a]) key assembly := by
  obtain ⟨t, first, since, hlast, hfirst, hresidues⟩ := h
  refine ⟨t, first, since ++ [a], hlast.snoc (by simp [Opens, hopening]), hfirst, fun m => ?_⟩
  rw [hresidues m, ← List.cons_append, Run.emits_snoc, ← hlast.run_eq, hnone]
  exact congrArg (latest m) (List.append_nil _).symm

/-- The residues with one more, when a step receives one for an open assembly. -/
theorem Gathered.latest (h : Gathered start calls key assembly) {e : Nat × Int}
    (hsome : arrival key (Run.run callStep start calls) a = some e) :
    ∃ t first since, Run.Last callStep (Opens key) start calls t first since ∧
      opening key t first = some assembly.firstSeen ∧
      ∀ m, (assembly.residues.set e.1 e.2).get m =
        Gateway.latest m (Run.emits callStep (arrival key) t (first :: since ++ [a])) := by
  obtain ⟨t, first, since, hlast, hfirst, hresidues⟩ := h
  refine ⟨t, first, since, hlast, hfirst, fun m => ?_⟩
  rw [Dict.get_set, hresidues m, Run.emits_snoc, ← hlast.run_eq, hsome]
  exact (latest_snoc m _ e).symm

/-! ### The history invariant -/

/-- What the receiver and its callers hold, and where it is from. -/
structure Traced (start : Callers T) (timeout : Rat) (calls : List (Threads.Action T Call))
    (s : Callers T) : Prop where
  timeout_eq : s.shared.timeoutSeconds = timeout
  apart : s.shared.Apart
  held : ∀ key assembly, s.shared.assemblies.get key = some assembly →
    Gathered start calls key assembly
  emitted : ∀ reading ∈ s.shared.readings, Provenance start timeout calls reading
  putting : ∀ t reading, s.own t = .putting reading → Provenance start timeout calls reading

omit [DecidableEq T] in
/-- A step outside the lock of `process_packet` receives and opens nothing. -/
theorem quiet_step {s : Callers T} (h : ∀ p now firstSeen, s.own a.thread = .waiting p →
    a.input ≠ .lock now firstSeen) (key : Key) : arrival key s a = none ∧ opening key s a = none := by
  unfold arrival opening
  constructor
  · split
    · rename_i p now firstSeen hown hinput
      exact absurd hinput (h p now firstSeen hown)
    · rfl
  · split
    · rename_i p now firstSeen hown hinput
      exact absurd hinput (h p now firstSeen hown)
    · rfl

/-- Such a step keeps the invariant when it drops assemblies only and puts readings that
a caller held. -/
theorem Traced.quiet (h : Traced start timeout calls (Run.run callStep start calls))
    (hquiet : ∀ p now firstSeen, (Run.run callStep start calls).own a.thread = .waiting p →
      a.input ≠ .lock now firstSeen) {s' : Callers T}
    (htimeout : s'.shared.timeoutSeconds = timeout) (hapart : s'.shared.Apart)
    (hassemblies : ∀ key assembly, s'.shared.assemblies.get key = some assembly →
      (Run.run callStep start calls).shared.assemblies.get key = some assembly)
    (hreadings : ∀ reading ∈ s'.shared.readings,
      reading ∈ (Run.run callStep start calls).shared.readings ∨
        ∃ t, (Run.run callStep start calls).own t = .putting reading)
    (hputting : ∀ t reading, s'.own t = .putting reading →
      (Run.run callStep start calls).own t = .putting reading) :
    Traced start timeout (calls ++ [a]) s' where
  timeout_eq := htimeout
  apart := hapart
  held := by
    intro key assembly hget
    obtain ⟨harrival, hopening⟩ := quiet_step hquiet key
    exact (h.held key assembly (hassemblies key assembly hget)).keep harrival hopening
  emitted := by
    intro reading hreading
    rcases hreadings reading hreading with hold | ⟨t, ht⟩
    · exact (h.emitted reading hold).snoc
    · exact (h.putting t reading ht).snoc
  putting := fun t reading ht => (h.putting t reading (hputting t reading ht)).snoc

omit [DecidableEq T] in
/-- What a step under the lock receives and opens. -/
theorem lock_step {s : Callers T} {p : Parsed} {now firstSeen : Rat}
    (hown : s.own a.thread = .waiting p) (hinput : a.input = .lock now firstSeen) (key : Key) :
    arrival key s a = (if p.key = key then some (p.modulus, p.residue) else none) ∧
      opening key s a = if p.key = key ∧ key ∉ s.shared.assembled ∧
        (s.shared.expire now).assemblies.get key = none then some firstSeen else none := by
  unfold arrival opening
  rw [hown, hinput]
  exact ⟨rfl, rfl⟩

/-- A packet's own assembly after its step under the lock. -/
theorem Traced.extended (h : Traced start timeout calls (Run.run callStep start calls))
    {p : Parsed} {now firstSeen : Rat}
    (hown : (Run.run callStep start calls).own a.thread = .waiting p)
    (hinput : a.input = .lock now firstSeen)
    (hkey : p.key ∉ (Run.run callStep start calls).shared.assembled) :
    Gathered start (calls ++ [a]) p.key
      (((Run.run callStep start calls).shared.expire now).extended firstSeen p) := by
  obtain ⟨harrival, hopening⟩ := lock_step hown hinput p.key
  rw [if_pos rfl] at harrival
  unfold Receiver.extended
  cases hget : ((Run.run callStep start calls).shared.expire now).assemblies.get p.key with
  | some assembly =>
    rw [if_neg (by simp [hget])] at hopening
    obtain ⟨t, first, since, hlast, hfirst, hresidues⟩ :=
      (h.held p.key assembly (expire_some hget).1).latest harrival
    exact ⟨t, first, since ++ [a], hlast.snoc (by simp [Opens, hopening]), hfirst, hresidues⟩
  | none =>
    rw [if_pos ⟨rfl, hkey, hget⟩] at hopening
    refine ⟨_, a, [], Run.last_snoc (by simp [Opens, hopening]), hopening, fun m => ?_⟩
    have hresidues : (((none : Option Assembly).getD {firstSeen}).residues.set p.modulus
        p.residue).get m = if m = p.modulus then some p.residue else none := Dict.get_set ..
    have harrivals : Run.emits callStep (arrival p.key) (Run.run callStep start calls) [a] =
        [] ++ [(p.modulus, p.residue)] := by
      rw [Run.emits, harrival]
      rfl
    rw [harrivals, latest_snoc]
    exact hresidues

/-- The reading a step completes is the decoding of its assembly. -/
theorem Traced.completes (h : Traced start timeout calls (Run.run callStep start calls))
    {p : Parsed} {now firstSeen : Rat}
    (hown : (Run.run callStep start calls).own a.thread = .waiting p)
    (hinput : a.input = .lock now firstSeen)
    (hreading : ((Run.run callStep start calls).shared.collect now firstSeen p).2 =
      .ok (some reading)) : Reassembled start timeout calls a now reading := by
  have hcompletes : completion (Run.run callStep start calls) a = some (reading, now) := by
    unfold completion
    rw [hown, hinput]
    dsimp only
    rw [hreading]
  have hcase := collect_cases now firstSeen p (Run.run callStep start calls).shared
  generalize (Run.run callStep start calls).shared.collect now firstSeen p = result
    at hcase hreading
  cases hcase with
  | known => cases hreading
  | kept => cases hreading
  | failed => cases hreading
  | completed value hkey htwo hdecode =>
    cases hreading
    refine ⟨hcompletes, ?_, Dict.nodup _, htwo, inRange_of_decode hdecode, hdecode⟩
    -- a new assembly has one residue, so the key had one before the step
    cases hget : ((Run.run callStep start calls).shared.expire now).assemblies.get p.key with
    | none =>
      have hone : (((Run.run callStep start calls).shared.expire now).extended firstSeen
          p).residues.length = 1 := by
        unfold Receiver.extended
        rw [hget]
        rfl
      omega
    | some assembly =>
      obtain ⟨hbefore, htime⟩ := expire_some hget
      have harrival := (lock_step hown hinput p.key).1
      rw [if_pos rfl] at harrival
      obtain ⟨t, first, since, hlast, hfirst, hresidues⟩ :=
        (h.held p.key assembly hbefore).latest harrival
      refine ⟨t, first, since, assembly.firstSeen, hlast, hfirst, h.timeout_eq ▸ htime, ?_⟩
      intro m
      refine Eq.trans ?_ (hresidues m)
      unfold Parsed.reading Receiver.extended
      rw [hget]
      rfl

/-- A thread that puts down nothing holds nothing new. -/
theorem putting_of_update {own : T → Caller} {t t' : T} {caller : Caller}
    (hcaller : ∀ reading, caller ≠ .putting reading)
    (h : Function.update own t caller t' = .putting reading) : own t' = .putting reading := by
  by_cases ht : t' = t
  · rw [ht, Function.update_self] at h
    exact absurd h (hcaller reading)
  · rw [Function.update_of_ne ht] at h
    exact h

theorem Traced.lock (h : Traced start timeout calls (Run.run callStep start calls))
    {p : Parsed} {now firstSeen : Rat}
    (hown : (Run.run callStep start calls).own a.thread = .waiting p)
    (hinput : a.input = .lock now firstSeen) {caller : Caller}
    (hcaller : ∀ reading, caller = .putting reading →
      ((Run.run callStep start calls).shared.collect now firstSeen p).2 = .ok (some reading)) :
    Traced start timeout (calls ++ [a])
      ⟨Function.update (Run.run callStep start calls).own a.thread caller,
        ((Run.run callStep start calls).shared.collect now firstSeen p).1⟩ := by
  obtain ⟨_, hreadings, htimeout⟩ :=
    collect_frame now firstSeen p (Run.run callStep start calls).shared
  refine ⟨htimeout.trans h.timeout_eq, h.apart.collect now firstSeen p, ?_, ?_, ?_⟩
  · intro key assembly hget
    by_cases hkey : key = p.key
    · rw [hkey] at hget ⊢
      have hnew : p.key ∉ (Run.run callStep start calls).shared.assembled := by
        intro hknown
        have hclosed := h.apart.collect now firstSeen p p.key
          ((collect_frame now firstSeen p _).1 hknown)
        cases hget.symm.trans hclosed
      rw [collect_self hnew hget]
      exact h.extended hown hinput hnew
    · obtain ⟨harrival, hopening⟩ := lock_step hown hinput key
      rw [if_neg (Ne.symm hkey)] at harrival
      rw [if_neg fun hsame => hkey hsame.1.symm] at hopening
      have hbefore := (expire_some ((collect_other hkey).symm.trans hget)).1
      exact (h.held key assembly hbefore).keep harrival hopening
  · intro reading hreading
    exact (h.emitted reading (hreadings ▸ hreading)).snoc
  · intro t reading ht
    have ht : Function.update (Run.run callStep start calls).own a.thread caller t =
        .putting reading := ht
    by_cases hthread : t = a.thread
    · rw [hthread, Function.update_self] at ht
      exact ⟨calls, a, [], now, rfl, h.completes hown hinput (hcaller reading ht)⟩
    · rw [Function.update_of_ne hthread] at ht
      exact (h.putting t reading ht).snoc

theorem Traced.step (h : Traced start timeout calls (Run.run callStep start calls)) :
    Traced start timeout (calls ++ [a]) (callStep (Run.run callStep start calls) a) := by
  rcases callStep_cases (Run.run callStep start calls) a with
    ⟨caller, r, e, hcalled, hstep⟩ | ⟨hnone, hstep⟩
  · rw [hstep]
    generalize hown : (Run.run callStep start calls).own a.thread = own at hcalled
    generalize hinput : a.input = input at hcalled
    cases hcalled with
    | refused packet =>
      refine h.quiet (fun p now firstSeen hp => by cases hown.symm.trans hp) h.timeout_eq h.apart
        (fun key assembly hget => hget) (fun reading hreading => .inl hreading) ?_
      exact fun t reading ht => putting_of_update (fun reading => by simp) ht
    | entered packet p =>
      refine h.quiet (fun p now firstSeen hp => by cases hown.symm.trans hp) h.timeout_eq h.apart
        (fun key assembly hget => hget) (fun reading hreading => .inl hreading) ?_
      exact fun t reading ht => putting_of_update (fun reading => by simp) ht
    | silent p now firstSeen =>
      exact h.lock hown hinput (fun reading hputting => by cases hputting)
    | completed p now firstSeen reading hreading =>
      exact h.lock hown hinput (fun reading' hputting => by cases hputting; exact hreading)
    | put reading =>
      refine h.quiet (fun p now firstSeen hp => by cases hown.symm.trans hp) h.timeout_eq h.apart
        (fun key assembly hget => hget) (fun reading' hreading' => ?_) ?_
      · rcases List.mem_append.mp hreading' with hold | hlast
        · exact .inl hold
        · cases List.mem_singleton.mp hlast
          exact .inr ⟨a.thread, hown⟩
      · exact fun t reading ht => putting_of_update (fun reading => by simp) ht
    | expired now =>
      refine h.quiet (fun p now firstSeen hp => by cases hown.symm.trans hp) h.timeout_eq
        (h.apart.expire now) (fun key assembly hget => (expire_some hget).1)
        (fun reading hreading => .inl hreading) ?_
      exact fun t reading ht => putting_of_update (fun reading => by simp) ht
  · rw [hstep]
    refine h.quiet (fun p now firstSeen hp hinput => ?_) h.timeout_eq h.apart
      (fun key assembly hget => hget) (fun reading hreading => .inl hreading)
      (fun t reading ht => ht)
    rw [hp, hinput] at hnone
    exact lock_moves p _ now firstSeen hnone

end

/-! ### At most once -/

/-- The readings that are put, or about to be, are of different keys, all completed. -/
structure PutOnce (s : Callers T) : Prop where
  distinct : (s.shared.readings.map SensorReading.key).Nodup
  queued : ∀ reading ∈ s.shared.readings, reading.key ∈ s.shared.assembled
  held : ∀ t reading, s.own t = .putting reading → reading.key ∈ s.shared.assembled ∧
    reading.key ∉ s.shared.readings.map SensorReading.key
  alone : ∀ t t' reading reading', s.own t = .putting reading → s.own t' = .putting reading' →
    reading.key = reading'.key → t = t'

section
variable {s : Callers T} {t : T} {reading : SensorReading}

/-- A thread that ends up with nothing to put, while no reading is put. -/
theorem PutOnce.release (h : PutOnce s) {caller : Caller}
    (hcaller : ∀ reading, caller ≠ .putting reading)
    {r : Receiver} (hassembled : s.shared.assembled ⊆ r.assembled)
    (hreadings : r.readings = s.shared.readings) :
    PutOnce (⟨Function.update s.own t caller, r⟩ : Callers T) where
  distinct := by
    show (r.readings.map _).Nodup
    rw [hreadings]
    exact h.distinct
  queued := fun reading hreading => hassembled (h.queued reading (hreadings ▸ hreading))
  held := by
    intro t' reading ht'
    obtain ⟨hknown, hnew⟩ := h.held t' reading (putting_of_update hcaller ht')
    refine ⟨hassembled hknown, ?_⟩
    show _ ∉ r.readings.map _
    rw [hreadings]
    exact hnew
  alone := fun t₁ t₂ reading₁ reading₂ h₁ h₂ => h.alone t₁ t₂ reading₁ reading₂
    (putting_of_update hcaller h₁) (putting_of_update hcaller h₂)

/-- A thread that completes a key takes its reading. -/
theorem PutOnce.complete (h : PutOnce s) {now firstSeen : Rat} {p : Parsed}
    (hreading : (s.shared.collect now firstSeen p).2 = .ok (some reading)) :
    PutOnce (⟨Function.update s.own t (.putting reading), (s.shared.collect now firstSeen p).1⟩ :
      Callers T) := by
  obtain ⟨hsubset, hreadings, _⟩ := collect_frame now firstSeen p s.shared
  obtain ⟨hopen, hclosed⟩ := collect_completes hreading
  -- the reading's key was open, so no reading put or held before has it
  have hheld (t' : T) (reading' : SensorReading)
      (ht' : Function.update s.own t (.putting reading) t' = .putting reading') :
      t' = t ∧ reading' = reading ∨ s.own t' = .putting reading' ∧ reading'.key ≠ reading.key := by
    by_cases hthread : t' = t
    · rw [hthread, Function.update_self] at ht'
      exact .inl ⟨hthread, (Caller.putting.inj ht').symm⟩
    · rw [Function.update_of_ne hthread] at ht'
      exact .inr ⟨ht', fun heq => hopen (heq ▸ (h.held t' reading' ht').1)⟩
  refine ⟨by rw [hreadings]; exact h.distinct, ?_, ?_, ?_⟩
  · intro reading' hreading'
    exact hsubset (h.queued reading' (hreadings ▸ hreading'))
  · intro t' reading' ht'
    rw [hreadings]
    rcases hheld t' reading' ht' with ⟨_, rfl⟩ | ⟨hold, _⟩
    · refine ⟨hclosed, fun hmem => ?_⟩
      obtain ⟨queued, hqueued, hkey⟩ := List.mem_map.mp hmem
      exact hopen (hkey ▸ h.queued queued hqueued)
    · exact ⟨hsubset (h.held t' reading' hold).1, (h.held t' reading' hold).2⟩
  · intro t₁ t₂ reading₁ reading₂ h₁ h₂ hkeys
    rcases hheld t₁ reading₁ h₁ with ⟨hfirst, hreading₁⟩ | ⟨hold₁, hdiffers₁⟩
    · rcases hheld t₂ reading₂ h₂ with ⟨hsecond, _⟩ | ⟨_, hdiffers₂⟩
      · exact hfirst.trans hsecond.symm
      · exact absurd (hkeys.symm.trans (congrArg _ hreading₁)) hdiffers₂
    · rcases hheld t₂ reading₂ h₂ with ⟨_, hreading₂⟩ | ⟨hold₂, _⟩
      · exact absurd (hkeys.trans (congrArg _ hreading₂)) hdiffers₁
      · exact h.alone t₁ t₂ reading₁ reading₂ hold₁ hold₂ hkeys

/-- A thread that puts the reading it holds. -/
theorem PutOnce.put (h : PutOnce s) (hown : s.own t = .putting reading) :
    PutOnce (⟨Function.update s.own t .outside, s.shared.put reading⟩ : Callers T) := by
  obtain ⟨hknown, hnew⟩ := h.held t reading hown
  have hkeys : (s.shared.readings ++ [reading]).map SensorReading.key =
      s.shared.readings.map SensorReading.key ++ [reading.key] := List.map_append
  have hheld (t' : T) (reading' : SensorReading)
      (ht' : Function.update s.own t .outside t' = .putting reading') :
      s.own t' = .putting reading' ∧ t' ≠ t := by
    refine ⟨putting_of_update (fun reading => by simp) ht', fun hthread => ?_⟩
    rw [hthread, Function.update_self] at ht'
    cases ht'
  refine ⟨?_, ?_, ?_, ?_⟩
  · show ((s.shared.readings ++ [reading]).map _).Nodup
    rw [hkeys]
    exact List.Nodup.append h.distinct (List.nodup_singleton _) (by simpa using hnew)
  · intro reading' hreading'
    rcases List.mem_append.mp hreading' with hold | hlast
    · exact h.queued reading' hold
    · cases List.mem_singleton.mp hlast
      exact hknown
  · intro t' reading' ht'
    obtain ⟨hold, hother⟩ := hheld t' reading' ht'
    refine ⟨(h.held t' reading' hold).1, ?_⟩
    show _ ∉ (s.shared.readings ++ [reading]).map _
    rw [hkeys]
    intro hmem
    rcases List.mem_append.mp hmem with hqueued | hlast
    · exact (h.held t' reading' hold).2 hqueued
    · exact hother (h.alone t' t reading' reading hold hown (List.mem_singleton.mp hlast))
  · intro t₁ t₂ reading₁ reading₂ h₁ h₂
    exact h.alone t₁ t₂ reading₁ reading₂ (hheld t₁ reading₁ h₁).1 (hheld t₂ reading₂ h₂).1

theorem PutOnce.step (h : PutOnce s) (a : Threads.Action T Call) : PutOnce (callStep s a) := by
  rcases callStep_cases s a with ⟨caller, r, e, hcalled, hstep⟩ | ⟨_, hstep⟩
  · rw [hstep]
    generalize hown : s.own a.thread = own at hcalled
    generalize a.input = input at hcalled
    cases hcalled with
    | refused packet => exact h.release (fun reading => by simp) (Finset.Subset.refl _) rfl
    | entered packet p => exact h.release (fun reading => by simp) (Finset.Subset.refl _) rfl
    | silent p now firstSeen =>
      obtain ⟨hsubset, hreadings, _⟩ := collect_frame now firstSeen p s.shared
      exact h.release (fun reading => by simp) hsubset hreadings
    | completed p now firstSeen reading hreading => exact h.complete hreading
    | put reading => exact h.put hown
    | expired now => exact h.release (fun reading => by simp) (Finset.Subset.refl _) rfl
  · rw [hstep]
    exact h

end

/-! ### Reassembly is safe -/

omit [DecidableEq T] in
theorem once_idle (timeout : Rat) : PutOnce (Callers.idle T timeout) where
  distinct := List.nodup_nil
  queued := List.forall_mem_nil _
  held := fun t reading ht => by cases ht
  alone := fun t t' reading reading' ht => by cases ht

theorem traced_idle (timeout : Rat) :
    Traced (Callers.idle T timeout) timeout [] (Callers.idle T timeout) where
  timeout_eq := rfl
  apart := fun key hkey => absurd hkey (Finset.notMem_empty key)
  held := fun key assembly hget => by cases hget
  emitted := List.forall_mem_nil _
  putting := fun t reading ht => by cases ht

theorem traced_run (timeout : Rat) (calls : List (Threads.Action T Call)) :
    Traced (Callers.idle T timeout) timeout calls
      (Run.run callStep (Callers.idle T timeout) calls) :=
  Run.history_invariant callStep (Traced (Callers.idle T timeout) timeout) _ (traced_idle timeout)
    (fun _ _ h => h.step) calls

/-- After any calls by any threads: the emitted readings are of different keys, each is
the decoding of what its step found, and no key is both assembled and pending. -/
theorem reassembly_safe (timeout : Rat) (calls : List (Threads.Action T Call)) :
    ((Run.run callStep (Callers.idle T timeout) calls).shared.readings.map
        SensorReading.key).Nodup ∧
      (∀ reading ∈ (Run.run callStep (Callers.idle T timeout) calls).shared.readings,
        Provenance (Callers.idle T timeout) timeout calls reading) ∧
      (Run.run callStep (Callers.idle T timeout) calls).shared.Apart := by
  have honce : PutOnce (Run.run callStep (Callers.idle T timeout) calls) :=
    Run.run_invariant callStep PutOnce (fun s a h => h.step a) _ calls (once_idle timeout)
  have htraced := traced_run timeout calls
  exact ⟨honce.distinct, htraced.emitted, htraced.apart⟩

end

end FarmChain.Gateway
