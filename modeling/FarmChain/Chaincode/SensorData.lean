import FarmChain.Chaincode.Guards

/-! Sensor readings over a run.

A reading goes under its device and the nanosecond of its transaction, and nothing but
another reading with the same two ever reaches that key. So what a run has written is
all still there exactly when no two of its readings have both in common
(`readings_kept_iff`); the writer is not part of the key, and its nonces do not matter. -/
namespace FarmChain.Chaincode

open Strings Run

variable {B : Type}

/-- A reading that was written. -/
structure Sensed where
  deviceID : String
  unixNano : Int
  readingJSON : String
  deriving DecidableEq, Repr

namespace Sensed

def key (s : Sensed) : String := sensorKey s.deviceID s.unixNano

/-- What tells its key from others. -/
def place (s : Sensed) : String × Int := (s.deviceID, s.unixNano)

theorem key_inj {s t : Sensed} : s.key = t.key ↔ s.place = t.place := by
  rw [key, key, sensorKey_inj, place, place, Prod.mk.injEq]

end Sensed

/-- What a `WriteSensorData` that succeeds writes. -/
def sensed (R : Runtime B) (l : Ledger B) : Event B → Option Sensed
  | .invoke ctx (.writeSensorData deviceID readingJSON zone nonce) =>
    if succeeds R l ctx (.writeSensorData deviceID readingJSON zone nonce) then
      some ⟨trimSpace deviceID, (txTime ctx).unixNano, readingJSON⟩
    else none
  | _ => none

/-- The readings of a run, in commit order. -/
def readings (R : Runtime B) (events : List (Event B)) : List Sensed :=
  emits (step R) (sensed R) ∅ events

/-- The caller and the nonce of an operation that succeeds. -/
def spentNonce (R : Runtime B) (l : Ledger B) : Event B → Option (String × String)
  | .invoke ctx call =>
    if succeeds R l ctx call then
      match getCallerIdentity R ctx, call.nonce with
      | .ok caller, some nonce => some (caller.id, nonce)
      | _, _ => none
    else none
  | .publishCRL .. => none

/-- The operations that succeed use each caller's nonces once. -/
def NoncesDiffer (R : Runtime B) (events : List (Event B)) : Prop :=
  (emits (step R) (spentNonce R) ∅ events).Nodup

instance (R : Runtime B) (events : List (Event B)) : Decidable (NoncesDiffer R events) :=
  List.nodupDecidable _

/-- The keys under which the ledger has a reading. -/
def sensorKeys (l : Ledger B) : Finset String := l.keys.filter (kindOf · = .sensor)

/-- No reading of the run is lost. -/
structure ReadingsKept (R : Runtime B) (events : List (Event B)) : Prop where
  /-- A write finds its key free and leaves its reading there. -/
  fresh : ∀ before e after s, events = before ++ e :: after →
    sensed R (ledgerAfter R before) e = some s → (ledgerAfter R before).get s.key = none ∧
      (ledgerAfter R (before ++ [e])).get s.key = some (R.bytes s.readingJSON)
  /-- It is there after whatever comes later. -/
  kept : ∀ before e middle after s, events = before ++ e :: (middle ++ after) →
    sensed R (ledgerAfter R before) e = some s →
      (ledgerAfter R (before ++ e :: middle)).get s.key = some (R.bytes s.readingJSON)
  counted : (sensorKeys (ledgerAfter R events)).card = (readings R events).length

variable {R : Runtime B} {l : Ledger B} {e : Event B}

/-! ### One step -/

theorem sensed_eq_none (h : ∀ ctx caller call response, ¬Commits R l e ctx caller call response) :
    sensed R l e = none := by
  cases e with
  | publishCRL => rfl
  | invoke ctx call =>
    cases call with
    | writeSensorData deviceID readingJSON zone nonce =>
      refine if_neg fun hok => ?_
      obtain ⟨response, ws, hinvoke⟩ := succeeds_eq_true.mp hok
      obtain ⟨caller, _, _, _, _, hc, _⟩ := invoke_effect hinvoke
      exact h ctx caller _ response ⟨rfl, hc, ws, hinvoke⟩
    | _ => rfl

/-- What a successful call writes under sensor keys is its reading. -/
theorem Commits.get_sensor {ctx : Context} {caller : CallerIdentity} {call : Call}
    {response : Response} {own : WriteSet B} {entry : Option AuditEntry}
    (h : Commits R l e ctx caller call response) (hl : WellIndexed R l)
    (heffect : Effect R l ctx caller call response own entry) {key : String}
    (hkey : kindOf key = .sensor) :
    (l.apply own).get key = match sensed R l e with
      | some s => if key = s.key then some (R.bytes s.readingJSON) else l.get key
      | none => l.get key := by
  obtain ⟨rfl, _, ws, hok⟩ := h
  have hother (hkinds : ∀ w ∈ own, kindOf w.1 ≠ .sensor) : (l.apply own).get key = l.get key :=
    get_apply_of_kinds l fun w hw => hkey ▸ hkinds w hw
  cases heffect with
  | sensed =>
    simp only [Chaincode.sensed, succeeds_eq_true.mpr ⟨_, ws, hok⟩, if_true,
      Store.get_apply_singleton]
    rfl
  | assigned => exact hother (by simp)
  | revoked => exact hother (by simp [deleteState])
  | renewed => exact hother (by simp)
  | @checked _ _ _ _ decision =>
    exact hother (by cases decision <;> simp [AccessDecision.deletes, deleteState])
  | issued => exact hother (by simp)
  | tokenRevoked => exact hother (by simp [deleteState])
  | read => exact hother (by simp)
  | pruned admin index swept =>
    refine hother fun w hw => ?_
    rcases hl.prune_kinds index swept w hw with hk | hk <;> simp [hk]

/-- A sensor key changes only where a reading goes there. -/
theorem sensorStep (hl : WellIndexed R l) (e : Event B) {key : String} (hkey : kindOf key = .sensor) :
    (step R l e).get key = match sensed R l e with
      | some s => if key = s.key then some (R.bytes s.readingJSON) else l.get key
      | none => l.get key := by
  have hcase := stepCase R l e
  generalize step R l e = l' at hcase ⊢
  cases hcase with
  | fails hfails => rw [sensed_eq_none hfails]
  | publishes hevent =>
    subst hevent
    exact get_write_of_kind l (by simp [hkey])
  | commits hcommits hconsumes heffect hlogs =>
    rw [get_record hconsumes hlogs (by simp [hkey])]
    exact hcommits.get_sensor hl heffect hkey

theorem Sensed.kindOf_key (s : Sensed) : kindOf s.key = .sensor := kindOf_sensorKey _ _

/-- The reading is there right after its write. -/
theorem get_of_sensed (hl : WellIndexed R l) {s : Sensed} (h : sensed R l e = some s) :
    (step R l e).get s.key = some (R.bytes s.readingJSON) := by
  rw [sensorStep hl e s.kindOf_key, h]
  exact if_pos rfl

/-- A step that writes no reading of the same place leaves a reading as it is. -/
theorem get_of_other (hl : WellIndexed R l) {s : Sensed}
    (h : ∀ t, sensed R l e = some t → t.place ≠ s.place) :
    (step R l e).get s.key = l.get s.key := by
  rw [sensorStep hl e s.kindOf_key]
  cases hsensed : sensed R l e with
  | none => rfl
  | some t => exact if_neg fun hkey => h t hsensed (Sensed.key_inj.mp hkey).symm

/-! ### Over a run -/

/-- A sensor key is taken exactly when a reading of the run went there. -/
theorem sensor_taken_iff (R : Runtime B) (events : List (Event B)) {key : String}
    (hkey : kindOf key = .sensor) :
    (ledgerAfter R events).get key ≠ none ↔ key ∈ (readings R events).map Sensed.key := by
  induction events using List.reverseRecOn with
  | nil => simp [ledgerAfter, run, readings, emits]
  | append_singleton events e ih =>
    have hreadings : readings R (events ++ [e]) =
        readings R events ++ (sensed R (ledgerAfter R events) e).toList := emits_snoc ..
    rw [ledgerAfter_snoc, sensorStep (wellIndexed_ledgerAfter R events) e hkey, hreadings,
      List.map_append, List.mem_append, ← ih]
    cases sensed R (ledgerAfter R events) e with
    | none => simp
    | some s =>
      by_cases hs : key = s.key <;> simp [hs]

theorem sensorKeys_ledgerAfter (R : Runtime B) (events : List (Event B)) :
    sensorKeys (ledgerAfter R events) = ((readings R events).map Sensed.key).toFinset := by
  ext key
  rw [sensorKeys, Finset.mem_filter, Store.mem_keys, List.mem_toFinset]
  constructor
  · intro ⟨htaken, hkey⟩
    exact (sensor_taken_iff R events hkey).mp htaken
  · intro hmem
    obtain ⟨s, _, rfl⟩ := List.mem_map.mp hmem
    exact ⟨(sensor_taken_iff R events s.kindOf_key).mpr hmem, s.kindOf_key⟩

/-- Places differ as keys do. -/
theorem mem_map_place {s : Sensed} {past : List Sensed} :
    s.place ∈ past.map Sensed.place ↔ s.key ∈ past.map Sensed.key := by
  simp only [List.mem_map, Sensed.key_inj]

/-- A reading stays as long as no other goes to its place. -/
theorem reading_stays (R : Runtime B) (middle : List (Event B)) {before after : List (Event B)}
    {e : Event B} {s : Sensed}
    (hnodup : ((readings R (before ++ e :: (middle ++ after))).map Sensed.place).Nodup)
    (hs : sensed R (ledgerAfter R before) e = some s) :
    (ledgerAfter R (before ++ e :: middle)).get s.key = some (R.bytes s.readingJSON) := by
  have hsince : Since (step R) (fun l e => sensed R l e = some s)
      (fun l e => ∀ t, sensed R l e = some t → t.place ≠ s.place) ∅ (before ++ e :: middle) := by
    refine ⟨before, e, middle, rfl, hs, ?_⟩
    rw [List.append_cons] at hnodup
    have hfresh := always_fresh Sensed.place hnodup (emits_split hs)
    rw [run_snoc] at hfresh
    exact (always_append.mp hfresh).1
  exact hsince.induction (WellIndexed R) (fun l => l.get s.key = some (R.bytes s.readingJSON))
    (fun _ e hl => wellIndexed_step hl e) (fun _ _ hl h => get_of_sensed hl h)
    (fun _ _ hl hstored h => (get_of_other hl h).trans hstored) (wellIndexed_empty R)

/-- **No reading is lost exactly when no two share a device and a nanosecond.** -/
theorem readings_kept_iff (R : Runtime B) (events : List (Event B)) :
    ReadingsKept R events ↔ ((readings R events).map Sensed.place).Nodup := by
  constructor
  · intro h
    refine (nodup_emits_iff Sensed.place).mpr fun before e after s hsplit hs hplace => ?_
    exact (sensor_taken_iff R before s.kindOf_key).mpr (mem_map_place.mp hplace)
      (h.fresh before e after s hsplit hs).1
  · intro hnodup
    refine ⟨fun before e after s hsplit hs => ⟨?_, ?_⟩, fun before e middle after s hsplit hs => ?_, ?_⟩
    · by_contra htaken
      exact (nodup_emits_iff Sensed.place).mp hnodup before e after s hsplit hs
        (mem_map_place.mpr ((sensor_taken_iff R before s.kindOf_key).mp htaken))
    · subst hsplit
      exact reading_stays R [] hnodup hs
    · subst hsplit
      exact reading_stays R middle hnodup hs
    · have hkeys : ((readings R events).map Sensed.key).Nodup := by
        rw [List.Nodup, List.pairwise_map] at hnodup ⊢
        exact hnodup.imp fun hplace hkey => hplace (Sensed.key_inj.mp hkey)
      rw [sensorKeys_ledgerAfter, List.toFinset_card_of_nodup hkeys, List.length_map]

/-- A farmer who writes two readings of one probe in the same second. -/
def twoReadingsRun : List (Event Document) :=
  [.invoke (mockContext "01" 100 "root" .admin "" 1) (.assignRole "bob" "Farmer" "North" "" "n1"),
    .invoke (mockContext "02" 110 "bob" .farmer "North" 2)
      (.writeSensorData "probe" "21" "North" "n1"),
    .invoke (mockContext "03" 110 "bob" .farmer "North" 2)
      (.writeSensorData "probe" "22" "North" "n2")]

/-- The first reading is lost: both writes succeed, with different nonces, and one record
is left. -/
theorem twoReadingsRun_loses :
    ¬ReadingsKept fieldRuntime twoReadingsRun ∧ NoncesDiffer fieldRuntime twoReadingsRun ∧
      (readings fieldRuntime twoReadingsRun).length = 2 ∧
      (sensorKeys (ledgerAfter fieldRuntime twoReadingsRun)).card = 1 := by
  have hlength : (readings fieldRuntime twoReadingsRun).length = 2 := by decide +kernel
  have hcard : (sensorKeys (ledgerAfter fieldRuntime twoReadingsRun)).card = 1 := by decide +kernel
  refine ⟨fun h => ?_, by decide +kernel, hlength, hcard⟩
  have hcounted := h.counted
  omega

end FarmChain.Chaincode
