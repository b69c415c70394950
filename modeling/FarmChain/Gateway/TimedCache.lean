import FarmChain.Lib.TimedMap
import FarmChain.Gateway.PolicyCache

/-! The policy cache as a timed map.

What a run of operations does to the cache, in whatever order and on whatever keys, is
what their changes do to a map whose entries end (`represents_run`): an entry that `get` removes has
ended, and the clock does not go back. So `get` returns what the last successful operation
on the key stored, until its time is up (`policyCache_is_timed_map`). -/
namespace FarmChain.Gateway
open TimedMap (Change)

variable {V : Type}

/-- The cache's operations with their arguments. -/
inductive CacheOp (V : Type) where
  | get (key : String)
  | set (key : String) (value : Option V) (ttlSeconds : Option Rat)
  | invalidate (key : String)
  | invalidateAll
  deriving DecidableEq

namespace CacheOp

/-- What the operation returns or raises, and the cache afterwards. -/
def perform (now : Rat) (c : PolicyCache V) : CacheOp V → Except Failure (Option V) × PolicyCache V
  | .get key => (.ok (c.get now key).1, (c.get now key).2)
  | .set key value ttlSeconds =>
    match c.set now key value ttlSeconds with
    | .ok c' => (.ok none, c')
    | .error failure => (.error failure, c)
  | .invalidate key => (.ok none, c.invalidate key)
  | .invalidateAll => (.ok none, c.invalidateAll)

/-- The operation asks for the key or writes to it. -/
def Names (key : String) : CacheOp V → Prop
  | .get key' => key' = key
  | .set key' _ _ => key' = key
  | .invalidate key' => key' = key
  | .invalidateAll => True

instance (key : String) : DecidablePred (Names (V := V) key)
  | .get key' => inferInstanceAs (Decidable (key' = key))
  | .set key' _ _ => inferInstanceAs (Decidable (key' = key))
  | .invalidate key' => inferInstanceAs (Decidable (key' = key))
  | .invalidateAll => inferInstanceAs (Decidable True)

/-- The operation is not a `get`. -/
def Writes : CacheOp V → Prop
  | .get _ => False
  | _ => True

end CacheOp

/-- One operation at a time of the clock. -/
def cacheStep (c : PolicyCache V) (e : Rat × CacheOp V) : PolicyCache V :=
  (e.2.perform e.1 c).2

/-- The operation writes to the key, and does not raise. -/
def Took (key : String) (c : PolicyCache V) (e : Rat × CacheOp V) : Prop :=
  e.2.Names key ∧ e.2.Writes ∧ ∃ r, (e.2.perform e.1 c).1 = .ok r

/-- The clock does not go back. -/
def Nondecreasing (times : List Rat) : Prop := times.Pairwise (· ≤ ·)

/-! ### The changes of a run -/

/-- What a successful operation changes in the map, in a cache with its `own` time to live. -/
def changeOf (own : Rat) : Rat × CacheOp V → Option (Change String (Option V) Rat)
  | (_, .get _) => none
  | (now, .set key value ttlSeconds) =>
    if ttlSeconds.getD own ≤ 0 then none
    else some (.assign key value (now + ttlSeconds.getD own))
  | (_, .invalidate key) => some (.forget key)
  | (_, .invalidateAll) => some .clear

theorem cacheStep_ttlSeconds (c : PolicyCache V) (e : Rat × CacheOp V) :
    (cacheStep c e).ttlSeconds = c.ttlSeconds := by
  obtain ⟨now, op⟩ := e
  cases op with
  | get key => exact PolicyCache.get_ttlSeconds now key c
  | set key value ttlSeconds =>
    unfold cacheStep CacheOp.perform PolicyCache.set
    dsimp only
    split
    · rename_i c' hset
      split at hset
      · cases hset
      · cases hset
        rfl
    · rfl
  | invalidate key => rfl
  | invalidateAll => rfl

/-- An operation writes to the key exactly when its change concerns the key. -/
theorem took_iff {key : String} {c : PolicyCache V} {e : Rat × CacheOp V} :
    Took key c e ↔ ∃ change, changeOf c.ttlSeconds e = some change ∧ change.Concerns key := by
  obtain ⟨now, op⟩ := e
  cases op with
  | get key' => simp [Took, changeOf, CacheOp.Writes]
  | set key' value ttlSeconds =>
    by_cases httl : ttlSeconds.getD c.ttlSeconds ≤ 0
    · simp [Took, changeOf, CacheOp.perform, PolicyCache.set, httl]
    · simp [Took, changeOf, CacheOp.perform, PolicyCache.set, CacheOp.Names, CacheOp.Writes,
        Change.Concerns, httl]
  | invalidate key' =>
    simp [Took, changeOf, CacheOp.perform, CacheOp.Names, CacheOp.Writes, Change.Concerns]
  | invalidateAll =>
    simp [Took, changeOf, CacheOp.perform, CacheOp.Names, CacheOp.Writes, Change.Concerns]

/-! ### The refinement -/

/-- From `now` on, the cache gives what the map gives. -/
def Represents (now : Rat) (c : PolicyCache V) (m : TimedMap.Map String (Option V) Rat) : Prop :=
  ∀ key t, now ≤ t → (c.get t key).1 = (TimedMap.find m key t).join

/-- What `get` returns, by the entry. -/
theorem get_fst (now : Rat) (key : String) (c : PolicyCache V) :
    (c.get now key).1 = (c.entries.get key).bind fun entry =>
      if entry.expiresAt ≤ now then none else entry.value := by
  unfold PolicyCache.get
  cases c.entries.get key with
  | none => rfl
  | some entry =>
    dsimp only [Option.bind_some]
    split <;> rfl

/-- A `get` removes nothing that a later one would have returned. -/
theorem get_get {now t : Rat} (h : now ≤ t) (key key' : String) (c : PolicyCache V) :
    ((c.get now key).2.get t key').1 = (c.get t key').1 := by
  cases hentry : c.entries.get key with
  | none =>
    unfold PolicyCache.get
    rw [hentry]
  | some entry =>
    by_cases hended : entry.expiresAt ≤ now
    · have hafter : (c.get now key).2 = {c with entries := c.entries.erase key} := by
        unfold PolicyCache.get
        rw [hentry]
        exact congrArg Prod.snd (if_pos hended)
      rw [hafter, get_fst, get_fst, Dict.get_erase]
      by_cases hkey : key' = key
      · rw [if_pos hkey, hkey, hentry, Option.bind_some, if_pos (hended.trans h)]
        rfl
      · rw [if_neg hkey]
    · have hafter : (c.get now key).2 = c := by
        unfold PolicyCache.get
        rw [hentry]
        exact congrArg Prod.snd (if_neg hended)
      rw [hafter]

theorem represents_step {now s : Rat} {c : PolicyCache V} {m : TimedMap.Map String (Option V) Rat}
    (h : Represents now c m) (hs : now ≤ s) (op : CacheOp V) :
    Represents s (cacheStep c (s, op))
      (Run.run Change.apply m (changeOf c.ttlSeconds (s, op)).toList) := by
  intro key t ht
  have hkey := h key t (hs.trans ht)
  cases op with
  | get key' =>
    show ((c.get s key').2.get t key).1 = (TimedMap.find m key t).join
    rw [get_get ht]
    exact hkey
  | set key' value ttlSeconds =>
    by_cases httl : ttlSeconds.getD c.ttlSeconds ≤ 0
    · simpa [cacheStep, CacheOp.perform, PolicyCache.set, changeOf, httl, Run.run] using hkey
    · have hafter : cacheStep c (s, .set key' value ttlSeconds) =
          {c with entries := c.entries.set key' ⟨value, s + ttlSeconds.getD c.ttlSeconds⟩} := by
        simp [cacheStep, CacheOp.perform, PolicyCache.set, httl]
      rw [hafter, get_fst, Dict.get_set, changeOf, if_neg httl]
      rw [Option.toList_some, Run.run, Run.run, TimedMap.find_assign]
      by_cases hsame : key = key'
      · rw [if_pos hsame, if_pos hsame, Option.bind_some]
        by_cases hended : s + ttlSeconds.getD c.ttlSeconds ≤ t
        · rw [if_pos hended, if_neg (not_lt.mpr hended)]
          rfl
        · rw [if_neg hended, if_pos (not_le.mp hended)]
          rfl
      · rw [if_neg hsame, if_neg hsame, ← get_fst]
        exact hkey
  | invalidate key' =>
    show ((c.invalidate key').get t key).1 =
      (TimedMap.find (Change.apply m (.forget key')) key t).join
    rw [TimedMap.find_forget, get_fst, PolicyCache.invalidate, Dict.get_erase]
    by_cases hsame : key = key'
    · rw [if_pos hsame, if_pos hsame]
      rfl
    · rw [if_neg hsame, if_neg hsame, ← get_fst]
      exact hkey
  | invalidateAll => rfl

section
variable {own : Rat} (positive : 0 < own)

/-- A cache as it is made. -/
def fresh : PolicyCache V := {ttlSeconds := own, positive}

theorem run_ttlSeconds (es : List (Rat × CacheOp V)) :
    (Run.run cacheStep (fresh positive) es).ttlSeconds = own :=
  Run.run_invariant cacheStep (·.ttlSeconds = own)
    (fun c e h => (cacheStep_ttlSeconds c e).trans h) _ es rfl

/-- **The cache is the timed map of its run's changes.** -/
theorem represents_run {es : List (Rat × CacheOp V)} {now : Rat}
    (hclock : Nondecreasing (es.map Prod.fst ++ [now])) :
    Represents now (Run.run cacheStep (fresh positive) es)
      (Run.run Change.apply (fun _ => none) (es.filterMap (changeOf own))) := by
  induction es using List.reverseRecOn generalizing now with
  | nil => exact fun _ _ _ => rfl
  | append_singleton es e ih =>
    obtain ⟨s, op⟩ := e
    rw [List.map_append, List.map_singleton] at hclock
    obtain ⟨hbefore, _, hnow⟩ := List.pairwise_append.mp hclock
    have hs : s ≤ now := hnow s (by simp) now (List.mem_singleton_self now)
    have hstep := represents_step (ih hbefore) (le_refl s) op
    rw [run_ttlSeconds] at hstep
    rw [Run.run_snoc, List.filterMap_append, Run.run_append]
    intro key t ht
    have hlast : [(s, op)].filterMap (changeOf own) = (changeOf own (s, op)).toList := by
      cases hchange : changeOf own (s, op) <;> simp [hchange]
    rw [hlast]
    exact hstep key t (hs.trans ht)

/-! ### The last operation on a key -/

/-- No operation writes to the key exactly when no change concerns it. -/
theorem always_not_took {key : String} {c : PolicyCache V} {es : List (Rat × CacheOp V)} :
    Run.Always cacheStep (fun c e => ¬Took key c e) c es ↔
      ∀ change ∈ es.filterMap (changeOf c.ttlSeconds), ¬change.Concerns key := by
  induction es generalizing c with
  | nil => simp [Run.Always]
  | cons e rest ih =>
    rw [Run.Always, ih, cacheStep_ttlSeconds, took_iff]
    cases hchange : changeOf c.ttlSeconds e with
    | none => simp [hchange]
    | some change => simp [hchange]

/-- The changes that assign a key are those of a successful `set`. -/
theorem changeOf_eq_assign {own ends : Rat} {e : Rat × CacheOp V} {key : String}
    {value : Option V} :
    changeOf own e = some (.assign key value ends) ↔
      ∃ ttlSeconds, e.2 = .set key value ttlSeconds ∧ 0 < ttlSeconds.getD own ∧
        ends = e.1 + ttlSeconds.getD own := by
  obtain ⟨now, op⟩ := e
  cases op with
  | set key' value' ttlSeconds =>
    by_cases httl : ttlSeconds.getD own ≤ 0
    · rw [changeOf, if_pos httl]
      constructor
      · intro h
        cases h
      · rintro ⟨_, heq, hpos, _⟩
        cases heq
        exact absurd httl (not_le.mpr hpos)
    · rw [changeOf, if_neg httl]
      constructor
      · intro h
        cases h
        exact ⟨ttlSeconds, rfl, not_le.mp httl, rfl⟩
      · rintro ⟨_, heq, _, rfl⟩
        cases heq
        rfl
  | _ => simp [changeOf]

/-- What the last assignment of a key was is what the last operation on it was. -/
theorem last_set_iff {es : List (Rat × CacheOp V)} {key : String} {value : Option V} {now : Rat} :
    (∃ before ends after, es.filterMap (changeOf own) = before ++ .assign key value ends :: after ∧
        now < ends ∧ ∀ change ∈ after, ¬change.Concerns key) ↔
      ∃ c s ttlSeconds after,
        Run.Last cacheStep (Took key) (fresh positive) es c (s, .set key value ttlSeconds) after ∧
          now < s + ttlSeconds.getD own := by
  constructor
  · rintro ⟨changes, ends, changes', hchanges, hnow, hafter⟩
    obtain ⟨first, rest, rfl, _, hrest⟩ := List.filterMap_eq_append_iff.mp hchanges
    obtain ⟨skipped, e, after, rfl, _, he, rfl⟩ := List.filterMap_eq_cons_iff.mp hrest
    obtain ⟨s, op⟩ := e
    obtain ⟨ttlSeconds, hop, _, rfl⟩ := changeOf_eq_assign.mp he
    cases hop
    refine ⟨_, s, ttlSeconds, after, ⟨⟨first ++ skipped, by simp, rfl⟩, ?_, ?_⟩, hnow⟩
    · have hconcerns : (Change.assign key value (s + ttlSeconds.getD own)).Concerns key := rfl
      refine took_iff.mpr ⟨_, ?_, hconcerns⟩
      rw [run_ttlSeconds]
      exact he
    · rw [always_not_took, cacheStep_ttlSeconds, run_ttlSeconds]
      exact hafter
  · rintro ⟨c, s, ttlSeconds, after, hlast, hnow⟩
    obtain ⟨before, rfl, rfl⟩ := hlast.split
    obtain ⟨change, hchange, _⟩ := took_iff.mp hlast.holds
    have hsince := always_not_took.mp hlast.since
    rw [cacheStep_ttlSeconds] at hsince
    rw [run_ttlSeconds] at hchange hsince
    have hpositive : ¬ttlSeconds.getD own ≤ 0 := by
      intro hle
      rw [changeOf, if_pos hle] at hchange
      cases hchange
    refine ⟨before.filterMap (changeOf own), _, after.filterMap (changeOf own), ?_, hnow, hsince⟩
    rw [List.filterMap_append, List.filterMap_cons, changeOf, if_neg hpositive]

theorem names_of_concerns {own : Rat} {e : Rat × CacheOp V}
    {change : Change String (Option V) Rat} {key : String} (h : changeOf own e = some change)
    (hconcerns : change.Concerns key) : e.2.Names key := by
  obtain ⟨now, op⟩ := e
  cases op with
  | get key' => cases h
  | set key' value ttlSeconds =>
    rw [changeOf] at h
    split at h
    · cases h
    · cases h
      exact hconcerns
  | invalidate key' =>
    cases h
    exact hconcerns
  | invalidateAll => trivial

/-- The changes of the operations that name a key are those that concern it. -/
theorem filter_changes (own : Rat) (es : List (Rat × CacheOp V)) (key : String) :
    ((es.filter fun e => e.2.Names key).filterMap (changeOf own)).filter (fun c => c.Concerns key) =
      (es.filterMap (changeOf own)).filter fun c => c.Concerns key := by
  induction es with
  | nil => rfl
  | cons e rest ih =>
    by_cases hnames : e.2.Names key
    · rw [List.filter_cons_of_pos (by simpa using hnames), List.filterMap_cons,
        List.filterMap_cons]
      cases changeOf own e with
      | none => exact ih
      | some change =>
        dsimp only
        rw [List.filter_cons, List.filter_cons, ih]
    · rw [List.filter_cons_of_neg (by simpa using hnames), List.filterMap_cons, ih]
      cases hchange : changeOf own e with
      | none => rfl
      | some change =>
        have hother : ¬change.Concerns key := fun h => hnames (names_of_concerns hchange h)
        dsimp only
        rw [List.filter_cons_of_neg (by simpa using hother)]

/-- **`get` returns what the last successful operation on the key stored, until its time is
up; a `set` with no time left raises and changes nothing; operations that do not name the
key make no difference.** -/
theorem policyCache_is_timed_map (es : List (Rat × CacheOp V)) (now : Rat)
    (hclock : Nondecreasing (es.map Prod.fst ++ [now])) (key : String) :
    (∀ v, ((Run.run cacheStep (fresh positive) es).get now key).1 = some v ↔
      ∃ c s ttlSeconds after,
        Run.Last cacheStep (Took key) (fresh positive) es c (s, .set key (some v) ttlSeconds) after ∧
          now < s + ttlSeconds.getD own) ∧
    (∀ key' value ttlSeconds, ttlSeconds.getD own ≤ 0 →
      (CacheOp.set key' value ttlSeconds).perform now (Run.run cacheStep (fresh positive) es) =
        (.error (.value "ttl_seconds must be positive"), Run.run cacheStep (fresh positive) es)) ∧
    ((Run.run cacheStep (fresh positive) (es.filter fun e => e.2.Names key)).get now key).1 =
      ((Run.run cacheStep (fresh positive) es).get now key).1 := by
  have hmap := represents_run positive hclock key now (le_refl now)
  refine ⟨fun v => ?_, fun key' value ttlSeconds httl => ?_, ?_⟩
  · rw [hmap, Option.join_eq_some_iff, TimedMap.find_run]
    exact last_set_iff positive
  · simp [CacheOp.perform, PolicyCache.set, run_ttlSeconds, httl]
  · have hfewer : Nondecreasing ((es.filter fun e => e.2.Names key).map Prod.fst ++ [now]) :=
      hclock.sublist ((List.filter_sublist.map Prod.fst).append_right [now])
    rw [hmap, represents_run positive hfewer key now (le_refl now), TimedMap.find, TimedMap.find,
      ← TimedMap.run_filter, filter_changes, TimedMap.run_filter]

end

/-- A decision stored for five seconds is there after four, whatever was done to other keys
and whatever was stored for no time. -/
theorem decision_cached_five_seconds :
    ((Run.run cacheStep (fresh (by decide : (0 : Rat) < 300) : PolicyCache Bool)
      [(100, .set "k" (some true) (some 5)), (102, .set "k" (some false) (some 0)),
        (103, .invalidate "l")]).get 104 "k").1 = some true := by
  refine ((policyCache_is_timed_map (by decide) _ 104 ?_ "k").1 true).mpr
    ⟨fresh (by decide), 100, some 5, _, ⟨⟨[], rfl, rfl⟩, ?_, ?_⟩, by decide +kernel⟩
  · unfold Nondecreasing
    decide
  · exact took_iff.mpr ⟨.assign "k" (some true) 105, by decide +kernel, rfl⟩
  · refine always_not_took.mpr ?_
    decide +kernel

end FarmChain.Gateway
