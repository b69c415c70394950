import FarmChain.Lib.Footprint
import FarmChain.Gateway.TimedCache

/-! The order of cache operations on different keys.

The gateway's threads share one cache, and which of them gets its lock first is up to the
scheduler. An operation touches the entries of the keys it names and no other, whatever
time it is called at, so threads that work on different keys do not notice each other
(`cacheOrder_unobservable`). -/
namespace FarmChain.Gateway
open Run Footprint

variable {V : Type}

/-- An entry, beside the cache's own time to live. -/
def PolicyCache.look (c : PolicyCache V) (key : String) : Rat × Option (CacheEntry V) :=
  (c.ttlSeconds, c.entries.get key)

/-- An operation touches the keys it names; even a `get` may remove what it finds. -/
def cacheFootprint (V : Type) : Footprint (Rat × CacheOp V) String where
  reads _ _ := False
  writes e key := e.2.Names key

/-- What the operation returns or raises. -/
def cacheAnswer (c : PolicyCache V) (e : Rat × CacheOp V) : Except Failure (Option V) :=
  (e.2.perform e.1 c).1

theorem look_get (now : Rat) (key key' : String) (c : PolicyCache V) :
    (c.get now key).2.look key' =
      if key' = key ∧ (∃ entry, c.entries.get key = some entry ∧ entry.expiresAt ≤ now) then
        (c.ttlSeconds, none)
      else c.look key' := by
  unfold PolicyCache.get
  split
  · rename_i hnone
    rw [if_neg]
    rintro ⟨_, entry, hentry, _⟩
    cases hnone.symm.trans hentry
  · rename_i entry hentry
    split
    · rename_i hexpired
      show (c.ttlSeconds, (c.entries.erase key).get key') = _
      rw [Dict.get_erase]
      by_cases hkey : key' = key
      · rw [if_pos hkey, if_pos ⟨hkey, entry, hentry, hexpired⟩]
      · rw [if_neg hkey, if_neg fun h => hkey h.1]
        rfl
    · rename_i hlive
      rw [if_neg]
      rintro ⟨_, entry', hentry', hexpired⟩
      cases hentry.symm.trans hentry'
      exact hlive hexpired

theorem look_set (now : Rat) (key key' : String) (value : Option V) (ttlSeconds : Option Rat)
    (c : PolicyCache V) :
    (cacheStep c (now, .set key value ttlSeconds)).look key' =
      if key' = key ∧ 0 < ttlSeconds.getD c.ttlSeconds then
        (c.ttlSeconds, some ⟨value, now + ttlSeconds.getD c.ttlSeconds⟩)
      else c.look key' := by
  by_cases httl : ttlSeconds.getD c.ttlSeconds ≤ 0
  · have hstep : cacheStep c (now, .set key value ttlSeconds) = c := by
      simp [cacheStep, CacheOp.perform, PolicyCache.set, httl]
    rw [hstep, if_neg fun h => not_lt.mpr httl h.2]
  · have hstep : cacheStep c (now, .set key value ttlSeconds) =
        {c with entries := c.entries.set key ⟨value, now + ttlSeconds.getD c.ttlSeconds⟩} := by
      simp [cacheStep, CacheOp.perform, PolicyCache.set, httl]
    rw [hstep]
    show (c.ttlSeconds, (c.entries.set key _).get key') = _
    rw [Dict.get_set]
    by_cases hkey : key' = key
    · rw [if_pos hkey, if_pos ⟨hkey, not_le.mp httl⟩]
    · rw [if_neg hkey, if_neg fun h => hkey h.1]
      rfl

theorem look_step_of_not_names {c : PolicyCache V} {e : Rat × CacheOp V} {key : String}
    (h : ¬e.2.Names key) : (cacheStep c e).look key = c.look key := by
  obtain ⟨now, op⟩ := e
  cases op with
  | get key' => exact (look_get now key' key c).trans (if_neg fun hk => h hk.1.symm)
  | set key' value ttlSeconds =>
    exact (look_set now key' key value ttlSeconds c).trans (if_neg fun hk => h hk.1.symm)
  | invalidate key' =>
    have hne : key ≠ key' := fun hk => h hk.symm
    show (c.ttlSeconds, (c.entries.erase key').get key) = _
    rw [Dict.get_erase, if_neg hne]
    rfl
  | invalidateAll => exact absurd trivial h

theorem answer_set (now : Rat) (key : String) (value : Option V) (ttlSeconds : Option Rat)
    (c : PolicyCache V) :
    cacheAnswer c (now, .set key value ttlSeconds) =
      if ttlSeconds.getD c.ttlSeconds ≤ 0 then .error (.value "ttl_seconds must be positive")
      else .ok none := by
  by_cases httl : ttlSeconds.getD c.ttlSeconds ≤ 0 <;>
    simp [cacheAnswer, CacheOp.perform, PolicyCache.set, httl]

theorem cacheAnswer_congr {c c' : PolicyCache V} {e : Rat × CacheOp V}
    (h : ∀ key, e.2.Names key → c.look key = c'.look key) : cacheAnswer c e = cacheAnswer c' e := by
  obtain ⟨now, op⟩ := e
  cases op with
  | get key =>
    show Except.ok (c.get now key).1 = Except.ok (c'.get now key).1
    rw [get_fst, get_fst, (Prod.mk.inj (h key rfl)).2]
  | set key value ttlSeconds =>
    rw [answer_set, answer_set, (Prod.mk.inj (h key rfl)).1]
  | invalidate key => rfl
  | invalidateAll => rfl

theorem look_step_congr {c c' : PolicyCache V} {e : Rat × CacheOp V}
    (h : ∀ key, e.2.Names key → c.look key = c'.look key) {key : String} (hkey : e.2.Names key) :
    (cacheStep c e).look key = (cacheStep c' e).look key := by
  obtain ⟨now, op⟩ := e
  have hlook := h key hkey
  obtain ⟨httl, hentry⟩ := Prod.mk.inj hlook
  cases op with
  | get key' =>
    cases hkey
    refine (look_get now key key c).trans (Eq.trans ?_ (look_get now key key c').symm)
    rw [hentry, httl, hlook]
  | set key' value ttlSeconds =>
    refine (look_set now key' key value ttlSeconds c).trans
      (Eq.trans ?_ (look_set now key' key value ttlSeconds c').symm)
    rw [httl, hlook]
  | invalidate key' =>
    cases hkey
    show (c.ttlSeconds, (c.entries.erase key).get key) =
      (c'.ttlSeconds, (c'.entries.erase key).get key)
    rw [Dict.get_erase, Dict.get_erase, if_pos rfl, if_pos rfl, httl]
  | invalidateAll =>
    show (c.ttlSeconds, none) = (c'.ttlSeconds, none)
    rw [httl]

theorem cache_local (V : Type) :
    (cacheFootprint V).Local cacheStep cacheAnswer PolicyCache.look where
  frame _ _ _ h := look_step_of_not_names h
  answer _ _ _ h := cacheAnswer_congr fun key hkey => h key (.inr hkey)
  effect _ _ _ h _ hkey := look_step_congr (fun key hkey => h key (.inr hkey)) hkey

/-- **Which thread comes first does not show.** Orders of the operations that differ by swapping
neighbours on different keys give every operation the same result, and leave the same entry
under every key. -/
theorem cacheOrder_unobservable {ops ops' : List (Rat × CacheOp V)}
    (h : Reorders (fun e e' => ∀ key, e.2.Names key → ¬e'.2.Names key) ops ops')
    (c : PolicyCache V) :
    (transcript cacheStep cacheAnswer c ops).Perm (transcript cacheStep cacheAnswer c ops') ∧
      ∀ key, (run cacheStep c ops).entries.get key = (run cacheStep c ops').entries.get key := by
  have hind : Reorders (cacheFootprint V).Independent ops ops' := by
    refine h.mono fun e e' hdisjoint => independent_of_disjoint fun key ht ht' => ?_
    exact hdisjoint key (ht.elim False.elim id) (ht'.elim False.elim id)
  obtain ⟨hlook, hperm⟩ := (cache_local V).reorder hind c
  exact ⟨hperm, fun key => (Prod.mk.inj (congrFun hlook key)).2⟩

/-- Two threads, each storing and reading its own key. -/
theorem cacheOrder_threads :
    let c : PolicyCache Bool := ⟨300, by decide, ∅⟩
    (transcript cacheStep cacheAnswer c
        [(0, .set "a" (some true) none), (1, .get "b"), (2, .get "a")]).Perm
      (transcript cacheStep cacheAnswer c
        [(1, .get "b"), (0, .set "a" (some true) none), (2, .get "a")]) := by
  intro c
  refine (cacheOrder_unobservable (.swap [] [(2, .get "a")] fun key h h' => ?_) c).1
  cases h
  exact absurd h' (by decide)

end FarmChain.Gateway
