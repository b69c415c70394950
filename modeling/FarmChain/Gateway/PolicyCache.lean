import Mathlib.Algebra.Order.Ring.Rat
import FarmChain.Lib.Dict
import FarmChain.Gateway.CrtDecode

/-! The policy cache.

A decision is kept under its key until its time is up; reading it then removes it. Each
operation holds the lock from start to end, so an operation is one step of whichever
thread calls it. Times are exact rationals, whose sums are not rounded as those of floats
are. -/
namespace FarmChain.Gateway

variable {V : Type}

/-- `_CacheEntry`; the value may be Python's `None`. -/
structure CacheEntry (V : Type) where
  value : Option V
  expiresAt : Rat
  deriving DecidableEq, Repr

/-- A cache as `__init__` lets one be built: its time to live is positive. -/
structure PolicyCache (V : Type) where
  ttlSeconds : Rat
  positive : 0 < ttlSeconds
  entries : Dict String (CacheEntry V) := ∅

namespace PolicyCache

def get (now : Rat) (key : String) (c : PolicyCache V) : Option V × PolicyCache V :=
  match c.entries.get key with
  | none => (none, c)
  | some entry =>
    if entry.expiresAt ≤ now then (none, {c with entries := c.entries.erase key})
    else (entry.value, c)

def set (now : Rat) (key : String) (value : Option V) (ttlSeconds : Option Rat)
    (c : PolicyCache V) : Except Failure (PolicyCache V) :=
  let ttl := ttlSeconds.getD c.ttlSeconds
  if ttl ≤ 0 then .error (.value "ttl_seconds must be positive")
  else .ok {c with entries := c.entries.set key ⟨value, now + ttl⟩}

def invalidate (key : String) (c : PolicyCache V) : PolicyCache V :=
  {c with entries := c.entries.erase key}

def invalidateAll (c : PolicyCache V) : PolicyCache V :=
  {c with entries := ∅}

/-- The cache with a value stored for its own time to live. -/
def stored (now : Rat) (key : String) (value : Option V) (c : PolicyCache V) : PolicyCache V :=
  {c with entries := c.entries.set key ⟨value, now + c.ttlSeconds⟩}

theorem get_stored (now : Rat) (key k : String) (value : Option V) (c : PolicyCache V) :
    (c.stored now key value).entries.get k =
      if k = key then some ⟨value, now + c.ttlSeconds⟩ else c.entries.get k :=
  Dict.get_set c.entries key k _

/-- With the cache's own time to live, `set` does not fail. -/
theorem set_default (now : Rat) (key : String) (value : Option V) (c : PolicyCache V) :
    c.set now key value none = .ok (c.stored now key value) :=
  if_neg (not_le.mpr c.positive)

/-- What `get` returns is in the cache, and its time is not up. -/
theorem get_eq_some {now : Rat} {key : String} {c : PolicyCache V} {v : V}
    (h : (c.get now key).1 = some v) :
    ∃ entry, c.entries.get key = some entry ∧ entry.value = some v ∧ now < entry.expiresAt := by
  unfold get at h
  split at h
  · cases h
  · rename_i entry hentry
    split at h
    · cases h
    · rename_i hlive
      exact ⟨entry, hentry, h, not_le.mp hlive⟩

/-- `get` adds nothing to the cache. -/
theorem get_entries {now : Rat} {key k : String} {c : PolicyCache V} {entry : CacheEntry V}
    (h : (c.get now key).2.entries.get k = some entry) : c.entries.get k = some entry := by
  unfold get at h
  split at h
  · exact h
  · split at h
    · exact (Dict.get_filter.mp h).1
    · exact h

/-- `get` leaves an entry whose time is not up, or that it does not ask for. -/
theorem get_keeps {now : Rat} {key k : String} {c : PolicyCache V} {entry : CacheEntry V}
    (h : c.entries.get k = some entry) (hlive : key = k → now < entry.expiresAt) :
    (c.get now key).2.entries.get k = some entry := by
  unfold get
  split
  · exact h
  · rename_i found hfound
    split
    · rename_i hexpired
      have hne : k ≠ key := by
        intro hk
        cases (hk ▸ h).symm.trans hfound
        exact not_le.mpr (hlive hk.symm) hexpired
      show (c.entries.erase key).get k = some entry
      rw [Dict.get_erase, if_neg hne]
      exact h
    · exact h

/-- `get` finds an entry whose time is not up. -/
theorem get_of_live {now : Rat} {key : String} {c : PolicyCache V} {entry : CacheEntry V}
    (h : c.entries.get key = some entry) (hlive : now < entry.expiresAt) :
    (c.get now key).1 = entry.value := by
  unfold get
  rw [h]
  exact congrArg Prod.fst (if_neg (not_le.mpr hlive))

@[simp] theorem get_ttlSeconds (now : Rat) (key : String) (c : PolicyCache V) :
    (c.get now key).2.ttlSeconds = c.ttlSeconds := by
  unfold get
  split
  · rfl
  · split <;> rfl

/-- A cache that holds no more than another. -/
structure Within (c' c : PolicyCache V) : Prop where
  ttlSeconds : c'.ttlSeconds = c.ttlSeconds
  entries : ∀ key entry, c'.entries.get key = some entry → c.entries.get key = some entry

theorem Within.refl (c : PolicyCache V) : Within c c := ⟨rfl, fun _ _ h => h⟩

theorem within_get (now : Rat) (key : String) (c : PolicyCache V) : Within (c.get now key).2 c :=
  ⟨get_ttlSeconds now key c, fun _ _ => get_entries⟩

theorem within_invalidate (key : String) (c : PolicyCache V) : Within (c.invalidate key) c :=
  ⟨rfl, fun _ _ h => (Dict.get_filter.mp h).1⟩

theorem within_invalidateAll (c : PolicyCache V) : Within c.invalidateAll c := by
  refine ⟨rfl, fun key entry h => ?_⟩
  cases h

/-- Every value in the cache satisfies `P`. -/
def Holds (P : V → Prop) (c : PolicyCache V) : Prop :=
  ∀ key entry, c.entries.get key = some entry → ∀ v, entry.value = some v → P v

theorem holds_empty (P : V → Prop) (ttlSeconds : Rat) (positive : 0 < ttlSeconds) :
    Holds P {ttlSeconds, positive} := by
  intro key entry hget
  cases hget

/-- `get` returns what the cache holds, and leaves it holding no more. -/
theorem holds_get {P : V → Prop} {c : PolicyCache V} (h : Holds P c) (now : Rat) (key : String) :
    (∀ v, (c.get now key).1 = some v → P v) ∧ Holds P (c.get now key).2 := by
  constructor
  · intro v hv
    obtain ⟨entry, hentry, hvalue, _⟩ := get_eq_some hv
    exact h key entry hentry v hvalue
  · intro key' entry hget
    exact h key' entry (get_entries hget)

theorem holds_set {P : V → Prop} {c c' : PolicyCache V} (h : Holds P c) {now : Rat} {key : String}
    {value : Option V} (hvalue : ∀ v, value = some v → P v)
    (hset : c.set now key value none = .ok c') : Holds P c' := by
  rw [set_default] at hset
  cases hset
  intro key' entry hget
  rw [get_stored] at hget
  split at hget
  · cases hget
    exact hvalue
  · exact h key' entry hget

end PolicyCache
end FarmChain.Gateway
