import Mathlib.Data.List.Nodup

/-! Dictionaries that remember the order of insertion.

Setting a key that is there replaces its value in place; setting a new one appends
it. Each key occurs once, which the structure carries, so a dictionary is as long as
it has keys. -/
namespace FarmChain

/-- Keys with their values, in the order the keys were first set. -/
structure Dict (K V : Type) where
  entries : List (K × V)
  nodup : (entries.map Prod.fst).Nodup
  deriving DecidableEq, Repr

namespace Dict

variable {K V : Type} [DecidableEq K]

/-- The value under a key in a list of entries. -/
def find (k : K) : List (K × V) → Option V
  | [] => none
  | e :: rest => if e.1 = k then some e.2 else find k rest

/-- Replace the value under a key, or append the key. -/
def put (k : K) (v : V) : List (K × V) → List (K × V)
  | [] => [(k, v)]
  | e :: rest => if e.1 = k then (k, v) :: rest else e :: put k v rest

theorem keys_put (k : K) (v : V) (l : List (K × V)) :
    (put k v l).map Prod.fst =
      if k ∈ l.map Prod.fst then l.map Prod.fst else l.map Prod.fst ++ [k] := by
  induction l with
  | nil => rfl
  | cons e rest ih =>
    unfold put
    by_cases he : e.1 = k
    · simp [he]
    · simp only [if_neg he, List.map_cons, ih, List.mem_cons, Ne.symm he, false_or]
      split <;> rfl

theorem put_fresh {k : K} {v : V} {l : List (K × V)} (h : k ∉ l.map Prod.fst) :
    put k v l = l ++ [(k, v)] := by
  induction l with
  | nil => rfl
  | cons e rest ih =>
    have hne : e.1 ≠ k := fun he => h (he ▸ List.mem_cons_self ..)
    unfold put
    rw [if_neg hne, ih fun hmem => h (List.mem_cons_of_mem e.1 hmem), List.cons_append]

theorem find_put (k k' : K) (v : V) (l : List (K × V)) :
    find k' (put k v l) = if k' = k then some v else find k' l := by
  induction l with
  | nil =>
    by_cases h : k' = k
    · simp [put, find, h]
    · simp [put, find, h, Ne.symm h]
  | cons e rest ih =>
    unfold put
    by_cases he : e.1 = k
    · by_cases h : k' = k
      · simp [find, he, h]
      · simp [find, he, h, Ne.symm h]
    · by_cases h' : e.1 = k'
      · have hne : k' ≠ k := fun h => he (h'.trans h)
        simp [find, h', hne]
      · simp only [if_neg he, find, if_neg h', ih]

theorem mem_of_find {k : K} {v : V} {l : List (K × V)} (h : find k l = some v) : (k, v) ∈ l := by
  induction l with
  | nil => cases h
  | cons e rest ih =>
    unfold find at h
    split at h
    · rename_i he
      cases h
      exact he ▸ List.mem_cons_self ..
    · exact List.mem_cons_of_mem e (ih h)

theorem find_of_mem {k : K} {v : V} {l : List (K × V)} (hl : (l.map Prod.fst).Nodup)
    (h : (k, v) ∈ l) : find k l = some v := by
  induction l with
  | nil => cases h
  | cons e rest ih =>
    rw [List.map_cons, List.nodup_cons] at hl
    unfold find
    rcases List.mem_cons.mp h with rfl | hrest
    · exact if_pos rfl
    · have hne : e.1 ≠ k := fun he => hl.1 (he ▸ List.mem_map_of_mem hrest)
      rw [if_neg hne]
      exact ih hl.2 hrest

/-! ### Dictionaries -/

instance : EmptyCollection (Dict K V) := ⟨⟨[], List.nodup_nil⟩⟩

def get (d : Dict K V) (k : K) : Option V := find k d.entries

def keys (d : Dict K V) : List K := d.entries.map Prod.fst

/-- The number of keys. -/
def length (d : Dict K V) : Nat := d.entries.length

def set (d : Dict K V) (k : K) (v : V) : Dict K V where
  entries := put k v d.entries
  nodup := by
    rw [keys_put]
    split
    · exact d.nodup
    · rename_i h
      exact List.Nodup.append d.nodup (List.nodup_singleton k) (by simpa using h)

/-- Keep the entries that satisfy a predicate. -/
def filter (d : Dict K V) (p : K × V → Bool) : Dict K V where
  entries := d.entries.filter p
  nodup := d.nodup.sublist (List.filter_sublist.map Prod.fst)

/-- `pop` with a default: remove the key, if it is there. -/
def erase (d : Dict K V) (k : K) : Dict K V := d.filter fun e => e.1 ≠ k

@[simp] theorem get_empty (k : K) : (∅ : Dict K V).get k = none := rfl

theorem get_set (d : Dict K V) (k k' : K) (v : V) :
    (d.set k v).get k' = if k' = k then some v else d.get k' :=
  find_put k k' v d.entries

theorem get_eq_some {d : Dict K V} {k : K} {v : V} : d.get k = some v ↔ (k, v) ∈ d.entries :=
  ⟨mem_of_find, find_of_mem d.nodup⟩

theorem get_filter {d : Dict K V} {p : K × V → Bool} {k : K} {v : V} :
    (d.filter p).get k = some v ↔ d.get k = some v ∧ p (k, v) = true := by
  rw [get_eq_some, get_eq_some]
  exact List.mem_filter

theorem get_filter_none {d : Dict K V} {p : K × V → Bool} {k : K} (h : d.get k = none) :
    (d.filter p).get k = none := by
  cases hget : (d.filter p).get k with
  | none => rfl
  | some v => cases h.symm.trans (get_filter.mp hget).1

omit [DecidableEq K] in
theorem filter_eq_self {d : Dict K V} {p : K × V → Bool} (h : ∀ e ∈ d.entries, p e = true) :
    d.filter p = d := by
  cases d
  simp only [filter, Dict.mk.injEq]
  exact List.filter_eq_self.mpr h

theorem get_erase (d : Dict K V) (k k' : K) :
    (d.erase k).get k' = if k' = k then none else d.get k' := by
  cases h : (d.erase k).get k' with
  | none =>
    split
    · rfl
    · rename_i hne
      cases hd : d.get k' with
      | none => rfl
      | some v =>
        have hsome : (d.erase k).get k' = some v := get_filter.mpr ⟨hd, decide_eq_true hne⟩
        cases h.symm.trans hsome
  | some v =>
    obtain ⟨hd, hne⟩ := get_filter.mp h
    rw [if_neg (of_decide_eq_true hne), hd]

theorem keys_set (d : Dict K V) (k : K) (v : V) :
    (d.set k v).keys = if k ∈ d.keys then d.keys else d.keys ++ [k] :=
  keys_put k v d.entries

/-- A new key goes to the end. -/
theorem entries_set_fresh {d : Dict K V} {k : K} {v : V} (h : k ∉ d.keys) :
    (d.set k v).entries = d.entries ++ [(k, v)] :=
  put_fresh h

end Dict
end FarmChain
