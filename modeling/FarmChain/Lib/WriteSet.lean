import Mathlib.Data.Finmap

/-! Key-value stores changed by write sets.

A transaction reads the store it was given and returns the writes it wants; they
are applied, in order, only when it succeeds. A write puts a value or deletes the
key. What a key holds afterwards is its last write, or else what it held before
(`get_apply`), so a transaction that never names a key leaves it alone.

A store is finite, so a search for a key it lacks ends: among the keys of an
injective enumeration, one more than the store holds always contains a free one
(`firstFree_free`). -/
namespace FarmChain

/-- A finite key-value store. -/
abbrev Store (K V : Type) := Finmap fun _ : K => V

/-- One write: a value, or `none` to delete the key. -/
abbrev Write (K V : Type) := K × Option V

namespace Store

variable {K V : Type} [DecidableEq K]

/-- The value of a key, if it has one. -/
def get (s : Store K V) (k : K) : Option V := s.lookup k

def write (s : Store K V) (w : Write K V) : Store K V :=
  match w.2 with
  | some v => s.insert w.1 v
  | none => s.erase w.1

/-- The writes in order. -/
def apply (s : Store K V) (ws : List (Write K V)) : Store K V := ws.foldl write s

@[simp] theorem get_empty (k : K) : (∅ : Store K V).get k = none := Finmap.lookup_empty k

theorem get_write (s : Store K V) (k : K) (o : Option V) (k' : K) :
    (s.write (k, o)).get k' = if k' = k then o else s.get k' := by
  cases o with
  | none =>
    by_cases h : k' = k
    · subst h
      simp [get, write]
    · simp [get, write, h, Finmap.lookup_erase_ne h]
  | some v =>
    by_cases h : k' = k
    · subst h
      simp [get, write]
    · simp [get, write, h, Finmap.lookup_insert_of_ne s h]

/-- In a union the left store comes first. -/
theorem get_union (s t : Store K V) (k : K) : (s ∪ t).get k = (s.get k).or (t.get k) := by
  unfold get
  cases h : s.lookup k with
  | none => rw [Finmap.lookup_union_right (Finmap.lookup_eq_none.mp h), Option.none_or]
  | some v =>
    have hmem : k ∈ s := Finmap.mem_of_lookup_eq_some h
    rw [Finmap.lookup_union_left hmem, h, Option.some_or]

@[simp] theorem apply_nil (s : Store K V) : s.apply [] = s := rfl

@[simp] theorem apply_cons (s : Store K V) (w : Write K V) (ws : List (Write K V)) :
    s.apply (w :: ws) = (s.write w).apply ws := rfl

@[simp] theorem apply_append (s : Store K V) (a b : List (Write K V)) :
    s.apply (a ++ b) = (s.apply a).apply b := List.foldl_append ..

theorem get_apply_singleton (s : Store K V) (k : K) (o : Option V) (k' : K) :
    (s.apply [(k, o)]).get k' = if k' = k then o else s.get k' := get_write s k o k'

/-- The last write to a key, if there is one. -/
def lastWrite (k : K) : List (Write K V) → Option (Option V)
  | [] => none
  | w :: ws => (lastWrite k ws).or (if k = w.1 then some w.2 else none)

theorem get_apply (s : Store K V) (ws : List (Write K V)) (k : K) :
    (s.apply ws).get k = (lastWrite k ws).getD (s.get k) := by
  induction ws generalizing s with
  | nil => rfl
  | cons w ws ih =>
    rw [apply_cons, ih, get_write, lastWrite]
    cases lastWrite k ws with
    | some o => rfl
    | none => by_cases h : k = w.1 <;> simp [h]

/-- A key no write names keeps its value. -/
theorem get_apply_of_forall_ne (s : Store K V) (ws : List (Write K V)) (k : K)
    (h : ∀ w ∈ ws, w.1 ≠ k) : (s.apply ws).get k = s.get k := by
  induction ws generalizing s with
  | nil => rfl
  | cons w ws ih =>
    rw [apply_cons, ih _ fun w' hw' => h w' (List.mem_cons_of_mem w hw'), get_write,
      if_neg fun he => h w (List.mem_cons_self ..) he.symm]

/-- What holds of every record and of every value written holds of every record after. -/
theorem forall_get_apply {P : K → V → Prop} {s : Store K V} {ws : List (Write K V)}
    (h : ∀ k v, s.get k = some v → P k v) (hws : ∀ w ∈ ws, ∀ v, w.2 = some v → P w.1 v) :
    ∀ k v, (s.apply ws).get k = some v → P k v := by
  induction ws generalizing s with
  | nil => exact h
  | cons w ws ih =>
    refine ih (fun k v hget => ?_) fun w' hw' => hws w' (List.mem_cons_of_mem w hw')
    rw [get_write] at hget
    split at hget
    · rename_i hk
      rw [hk]
      exact hws w (List.mem_cons_self ..) v hget
    · exact h k v hget

/-- Deletions leave every other key alone and clear their own. -/
theorem get_apply_erase (s : Store K V) (ks : List K) (k : K) :
    (s.apply (ks.map fun k' => (k', none))).get k = if k ∈ ks then none else s.get k := by
  induction ks generalizing s with
  | nil => simp
  | cons k' ks ih =>
    rw [List.map_cons, apply_cons, ih, get_write]
    by_cases hk : k = k' <;> by_cases hm : k ∈ ks <;> simp [hk, hm]

/-- Stores that agree on every key are equal. -/
theorem ext_get {s t : Store K V} (h : ∀ k, s.get k = t.get k) : s = t := Finmap.ext_lookup h

/-- A write moves in front of writes that do not name its key. -/
theorem apply_snoc_comm (s : Store K V) (ws : List (Write K V)) (w : Write K V)
    (h : ∀ w' ∈ ws, w'.1 ≠ w.1) : s.apply (ws ++ [w]) = s.apply (w :: ws) := by
  refine ext_get fun k => ?_
  rw [apply_append, apply_cons, apply_cons, apply_nil, get_write]
  split
  · rename_i hk
    rw [hk, get_apply_of_forall_ne _ _ _ h, get_write, if_pos rfl]
  · rename_i hk
    rw [get_apply, get_apply, get_write, if_neg hk]

theorem mem_keys {s : Store K V} {k : K} : k ∈ s.keys ↔ s.get k ≠ none := by
  rw [Finmap.mem_keys, get, ne_eq, Finmap.lookup_eq_none, not_not]

/-! ### The first free key of an enumeration -/

/-- The first index from `n` on whose key is free, looking at `fuel` of them. -/
def searchFree (s : Store K V) (key : Nat → K) : Nat → Nat → Nat
  | 0, n => n
  | fuel + 1, n => if (s.get (key n)).isNone then n else searchFree s key fuel (n + 1)

/-- The unbounded search: one look more than the store has keys. -/
def firstFree (s : Store K V) (key : Nat → K) : Nat := s.searchFree key (s.keys.card + 1) 0

theorem searchFree_spec (s : Store K V) (key : Nat → K) (fuel n : Nat) :
    n ≤ s.searchFree key fuel n ∧
      (∀ m, n ≤ m → m < s.searchFree key fuel n → s.get (key m) ≠ none) ∧
      (s.searchFree key fuel n < n + fuel → s.get (key (s.searchFree key fuel n)) = none) := by
  induction fuel generalizing n with
  | zero =>
    exact ⟨Nat.le_refl n, fun m hn hm => absurd hm (Nat.not_lt.mpr hn),
      fun h => absurd h (by simp [searchFree])⟩
  | succ fuel ih =>
    unfold searchFree
    split
    · rename_i hfree
      exact ⟨Nat.le_refl n, fun m hn hm => absurd hm (Nat.not_lt.mpr hn),
        fun _ => Option.isNone_iff_eq_none.mp hfree⟩
    · rename_i htaken
      obtain ⟨hle, hbelow, hat⟩ := ih (n + 1)
      refine ⟨by omega, fun m hn hm => ?_, fun h => hat (by omega)⟩
      by_cases he : m = n
      · rw [he]
        exact fun h => htaken (by simp [h])
      · exact hbelow m (by omega) hm

/-- Every key before the first free one is taken. -/
theorem firstFree_taken (s : Store K V) (key : Nat → K) {m : Nat} (h : m < s.firstFree key) :
    s.get (key m) ≠ none :=
  (searchFree_spec s key _ 0).2.1 m (Nat.zero_le m) h

/-- A finite store cannot hold more keys of the enumeration than it has. -/
theorem firstFree_le (s : Store K V) (key : Nat → K) (hinj : Function.Injective key) :
    s.firstFree key ≤ s.keys.card := by
  by_contra hlong
  have hsub : (Finset.range (s.keys.card + 1)).image key ⊆ s.keys := by
    intro k hk
    obtain ⟨m, hm, rfl⟩ := Finset.mem_image.mp hk
    rw [Finset.mem_range] at hm
    exact mem_keys.mpr (firstFree_taken s key (by omega))
  have hcard := Finset.card_le_card hsub
  rw [Finset.card_image_of_injective _ hinj, Finset.card_range] at hcard
  omega

/-- So the search ends at a free key. -/
theorem firstFree_free (s : Store K V) (key : Nat → K) (hinj : Function.Injective key) :
    s.get (key (s.firstFree key)) = none := by
  apply (searchFree_spec s key (s.keys.card + 1) 0).2.2
  show s.firstFree key < 0 + (s.keys.card + 1)
  have hle := s.firstFree_le key hinj
  omega

/-- A key that is free right away is the one found. -/
theorem firstFree_eq_zero (s : Store K V) (key : Nat → K) (h : s.get (key 0) = none) :
    s.firstFree key = 0 := by
  simp [firstFree, searchFree, h]

/-- The search as a loop that steps a counter, for so many looks at most; `none` while it
goes on. -/
def search {C : Type} (s : Store K V) (key : C → K) (next : C → C) : Nat → C → Option K
  | 0, _ => none
  | looks + 1, c => if (s.get (key c)).isNone then some (key c) else search s key next looks (next c)

/-- The loop ends at the first counter whose key is free. -/
theorem search_eq {C : Type} {s : Store K V} {key : C → K} {next : C → C} {counter : Nat → C}
    (hnext : ∀ i, counter (i + 1) = next (counter i)) {n : Nat}
    (htaken : ∀ i < n, s.get (key (counter i)) ≠ none) (hfree : s.get (key (counter n)) = none)
    (looks : Nat) :
    s.search key next looks (counter 0) = if n < looks then some (key (counter n)) else none := by
  suffices h : ∀ d i, i + d = n → s.search key next looks (counter i) =
      if d < looks then some (key (counter n)) else none from h n 0 (Nat.zero_add n)
  induction looks with
  | zero => exact fun d i _ => rfl
  | succ looks ih =>
    intro d i hi
    rw [search]
    cases d with
    | zero =>
      rw [Nat.add_zero] at hi
      rw [hi, hfree]
      rfl
    | succ d =>
      have hnot : (s.get (key (counter i))).isNone = false :=
        Option.isNone_eq_false_iff.mpr (Option.isSome_iff_ne_none.mpr (htaken i (by omega)))
      rw [hnot, ← hnext, ih d (i + 1) (by omega)]
      simp

end Store
end FarmChain
