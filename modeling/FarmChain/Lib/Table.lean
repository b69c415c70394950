import Mathlib.Logic.Function.Basic
import FarmChain.Lib.WriteSet

/-! Typed tables kept in one key-value store.

A table's rows go under keys of their own, encoded. `Holds` says that the store holds
exactly the rows given: a row that is there under its key, and nothing under the key of
a row that is not. Writing a row's key changes that row; a write of any other key is
another table's. -/
namespace FarmChain

/-- Where the rows of a table go, and as what. -/
structure Table (K V Key B : Type) where
  key : K → Key
  encode : V → B
  key_injective : Function.Injective key

namespace Table

variable {K V Key B : Type} [DecidableEq Key] {t : Table K V Key B} {s : Store Key B}
  {rows : K → Option V}

/-- The store holds exactly these rows. -/
def Holds (t : Table K V Key B) (s : Store Key B) (rows : K → Option V) : Prop :=
  ∀ k, s.get (t.key k) = (rows k).map t.encode

theorem holds_empty (t : Table K V Key B) : t.Holds ∅ fun _ => none := fun k => by
  rw [Store.get_empty, Option.map_none]

/-- A write elsewhere. -/
theorem Holds.apply_other {ws : List (Write Key B)} (h : t.Holds s rows)
    (hws : ∀ w ∈ ws, ∀ k, w.1 ≠ t.key k) : t.Holds (s.apply ws) rows := fun k => by
  rw [Store.get_apply_of_forall_ne s ws _ fun w hw => hws w hw k, h k]

/-- Several rows deleted. -/
theorem Holds.erase {rows' : K → Option V} {ks : List K} (h : t.Holds s rows)
    (hgone : ∀ k ∈ ks, rows' k = none) (hkept : ∀ k ∉ ks, rows' k = rows k) :
    t.Holds (s.apply (ks.map fun k => (t.key k, none))) rows' := fun k => by
  have herase := Store.get_apply_erase s (ks.map t.key) (t.key k)
  rw [List.map_map] at herase
  refine herase.trans ?_
  by_cases hk : k ∈ ks
  · rw [if_pos (List.mem_map_of_mem hk), hgone k hk, Option.map_none]
  · rw [if_neg fun hmem => hk ((List.mem_map_of_injective t.key_injective).mp hmem), hkept k hk, h k]

/-- A row written or deleted. -/
theorem Holds.write [DecidableEq K] (h : t.Holds s rows) (k : K) (row : Option V) :
    t.Holds (s.apply [(t.key k, row.map t.encode)]) (Function.update rows k row) := fun k' => by
  rw [Store.get_apply_singleton, Function.update_apply]
  by_cases hk : k' = k
  · rw [if_pos (congrArg t.key hk), if_pos hk]
  · rw [if_neg fun hkey => hk (t.key_injective hkey), if_neg hk, h k']

end Table
end FarmChain
