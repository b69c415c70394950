import FarmChain.Lib.Crt
import FarmChain.Lib.Dict
import FarmChain.Lib.Fallible
import Mathlib.Algebra.BigOperators.Group.List.Lemmas

/-! The gateway's residue decoder.

`decode` takes residues in any of the forms a caller has them in, converts and
checks each, and combines them. On distinct supported moduli with residues in range
it is the least solution of `Lib/Crt`, for which `modInverse` is a lawful inverse. -/
namespace FarmChain.Gateway

/-- What the gateway's code raises. -/
inductive Failure where
  /-- `ValueError` with its text. -/
  | value (message : String)
  /-- `KeyError` of a missing key. -/
  | missing (key : String)
  /-- `IndexError` of a tuple. -/
  | index
  /-- What `int` raises on something it cannot convert. -/
  | conversion
  deriving DecidableEq, Repr

/-- A Python value where the code wants an integer. -/
inductive Value where
  | int (n : Int)
  | none
  /-- Neither: what `int` makes of it, if anything. -/
  | other (asInt : Option Int)
  deriving DecidableEq, Repr

/-- `int(value)`. -/
def Value.toInt : Value → Except Failure Int
  | .int n => .ok n
  | .other (some n) => .ok n
  | _ => .error .conversion

def MODULI : List Nat := [97, 101, 103]
def MAX_VALUE : Nat := 97 * 101 * 103

/-- The modulus, if it is one of `MODULI`; a negative number is none of them. -/
def supportedModulus (modulus : Int) : Except Failure Nat :=
  if modulus.toNat ∈ MODULI then .ok modulus.toNat
  else .error (.value s!"unsupported CRT modulus: {modulus}")

def encode (value : Int) : Except Failure (Dict Nat Nat) := do
  require (0 ≤ value ∧ value < MAX_VALUE)
    (Failure.value s!"value must be in range 0..{MAX_VALUE - 1}")
  .ok (MODULI.foldl (fun residues modulus => residues.set modulus (value.toNat % modulus)) ∅)

/-! ### Normalisation -/

/-- An item of a sequence of residues. -/
inductive Item where
  | none
  /-- A mapping: its `modulus`, `m`, `residue` and `r`. -/
  | mapping (modulus m residue r : Option Value)
  | pair (modulus residue : Value)
  /-- A bare residue, for the modulus at its place. -/
  | bare (v : Value)
  deriving DecidableEq, Repr

inductive Residues where
  | mapping (items : List (Value × Value))
  | sequence (items : List Item)
  deriving DecidableEq, Repr

/-- The modulus and residue an item at `index` stands for. -/
def Item.read (index : Nat) : Item → Except Failure (Option (Value × Value))
  | .none => .ok Option.none
  | .mapping modulus m residue r =>
    .ok (some ((modulus.or m).getD .none, (residue.or r).getD .none))
  | .pair modulus residue => .ok (some (modulus, residue))
  | .bare v =>
    match MODULI[index]? with
    | some modulus => .ok (some (.int modulus, v))
    | _ => .error .index

def sequenceItems : Nat → List Item → Except Failure (List (Value × Value))
  | _, [] => .ok []
  | index, item :: rest => do
    let pair ← item.read index
    let pairs ← sequenceItems (index + 1) rest
    .ok (pair.toList ++ pairs)

def Residues.items : Residues → Except Failure (List (Value × Value))
  | .mapping items => .ok items
  | .sequence items => sequenceItems 0 items

/-- One pass of the loop: convert, check and keep a residue. -/
def normaliseItem (normalised : Dict Nat Nat) (item : Value × Value) :
    Except Failure (Dict Nat Nat) :=
  if item.1 = .none ∨ item.2 = .none then .ok normalised
  else do
    let modulus ← item.1.toInt
    let residue ← item.2.toInt
    let modulus ← supportedModulus modulus
    require (0 ≤ residue ∧ residue < modulus)
      (Failure.value s!"residue for modulus {modulus} must be in range 0..{modulus - 1}")
    .ok (normalised.set modulus residue.toNat)

def normaliseResidues (residues : Residues) : Except Failure (Dict Nat Nat) := do
  let items ← residues.items
  items.foldlM normaliseItem ∅

/-! ### Decoding -/

/-- `pow(a, -1, modulus)`. -/
def modInverse (a modulus : Nat) : Except Failure Nat :=
  match (List.range modulus).find? fun x => a * x % modulus = 1 % modulus with
  | some x => .ok x
  | none => .error (.value "base is not invertible for the given modulus")

/-- One pass of the loop that adds up the residues' shares. -/
def addShare (modulusProduct value : Nat) (item : Nat × Nat) : Except Failure Nat := do
  let quotient := modulusProduct / item.1
  let inverse ← modInverse quotient item.1
  .ok (value + item.2 * quotient * inverse)

def decode (residues : Residues) : Except Failure Nat := do
  let normalised ← normaliseResidues residues
  require (2 ≤ normalised.length) (Failure.value "at least two CRT residues are required")
  let modulusProduct := normalised.keys.foldl (· * ·) 1
  let value ← normalised.entries.foldlM (addShare modulusProduct) 0
  let value := value % modulusProduct
  require (value < MAX_VALUE)
    (Failure.value s!"decoded value outside supported range 0..{MAX_VALUE - 1}")
  .ok value

/-! ### The moduli -/

theorem MODULI_pos {m : Nat} (h : m ∈ MODULI) : 0 < m := by
  have hall : ∀ m ∈ MODULI, 0 < m := by decide
  exact hall m h

theorem MODULI_coprime {a b : Nat} (ha : a ∈ MODULI) (hb : b ∈ MODULI) (hne : a ≠ b) :
    Nat.Coprime a b := by
  have hall : ∀ a ∈ MODULI, ∀ b ∈ MODULI, a ≠ b → Nat.Coprime a b := by decide
  exact hall a ha b hb hne

theorem supportedModulus_eq_ok {modulus : Int} {m : Nat} :
    supportedModulus modulus = .ok m ↔ modulus = m ∧ m ∈ MODULI := by
  unfold supportedModulus
  split
  · rename_i h
    have hpos := MODULI_pos h
    rw [Except.ok.injEq]
    constructor
    · intro heq
      exact ⟨by omega, heq ▸ h⟩
    · intro heq
      omega
  · rename_i h
    constructor
    · intro herr
      cases herr
    · intro ⟨heq, hm⟩
      rw [heq] at h
      exact absurd hm h

/-- Distinct supported moduli multiply to a divisor of the full range. -/
theorem prod_dvd_MAX_VALUE {l : List Nat} (hnodup : l.Nodup) (hsub : ∀ m ∈ l, m ∈ MODULI) :
    l.prod ∣ MAX_VALUE := by
  obtain ⟨l', hperm, hsublist⟩ := hnodup.subperm hsub
  rw [← hperm.prod_eq]
  exact hsublist.prod_dvd_prod

/-! ### The inverse -/

theorem modInverse_spec {a m : Nat} (hm : 0 < m) (hco : Nat.Coprime a m) :
    ∃ x, modInverse a m = .ok x ∧ a * x ≡ 1 [MOD m] := by
  obtain ⟨y, hym, hy⟩ := Nat.exists_mul_mod_eq_of_coprime 1 hco hm.ne'
  unfold modInverse
  cases hfind : (List.range m).find? fun x => a * x % m = 1 % m with
  | some x =>
    have hx := List.find?_some hfind
    exact ⟨x, rfl, of_decide_eq_true hx⟩
  | none =>
    have hno := List.find?_eq_none.mp hfind y (List.mem_range.mpr hym)
    exact absurd (decide_eq_true hy) hno

/-- The inverse `pow` finds, and 0 where it raises. -/
def inverse (a m : Nat) : Nat :=
  match modInverse a m with
  | .ok x => x
  | .error _ => 0

theorem inverse_isInverse : Crt.IsInverse inverse := by
  intro a m hm hco
  obtain ⟨x, hx, hone⟩ := modInverse_spec hm hco
  unfold inverse
  rw [hx]
  exact hone

theorem modInverse_eq {a m : Nat} (hm : 0 < m) (hco : Nat.Coprime a m) :
    modInverse a m = .ok (inverse a m) := by
  obtain ⟨x, hx, _⟩ := modInverse_spec hm hco
  unfold inverse
  rw [hx]

/-! ### What `decode` computes -/

/-- Supported moduli with residues in range. -/
def InRange (residues : List (Nat × Int)) : Prop :=
  ∀ e ∈ residues, e.1 ∈ MODULI ∧ 0 ≤ e.2 ∧ e.2 < e.1

/-- The residues as a mapping's items. -/
def asItems (residues : List (Nat × Int)) : List (Value × Value) :=
  residues.map fun e => (.int e.1, .int e.2)

/-- The residues as natural numbers. -/
def naturals (residues : List (Nat × Int)) : List (Nat × Nat) :=
  residues.map fun e => (e.1, e.2.toNat)

theorem keys_naturals (residues : List (Nat × Int)) :
    (naturals residues).map Prod.fst = residues.map Prod.fst := by
  rw [naturals, List.map_map]
  rfl

theorem normaliseItem_inRange {e : Nat × Int} (hm : e.1 ∈ MODULI) (hr : 0 ≤ e.2 ∧ e.2 < e.1)
    (normalised : Dict Nat Nat) : normaliseItem normalised (.int e.1, .int e.2) =
      .ok (normalised.set e.1 e.2.toNat) := by
  have hsupported : supportedModulus e.1 = .ok e.1 := supportedModulus_eq_ok.mpr ⟨rfl, hm⟩
  simp [normaliseItem, Value.toInt, hsupported, require, hr, bind, Except.bind]

/-- Residues in range pass the loop as they are. -/
theorem normaliseLoop_inRange {residues : List (Nat × Int)} (h : InRange residues)
    (normalised : Dict Nat Nat)
    (hnodup : (normalised.keys ++ residues.map Prod.fst).Nodup) :
    ∃ result, (asItems residues).foldlM normaliseItem normalised = .ok result ∧
      result.entries = normalised.entries ++ naturals residues := by
  induction residues generalizing normalised with
  | nil => exact ⟨normalised, rfl, (List.append_nil _).symm⟩
  | cons e rest ih =>
    have he := h e (List.mem_cons_self ..)
    have hfresh : e.1 ∉ normalised.keys := by
      intro hmem
      exact (List.nodup_append.mp hnodup).2.2 e.1 hmem e.1 (List.mem_cons_self ..) rfl
    have hkeys : (normalised.set e.1 e.2.toNat).keys = normalised.keys ++ [e.1] := by
      rw [Dict.keys_set, if_neg hfresh]
    obtain ⟨result, hresult, hentries⟩ := ih (fun e' he' => h e' (List.mem_cons_of_mem e he'))
      (normalised.set e.1 e.2.toNat) (by rw [hkeys]; simpa using hnodup)
    refine ⟨result, ?_, ?_⟩
    · show (asItems (e :: rest)).foldlM normaliseItem normalised = _
      simp only [asItems, List.map_cons, List.foldlM_cons, normaliseItem_inRange he.1 he.2]
      exact hresult
    · rw [hentries, Dict.entries_set_fresh hfresh, List.append_assoc]
      rfl

/-- The loop adds up the residues' shares. -/
theorem addShares (product : Nat) {items : List (Nat × Nat)}
    (h : ∀ p ∈ items, 0 < p.1 ∧ Nat.Coprime (product / p.1) p.1) (value : Nat) :
    items.foldlM (addShare product) value =
      .ok (value + (items.map (Crt.term inverse product)).sum) := by
  induction items generalizing value with
  | nil => rfl
  | cons p rest ih =>
    obtain ⟨hpos, hco⟩ := h p (List.mem_cons_self ..)
    have hshare : addShare product value p = .ok (value + Crt.term inverse product p) := by
      simp [addShare, modInverse_eq hpos hco, Crt.term, bind, Except.bind]
    rw [List.foldlM_cons, hshare]
    show rest.foldlM (addShare product) (value + Crt.term inverse product p) = _
    rw [ih (fun p' hp' => h p' (List.mem_cons_of_mem p hp')), List.map_cons, List.sum_cons,
      Nat.add_assoc]

theorem coprime_naturals {residues : List (Nat × Int)} (h : InRange residues)
    (hnodup : (residues.map Prod.fst).Nodup) : Crt.Coprime (naturals residues) where
  positive := by
    intro p hp
    obtain ⟨e, he, rfl⟩ := List.mem_map.mp hp
    exact MODULI_pos (h e he).1
  pairwise := by
    rw [keys_naturals]
    refine List.Pairwise.imp_of_mem (fun ha hb hne => ?_) hnodup
    obtain ⟨e, he, rfl⟩ := List.mem_map.mp ha
    obtain ⟨e', he', rfl⟩ := List.mem_map.mp hb
    exact MODULI_coprime (h e he).1 (h e' he').1 hne

/-- From two residues on, `decode` is the least solution. -/
theorem decode_inRange {residues : List (Nat × Int)} (h : InRange residues)
    (hnodup : (residues.map Prod.fst).Nodup) (htwo : 2 ≤ residues.length) :
    decode (.mapping (asItems residues)) = .ok (Crt.solution inverse (naturals residues)) := by
  obtain ⟨normalised, hloop, hentries⟩ := normaliseLoop_inRange h ∅ hnodup
  have hentries : normalised.entries = naturals residues := hentries
  have hco := coprime_naturals h hnodup
  have hproduct : normalised.keys.foldl (· * ·) 1 = Crt.modulus (naturals residues) := by
    rw [Dict.keys, hentries, Crt.modulus, List.prod_eq_foldl]
  have hsum := addShares (Crt.modulus (naturals residues))
    (fun p hp => ⟨hco.positive p hp, hco.quotient hp⟩) 0
  have hrange : Crt.solution inverse (naturals residues) < MAX_VALUE := by
    have hdvd : Crt.modulus (naturals residues) ∣ MAX_VALUE := by
      rw [Crt.modulus, keys_naturals]
      refine prod_dvd_MAX_VALUE hnodup fun m hm => ?_
      obtain ⟨e, he, rfl⟩ := List.mem_map.mp hm
      exact (h e he).1
    exact lt_of_lt_of_le (Crt.solution_lt hco) (Nat.le_of_dvd (by decide) hdvd)
  have hlength : 2 ≤ normalised.length := by
    rw [Dict.length, hentries, naturals, List.length_map]
    exact htwo
  rw [Nat.zero_add, ← hproduct, ← hentries] at hsum
  have hvalue : Crt.solution inverse (naturals residues) =
      (normalised.entries.map (Crt.term inverse (normalised.keys.foldl (· * ·) 1))).sum %
        normalised.keys.foldl (· * ·) 1 := by
    rw [hproduct, hentries]
    rfl
  rw [hvalue] at hrange ⊢
  refine Except.bind_eq_ok.mpr ⟨normalised, hloop, ?_⟩
  refine Except.bind_eq_ok.mpr ⟨(), Except.require_eq_ok.mpr hlength, ?_⟩
  refine Except.bind_eq_ok.mpr ⟨_, hsum, ?_⟩
  exact Except.bind_eq_ok.mpr ⟨(), Except.require_eq_ok.mpr hrange, rfl⟩

/-- A pass of the loop on a modulus and its residue checks both. -/
theorem normaliseItem_eq_ok {e : Nat × Int} {normalised result : Dict Nat Nat}
    (h : normaliseItem normalised (.int e.1, .int e.2) = .ok result) :
    e.1 ∈ MODULI ∧ 0 ≤ e.2 ∧ e.2 < e.1 := by
  unfold normaliseItem at h
  rw [if_neg (by simp)] at h
  obtain ⟨modulus, hmodulus, h⟩ := Except.bind_eq_ok.mp h
  obtain ⟨residue, hresidue, h⟩ := Except.bind_eq_ok.mp h
  cases hmodulus
  cases hresidue
  obtain ⟨m, hsupported, h⟩ := Except.bind_eq_ok.mp h
  obtain ⟨heq, hm⟩ := supportedModulus_eq_ok.mp hsupported
  obtain ⟨_, hrange, _⟩ := Except.bind_eq_ok.mp h
  cases Int.ofNat_inj.mp heq
  exact ⟨hm, Except.require_eq_ok.mp hrange⟩

theorem inRange_of_loop {residues : List (Nat × Int)} {normalised result : Dict Nat Nat}
    (h : (asItems residues).foldlM normaliseItem normalised = .ok result) : InRange residues := by
  induction residues generalizing normalised with
  | nil => exact List.forall_mem_nil _
  | cons e rest ih =>
    rw [asItems, List.map_cons, List.foldlM_cons] at h
    obtain ⟨next, hitem, hrest⟩ := Except.bind_eq_ok.mp h
    intro e' he'
    rcases List.mem_cons.mp he' with rfl | hmem
    · exact normaliseItem_eq_ok hitem
    · exact ih hrest e' hmem

/-- Only residues in range decode. -/
theorem inRange_of_decode {residues : List (Nat × Int)} {value : Nat}
    (h : decode (.mapping (asItems residues)) = .ok value) : InRange residues := by
  obtain ⟨normalised, hloop, _⟩ := Except.bind_eq_ok.mp h
  exact inRange_of_loop hloop

/-- The residues of a value decode to it modulo the product of their moduli. -/
theorem decode_residues {residues : List (Nat × Int)} {value : Nat}
    (h : ∀ e ∈ residues, e.1 ∈ MODULI ∧ e.2 = (value % e.1 : Nat))
    (hnodup : (residues.map Prod.fst).Nodup) (htwo : 2 ≤ residues.length) :
    decode (.mapping (asItems residues)) = .ok (value % (residues.map Prod.fst).prod) := by
  have hrange : InRange residues := by
    intro e he
    obtain ⟨hm, hr⟩ := h e he
    have hlt := Nat.mod_lt value (MODULI_pos hm)
    exact ⟨hm, by omega, by omega⟩
  have hmodEq (p : Nat × Nat) (hp : p ∈ naturals residues) : value ≡ p.2 [MOD p.1] := by
    obtain ⟨e, he, rfl⟩ := List.mem_map.mp hp
    show value ≡ e.2.toNat [MOD e.1]
    rw [(h e he).2, Int.toNat_natCast]
    exact (Nat.mod_modEq value e.1).symm
  rw [decode_inRange hrange hnodup htwo,
    Crt.solution_eq_mod inverse_isInverse (coprime_naturals hrange hnodup) hmodEq, Crt.modulus,
    keys_naturals]

end FarmChain.Gateway
