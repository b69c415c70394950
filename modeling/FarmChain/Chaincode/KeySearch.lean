import FarmChain.Chaincode.Success

/-! The search for an audit entry's key (`writeAuditEntry`).

The loop has no bound in the source. `sequenceLoop` is the loop as it runs, one pass at a
time, and `auditSequence` is where it stops (`sequenceLoop_eq`): a ledger has finitely many
keys, and the keys of one transaction's sequence numbers are all different. The counter is a
Go `int`; it would wrap only on a ledger of at least 2^63 keys (`machineLoop_eq`). -/
namespace FarmChain.Chaincode

section
variable {B : Type} (l : Ledger B) (txID : String)

/-- The loop from a sequence number on, for so many passes at most; `none` while it goes on. -/
def sequenceLoop (passes sequence : Nat) : Option String :=
  l.search (auditKeyWithSequence txID) (· + 1) passes sequence

/-- `auditKeyWithSequence` of a 64-bit `int`. -/
def auditKeyWithInt (sequence : Int64) : String :=
  if sequence = 0 then auditKey txID
  else auditKeyPrefix ++ txID ++ ":" ++ toString sequence.toInt

/-- The loop on a 64-bit counter, which wraps. -/
def machineLoop (passes : Nat) (sequence : Int64) : Option String :=
  l.search (auditKeyWithInt txID) (· + 1) passes sequence

/-- A number the counter can hold gives the same key. -/
theorem auditKeyWithInt_ofNat {sequence : Nat} (h : sequence < 2 ^ 63) :
    auditKeyWithInt txID (.ofNat sequence) = auditKeyWithSequence txID sequence := by
  have hint : (Int64.ofNat sequence).toInt = sequence := Int64.toInt_ofNat_of_lt h
  have hzero : Int64.ofNat sequence = 0 ↔ sequence = 0 := by
    rw [← Int64.toInt_inj, hint]
    exact Int.natCast_eq_zero
  unfold auditKeyWithInt auditKeyWithSequence
  rw [hint]
  simp only [hzero]
  rfl

theorem auditSequence_taken {sequence : Nat} (h : sequence < auditSequence l txID) :
    l.get (auditKeyWithSequence txID sequence) ≠ none :=
  l.firstFree_taken _ h

/-- The first free number is at most the number of keys there are. -/
theorem auditSequence_le : auditSequence l txID ≤ l.keys.card :=
  l.firstFree_le _ (auditKeyWithSequence_injective txID)

/-- The loop ends there. -/
theorem sequenceLoop_eq (passes : Nat) : sequenceLoop l txID passes 0 =
    if auditSequence l txID < passes then
      some (auditKeyWithSequence txID (auditSequence l txID)) else none := by
  have hnext (i : Nat) : id (i + 1) = id i + 1 := rfl
  exact Store.search_eq hnext (fun _ h => auditSequence_taken l txID h) (auditSequence_free l txID)
    passes

/-- On a machine's counter it takes the same passes. -/
theorem machineLoop_eq (h : l.keys.card < 2 ^ 63) (passes : Nat) :
    machineLoop l txID passes 0 = sequenceLoop l txID passes 0 := by
  have hle := auditSequence_le l txID
  have hsame (i : Nat) (hi : i ≤ auditSequence l txID) :
      auditKeyWithInt txID (.ofNat i) = auditKeyWithSequence txID i :=
    auditKeyWithInt_ofNat txID (by omega)
  have htaken : ∀ i < auditSequence l txID, l.get (auditKeyWithInt txID (.ofNat i)) ≠ none := by
    intro i hi
    rw [hsame i hi.le]
    exact auditSequence_taken l txID hi
  have hfree : l.get (auditKeyWithInt txID (.ofNat (auditSequence l txID))) = none := by
    rw [hsame _ le_rfl]
    exact auditSequence_free l txID
  have hnext (i : Nat) : Int64.ofNat (i + 1) = Int64.ofNat i + 1 := Int64.ofNat_add i 1
  rw [sequenceLoop_eq, ← hsame _ le_rfl]
  exact Store.search_eq hnext htaken hfree passes

end

/-! ### The write -/

/-- The entry goes under the key found, and the index beside it. -/
theorem writeAuditEntry_writes {B : Type} {R : Runtime B} {l : Ledger B} {ctx : Context}
    {entry : AuditEntry} {key : String} {ws : WriteSet B}
    (h : writeAuditEntry R l ctx entry = .ok (key, ws)) :
    key = auditKeyWithSequence ctx.txID (auditSequence l ctx.txID) ∧
      ∃ index,
        ws = [(key, some (R.audit.marshal (entry.stamped ctx))), (auditIndexKey, some index)] := by
  obtain ⟨keys, _, hlogged⟩ := writeAuditEntry_eq_ok.mp h
  cases hlogged
  exact ⟨rfl, _, rfl⟩

/-- A record under a free key leaves those under others. -/
theorem get_write_of_free {B : Type} {l : Ledger B} {key : String} (hfree : l.get key = none)
    (payload : B) {other : String} {record : B} (h : l.get other = some record) :
    (l.write (key, some payload)).get other = some record := by
  have hne : other ≠ key := by
    rintro rfl
    cases hfree.symm.trans h
  rw [Store.get_write, if_neg hne, h]

/-- **The search ends, at the first sequence number whose key is free, and what is written
under it overwrites nothing.** -/
theorem audit_key_search {B : Type} (l : Ledger B) (txID : String) :
    ∃ sequence,
      (∀ passes, sequenceLoop l txID passes 0 =
        if sequence < passes then some (auditKeyWithSequence txID sequence) else none) ∧
      l.get (auditKeyWithSequence txID sequence) = none ∧
      (∀ smaller < sequence, l.get (auditKeyWithSequence txID smaller) ≠ none) ∧
      sequence ≤ l.keys.card ∧
      (l.keys.card < 2 ^ 63 →
        ∀ passes, machineLoop l txID passes 0 = sequenceLoop l txID passes 0) ∧
      ∀ (R : Runtime B) (ctx : Context) (entry : AuditEntry) (key : String) (ws : WriteSet B),
        ctx.txID = txID → writeAuditEntry R l ctx entry = .ok (key, ws) →
          key = auditKeyWithSequence txID sequence ∧
          ∃ payload index, ws = [(key, some payload), (auditIndexKey, some index)] ∧
            ∀ other record, l.get other = some record →
              (l.write (key, some payload)).get other = some record ∧
              (other ≠ auditIndexKey → (l.apply ws).get other = some record) := by
  refine ⟨auditSequence l txID, sequenceLoop_eq l txID, auditSequence_free l txID,
    fun _ h => auditSequence_taken l txID h, auditSequence_le l txID, machineLoop_eq l txID, ?_⟩
  rintro R ctx entry key ws rfl h
  obtain ⟨rfl, index, rfl⟩ := writeAuditEntry_writes h
  refine ⟨rfl, _, index, rfl, fun other record hrecord => ?_⟩
  have hkept := get_write_of_free (auditSequence_free l ctx.txID)
    (R.audit.marshal (entry.stamped ctx)) hrecord
  refine ⟨hkept, fun hindex => ?_⟩
  rw [Store.apply_cons, Store.get_apply_singleton, if_neg hindex, hkept]

/-- A second entry of a transaction goes under the sequence number 1. -/
theorem audit_key_second :
    machineLoop ((∅ : Ledger Document).write (auditKey "t", some (.text "first"))) "t" 2 0 =
      some "audit:t:1" := by
  obtain ⟨sequence, hends, hfree, _, hle, hmachine, _⟩ :=
    audit_key_search ((∅ : Ledger Document).write (auditKey "t", some (.text "first"))) "t"
  have hcard : ((∅ : Ledger Document).write (auditKey "t", some (.text "first"))).keys.card = 1 := by
    decide +kernel
  rw [hcard] at hle hmachine
  have htaken : sequence ≠ 0 := by
    rintro rfl
    exact absurd hfree (by decide +kernel)
  have hone : sequence = 1 := by omega
  rw [hmachine (by decide), hends, hone]
  decide

end FarmChain.Chaincode
