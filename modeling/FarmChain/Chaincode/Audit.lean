import FarmChain.Chaincode.Stub

/-! The audit log (`audit.go`).

An entry goes under the transaction's id, or under the id and the first sequence
number that is free; its key is appended to the index. The search has no bound in
the source and needs none: the ledger is finite (`auditSequence_free`). -/
namespace FarmChain.Chaincode

section
variable {B : Type} (R : Runtime B) (l : Ledger B)

/-- The sequence number the loop stops at. -/
def auditSequence (txID : String) : Nat := l.firstFree (auditKeyWithSequence txID)

/-- Stamp an entry with its transaction and write it; returns its key. -/
def writeAuditEntry (ctx : Context) (entry : AuditEntry) : Except String (String × WriteSet B) := do
  let entry := { entry with txID := ctx.txID, timestamp := ctx.now }
  let keys ← getStringIndex R l auditIndexKey
  let key := auditKeyWithSequence entry.txID (auditSequence l entry.txID)
  return (key, [(key, some (R.audit.marshal entry)),
    putStringIndex R auditIndexKey (keys ++ [key])])

end

/-- An entry as the contract's operations compose it; its transaction's id and
time are filled in when it is written. -/
def AuditEntry.of (actorID action resource decision reason : String) : AuditEntry :=
  ⟨"", actorID, action, resource, decision, reason, 0⟩

theorem auditSequence_free {B : Type} (l : Ledger B) (txID : String) :
    l.get (auditKeyWithSequence txID (auditSequence l txID)) = none :=
  l.firstFree_free _ (auditKeyWithSequence_injective txID)

end FarmChain.Chaincode
