import FarmChain.Chaincode.Stub

/-! Consumed nonces (`nonces.go`). -/
namespace FarmChain.Chaincode

section
variable {B : Type} (R : Runtime B) (l : Ledger B)

/-- Consume a nonce: its record, and the index with its key appended. -/
def validateNonce (ctx : Context) (subjectID nonce : String) : Except String (WriteSet B) := do
  require (subjectID ≠ "") "subject id is required"
  require (nonce ≠ "") "nonce is required"
  let key := nonceKey subjectID nonce
  require (l.get key = none) ("replay detected for nonce " ++ R.quote nonce)
  let record : Nonce := ⟨subjectID, nonce, ctx.txID, ctx.now⟩
  let keys ← getStringIndex R l nonceIndexKey
  return [(key, some (R.nonce.marshal record)), putStringIndex R nonceIndexKey (keys ++ [key])]

end

end FarmChain.Chaincode
