import FarmChain.Chaincode.Stub

/-! Assignments and their time limits (`temporal.go`, and `getRoleAssignment` and
`parseFutureExpiry` of `contract.go`). -/
namespace FarmChain.Chaincode

open Strings

/-- An assignment is expired once the transaction's second is past its expiry. -/
def checkRoleExpiration (ctx : Context) (assignment : RoleAssignment) : Except String Unit :=
  if assignment.expiresAt = 0 then .ok ()
  else require (¬ctx.now > assignment.expiresAt)
    ("role assignment expired at " ++ toString assignment.expiresAt)

section
variable {B : Type} (R : Runtime B) (l : Ledger B)

def getRoleAssignment (subjectID : String) : Except String RoleAssignment := do
  let subjectID := trimSpace subjectID
  require (subjectID ≠ "") "subject id is required"
  match l.get (roleKey subjectID) with
  | none => throw ("role assignment not found for " ++ subjectID)
  | some payload =>
    wrapError ("failed to unmarshal role assignment: " ++ ·) (R.role.unmarshal payload)

/-- The expiry to store: zero when none is asked for, else an instant that lies
after the transaction, cut to its second. -/
def parseFutureExpiry (ctx : Context) (expiresAtISO : String) (required : Bool) :
    Except String Int := do
  let expiresAtISO := trimSpace expiresAtISO
  if expiresAtISO = "" then
    require (¬required) "expiresAtISO is required"
    return 0
  let expiresAt ← wrapError ("expiresAtISO must be RFC3339: " ++ ·) (R.parseRFC3339 expiresAtISO)
  require (expiresAt.after (txTime ctx)) "expiry in the past"
  return expiresAt.sec

end

/-- The assignment is in force at Unix second `t`. -/
def RoleAssignment.activeAt (a : RoleAssignment) (t : Int) : Prop :=
  a.expiresAt = 0 ∨ t ≤ a.expiresAt

theorem checkRoleExpiration_eq_ok {ctx : Context} {a : RoleAssignment} {u : Unit} :
    checkRoleExpiration ctx a = .ok u ↔ a.activeAt ctx.now := by
  unfold checkRoleExpiration RoleAssignment.activeAt
  split <;> simp [*]

theorem checkRoleExpiration_eq_error {ctx : Context} {a : RoleAssignment} {e : String}
    (h : checkRoleExpiration ctx a = .error e) : ¬a.activeAt ctx.now := by
  intro ha
  rw [(checkRoleExpiration_eq_ok (u := ())).mpr ha] at h
  cases h

/-- No expiry is stored as zero, and an instant as its second. -/
theorem parseFutureExpiry_eq_ok {B : Type} {R : Runtime B} {ctx : Context} {expiresAtISO : String}
    {required : Bool} {expiresAt : Int} :
    parseFutureExpiry R ctx expiresAtISO required = .ok expiresAt ↔
      (trimSpace expiresAtISO = "" ∧ required = false ∧ expiresAt = 0) ∨
        (trimSpace expiresAtISO ≠ "" ∧ ∃ expiry, R.parseRFC3339 (trimSpace expiresAtISO) = .ok expiry ∧
          expiresAt = expiry.sec ∧ expiry.after (txTime ctx) = true) := by
  unfold parseFutureExpiry
  simp only
  split
  · rename_i hempty
    simp only [Except.bind_eq_ok, Except.require_eq_ok, Except.pure_eq_ok]
    constructor
    · rintro ⟨_, hrequired, hzero⟩
      exact .inl ⟨hempty, by simpa using hrequired, hzero.symm⟩
    · rintro (⟨_, hrequired, hzero⟩ | ⟨hgiven, _⟩)
      · exact ⟨(), by simp [hrequired], hzero.symm⟩
      · exact absurd hempty hgiven
  · rename_i hgiven
    simp only [Except.bind_eq_ok, Except.wrapError_eq_ok, Except.require_eq_ok,
      Except.pure_eq_ok]
    constructor
    · rintro ⟨expiry, hparse, _, hafter, hsec⟩
      exact .inr ⟨hgiven, expiry, hparse, hsec.symm, hafter⟩
    · rintro (⟨hempty, _⟩ | ⟨_, expiry, hparse, hsec, hafter⟩)
      · exact absurd hempty hgiven
      · exact ⟨expiry, hparse, (), hafter, hsec.symm⟩

/-- A required expiry is an instant after the transaction. -/
theorem parseFutureExpiry_required {B : Type} {R : Runtime B} {ctx : Context}
    {expiresAtISO : String} {expiresAt : Int}
    (h : parseFutureExpiry R ctx expiresAtISO true = .ok expiresAt) :
    ∃ expiry, R.parseRFC3339 (trimSpace expiresAtISO) = .ok expiry ∧ expiresAt = expiry.sec ∧
      expiry.after (txTime ctx) = true := by
  rcases parseFutureExpiry_eq_ok.mp h with ⟨_, hrequired, _⟩ | ⟨_, hexpiry⟩
  · cases hrequired
  · exact hexpiry

/-- An assignment found is the stored record of the trimmed subject. -/
theorem getRoleAssignment_eq_ok {B : Type} {R : Runtime B} {l : Ledger B} {subjectID : String}
    {a : RoleAssignment} :
    getRoleAssignment R l subjectID = .ok a ↔ trimSpace subjectID ≠ "" ∧
      ∃ payload, l.get (roleKey (trimSpace subjectID)) = some payload ∧
        R.role.unmarshal payload = .ok a := by
  simp only [getRoleAssignment, Except.bind_eq_ok, Except.require_eq_ok]
  cases hl : l.get (roleKey (trimSpace subjectID)) with
  | none => simp [throw, throwThe, MonadExceptOf.throw]
  | some payload => simp

theorem getRoleAssignment_congr {B : Type} {R : Runtime B} {l l' : Ledger B} {subjectID : String}
    (h : l'.get (roleKey (trimSpace subjectID)) = l.get (roleKey (trimSpace subjectID))) :
    getRoleAssignment R l' subjectID = getRoleAssignment R l subjectID := by
  simp only [getRoleAssignment, h]

theorem getRoleAssignment_trimSpace {B : Type} (R : Runtime B) (l : Ledger B) (subjectID : String) :
    getRoleAssignment R l (trimSpace subjectID) = getRoleAssignment R l subjectID := by
  simp [getRoleAssignment]

end FarmChain.Chaincode
