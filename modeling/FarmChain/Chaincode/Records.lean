import FarmChain.Chaincode.Roles

/-! The records the contract stores, one structure for each Go struct.

Times are whole Unix seconds, as stored. -/
namespace FarmChain.Chaincode

/-- A role given to a subject, optionally scoped to zones and time
(`temporal.go`); `expiresAt` zero means it never expires. -/
structure RoleAssignment where
  subjectID : String
  role : Role
  zones : List String
  issuedBy : String
  issuedAt : Int
  expiresAt : Int
  deriving DecidableEq, Repr

/-- Temporary access from a source zone to target zones (`zones.go`). -/
structure CrossZoneToken where
  tokenID : String
  subjectID : String
  sourceZone : String
  targetZones : List String
  issuedBy : String
  issuedAt : Int
  expiresAt : Int
  nonce : String
  deriving DecidableEq, Repr

/-- One consumed unique value (`nonces.go`). -/
structure Nonce where
  subjectID : String
  value : String
  txID : String
  timestamp : Int
  deriving DecidableEq, Repr

/-- One authorization or administration event (`audit.go`). -/
structure AuditEntry where
  txID : String
  actorID : String
  action : String
  resource : String
  decision : String
  reason : String
  timestamp : Int
  deriving DecidableEq, Repr

end FarmChain.Chaincode
