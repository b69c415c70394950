/-! Roles and permissions (`roles.go`).

A role and a permission are texts in the source: a certificate attribute or an
argument may spell anything, and only seven spellings are roles. A role inherits
the permissions of its ancestors, in the order the tables list them. -/
namespace FarmChain.Chaincode

/-- An HRBAC actor role. -/
structure Role where
  name : String
  deriving DecidableEq, Repr

namespace Role
def admin : Role := ⟨"Admin"⟩
def gateway : Role := ⟨"Gateway"⟩
def farmer : Role := ⟨"Farmer"⟩
def agronomist : Role := ⟨"Agronomist"⟩
def certifier : Role := ⟨"Certifier"⟩
def supplyChain : Role := ⟨"SupplyChain"⟩
def sensor : Role := ⟨"Sensor"⟩
end Role

/-- An action allowed by an effective role. -/
structure Permission where
  name : String
  deriving DecidableEq, Repr

namespace Permission
def readOwn : Permission := ⟨"ReadOwn"⟩
def readZone : Permission := ⟨"ReadZone"⟩
def readAll : Permission := ⟨"ReadAll"⟩
def writeSensor : Permission := ⟨"WriteSensor"⟩
def controlZone : Permission := ⟨"ControlZone"⟩
def controlAll : Permission := ⟨"ControlAll"⟩
def readAudit : Permission := ⟨"ReadAudit"⟩
def manageRoles : Permission := ⟨"ManageRoles"⟩
def issueCrossZone : Permission := ⟨"IssueCrossZone"⟩
def adminAll : Permission := ⟨"AdminAll"⟩
end Permission

open Role Permission

/-- Permissions given to a role directly; none for an unknown one. -/
def rolePermissions (r : Role) : List Permission :=
  match r.name with
  | "SupplyChain" => [readOwn]
  | "Certifier" => [readZone, readAudit]
  | "Agronomist" => [controlZone, issueCrossZone]
  | "Farmer" => [writeSensor]
  | "Sensor" => [writeSensor]
  | "Gateway" => [readZone, controlZone]
  | "Admin" => [readAll, controlAll, manageRoles, adminAll]
  | _ => []

def roleAncestors (r : Role) : Option (List Role) :=
  match r.name with
  | "SupplyChain" => some [supplyChain]
  | "Certifier" => some [certifier, supplyChain]
  | "Agronomist" => some [agronomist, certifier, supplyChain]
  | "Farmer" => some [farmer, agronomist, certifier, supplyChain]
  | "Sensor" => some [sensor]
  | "Gateway" => some [gateway, sensor]
  | "Admin" => some [admin, farmer, agronomist, certifier, supplyChain, gateway, sensor]
  | _ => none

def validRoles : List Role := [admin, gateway, farmer, agronomist, certifier, supplyChain, sensor]

/-- Append a permission the first time it is met. -/
def addPermission (permissions : List Permission) (p : Permission) : List Permission :=
  if p ∈ permissions then permissions else permissions ++ [p]

/-- Permissions inherited by `r`, each once, in table order. -/
def getEffectivePermissions (r : Role) : List Permission :=
  match roleAncestors r with
  | none => []
  | some ancestors => (ancestors.flatMap rolePermissions).foldl addPermission []

/-- One of the seven supported roles. -/
def isRoleValid (r : Role) : Bool := r ∈ validRoles

/-- `hasPermission` of `contract.go`: the permission is effective, or every one is. -/
def hasPermission (role : Role) (permission : Permission) : Bool :=
  if permission = ⟨""⟩ then false
  else (getEffectivePermissions role).any fun p => p = permission || p = adminAll

/-- `needsZoneCheck` of `contract.go`. -/
def needsZoneCheck (permission : Permission) : Bool :=
  permission = readZone || permission = writeSensor || permission = controlZone

theorem hasPermission_iff {role : Role} {permission : Permission} :
    hasPermission role permission = true ↔ permission ≠ ⟨""⟩ ∧
      (permission ∈ getEffectivePermissions role ∨ adminAll ∈ getEffectivePermissions role) := by
  unfold hasPermission
  split
  · simp [*]
  · rename_i h
    simp only [List.any_eq_true, Bool.or_eq_true, decide_eq_true_eq, ne_eq, h, not_false_eq_true,
      true_and]
    constructor
    · intro hcase
      obtain ⟨p, hp, rfl | rfl⟩ := hcase
      · exact .inl hp
      · exact .inr hp
    · intro hcase
      rcases hcase with hp | hp
      · exact ⟨_, hp, .inl rfl⟩
      · exact ⟨_, hp, .inr rfl⟩

/-- Only administrators hold every permission. -/
theorem adminAll_effective {role : Role} (h : adminAll ∈ getEffectivePermissions role) :
    role = admin := by
  unfold getEffectivePermissions roleAncestors at h
  split at h
  · simp at h
  · rename_i ancestors heq
    split at heq <;> cases heq
    case h_7 hname => exact congrArg Role.mk hname
    all_goals exact absurd h (by decide)

/-- The zone-checked permissions need no blanket one: who may use them holds them. -/
theorem zonePermission_effective {role : Role} {permission : Permission}
    (hz : needsZoneCheck permission = true) (h : hasPermission role permission = true) :
    permission ∈ getEffectivePermissions role := by
  rcases (hasPermission_iff.mp h).2 with h | h
  · exact h
  · rw [adminAll_effective h]
    simp only [needsZoneCheck, Bool.or_eq_true, decide_eq_true_eq] at hz
    rcases hz with (rfl | rfl) | rfl <;> decide

end FarmChain.Chaincode
