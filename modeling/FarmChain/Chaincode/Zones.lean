import Mathlib.Data.List.Dedup
import FarmChain.Chaincode.Stub

/-! Zones (`zones.go`, and the zone lists of `contract.go`).

A zone list arrives as comma-separated text. `parseZones` reads it as a set,
`normalizeZones` walks over that set in whatever order `range` picks and keeps the
valid zones and the wildcard. What it stores is therefore already parsed: reading
it again gives the same zones (`parseZones_normalized`). -/
namespace FarmChain.Chaincode

open Strings

/-- The nonempty trimmed parts of the values, as the keys of a Go map: each once. -/
def parseZones (values : List String) : List String :=
  (((values.flatMap fun value => split value ',').map trimSpace).filter (· ≠ "")).dedup

def validZones : List String := ["North", "South", "East", "West"]

/-- One of the four supported zones. -/
def isZoneValid (zone : String) : Bool := trimSpace zone ∈ validZones

section
variable {B : Type} (R : Runtime B)

/-- `validateZoneAccess`: the assignment covers the requested zone. -/
def validateZoneAccess (assignment : RoleAssignment) (requestedZone : String) :
    Except String Unit := do
  let requestedZone := trimSpace requestedZone
  require (requestedZone ≠ "") "zone is required"
  let zones := parseZones assignment.zones
  require ("*" ∈ zones ∨ requestedZone ∈ zones) ("zone access denied for " ++ R.quote requestedZone)

/-- The loop of `normalizeZones` over the map's keys: `seen` and `zones` so far. -/
def normalizeZonesLoop : List String → List String → List String → Except String (List String)
  | [], _, zones => .ok zones
  | zone :: rest, seen, zones =>
    if zone = "*" then normalizeZonesLoop rest seen (zones ++ [zone])
    else if !isZoneValid zone then .error ("invalid zone " ++ R.quote zone)
    else if zone ∈ seen then normalizeZonesLoop rest seen zones
    else normalizeZonesLoop rest (seen ++ [zone]) (zones ++ [zone])

def normalizeZones (order : MapOrder) (zonesCSV : String) (required : Bool) :
    Except String (List String) := do
  let zones ← normalizeZonesLoop R (order.iterate (parseZones [zonesCSV])) [] []
  require (¬(required ∧ zones.length = 0)) "zone is required"
  return zones

/-- Gateways and sensors live in a zone; other roles may have none. -/
def zoneBound (role : Role) : Bool := role = .gateway || role = .sensor

def normalizeZonesForRole (order : MapOrder) (role : Role) (zonesCSV : String) :
    Except String (List String) := do
  let zones ← normalizeZones R order zonesCSV (zoneBound role)
  require (¬(zoneBound role ∧ zones.length = 0)) ("zone is required for " ++ role.name ++ " role")
  return zones

end

def firstZone : List String → String
  | [] => ""
  | zone :: _ => zone

/-! ### What the lists mean -/

theorem mem_parseZones {values : List String} {zone : String} :
    zone ∈ parseZones values ↔
      zone ≠ "" ∧ ∃ value ∈ values, ∃ part ∈ split value ',', trimSpace part = zone := by
  simp only [parseZones, List.mem_dedup, List.mem_filter, List.mem_map, List.mem_flatMap,
    decide_eq_true_eq]
  constructor
  · intro hcase
    obtain ⟨⟨part, ⟨value, hv, hp⟩, rfl⟩, hne⟩ := hcase
    exact ⟨hne, value, hv, part, hp, rfl⟩
  · intro hcase
    obtain ⟨hne, value, hv, part, hp, rfl⟩ := hcase
    exact ⟨⟨part, ⟨value, hv, hp⟩, rfl⟩, hne⟩

theorem trimSpace_of_mem_parseZones {values : List String} {zone : String}
    (h : zone ∈ parseZones values) : trimSpace zone = zone := by
  obtain ⟨_, _, _, part, _, rfl⟩ := mem_parseZones.mp h
  exact trimSpace_trimSpace part

/-- A zone as the contract stores it: the wildcard or one of the four. -/
def IsStoredZone (zone : String) : Prop := zone = "*" ∨ zone ∈ validZones

theorem IsStoredZone.split {zone : String} (h : IsStoredZone zone) : split zone ',' = [zone] := by
  apply split_of_notMem
  simp only [IsStoredZone, validZones, List.mem_cons, List.not_mem_nil, or_false] at h
  rcases h with rfl | rfl | rfl | rfl | rfl <;> decide

theorem IsStoredZone.trimSpace {zone : String} (h : IsStoredZone zone) :
    Strings.trimSpace zone = zone := by
  simp only [IsStoredZone, validZones, List.mem_cons, List.not_mem_nil, or_false] at h
  rcases h with rfl | rfl | rfl | rfl | rfl <;> decide

theorem IsStoredZone.ne_empty {zone : String} (h : IsStoredZone zone) : zone ≠ "" := by
  intro heq
  subst heq
  exact absurd h (by unfold IsStoredZone; decide)

/-- Reading a stored zone list gives back its zones. -/
theorem parseZones_normalized {zones : List String} (h : ∀ z ∈ zones, IsStoredZone z)
    {zone : String} : zone ∈ parseZones zones ↔ zone ∈ zones := by
  rw [mem_parseZones]
  constructor
  · intro hcase
    obtain ⟨_, value, hv, part, hp, rfl⟩ := hcase
    rw [(h value hv).split, List.mem_singleton] at hp
    rw [hp, (h value hv).trimSpace]
    exact hv
  · intro hz
    refine ⟨(h zone hz).ne_empty, zone, hz, zone, ?_, (h zone hz).trimSpace⟩
    rw [(h zone hz).split]
    exact List.mem_singleton_self zone

section
variable {B : Type} {R : Runtime B}

/-- The loop only ever appends the wildcard and valid keys it walks over. -/
theorem normalizeZonesLoop_stored {keys seen zones result : List String}
    (hkeys : ∀ k ∈ keys, trimSpace k = k) (hzones : ∀ z ∈ zones, IsStoredZone z)
    (h : normalizeZonesLoop R keys seen zones = .ok result) : ∀ z ∈ result, IsStoredZone z := by
  induction keys generalizing seen zones with
  | nil =>
    cases h
    exact hzones
  | cons zone rest ih =>
    have hrest : ∀ k ∈ rest, trimSpace k = k := fun k hk => hkeys k (List.mem_cons_of_mem zone hk)
    have hpush (hz : IsStoredZone zone) : ∀ z ∈ zones ++ [zone], IsStoredZone z := by
      intro z hmem
      rcases List.mem_append.mp hmem with hmem | hmem
      · exact hzones z hmem
      · rw [List.mem_singleton.mp hmem]
        exact hz
    unfold normalizeZonesLoop at h
    split at h
    · rename_i hstar
      exact ih hrest (hpush (.inl hstar)) h
    · split at h
      · cases h
      · rename_i hvalid
        have hmem : zone ∈ validZones := by
          simpa [isZoneValid, hkeys zone (List.mem_cons_self ..)] using hvalid
        split at h
        · exact ih hrest hzones h
        · exact ih hrest (hpush (.inr hmem)) h

theorem normalizeZones_stored {order : MapOrder} {zonesCSV : String} {required : Bool}
    {zones : List String} (h : normalizeZones R order zonesCSV required = .ok zones) :
    ∀ z ∈ zones, IsStoredZone z := by
  simp only [normalizeZones, Except.bind_eq_ok, Except.require_eq_ok, Except.pure_eq_ok] at h
  obtain ⟨_, hloop, _, _, rfl⟩ := h
  refine normalizeZonesLoop_stored (fun k hk => ?_) (fun z hz => by cases hz) hloop
  exact trimSpace_of_mem_parseZones ((order.perm _).mem_iff.mp hk)

theorem normalizeZonesForRole_stored {order : MapOrder} {role : Role} {zonesCSV : String}
    {zones : List String} (h : normalizeZonesForRole R order role zonesCSV = .ok zones) :
    ∀ z ∈ zones, IsStoredZone z := by
  simp only [normalizeZonesForRole, Except.bind_eq_ok, Except.require_eq_ok,
    Except.pure_eq_ok] at h
  obtain ⟨_, hzones, _, _, rfl⟩ := h
  exact normalizeZones_stored hzones

/-- Zone access over a stored zone list: the zone itself or the wildcard is listed. -/
theorem validateZoneAccess_eq_ok {assignment : RoleAssignment} {requestedZone : String} {u : Unit}
    (h : ∀ z ∈ assignment.zones, IsStoredZone z) :
    validateZoneAccess R assignment requestedZone = .ok u ↔ trimSpace requestedZone ≠ "" ∧
      ("*" ∈ assignment.zones ∨ trimSpace requestedZone ∈ assignment.zones) := by
  simp [validateZoneAccess, Except.bind_eq_ok, parseZones_normalized h]

end

end FarmChain.Chaincode
