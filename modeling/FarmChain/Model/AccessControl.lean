import Mathlib.Data.Set.Basic
import Mathlib.Order.Basic

/-! The abstract authorization model (`AccessControl.tla`).

Users, roles, permissions, zones and times are arbitrary; an assignment is one role
in one zone, a token leads from one zone to one other. A request is authorized by
an unexpired assignment in its zone, or by an unexpired assignment in another zone
together with a token from there. -/
namespace FarmChain.Model

/-- A role in a zone. -/
structure Assignment (User Role Zone : Type) where
  user : User
  role : Role
  zone : Zone

/-- Passage from one zone to another until a time. -/
structure Token (User Zone Time : Type) where
  user : User
  fromZone : Zone
  toZone : Zone
  expires : Time

structure Request (User Perm Zone : Type) where
  user : User
  perm : Perm
  zone : Zone

variable {User Role Perm Zone Time : Type} [LE Time]

section
variable (rolePerms : Role → Set Perm) (t : Time) (assignments : Set (Assignment User Role Zone))
  (expiry : Assignment User Role Zone → Time) (tokens : Set (Token User Zone Time))

def ActiveRoleAt (user : User) (perm : Perm) (zone : Zone) : Prop :=
  ∃ a ∈ assignments, a.user = user ∧ a.zone = zone ∧ perm ∈ rolePerms a.role ∧ t ≤ expiry a

def ActiveTokenAt (user : User) (fromZone toZone : Zone) : Prop :=
  ∃ k ∈ tokens, k.user = user ∧ k.fromZone = fromZone ∧ k.toZone = toZone ∧ t ≤ k.expires

def AuthorizedAt (req : Request User Perm Zone) : Prop :=
  ActiveRoleAt rolePerms t assignments expiry req.user req.perm req.zone ∨
    ∃ a ∈ assignments, a.user = req.user ∧ a.zone ≠ req.zone ∧ req.perm ∈ rolePerms a.role ∧
      t ≤ expiry a ∧ ActiveTokenAt t tokens req.user a.zone req.zone

end

variable {rolePerms : Role → Set Perm} {t : Time} {assignments : Set (Assignment User Role Zone)}
  {expiry : Assignment User Role Zone → Time} {tokens : Set (Token User Zone Time)}

/-- A token from a zone where the user may use the permission authorizes it, be that
zone the requested one or another. -/
theorem authorizedAt_of_source {user : User} {perm : Perm} {source zone : Zone}
    (hrole : ActiveRoleAt rolePerms t assignments expiry user perm source)
    (htoken : ActiveTokenAt t tokens user source zone) :
    AuthorizedAt rolePerms t assignments expiry tokens ⟨user, perm, zone⟩ := by
  by_cases hzone : source = zone
  · exact .inl (hzone ▸ hrole)
  · obtain ⟨a, ha, huser, rfl, hperm, hexpiry⟩ := hrole
    exact .inr ⟨a, ha, huser, hzone, hperm, hexpiry, htoken⟩

/-- Without an assignment in the token's source zone or in the requested zone, no
token authorizes the request. -/
theorem not_authorizedAt {req : Request User Perm Zone}
    (h : ∀ a ∈ assignments, a.user = req.user → a.zone ≠ req.zone ∧
      ¬ActiveTokenAt t tokens req.user a.zone req.zone) :
    ¬AuthorizedAt rolePerms t assignments expiry tokens req := by
  intro hcase
  rcases hcase with ⟨a, ha, huser, hzone, _⟩ | ⟨a, ha, huser, _, _, _, htoken⟩
  · exact (h a ha huser).1 hzone
  · exact (h a ha huser).2 htoken

/-- More assignments that last as long or longer, and more tokens, authorize no less. -/
theorem AuthorizedAt.mono {assignments' : Set (Assignment User Role Zone)}
    {expiry' : Assignment User Role Zone → Time} {tokens' : Set (Token User Zone Time)}
    {req : Request User Perm Zone}
    (hassignments : ∀ a ∈ assignments, t ≤ expiry a → a ∈ assignments' ∧ t ≤ expiry' a)
    (htokens : ∀ k ∈ tokens, k ∈ tokens')
    (h : AuthorizedAt rolePerms t assignments expiry tokens req) :
    AuthorizedAt rolePerms t assignments' expiry' tokens' req := by
  rcases h with ⟨a, ha, huser, hzone, hperm, hexpiry⟩ |
    ⟨a, ha, huser, hzone, hperm, hexpiry, k, hk, htoken⟩
  · obtain ⟨ha', hexpiry'⟩ := hassignments a ha hexpiry
    exact .inl ⟨a, ha', huser, hzone, hperm, hexpiry'⟩
  · obtain ⟨ha', hexpiry'⟩ := hassignments a ha hexpiry
    exact .inr ⟨a, ha', huser, hzone, hperm, hexpiry', k, htokens k hk, htoken⟩

end FarmChain.Model
