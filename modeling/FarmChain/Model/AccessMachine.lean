import Mathlib.Data.Finset.Image
import Mathlib.Data.Finset.SDiff
import Mathlib.Order.Interval.Finset.Nat
import FarmChain.Lib.Temporal
import FarmChain.Model.AccessControl

/-! The access-control state machine (`AccessControl.tla`).

Requests wait, are granted or denied, and a grant is withdrawn when the assignments and
tokens left no longer authorize it: because one was revoked, because the clock moved on,
or because one expired. The four withdrawing actions are one function (`withdraw`), and
`next_cases` says once what a step can do. The module's sets and its initial and candidate
values are the `Constants`; `accessControl` has the module's own. -/
namespace FarmChain.Model

deriving instance DecidableEq for Assignment, Token, Request

namespace AccessMachine

structure ResourceRequest (User Perm Resource Zone : Type) extends Request User Perm Zone where
  resource : Resource
  deriving DecidableEq

inductive Decision
  | PENDING
  | GRANT
  | DENY
  | REVOKE
  deriving DecidableEq

structure LogEntry (User Perm Resource Zone : Type) where
  req : ResourceRequest User Perm Resource Zone
  decision : Decision
  time : ℕ
  deriving DecidableEq

/-- What the module fixes. A request is in its resource's zone, and no token outlives the
clock. -/
structure Constants (User Role Perm Resource Zone : Type) where
  resourceZone : Resource → Zone
  rolePerms : Role → Finset Perm
  initialRequests : Finset (ResourceRequest User Perm Resource Zone)
  initialAssignments : Finset (Assignment User Role Zone)
  candidateAssignments : Finset (Assignment User Role Zone)
  candidateTokens : Finset (Token User Zone ℕ)
  requests_zone : ∀ req ∈ initialRequests, req.zone = resourceZone req.resource
  tokens_expires : ∀ token ∈ candidateTokens, token.expires ≤ 10

structure State (User Role Perm Resource Zone : Type) where
  granted : Finset (ResourceRequest User Perm Resource Zone)
  pending : Finset (ResourceRequest User Perm Resource Zone)
  requestLog : Finset (LogEntry User Perm Resource Zone)
  roleAssignments : Finset (Assignment User Role Zone)
  roleExpiry : Assignment User Role Zone → ℕ
  crossZoneTokens : Finset (Token User Zone ℕ)
  clock : ℕ

variable {User Role Perm Resource Zone : Type}

/-! ### The actions -/

section
variable [DecidableEq User] [DecidableEq Role] [DecidableEq Perm] [DecidableEq Resource]
  [DecidableEq Zone] (C : Constants User Role Perm Resource Zone)

/-- The authorization model on the machine's sets. -/
def Constants.AuthorizedAt (t : ℕ) (assignments : Finset (Assignment User Role Zone))
    (expiry : Assignment User Role Zone → ℕ) (tokens : Finset (Token User Zone ℕ))
    (req : ResourceRequest User Perm Resource Zone) : Prop :=
  Model.AuthorizedAt (fun role => (C.rolePerms role : Set Perm)) t assignments expiry tokens
    req.toRequest

instance (t : ℕ) (assignments : Finset (Assignment User Role Zone))
    (expiry : Assignment User Role Zone → ℕ) (tokens : Finset (Token User Zone ℕ))
    (req : ResourceRequest User Perm Resource Zone) :
    Decidable (C.AuthorizedAt t assignments expiry tokens req) :=
  inferInstanceAs (Decidable
    ((∃ a ∈ assignments, a.user = req.user ∧ a.zone = req.zone ∧ req.perm ∈ C.rolePerms a.role ∧
        t ≤ expiry a) ∨
      ∃ a ∈ assignments, a.user = req.user ∧ a.zone ≠ req.zone ∧ req.perm ∈ C.rolePerms a.role ∧
        t ≤ expiry a ∧ ∃ k ∈ tokens, k.user = req.user ∧ k.fromZone = a.zone ∧
          k.toZone = req.zone ∧ t ≤ k.expires))

def Constants.SafeGrantsAt (t : ℕ) (assignments : Finset (Assignment User Role Zone))
    (expiry : Assignment User Role Zone → ℕ) (tokens : Finset (Token User Zone ℕ))
    (grants : Finset (ResourceRequest User Perm Resource Zone)) :
    Finset (ResourceRequest User Perm Resource Zone) :=
  grants.filter fun req => C.AuthorizedAt t assignments expiry tokens req

def State.Authorized (s : State User Role Perm Resource Zone)
    (req : ResourceRequest User Perm Resource Zone) : Prop :=
  C.AuthorizedAt s.clock s.roleAssignments s.roleExpiry s.crossZoneTokens req

def init : State User Role Perm Resource Zone where
  clock := 0
  granted := ∅
  pending := C.initialRequests
  requestLog := C.initialRequests.image fun req => ⟨req, .PENDING, 0⟩
  roleAssignments := C.initialAssignments
  roleExpiry assignment := if assignment ∈ C.initialAssignments then 10 else 0
  crossZoneTokens := ∅

def State.grant (s : State User Role Perm Resource Zone)
    (req : ResourceRequest User Perm Resource Zone) : State User Role Perm Resource Zone :=
  {s with
    granted := s.granted ∪ {req}
    pending := s.pending \ {req}
    requestLog := s.requestLog ∪ {⟨req, .GRANT, s.clock⟩}}

def State.deny (s : State User Role Perm Resource Zone)
    (req : ResourceRequest User Perm Resource Zone) : State User Role Perm Resource Zone :=
  {s with
    pending := s.pending \ {req}
    requestLog := s.requestLog ∪ {⟨req, .DENY, s.clock⟩}}

def GrantRequest (s s' : State User Role Perm Resource Zone) : Prop :=
  ∃ req ∈ s.pending, s.Authorized C req ∧ s' = s.grant req

def DenyRequest (s s' : State User Role Perm Resource Zone) : Prop :=
  ∃ req ∈ s.pending, s' = s.deny req

def AssignRole (s s' : State User Role Perm Resource Zone) : Prop :=
  ∃ assignment ∈ C.candidateAssignments \ s.roleAssignments,
    ∃ expiry ∈ Finset.Icc (s.clock + 1) 10, s' = {s with
      roleAssignments := s.roleAssignments ∪ {assignment}
      roleExpiry := Function.update s.roleExpiry assignment expiry}

/-- The clock, the assignments and the tokens become these; the grants they no longer
authorize are withdrawn and logged. -/
def State.withdraw (s : State User Role Perm Resource Zone) (clock : ℕ)
    (assignments : Finset (Assignment User Role Zone)) (tokens : Finset (Token User Zone ℕ)) :
    State User Role Perm Resource Zone :=
  let newGrants := C.SafeGrantsAt clock assignments s.roleExpiry tokens s.granted
  {s with
    clock := clock
    roleAssignments := assignments
    crossZoneTokens := tokens
    granted := newGrants
    requestLog := s.requestLog ∪ (s.granted \ newGrants).image fun req => ⟨req, .REVOKE, clock⟩}

def RevokeRole (s s' : State User Role Perm Resource Zone) : Prop :=
  ∃ assignment ∈ s.roleAssignments,
    s' = s.withdraw C s.clock (s.roleAssignments \ {assignment}) s.crossZoneTokens

def IssueCrossZoneToken (s s' : State User Role Perm Resource Zone) : Prop :=
  ∃ token ∈ C.candidateTokens \ s.crossZoneTokens, token.fromZone ≠ token.toZone ∧
    s.clock < token.expires ∧ s' = {s with crossZoneTokens := s.crossZoneTokens ∪ {token}}

def RevokeCrossZoneToken (s s' : State User Role Perm Resource Zone) : Prop :=
  ∃ token ∈ s.crossZoneTokens,
    s' = s.withdraw C s.clock s.roleAssignments (s.crossZoneTokens \ {token})

def Tick (s s' : State User Role Perm Resource Zone) : Prop :=
  s.clock < 10 ∧ s' = s.withdraw C (s.clock + 1)
    (s.roleAssignments.filter fun assignment => s.clock + 1 ≤ s.roleExpiry assignment)
    (s.crossZoneTokens.filter fun token => s.clock + 1 ≤ token.expires)

def ExpireRole (s s' : State User Role Perm Resource Zone) : Prop :=
  ∃ assignment ∈ s.roleAssignments, s.roleExpiry assignment < s.clock ∧
    s' = s.withdraw C s.clock (s.roleAssignments \ {assignment}) s.crossZoneTokens

def ProcessRequest (s s' : State User Role Perm Resource Zone) : Prop :=
  GrantRequest C s s' ∨ DenyRequest s s'

def Quiesce (s s' : State User Role Perm Resource Zone) : Prop :=
  s.clock = 10 ∧ s.pending = ∅ ∧ s' = s

def Next (s s' : State User Role Perm Resource Zone) : Prop :=
  GrantRequest C s s' ∨ DenyRequest s s' ∨ AssignRole C s s' ∨ RevokeRole C s s' ∨
    IssueCrossZoneToken C s s' ∨ RevokeCrossZoneToken C s s' ∨ Tick C s s' ∨ ExpireRole C s s' ∨
    Quiesce s s'

/-- `Init /\ [][Next]_Vars`. -/
structure Behaviour (σ : ℕ → State User Role Perm Resource Zone) : Prop where
  start : σ 0 = init C
  steps : Temporal.Steps (Next C) σ

/-- The behaviours that also process requests fairly. -/
structure Spec (σ : ℕ → State User Role Perm Resource Zone) : Prop extends Behaviour C σ where
  fair : Temporal.WeaklyFair (ProcessRequest C) σ

def NoUnauthorizedAccess (s : State User Role Perm Resource Zone) : Prop :=
  ∀ req ∈ s.granted, s.Authorized C req

def AllRequestsLogged (s : State User Role Perm Resource Zone) : Prop :=
  s.pending ∪ s.granted ⊆ s.requestLog.image LogEntry.req

end

/-! ### The module's own constants -/

inductive Users
  | u1
  | u2
  | u3
  deriving DecidableEq

inductive Roles
  | Admin
  | Farmer
  | Sensor
  deriving DecidableEq

inductive Perms
  | p1
  | p2
  | p3
  | p4
  deriving DecidableEq

inductive Resources
  | r1
  | r2
  deriving DecidableEq

inductive Zones
  | North
  | South
  deriving DecidableEq

def ResourceZone : Resources → Zones
  | .r1 => .North
  | .r2 => .South

def RolePerms : Roles → Finset Perms
  | .Admin => {.p1, .p2, .p3, .p4}
  | .Farmer => {.p1, .p2, .p3}
  | .Sensor => {.p1}

def InitialRequests : Finset (ResourceRequest Users Perms Resources Zones) :=
  {⟨⟨.u1, .p1, .North⟩, .r1⟩, ⟨⟨.u2, .p2, .North⟩, .r1⟩, ⟨⟨.u3, .p4, .South⟩, .r2⟩}

def InitialAssignments : Finset (Assignment Users Roles Zones) :=
  {⟨.u1, .Admin, .North⟩, ⟨.u1, .Admin, .South⟩, ⟨.u2, .Farmer, .North⟩, ⟨.u3, .Sensor, .South⟩}

def CandidateAssignments : Finset (Assignment Users Roles Zones) :=
  InitialAssignments ∪ {⟨.u2, .Farmer, .South⟩, ⟨.u3, .Sensor, .North⟩}

def CandidateTokens : Finset (Token Users Zones ℕ) :=
  {⟨.u2, .North, .South, 5⟩, ⟨.u3, .South, .North, 5⟩, ⟨.u1, .North, .South, 10⟩}

def accessControl : Constants Users Roles Perms Resources Zones where
  resourceZone := ResourceZone
  rolePerms := RolePerms
  initialRequests := InitialRequests
  initialAssignments := InitialAssignments
  candidateAssignments := CandidateAssignments
  candidateTokens := CandidateTokens
  requests_zone := by decide
  tokens_expires := by decide

/-! ### What a step can do -/

variable {C : Constants User Role Perm Resource Zone} {s s' : State User Role Perm Resource Zone}
  {req other : ResourceRequest User Perm Resource Zone}

section
variable [DecidableEq User] [DecidableEq Perm] [DecidableEq Resource] [DecidableEq Zone]

@[simp] theorem mem_grant_pending :
    other ∈ (s.grant req).pending ↔ other ∈ s.pending ∧ other ≠ req := by
  simp [State.grant]

@[simp] theorem mem_grant_granted :
    other ∈ (s.grant req).granted ↔ other ∈ s.granted ∨ other = req := by
  simp [State.grant, or_comm]

@[simp] theorem mem_deny_pending :
    other ∈ (s.deny req).pending ↔ other ∈ s.pending ∧ other ≠ req := by
  simp [State.deny]

@[simp] theorem deny_granted : (s.deny req).granted = s.granted := rfl

@[simp] theorem mem_grant_requestLog {entry : LogEntry User Perm Resource Zone} :
    entry ∈ (s.grant req).requestLog ↔ entry ∈ s.requestLog ∨ entry = ⟨req, .GRANT, s.clock⟩ := by
  simp [State.grant, or_comm]

@[simp] theorem mem_deny_requestLog {entry : LogEntry User Perm Resource Zone} :
    entry ∈ (s.deny req).requestLog ↔ entry ∈ s.requestLog ∨ entry = ⟨req, .DENY, s.clock⟩ := by
  simp [State.deny, or_comm]

/-- An assignment or a token is added: nothing that was authorized ceases to be. -/
structure Widens (C : Constants User Role Perm Resource Zone)
    (s s' : State User Role Perm Resource Zone) : Prop where
  granted : s'.granted = s.granted
  pending : s'.pending = s.pending
  requestLog : s'.requestLog = s.requestLog
  clock : s'.clock = s.clock
  authorized : ∀ req, s.Authorized C req → s'.Authorized C req

/-- Something of what authorizes is taken away, or the clock moves on. -/
def Withdraws (C : Constants User Role Perm Resource Zone)
    (s s' : State User Role Perm Resource Zone) : Prop :=
  ∃ clock assignments tokens, s.clock ≤ clock ∧ s' = s.withdraw C clock assignments tokens

theorem mem_withdraw_granted {clock : ℕ} {assignments : Finset (Assignment User Role Zone)}
    {tokens : Finset (Token User Zone ℕ)} :
    req ∈ (s.withdraw C clock assignments tokens).granted ↔ req ∈ s.granted ∧
      (s.withdraw C clock assignments tokens).Authorized C req :=
  Finset.mem_filter

end

theorem AssignRole.widens [DecidableEq User] [DecidableEq Role] [DecidableEq Zone]
    (h : AssignRole C s s') : Widens C s s' := by
  obtain ⟨assignment, hnew, expiry, _, rfl⟩ := h
  refine ⟨rfl, rfl, rfl, rfl, fun req hreq => ?_⟩
  refine AuthorizedAt.mono (fun a ha hexpiry => ?_) (fun k hk => hk) hreq
  have hne : a ≠ assignment := by
    rintro rfl
    exact (Finset.mem_sdiff.mp hnew).2 ha
  refine ⟨Finset.mem_coe.mpr (Finset.mem_union_left _ ha), ?_⟩
  show s.clock ≤ Function.update s.roleExpiry assignment expiry a
  rwa [Function.update_of_ne hne]

theorem IssueCrossZoneToken.widens [DecidableEq User] [DecidableEq Zone]
    (h : IssueCrossZoneToken C s s') : Widens C s s' := by
  obtain ⟨token, _, _, _, rfl⟩ := h
  refine ⟨rfl, rfl, rfl, rfl, fun req hreq => ?_⟩
  exact AuthorizedAt.mono (fun a ha hexpiry => ⟨ha, hexpiry⟩)
    (fun k hk => Finset.mem_coe.mpr (Finset.mem_union_left _ hk)) hreq

variable [DecidableEq User] [DecidableEq Role] [DecidableEq Perm] [DecidableEq Resource]
  [DecidableEq Zone]

/-- A step grants a waiting request, denies one, adds to what authorizes, or takes from it. -/
theorem next_cases (h : Next C s s') :
    GrantRequest C s s' ∨ DenyRequest s s' ∨ Widens C s s' ∨ Withdraws C s s' := by
  rcases h with h | h | h | ⟨a, _, rfl⟩ | h | ⟨k, _, rfl⟩ | ⟨_, rfl⟩ | ⟨a, _, _, rfl⟩ | ⟨_, _, rfl⟩
  · exact .inl h
  · exact .inr (.inl h)
  · exact .inr (.inr (.inl h.widens))
  · exact .inr (.inr (.inr ⟨_, _, _, le_rfl, rfl⟩))
  · exact .inr (.inr (.inl h.widens))
  · exact .inr (.inr (.inr ⟨_, _, _, le_rfl, rfl⟩))
  · exact .inr (.inr (.inr ⟨_, _, _, Nat.le_succ _, rfl⟩))
  · exact .inr (.inr (.inr ⟨_, _, _, le_rfl, rfl⟩))
  · exact .inr (.inr (.inl ⟨rfl, rfl, rfl, rfl, fun req hreq => hreq⟩))

/-! ### Safety -/

theorem noUnauthorizedAccess_next (h : Next C s s') (hs : NoUnauthorizedAccess C s) :
    NoUnauthorizedAccess C s' := by
  rcases next_cases h with ⟨req, _, hauth, rfl⟩ | ⟨req, _, rfl⟩ | hwidens | ⟨_, _, _, _, rfl⟩
  · intro other hother
    rcases mem_grant_granted.mp hother with hold | rfl
    · exact hs other hold
    · exact hauth
  · exact hs
  · intro req hreq
    rw [hwidens.granted] at hreq
    exact hwidens.authorized req (hs req hreq)
  · exact fun req hreq => (mem_withdraw_granted.mp hreq).2

/-- The log is only added to. -/
theorem requestLog_next (h : Next C s s') : s.requestLog ⊆ s'.requestLog := by
  rcases next_cases h with ⟨req, _, _, rfl⟩ | ⟨req, _, rfl⟩ | hwidens | ⟨_, _, _, _, rfl⟩
  · exact Finset.subset_union_left
  · exact Finset.subset_union_left
  · exact hwidens.requestLog.ge
  · exact Finset.subset_union_left

/-- What waits or is granted after a step waited or was granted before it. -/
theorem open_next (h : Next C s s') : s'.pending ∪ s'.granted ⊆ s.pending ∪ s.granted := by
  intro other hother
  rcases next_cases h with ⟨req, hreq, _, rfl⟩ | ⟨req, _, rfl⟩ | hwidens | ⟨_, _, _, _, rfl⟩
  · simp only [Finset.mem_union, mem_grant_pending, mem_grant_granted] at hother ⊢
    rcases hother with ⟨hpending, _⟩ | hgranted | rfl
    · exact .inl hpending
    · exact .inr hgranted
    · exact .inl hreq
  · exact Finset.union_subset_union_left Finset.sdiff_subset hother
  · rwa [hwidens.pending, hwidens.granted] at hother
  · exact Finset.union_subset_union_right (Finset.filter_subset _ _) hother

theorem allRequestsLogged_next (h : Next C s s') (hs : AllRequestsLogged s) :
    AllRequestsLogged s' :=
  (open_next h).trans (hs.trans (Finset.image_subset_image (requestLog_next h)))

/-- **In no state of any behaviour does a request stay granted that nothing authorizes at
that time, and every request that waits or is granted is in the log.** -/
theorem behaviour_safe {σ : ℕ → State User Role Perm Resource Zone} (h : Behaviour C σ) (n : ℕ) :
    NoUnauthorizedAccess C (σ n) ∧ AllRequestsLogged (σ n) := by
  refine Temporal.invariant h.steps (I := fun s => NoUnauthorizedAccess C s ∧ AllRequestsLogged s)
    ?_ (fun s s' hnext hs => ⟨noUnauthorizedAccess_next hnext hs.1,
      allRequestsLogged_next hnext hs.2⟩) n
  rw [h.start]
  refine ⟨fun req hreq => absurd hreq (Finset.notMem_empty req), ?_⟩
  intro req hreq
  have hinitial : req ∈ C.initialRequests := by simpa [init] using hreq
  exact Finset.mem_image.mpr ⟨_, Finset.mem_image_of_mem _ hinitial, rfl⟩

def oneGranted : State Users Roles Perms Resources Zones :=
  (init accessControl).grant ⟨⟨.u1, .p1, .North⟩, .r1⟩

def oneDenied : State Users Roles Perms Resources Zones :=
  oneGranted.deny ⟨⟨.u2, .p2, .North⟩, .r1⟩

def allDecided : State Users Roles Perms Resources Zones :=
  oneDenied.deny ⟨⟨.u3, .p4, .South⟩, .r2⟩

/-- One behaviour of the module's own machine: the first request is granted, the others are
denied, and the grant is withdrawn with its assignment; then nothing more happens. -/
def workedRun : ℕ → State Users Roles Perms Resources Zones
  | 0 => init accessControl
  | 1 => oneGranted
  | 2 => oneDenied
  | 3 => allDecided
  | _ + 4 => allDecided.withdraw accessControl 0
      (allDecided.roleAssignments \ {⟨.u1, .Admin, .North⟩}) ∅

theorem workedRun_behaviour : Behaviour accessControl workedRun where
  start := rfl
  steps n := match n with
    | 0 => .inl (.inl ⟨⟨⟨.u1, .p1, .North⟩, .r1⟩, by decide, by
        unfold State.Authorized
        decide, rfl⟩)
    | 1 => .inl (.inr (.inl ⟨⟨⟨.u2, .p2, .North⟩, .r1⟩, by decide, rfl⟩))
    | 2 => .inl (.inr (.inl ⟨⟨⟨.u3, .p4, .South⟩, .r2⟩, by decide, rfl⟩))
    | 3 => .inl (.inr (.inr (.inr (.inl ⟨⟨.u1, .Admin, .North⟩, by decide, rfl⟩))))
    | _ + 4 => .inr rfl

theorem workedRun_safe : NoUnauthorizedAccess accessControl (workedRun 4) ∧
    AllRequestsLogged (workedRun 4) :=
  behaviour_safe workedRun_behaviour 4

end AccessMachine

end FarmChain.Model
