import FarmChain.Model.AccessMachine

/-! The access-control machine's runs: its clock, its log and its progress.

Everything held is unexpired (`Sound`), so the action for expired assignments is never
taken and the machine is never stuck. A request's entries in the log are one of four
histories (`Recorded`), which say where the request is; over a run the log is the record of
the steps (`written`), and under fairness every request is decided. -/
namespace FarmChain.Model.AccessMachine

variable {User Role Perm Resource Zone : Type}
  {C : Constants User Role Perm Resource Zone} {s s' : State User Role Perm Resource Zone}
  {σ : ℕ → State User Role Perm Resource Zone}

/-! ### The clock -/

/-- The clock is in its range, no expiry is past it, and nothing held has expired. -/
structure Sound (C : Constants User Role Perm Resource Zone)
    (s : State User Role Perm Resource Zone) : Prop where
  clock : s.clock ≤ 10
  expiry : ∀ assignment, s.roleExpiry assignment ≤ 10
  assignments : ∀ assignment ∈ s.roleAssignments, s.clock ≤ s.roleExpiry assignment
  tokens : ∀ token ∈ s.crossZoneTokens, s.clock ≤ token.expires ∧ token ∈ C.candidateTokens

/-- A withdrawal that keeps of what is held only what lasts until its clock. -/
theorem Sound.withdraw [DecidableEq User] [DecidableEq Perm] [DecidableEq Resource]
    [DecidableEq Zone] {clock : ℕ} {assignments : Finset (Assignment User Role Zone)}
    {tokens : Finset (Token User Zone ℕ)} (h : Sound C s) (hclock : clock ≤ 10)
    (hassignments : ∀ a ∈ assignments, clock ≤ s.roleExpiry a)
    (htokens : ∀ k ∈ tokens, clock ≤ k.expires ∧ k ∈ s.crossZoneTokens) :
    Sound C (s.withdraw C clock assignments tokens) where
  clock := hclock
  expiry := h.expiry
  assignments := hassignments
  tokens k hk := ⟨(htokens k hk).1, (h.tokens k (htokens k hk).2).2⟩

theorem Sound.assign [DecidableEq User] [DecidableEq Role] [DecidableEq Zone]
    {assignment : Assignment User Role Zone} {expiry : ℕ} (h : Sound C s)
    (hexpiry : expiry ∈ Finset.Icc (s.clock + 1) 10) :
    Sound C {s with
      roleAssignments := s.roleAssignments ∪ {assignment}
      roleExpiry := Function.update s.roleExpiry assignment expiry} := by
  obtain ⟨hlow, hhigh⟩ := Finset.mem_Icc.mp hexpiry
  refine ⟨h.clock, fun a => ?_, fun a ha => ?_, h.tokens⟩
  · show Function.update s.roleExpiry assignment expiry a ≤ 10
    rw [Function.update_apply]
    split
    · exact hhigh
    · exact h.expiry a
  · show s.clock ≤ Function.update s.roleExpiry assignment expiry a
    rw [Function.update_apply]
    split
    · omega
    · rename_i hne
      rcases Finset.mem_union.mp ha with hold | hnew
      · exact h.assignments a hold
      · exact absurd (Finset.mem_singleton.mp hnew) hne

section
variable [DecidableEq User] [DecidableEq Role] [DecidableEq Perm] [DecidableEq Resource]
  [DecidableEq Zone]

theorem sound_init : Sound C (init C) where
  clock := Nat.zero_le _
  expiry assignment := by
    show (if assignment ∈ C.initialAssignments then 10 else 0) ≤ 10
    split
    · exact le_rfl
    · exact Nat.zero_le _
  assignments _ _ := Nat.zero_le _
  tokens token htoken := absurd htoken (Finset.notMem_empty token)

theorem sound_next (h : Next C s s') (hs : Sound C s) : Sound C s' := by
  -- what is held at the same clock
  have hheld : ∀ assignment, ∀ a ∈ s.roleAssignments \ {assignment}, s.clock ≤ s.roleExpiry a :=
    fun _ a ha => hs.assignments a (Finset.mem_sdiff.mp ha).1
  have htokens : ∀ k ∈ s.crossZoneTokens, s.clock ≤ k.expires ∧ k ∈ s.crossZoneTokens :=
    fun k hk => ⟨(hs.tokens k hk).1, hk⟩
  rcases h with ⟨req, _, _, rfl⟩ | ⟨req, _, rfl⟩ | ⟨a, _, expiry, hexpiry, rfl⟩ | ⟨a, _, rfl⟩ |
    ⟨token, hnew, _, hlater, rfl⟩ | ⟨token, _, rfl⟩ | ⟨hclock, rfl⟩ | ⟨a, _, _, rfl⟩ | ⟨_, _, rfl⟩
  · exact ⟨hs.clock, hs.expiry, hs.assignments, hs.tokens⟩
  · exact ⟨hs.clock, hs.expiry, hs.assignments, hs.tokens⟩
  · exact hs.assign hexpiry
  · exact hs.withdraw hs.clock (hheld a) htokens
  · refine ⟨hs.clock, hs.expiry, hs.assignments, fun k hk => ?_⟩
    rcases Finset.mem_union.mp hk with hold | hlast
    · exact hs.tokens k hold
    · rw [Finset.mem_singleton.mp hlast]
      exact ⟨hlater.le, (Finset.mem_sdiff.mp hnew).1⟩
  · exact hs.withdraw hs.clock hs.assignments fun k hk => htokens k (Finset.mem_sdiff.mp hk).1
  · exact hs.withdraw hclock (fun a ha => (Finset.mem_filter.mp ha).2)
      fun k hk => (Finset.mem_filter.mp hk).symm
  · exact hs.withdraw hs.clock (hheld a) htokens
  · exact hs

theorem sound_behaviour (h : Behaviour C σ) (n : ℕ) : Sound C (σ n) :=
  Temporal.invariant h.steps (h.start ▸ sound_init) (fun _ _ => sound_next) n

/-- **The machine is never stuck and never takes the step for expired assignments**: what
expires is dropped by the tick that passes it, before anything could find it. -/
theorem expireRole_never (h : Behaviour C σ) (n : ℕ) :
    (∃ s', Next C (σ n) s') ∧ (∀ s', ¬ExpireRole C (σ n) s') ∧
      (∀ a ∈ (σ n).roleAssignments, (σ n).clock ≤ (σ n).roleExpiry a) ∧
      ∀ k ∈ (σ n).crossZoneTokens, (σ n).clock ≤ k.expires := by
  have hs := sound_behaviour h n
  refine ⟨?_, ?_, hs.assignments, fun k hk => (hs.tokens k hk).1⟩
  · by_cases hclock : (σ n).clock < 10
    · exact ⟨_, .inr (.inr (.inr (.inr (.inr (.inr (.inl ⟨hclock, rfl⟩))))))⟩
    · have hlast : (σ n).clock = 10 := le_antisymm hs.clock (not_lt.mp hclock)
      rcases (σ n).pending.eq_empty_or_nonempty with hnone | ⟨req, hreq⟩
      · exact ⟨_, .inr (.inr (.inr (.inr (.inr (.inr (.inr (.inr ⟨hlast, hnone, rfl⟩)))))))⟩
      · exact ⟨_, .inr (.inl ⟨req, hreq, rfl⟩)⟩
  · rintro s' ⟨a, ha, hexpired, _⟩
    exact absurd (hs.assignments a ha) (not_le.mpr hexpired)

theorem workedRun_never_expires : ¬ExpireRole accessControl (workedRun 1) (workedRun 2) :=
  (expireRole_never workedRun_behaviour 1).2.1 (workedRun 2)

end

/-! ### A request's entries -/

/-- The request's entries are these. -/
def State.Logged (s : State User Role Perm Resource Zone)
    (req : ResourceRequest User Perm Resource Zone) (entries : List (Decision × ℕ)) : Prop :=
  ∀ decision time, ⟨req, decision, time⟩ ∈ s.requestLog ↔ (decision, time) ∈ entries

/-- The four histories a request can have, and where it is after each. -/
inductive Recorded (s : State User Role Perm Resource Zone)
    (req : ResourceRequest User Perm Resource Zone) : Prop
  | waiting (hpending : req ∈ s.pending) (hgranted : req ∉ s.granted)
      (hlog : s.Logged req [(.PENDING, 0)])
  | granted (time : ℕ) (hpending : req ∉ s.pending) (hgranted : req ∈ s.granted)
      (htime : time ≤ s.clock) (hlog : s.Logged req [(.PENDING, 0), (.GRANT, time)])
  | denied (time : ℕ) (hpending : req ∉ s.pending) (hgranted : req ∉ s.granted)
      (htime : time ≤ s.clock) (hlog : s.Logged req [(.PENDING, 0), (.DENY, time)])
  | revoked (time revokedAt : ℕ) (hpending : req ∉ s.pending) (hgranted : req ∉ s.granted)
      (htime : time ≤ revokedAt) (hclock : revokedAt ≤ s.clock)
      (hlog : s.Logged req [(.PENDING, 0), (.GRANT, time), (.REVOKE, revokedAt)])

section
variable {req : ResourceRequest User Perm Resource Zone} {entries : List (Decision × ℕ)}

/-- One more entry of the request. -/
theorem State.Logged.snoc {decision : Decision} {time : ℕ} (h : s.Logged req entries)
    (hlog : ∀ d t, (⟨req, d, t⟩ : LogEntry User Perm Resource Zone) ∈ s'.requestLog ↔
      ⟨req, d, t⟩ ∈ s.requestLog ∨ (d, t) = (decision, time)) :
    s'.Logged req (entries ++ [(decision, time)]) := by
  intro d t
  rw [hlog, h d t, List.mem_append, List.mem_singleton]

/-- No more entries of the request. -/
theorem State.Logged.frame (h : s.Logged req entries)
    (hlog : ∀ d t, (⟨req, d, t⟩ : LogEntry User Perm Resource Zone) ∈ s'.requestLog ↔
      ⟨req, d, t⟩ ∈ s.requestLog) : s'.Logged req entries := by
  intro d t
  rw [hlog, h d t]

/-- A step that leaves the request where it is and writes nothing about it. -/
theorem Recorded.frame (h : Recorded s req) (hpending : req ∈ s'.pending ↔ req ∈ s.pending)
    (hgranted : req ∈ s'.granted ↔ req ∈ s.granted) (hclock : s.clock ≤ s'.clock)
    (hlog : ∀ d t, (⟨req, d, t⟩ : LogEntry User Perm Resource Zone) ∈ s'.requestLog ↔
      ⟨req, d, t⟩ ∈ s.requestLog) : Recorded s' req := by
  cases h with
  | waiting hp hg hl => exact .waiting (hpending.mpr hp) (hgranted.not.mpr hg) (hl.frame hlog)
  | granted time hp hg ht hl =>
    exact .granted time (hpending.not.mpr hp) (hgranted.mpr hg) (ht.trans hclock) (hl.frame hlog)
  | denied time hp hg ht hl =>
    exact .denied time (hpending.not.mpr hp) (hgranted.not.mpr hg) (ht.trans hclock) (hl.frame hlog)
  | revoked time revokedAt hp hg ht hr hl =>
    exact .revoked time revokedAt (hpending.not.mpr hp) (hgranted.not.mpr hg) ht (hr.trans hclock)
      (hl.frame hlog)

/-- An entry of another request is not one of this. -/
theorem entry_ne {other : ResourceRequest User Perm Resource Zone} {decision d : Decision}
    {time t : ℕ} (h : req ≠ other) :
    (⟨req, d, t⟩ : LogEntry User Perm Resource Zone) ≠ ⟨other, decision, time⟩ :=
  fun heq => h (congrArg LogEntry.req heq)

section
variable [DecidableEq User] [DecidableEq Perm] [DecidableEq Resource] [DecidableEq Zone]

theorem recorded_grant {other : ResourceRequest User Perm Resource Zone} (hother : other ∈ s.pending)
    (h : Recorded s req) : Recorded (s.grant other) req := by
  by_cases hsame : req = other
  · subst hsame
    cases h with
    | waiting hp hg hl =>
      exact .granted s.clock (by simp) (by simp) le_rfl (hl.snoc fun d t => by simp)
    | granted _ hp => exact absurd hother hp
    | denied _ hp => exact absurd hother hp
    | revoked _ _ hp => exact absurd hother hp
  · refine h.frame ?_ ?_ le_rfl fun d t => ?_
    · simp [hsame]
    · simp [hsame]
    · rw [mem_grant_requestLog]
      exact or_iff_left (entry_ne hsame)

theorem recorded_deny {other : ResourceRequest User Perm Resource Zone} (hother : other ∈ s.pending)
    (h : Recorded s req) : Recorded (s.deny other) req := by
  by_cases hsame : req = other
  · subst hsame
    cases h with
    | waiting hp hg hl =>
      exact .denied s.clock (by simp) hg le_rfl (hl.snoc fun d t => by simp)
    | granted _ hp => exact absurd hother hp
    | denied _ hp => exact absurd hother hp
    | revoked _ _ hp => exact absurd hother hp
  · refine h.frame ?_ Iff.rfl le_rfl fun d t => ?_
    · simp [hsame]
    · rw [mem_deny_requestLog]
      exact or_iff_left (entry_ne hsame)

/-- What a withdrawal writes about a request. -/
theorem mem_withdraw_requestLog {clock : ℕ} {assignments : Finset (Assignment User Role Zone)}
    {tokens : Finset (Token User Zone ℕ)} (d : Decision) (t : ℕ) :
    (⟨req, d, t⟩ : LogEntry User Perm Resource Zone) ∈
        (s.withdraw C clock assignments tokens).requestLog ↔
      ⟨req, d, t⟩ ∈ s.requestLog ∨ (req ∈ s.granted ∧
        req ∉ (s.withdraw C clock assignments tokens).granted) ∧ (d, t) = (.REVOKE, clock) := by
  show _ ∈ s.requestLog ∪ Finset.image _ (s.granted \ _) ↔ _
  rw [Finset.mem_union, Finset.mem_image]
  refine or_congr Iff.rfl ⟨?_, ?_⟩
  · rintro ⟨other, hother, heq⟩
    cases heq
    exact ⟨Finset.mem_sdiff.mp hother, rfl⟩
  · rintro ⟨hreq, heq⟩
    cases heq
    exact ⟨req, Finset.mem_sdiff.mpr hreq, rfl⟩

theorem recorded_withdraw {clock : ℕ} {assignments : Finset (Assignment User Role Zone)}
    {tokens : Finset (Token User Zone ℕ)} (hclock : s.clock ≤ clock) (h : Recorded s req) :
    Recorded (s.withdraw C clock assignments tokens) req := by
  by_cases hrevoked : req ∈ s.granted ∧ req ∉ (s.withdraw C clock assignments tokens).granted
  · cases h with
    | granted time hp hg ht hl =>
      refine .revoked time clock hp hrevoked.2 (ht.trans hclock) le_rfl (hl.snoc fun d t => ?_)
      rw [mem_withdraw_requestLog]
      simp [hrevoked]
    | waiting _ hg => exact absurd hrevoked.1 hg
    | denied _ _ hg => exact absurd hrevoked.1 hg
    | revoked _ _ _ hg => exact absurd hrevoked.1 hg
  · refine h.frame Iff.rfl ⟨fun hg => (mem_withdraw_granted.mp hg).1, fun hg => ?_⟩ hclock
      fun d t => ?_
    · by_contra hnot
      exact hrevoked ⟨hg, hnot⟩
    · rw [mem_withdraw_requestLog]
      exact or_iff_left fun hwritten => hrevoked hwritten.1

end

section
variable [DecidableEq User] [DecidableEq Role] [DecidableEq Perm] [DecidableEq Resource]
  [DecidableEq Zone]

theorem recorded_next (h : Next C s s') (hs : Recorded s req) : Recorded s' req := by
  rcases next_cases h with ⟨other, hother, _, rfl⟩ | ⟨other, hother, rfl⟩ | hwidens |
    ⟨_, _, _, hclock, rfl⟩
  · exact recorded_grant hother hs
  · exact recorded_deny hother hs
  · refine hs.frame ?_ ?_ hwidens.clock.ge fun d t => ?_
    · rw [hwidens.pending]
    · rw [hwidens.granted]
    · rw [hwidens.requestLog]
  · exact recorded_withdraw hclock hs

theorem recorded_init (hreq : req ∈ C.initialRequests) : Recorded (init C) req := by
  refine .waiting hreq (Finset.notMem_empty req) fun d t => ?_
  show _ ∈ C.initialRequests.image _ ↔ _
  simp only [Finset.mem_image, LogEntry.mk.injEq, List.mem_singleton, Prod.mk.injEq]
  constructor
  · rintro ⟨_, _, _, rfl, rfl⟩
    exact ⟨rfl, rfl⟩
  · rintro ⟨rfl, rfl⟩
    exact ⟨req, hreq, rfl, rfl, rfl⟩

theorem recorded_behaviour (h : Behaviour C σ) (hreq : req ∈ C.initialRequests) (n : ℕ) :
    Recorded (σ n) req :=
  Temporal.invariant h.steps (h.start ▸ recorded_init hreq) (fun _ _ => recorded_next) n

/-- Only the initial requests ever wait or are granted. -/
theorem open_behaviour (h : Behaviour C σ) (n : ℕ) :
    (σ n).pending ∪ (σ n).granted ⊆ C.initialRequests := by
  refine Temporal.invariant h.steps (I := fun s => s.pending ∪ s.granted ⊆ C.initialRequests) ?_
    (fun s s' hnext hs => (open_next hnext).trans hs) n
  rw [h.start]
  exact Finset.union_subset (Finset.Subset.refl _) (Finset.empty_subset _)

theorem requestLog_mono (h : Behaviour C σ) {n m : ℕ} (hnm : n ≤ m) :
    (σ n).requestLog ⊆ (σ m).requestLog :=
  Temporal.rel_of_le (r := fun s s' => s.requestLog ⊆ s'.requestLog) h.steps
    (fun _ => Finset.Subset.refl _) (fun _ _ _ => Finset.Subset.trans)
    (fun _ _ => requestLog_next) hnm

theorem pending_next (h : Next C s s') : s'.pending ⊆ s.pending := by
  rcases next_cases h with ⟨other, _, _, rfl⟩ | ⟨other, _, rfl⟩ | hwidens | ⟨_, _, _, _, rfl⟩
  · exact Finset.sdiff_subset
  · exact Finset.sdiff_subset
  · exact hwidens.pending.le
  · exact Finset.Subset.refl _

theorem pending_anti (h : Behaviour C σ) {n m : ℕ} (hnm : n ≤ m) :
    (σ m).pending ⊆ (σ n).pending :=
  Temporal.rel_of_le (r := fun s s' => s'.pending ⊆ s.pending) h.steps
    (fun _ => Finset.Subset.refl _) (fun _ _ _ hab hbc => hbc.trans hab)
    (fun _ _ => pending_next) hnm

theorem open_anti (h : Behaviour C σ) {n m : ℕ} (hnm : n ≤ m) :
    (σ m).pending ∪ (σ m).granted ⊆ (σ n).pending ∪ (σ n).granted :=
  Temporal.rel_of_le (r := fun s s' => s'.pending ∪ s'.granted ⊆ s.pending ∪ s.granted) h.steps
    (fun _ => Finset.Subset.refl _) (fun _ _ _ hab hbc => hbc.trans hab)
    (fun _ _ => open_next) hnm

end

end

/-! ### The log is the record of the steps -/

/-- What the step did to the request, as the entry's decision calls it. -/
def Happened (C : Constants User Role Perm Resource Zone)
    (s s' : State User Role Perm Resource Zone) (req : ResourceRequest User Perm Resource Zone) :
    Decision → Prop
  | .PENDING => False
  | .GRANT => req ∈ s.pending ∧ req ∈ s'.granted ∧ s.Authorized C req
  | .DENY => req ∈ s.pending ∧ req ∉ s'.pending ∧ req ∉ s'.granted
  | .REVOKE => req ∈ s.granted ∧ ¬s'.Authorized C req

def Writes (C : Constants User Role Perm Resource Zone)
    (s s' : State User Role Perm Resource Zone) (entry : LogEntry User Perm Resource Zone) : Prop :=
  s'.clock = entry.time ∧ Happened C s s' entry.req entry.decision

/-- Every grant is authorized, and nothing waits that is granted. -/
def Settled (C : Constants User Role Perm Resource Zone)
    (s : State User Role Perm Resource Zone) : Prop :=
  NoUnauthorizedAccess C s ∧ ∀ req ∈ s.pending, req ∉ s.granted

/-- A step that grants nothing, leaves what waits and takes no authority writes nothing. -/
theorem not_writes {entry : LogEntry User Perm Resource Zone} (hs : Settled C s)
    (hgranted : s'.granted = s.granted) (hpending : s'.pending = s.pending)
    (hauth : ∀ req, s.Authorized C req → s'.Authorized C req) : ¬Writes C s s' entry := by
  obtain ⟨req, decision, time⟩ := entry
  rintro ⟨_, hhappened⟩
  cases decision with
  | PENDING => exact hhappened
  | GRANT => exact hs.2 req hhappened.1 (hgranted ▸ hhappened.2.1)
  | DENY => exact hhappened.2.1 (hpending ▸ hhappened.1)
  | REVOKE => exact hhappened.2 (hauth req (hs.1 req hhappened.1))

section
variable [DecidableEq User] [DecidableEq Perm] [DecidableEq Resource] [DecidableEq Zone]

/-- Whatever happens to a request, it waited or was granted. -/
theorem Happened.open {req : ResourceRequest User Perm Resource Zone} {decision : Decision}
    (h : Happened C s s' req decision) : req ∈ s.pending ∪ s.granted := by
  cases decision with
  | PENDING => exact h.elim
  | GRANT => exact Finset.mem_union_left _ h.1
  | DENY => exact Finset.mem_union_left _ h.1
  | REVOKE => exact Finset.mem_union_right _ h.1

theorem writes_grant {other : ResourceRequest User Perm Resource Zone} (hs : Settled C s)
    (hother : other ∈ s.pending) (hauth : s.Authorized C other)
    (entry : LogEntry User Perm Resource Zone) :
    Writes C s (s.grant other) entry ↔ entry = ⟨other, .GRANT, s.clock⟩ := by
  obtain ⟨req, decision, time⟩ := entry
  constructor
  · rintro ⟨rfl, hhappened⟩
    cases decision with
    | PENDING => exact hhappened.elim
    | GRANT =>
      rcases mem_grant_granted.mp hhappened.2.1 with hold | hsame
      · exact absurd hold (hs.2 req hhappened.1)
      · show LogEntry.mk req .GRANT s.clock = _
        rw [show req = other from hsame]
    | DENY =>
      have hsame : req = other := by
        by_contra hne
        exact hhappened.2.1 (by simpa [hne] using hhappened.1)
      exact absurd (by simp [hsame]) hhappened.2.2
    | REVOKE => exact absurd (hs.1 req hhappened.1) hhappened.2
  · intro heq
    cases heq
    exact ⟨rfl, hother, by simp, hauth⟩

theorem writes_deny {other : ResourceRequest User Perm Resource Zone} (hs : Settled C s)
    (hother : other ∈ s.pending) (entry : LogEntry User Perm Resource Zone) :
    Writes C s (s.deny other) entry ↔ entry = ⟨other, .DENY, s.clock⟩ := by
  obtain ⟨req, decision, time⟩ := entry
  constructor
  · rintro ⟨rfl, hhappened⟩
    cases decision with
    | PENDING => exact hhappened.elim
    | GRANT => exact absurd hhappened.2.1 (hs.2 req hhappened.1)
    | DENY =>
      have hsame : req = other := by
        by_contra hne
        exact hhappened.2.1 (by simpa [hne] using hhappened.1)
      rw [hsame]
      rfl
    | REVOKE => exact absurd (hs.1 req hhappened.1) hhappened.2
  · intro heq
    cases heq
    exact ⟨rfl, hother, by simp, hs.2 other hother⟩

theorem writes_withdraw {clock : ℕ} {assignments : Finset (Assignment User Role Zone)}
    {tokens : Finset (Token User Zone ℕ)} (hs : Settled C s)
    (entry : LogEntry User Perm Resource Zone) :
    Writes C s (s.withdraw C clock assignments tokens) entry ↔
      (entry.req ∈ s.granted ∧ entry.req ∉ (s.withdraw C clock assignments tokens).granted) ∧
        (entry.decision, entry.time) = (.REVOKE, clock) := by
  obtain ⟨req, decision, time⟩ := entry
  constructor
  · rintro ⟨rfl, hhappened⟩
    cases decision with
    | PENDING => exact hhappened.elim
    | GRANT => exact absurd (mem_withdraw_granted.mp hhappened.2.1).1 (hs.2 req hhappened.1)
    | DENY => exact absurd hhappened.1 hhappened.2.1
    | REVOKE =>
      exact ⟨⟨hhappened.1, fun hkept => hhappened.2 (mem_withdraw_granted.mp hkept).2⟩, rfl⟩
  · rintro ⟨⟨hgranted, hgone⟩, heq⟩
    cases heq
    exact ⟨rfl, hgranted, fun hauth => hgone (mem_withdraw_granted.mpr ⟨hgranted, hauth⟩)⟩

end

section
variable [DecidableEq User] [DecidableEq Role] [DecidableEq Perm] [DecidableEq Resource]
  [DecidableEq Zone]

theorem settled_behaviour (h : Behaviour C σ) (n : ℕ) : Settled C (σ n) := by
  refine ⟨(behaviour_safe h n).1, fun req hreq => ?_⟩
  have hinitial := open_behaviour h n (Finset.mem_union_left _ hreq)
  cases recorded_behaviour h hinitial n with
  | waiting _ hgranted => exact hgranted
  | granted _ hpending => exact absurd hreq hpending
  | denied _ _ hgranted => exact hgranted
  | revoked _ _ _ hgranted => exact hgranted

theorem mem_requestLog_next (h : Next C s s') (hs : Settled C s)
    (entry : LogEntry User Perm Resource Zone) :
    entry ∈ s'.requestLog ↔ entry ∈ s.requestLog ∨ Writes C s s' entry := by
  rcases next_cases h with ⟨other, hother, hauth, rfl⟩ | ⟨other, hother, rfl⟩ | hwidens |
    ⟨_, _, _, _, rfl⟩
  · rw [writes_grant hs hother hauth, mem_grant_requestLog]
  · rw [writes_deny hs hother, mem_deny_requestLog]
  · rw [hwidens.requestLog,
      or_iff_left (not_writes hs hwidens.granted hwidens.pending hwidens.authorized)]
  · rw [writes_withdraw hs]
    exact mem_withdraw_requestLog _ _

/-- **The log is exact: apart from the initial entries, an entry is there if and only if an
earlier step did to its request what it says, at the time it says: a grant while the request
waited and was authorized, a denial while it waited, a revocation of a grant nothing
authorized any longer.** -/
theorem requestLog_exact (h : Behaviour C σ) (n : ℕ) (entry : LogEntry User Perm Resource Zone) :
    entry ∈ (σ n).requestLog ↔
      (entry.req ∈ C.initialRequests ∧ entry.decision = .PENDING ∧ entry.time = 0) ∨
        ∃ m < n, (σ (m + 1)).clock = entry.time ∧
          Happened C (σ m) (σ (m + 1)) entry.req entry.decision := by
  have hrecord := Temporal.recorded_iff (fun s e => e ∈ s.requestLog) h.steps
    (settled_behaviour h) (fun s e hs => not_writes hs rfl rfl fun _ hauth => hauth)
    (fun s s' hnext hs e => mem_requestLog_next hnext hs e) n entry
  rw [hrecord, h.start]
  refine or_congr ?_ Iff.rfl
  obtain ⟨req, decision, time⟩ := entry
  show _ ∈ C.initialRequests.image _ ↔ _
  rw [Finset.mem_image]
  constructor
  · rintro ⟨_, hreq, heq⟩
    cases heq
    exact ⟨hreq, rfl, rfl⟩
  · rintro ⟨hreq, rfl, rfl⟩
    exact ⟨req, hreq, rfl⟩

/-- The grant of the first step is in the log from then on. -/
theorem workedRun_granted :
    ⟨⟨⟨.u1, .p1, .North⟩, .r1⟩, .GRANT, 0⟩ ∈ (workedRun 7).requestLog := by
  refine (requestLog_exact workedRun_behaviour 7 _).mpr (.inr ⟨0, by decide, rfl, ?_⟩)
  unfold Happened State.Authorized
  decide

/-- **A request is always in one of its four histories and moves through them in one
direction: never decided twice, never waiting again, never granted again once revoked or
denied. No other request is ever waiting, granted or logged.** -/
theorem request_histories (h : Behaviour C σ) (req : ResourceRequest User Perm Resource Zone)
    (n : ℕ) :
    (req ∈ C.initialRequests → Recorded (σ n) req ∧ ∀ m, n ≤ m → req ∉ (σ n).pending →
      req ∉ (σ m).pending ∧ (req ∉ (σ n).granted → req ∉ (σ m).granted)) ∧
    (req ∉ C.initialRequests → req ∉ (σ n).pending ∧ req ∉ (σ n).granted ∧
      (σ n).Logged req []) := by
  constructor
  · refine fun hreq => ⟨recorded_behaviour h hreq n, fun m hnm hpending => ?_⟩
    refine ⟨fun hlater => hpending (pending_anti h hnm hlater), fun hgranted hlater => ?_⟩
    rcases Finset.mem_union.mp (open_anti h hnm (Finset.mem_union_right _ hlater)) with hp | hg
    · exact hpending hp
    · exact hgranted hg
  · intro hreq
    have hnever (m : ℕ) : req ∉ (σ m).pending ∪ (σ m).granted :=
      fun hopen => hreq (open_behaviour h m hopen)
    refine ⟨fun hp => hnever n (Finset.mem_union_left _ hp),
      fun hg => hnever n (Finset.mem_union_right _ hg), fun d t => ?_⟩
    rw [requestLog_exact h]
    constructor
    · rintro (⟨hinitial, _⟩ | ⟨m, _, _, hhappened⟩)
      · exact absurd hinitial hreq
      · exact absurd hhappened.open (hnever m)
    · exact fun hnone => absurd hnone List.not_mem_nil

theorem workedRun_revoked :
    ⟨⟨.u1, .p1, .North⟩, .r1⟩ ∉ (workedRun 9).granted :=
  (((request_histories workedRun_behaviour _ 4).1 (by decide)).2 9 (by decide) (by decide)).2
    (by decide)

/-- Every variable is in the set the module declares for it, and no entry is from later. -/
structure TypeOK (C : Constants User Role Perm Resource Zone)
    (s : State User Role Perm Resource Zone) : Prop where
  requests : ∀ req ∈ s.pending ∪ s.granted, req.zone = C.resourceZone req.resource
  requestLog : ∀ entry ∈ s.requestLog,
    entry.req.zone = C.resourceZone entry.req.resource ∧ entry.time ≤ s.clock
  roleExpiry : ∀ assignment, s.roleExpiry assignment ≤ 10
  crossZoneTokens : ∀ token ∈ s.crossZoneTokens, token.expires ≤ 10
  clock : s.clock ≤ 10

theorem clock_next (h : Next C s s') : s.clock ≤ s'.clock := by
  rcases next_cases h with ⟨other, _, _, rfl⟩ | ⟨other, _, rfl⟩ | hwidens | ⟨_, _, _, hclock, rfl⟩
  · exact le_rfl
  · exact le_rfl
  · exact hwidens.clock.ge
  · exact hclock

theorem clock_mono (h : Behaviour C σ) {n m : ℕ} (hnm : n ≤ m) : (σ n).clock ≤ (σ m).clock :=
  Temporal.rel_of_le (r := fun s s' => s.clock ≤ s'.clock) h.steps (fun _ => le_rfl)
    (fun _ _ _ => le_trans) (fun _ _ => clock_next) hnm

/-- **Every state of every behaviour is well typed.** -/
theorem typeOK_behaviour (h : Behaviour C σ) (n : ℕ) : TypeOK C (σ n) := by
  have hs := sound_behaviour h n
  refine ⟨fun req hreq => C.requests_zone req (open_behaviour h n hreq), ?_, hs.expiry,
    fun token htoken => C.tokens_expires token (hs.tokens token htoken).2, hs.clock⟩
  intro entry hentry
  rcases (requestLog_exact h n entry).mp hentry with ⟨hreq, _, htime⟩ | ⟨m, hm, htime, hhappened⟩
  · exact ⟨C.requests_zone _ hreq, htime.trans_le (Nat.zero_le _)⟩
  · exact ⟨C.requests_zone _ (open_behaviour h m hhappened.open),
      htime.ge.trans (clock_mono h hm)⟩

theorem workedRun_typed : (workedRun 4).clock ≤ 10 := (typeOK_behaviour workedRun_behaviour 4).clock

end

/-! ### Progress -/

/-- Entries of a decision, as opposed to waiting or being revoked. -/
def Decides (decision : Decision) : Prop := decision = .GRANT ∨ decision = .DENY

/-- A request that no longer waits has been decided, and once only. -/
theorem Recorded.decided {req : ResourceRequest User Perm Resource Zone} (h : Recorded s req)
    (hpending : req ∉ s.pending) : ∃ decision time, Decides decision ∧
      ∀ d t, Decides d → (⟨req, d, t⟩ ∈ s.requestLog ↔ d = decision ∧ t = time) := by
  cases h with
  | waiting hp => exact absurd hp hpending
  | granted time _ _ _ hl =>
    refine ⟨.GRANT, time, .inl rfl, fun d t hd => ?_⟩
    rcases hd with rfl | rfl <;> simp [hl _ t]
  | denied time _ _ _ hl =>
    refine ⟨.DENY, time, .inr rfl, fun d t hd => ?_⟩
    rcases hd with rfl | rfl <;> simp [hl _ t]
  | revoked time revokedAt _ _ _ _ hl =>
    refine ⟨.GRANT, time, .inl rfl, fun d t hd => ?_⟩
    rcases hd with rfl | rfl <;> simp [hl _ t]

section
variable [DecidableEq User] [DecidableEq Perm] [DecidableEq Resource] [DecidableEq Zone]

/-- A waiting request can always be denied. -/
theorem processRequest_enabled {req : ResourceRequest User Perm Resource Zone}
    (hreq : req ∈ s.pending) : Temporal.Enabled (ProcessRequest C) s := by
  refine ⟨_, .inr ⟨req, hreq, rfl⟩, fun hsame => ?_⟩
  have hgone : req ∈ s.pending \ {req} := (congrArg (req ∈ ·.pending) hsame).mpr hreq
  exact (Finset.mem_sdiff.mp hgone).2 (Finset.mem_singleton_self req)

theorem processRequest_lowers (h : ProcessRequest C s s') : s'.pending.card < s.pending.card := by
  have hlt {req : ResourceRequest User Perm Resource Zone} (hreq : req ∈ s.pending) :
      (s.pending \ {req}).card < s.pending.card :=
    Finset.card_lt_card (Finset.sdiff_ssubset (Finset.singleton_subset_iff.mpr hreq) (by simp))
  rcases h with ⟨req, hreq, _, rfl⟩ | ⟨req, hreq, rfl⟩
  · exact hlt hreq
  · exact hlt hreq

end

section
variable [DecidableEq User] [DecidableEq Role] [DecidableEq Perm] [DecidableEq Resource]
  [DecidableEq Zone]

/-- `Liveness`, for one request. -/
theorem pending_leadsTo (h : Spec C σ) (req : ResourceRequest User Perm Resource Zone) :
    Temporal.LeadsTo (fun s => req ∈ s.pending) (fun s => req ∉ s.pending) σ := by
  refine Temporal.leadsTo_of_rank (fun s => s.pending.card) h.steps h.fair
    (fun s hreq => processRequest_enabled hreq) (fun s s' hnext _ => ?_)
    (fun s s' hprocess _ => processRequest_lowers hprocess)
  by_cases hreq : req ∈ s'.pending
  · exact .inl ⟨hreq, Finset.card_le_card (pending_next hnext)⟩
  · exact .inr hreq

/-- **With requests processed fairly, every initial request is decided in the end: from some
time on it no longer waits and the log has one decision about it, the same ever after.** -/
theorem every_request_decided (h : Spec C σ) {req : ResourceRequest User Perm Resource Zone}
    (hreq : req ∈ C.initialRequests) :
    Temporal.LeadsTo (fun s => req ∈ s.pending) (fun s => req ∉ s.pending) σ ∧
    ∃ n decision time, Decides decision ∧ ∀ m, n ≤ m → req ∉ (σ m).pending ∧
      ∀ d t, Decides d → (⟨req, d, t⟩ ∈ (σ m).requestLog ↔ d = decision ∧ t = time) := by
  refine ⟨pending_leadsTo h req, ?_⟩
  have hstart : req ∈ (σ 0).pending := by
    rw [h.start]
    exact hreq
  obtain ⟨n, _, hn⟩ := pending_leadsTo h req 0 hstart
  obtain ⟨decision, time, hdecides, hentry⟩ := (recorded_behaviour h.toBehaviour hreq n).decided hn
  refine ⟨n, decision, time, hdecides, fun m hnm => ?_⟩
  have hm : req ∉ (σ m).pending := fun hlater => hn (pending_anti h.toBehaviour hnm hlater)
  refine ⟨hm, fun d t hd => ?_⟩
  -- the entry of time `n` is still there, and still the only one
  obtain ⟨decision', time', _, hentry'⟩ := (recorded_behaviour h.toBehaviour hreq m).decided hm
  have hkept := requestLog_mono h.toBehaviour hnm ((hentry decision time hdecides).mpr ⟨rfl, rfl⟩)
  obtain ⟨rfl, rfl⟩ := (hentry' decision time hdecides).mp hkept
  exact hentry' d t hd

theorem workedRun_fair : Spec accessControl workedRun where
  toBehaviour := workedRun_behaviour
  fair n hstays := by
    -- nothing waits from the fourth state on
    obtain ⟨s', hprocess, _⟩ := hstays (n + 4) (Nat.le_add_right n 4)
    have hlt := processRequest_lowers hprocess
    exact absurd (hlt.trans_eq (show (workedRun 4).pending.card = 0 by decide)) (Nat.not_lt_zero _)

theorem workedRun_decided : ∃ n decision time, Decides decision ∧ ∀ m, n ≤ m →
    ⟨⟨.u2, .p2, .North⟩, .r1⟩ ∉ (workedRun m).pending ∧ ∀ d t, Decides d →
      (⟨⟨⟨.u2, .p2, .North⟩, .r1⟩, d, t⟩ ∈ (workedRun m).requestLog ↔ d = decision ∧ t = time) :=
  (every_request_decided workedRun_fair (by decide)).2

end

end FarmChain.Model.AccessMachine
