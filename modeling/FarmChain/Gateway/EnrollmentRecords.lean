import FarmChain.Gateway.EnrollmentServer

/-! What the enrollment server's audit list records.

What a request is answered says what was audited (`recorded`), so the list is the record of the
answers (`audit_exact`). What was audited says which roles there are: replaying the list gives
the table of roles (`roles_replayed`), and an enrollment cannot forge one of its events. -/
namespace FarmChain.Gateway.EnrollmentServer
open Run

/-! ### The audit list -/

/-- The fields of a body that is a dictionary. -/
def fieldsOf (body : Option Json) : List (String × Json) :=
  match payloadOf body with
  | .dict payload => payload
  | _ => []

/-- What the answer to a request says was audited. -/
def recorded (app : App) (request : Request) (response : Response) : Option AuditEvent :=
  match request, response.status with
  | .enroll _ body _ stamp, 200 =>
    some ⟨"enroll_granted",
      .dict [("sensor_id", sensorIdOf (fieldsOf body)), ("zone", .str app.gatewayZone)], stamp⟩
  | .enroll _ body _ stamp, 403 => some ⟨"enroll_rejected_zone", payloadOf body, stamp⟩
  | .postRole body stamp, 201 =>
    some ⟨"role_set", .dict [("user_id", Json.field (fieldsOf body) "user_id" .null),
      ("role", Json.field (fieldsOf body) "role" .null)], stamp⟩
  | .deleteRole userId stamp, 204 =>
    some ⟨"role_deleted", .dict [("user_id", .str userId)], stamp⟩
  | .deleteRole userId stamp, 404 =>
    some ⟨"role_deleted", .dict [("user_id", .str userId)], stamp⟩
  | _, _ => none

/-- What the answers of a run say was audited. -/
def recordedBy (app : App) (requests : List Request) : List AuditEvent :=
  emits (step app) (fun s request => recorded app request (answer app s request)) {} requests

section
variable {app : App}

theorem fieldsOf_eq {body : Option Json} {payload : List (String × Json)}
    (h : payloadOf body = .dict payload) : fieldsOf body = payload := by
  unfold fieldsOf
  rw [h]

/-- Past the limiter. -/
theorem recorded_judge (remoteAddr : Option String) (body : Option Json) (now stamp : Rat) :
    recorded app (.enroll remoteAddr body now stamp) (app.judge body).1 =
      (app.judge body).2.map fun audited => ⟨audited.1, audited.2, stamp⟩ := by
  unfold App.judge
  cases hpayload : payloadOf body with
  | dict payload =>
    have hfields := fieldsOf_eq hpayload
    dsimp only
    split_ifs
    · show some (AuditEvent.mk _ (payloadOf body) _) = _
      rw [hpayload]
      rfl
    · rfl
    · show some (AuditEvent.mk _ (.dict [("sensor_id", sensorIdOf (fieldsOf body)), _]) _) = _
      rw [hfields]
      rfl
  | _ => rfl

theorem audit_enroll (s : Server) (remoteAddr : Option String) (body : Option Json)
    (now stamp : Rat) :
    (s.enroll app remoteAddr body now stamp).2.audit = s.audit ++
      (recorded app (.enroll remoteAddr body now stamp)
        (s.enroll app remoteAddr body now stamp).1).toList := by
  have hjudge : recorded app (.enroll remoteAddr body now stamp) (app.judge body).1 = _ :=
    recorded_judge remoteAddr body now stamp
  unfold Server.enroll
  dsimp only
  split_ifs with hlimited
  · exact (List.append_nil _).symm
  · rcases hverdict : app.judge body with ⟨response, _ | ⟨event, payload⟩⟩
    · rw [hverdict] at hjudge
      dsimp only at hjudge ⊢
      rw [hjudge]
      exact (List.append_nil _).symm
    · rw [hverdict] at hjudge
      dsimp only at hjudge ⊢
      rw [hjudge]
      rfl

theorem audit_postRole (s : Server) (body : Option Json) (stamp : Rat) :
    (s.postRole app body stamp).2.audit = s.audit ++
      (recorded app (.postRole body stamp) (s.postRole app body stamp).1).toList := by
  unfold Server.postRole
  cases hpayload : payloadOf body with
  | dict payload =>
    dsimp only
    split_ifs with hmissing
    · exact (List.append_nil _).symm
    · cases (Json.field payload "user_id" .null).key with
      | some key =>
        show s.audit ++ [AuditEvent.mk _ (.dict [("user_id", Json.field payload _ _), _]) _] =
          s.audit ++ [AuditEvent.mk _ (.dict [("user_id", Json.field (fieldsOf body) _ _), _]) _]
        rw [fieldsOf_eq hpayload]
      | none => exact (List.append_nil _).symm
  | _ => exact (List.append_nil _).symm

theorem audit_deleteRole (s : Server) (userId : String) (stamp : Rat) :
    (s.deleteRole userId stamp).2.audit = s.audit ++
      (recorded app (.deleteRole userId stamp) (s.deleteRole userId stamp).1).toList := by
  unfold Server.deleteRole
  dsimp only
  split_ifs <;> rfl

theorem audit_step (s : Server) (request : Request) :
    (step app s request).audit =
      s.audit ++ (recorded app request (answer app s request)).toList := by
  cases request with
  | enroll remoteAddr body now stamp => exact audit_enroll s remoteAddr body now stamp
  | postRole body stamp => exact audit_postRole s body stamp
  | deleteRole userId stamp => exact audit_deleteRole s userId stamp
  | getRoles => exact (List.append_nil _).symm
  | auditLog => exact (List.append_nil _).symm
  | health => exact (List.append_nil _).symm
  | zones => exact (List.append_nil _).symm

theorem audit_recorded (requests : List Request) :
    (after app requests).audit = recordedBy app requests :=
  run_log audit_step {} requests

/-- **The audit list is the record of the answers.** Whatever was requested before, it holds an
event for each grant, rejected zone, role set and role deletion that was answered, in order, with
what was asked and when, and no other; a later list begins with it. -/
theorem audit_exact (app : App) (requests later : List Request) :
    answerAfter app requests .auditLog = ⟨200, .events (recordedBy app requests)⟩ ∧
      recordedBy app requests <+: recordedBy app (requests ++ later) := by
  refine ⟨?_, ?_⟩
  · show Response.mk 200 (.events (after app requests).audit) = _
    rw [audit_recorded]
  · unfold recordedBy
    rw [emits_append]
    exact List.prefix_append _ _

/-! ### Roles -/

/-- What an event says of the role under a key, after what was said before. -/
def replayRole (key : Key) (role : Option Json) (e : AuditEvent) : Option Json :=
  if (e.field "user_id").key = some key then
    if e.event = "role_set" then some (e.field "role")
    else if e.event = "role_deleted" then none
    else role
  else role

/-- The role under a key, from an audit list alone. -/
def replayed (key : Key) (events : List AuditEvent) : Option Json :=
  run (replayRole key) none events

def roleOf (key : Key) (s : Server) : Option Json := (s.roles.get key).map RoleEntry.role

theorem replayRole_of_ne (event : String) (hset : event ≠ "role_set")
    (hdeleted : event ≠ "role_deleted") (key : Key) (role : Option Json) (payload : Json)
    (stamp : Rat) : replayRole key role ⟨event, payload, stamp⟩ = role := by
  unfold replayRole
  rw [if_neg hset, if_neg hdeleted, ite_self]

/-- Enrollments say nothing of roles, whatever their payload. -/
theorem replay_enroll {remoteAddr : Option String} {body : Option Json} {now stamp : Rat}
    (response : Response) (key : Key) (role : Option Json) :
    (recorded app (.enroll remoteAddr body now stamp) response).elim role (replayRole key role) =
      role := by
  unfold recorded
  split
  · rename_i heq _
    cases heq
    exact replayRole_of_ne "enroll_granted" (by decide) (by decide) key role _ stamp
  · rename_i heq _
    cases heq
    exact replayRole_of_ne "enroll_rejected_zone" (by decide) (by decide) key role _ stamp
  all_goals first | rfl | (rename_i heq _; cases heq)

theorem roles_enroll (s : Server) (remoteAddr : Option String) (body : Option Json)
    (now stamp : Rat) : (s.enroll app remoteAddr body now stamp).2.roles = s.roles := by
  unfold Server.enroll
  dsimp only
  split_ifs
  · rfl
  · rcases app.judge body with ⟨response, _ | ⟨event, payload⟩⟩ <;> rfl

theorem roles_postRole (s : Server) (body : Option Json) (stamp : Rat) (key : Key) :
    roleOf key (s.postRole app body stamp).2 =
      (recorded app (.postRole body stamp) (s.postRole app body stamp).1).elim (roleOf key s)
        (replayRole key (roleOf key s)) := by
  unfold Server.postRole
  cases hpayload : payloadOf body with
  | dict payload =>
    dsimp only
    split_ifs with hmissing
    · rfl
    · cases hkey : (Json.field payload "user_id" .null).key with
      | some key' =>
        have hfields := fieldsOf_eq hpayload
        show ((s.roles.set key' _).get key).map RoleEntry.role = replayRole key (roleOf key s)
          ⟨"role_set", .dict [("user_id", Json.field (fieldsOf body) "user_id" .null),
            ("role", Json.field (fieldsOf body) "role" .null)], stamp⟩
        rw [hfields, Dict.get_set]
        show _ = if (Json.field payload "user_id" .null).key = some key then
          some (Json.field payload "role" .null) else roleOf key s
        rw [hkey]
        by_cases hsame : key = key'
        · rw [if_pos hsame, if_pos (congrArg some hsame.symm)]
          rfl
        · rw [if_neg hsame, if_neg fun h => hsame (Option.some.inj h).symm]
          rfl
      | none => rfl
  | _ => rfl

theorem roles_deleteRole (s : Server) (userId : String) (stamp : Rat) (key : Key) :
    roleOf key (s.deleteRole userId stamp).2 =
      (recorded app (.deleteRole userId stamp) (s.deleteRole userId stamp).1).elim (roleOf key s)
        (replayRole key (roleOf key s)) := by
  have hrecorded : recorded app (.deleteRole userId stamp) (s.deleteRole userId stamp).1 =
      some ⟨"role_deleted", .dict [("user_id", .str userId)], stamp⟩ := by
    unfold Server.deleteRole
    dsimp only
    split_ifs <;> rfl
  have hroles : (s.deleteRole userId stamp).2.roles = s.roles.erase (.text userId) := by
    unfold Server.deleteRole
    dsimp only
    split_ifs <;> rfl
  rw [hrecorded, roleOf, hroles, Dict.get_erase]
  show _ = if some (Key.text userId) = some key then none else roleOf key s
  by_cases hsame : key = .text userId
  · rw [if_pos hsame, if_pos (congrArg some hsame.symm)]
    rfl
  · rw [if_neg hsame, if_neg fun h => hsame (Option.some.inj h).symm]
    rfl

theorem roles_step (key : Key) (s : Server) (request : Request) :
    roleOf key (step app s request) =
      (recorded app request (answer app s request)).elim (roleOf key s)
        (replayRole key (roleOf key s)) := by
  cases request with
  | enroll remoteAddr body now stamp =>
    rw [replay_enroll, roleOf]
    exact congrArg _ (congrArg (Dict.get · key) (roles_enroll s remoteAddr body now stamp))
  | postRole body stamp => exact roles_postRole s body stamp key
  | deleteRole userId stamp => exact roles_deleteRole s userId stamp key
  | getRoles => rfl
  | auditLog => rfl
  | health => rfl
  | zones => rfl

theorem roleOf_replayed (requests : List Request) (key : Key) :
    roleOf key (after app requests) = replayed key (after app requests).audit := by
  rw [audit_recorded]
  exact run_view (roles_step key) {} requests

end

/-- **The roles are what the audit list says.** Under every key the table has the role last set
and not deleted since, read off the audit list alone, and a deletion is answered by whether
there is one. -/
theorem roles_replayed (app : App) (requests : List Request) :
    (∀ key, ((after app requests).roles.get key).map RoleEntry.role =
        replayed key (after app requests).audit) ∧
      ∀ userId stamp, (answerAfter app requests (.deleteRole userId stamp)).status =
        if (replayed (.text userId) (after app requests).audit).isSome then 204 else 404 := by
  refine ⟨roleOf_replayed requests, fun userId stamp => ?_⟩
  rw [← roleOf_replayed, roleOf]
  show (Server.deleteRole userId stamp (after app requests)).1.status = _
  unfold Server.deleteRole
  cases (after app requests).roles.get (.text userId) <;> rfl

end FarmChain.Gateway.EnrollmentServer
