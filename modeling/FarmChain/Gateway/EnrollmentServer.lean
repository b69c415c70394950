import FarmChain.Gateway.Enrollment

/-! The enrollment server.

Its handlers share a rate limiter, a table of roles and an audit list. Requests are handled one
at a time, though the server runs threads with no lock between them, and carry what the handlers
read of the outside: the body, if it parsed, the caller's address and the times of the clock.
Whatever else is requested, the limiter sees the enrollments only (`attempts_after`), so when a
certificate is issued is known exactly (`certificates_exact`). -/
namespace FarmChain.Gateway.EnrollmentServer
open Run

/-! ### Parsed bodies -/

/-- A float of Python. -/
inductive PyFloat where
  | finite (value : Rat)
  | infinity
  | negInfinity
  | nan
  deriving DecidableEq, Repr

/-- A parsed JSON value. The keys of a dictionary are distinct. -/
inductive Json where
  | null
  | bool (b : Bool)
  | int (n : Int)
  | float (x : PyFloat)
  | str (s : String)
  | list (items : List Json)
  | dict (items : List (String × Json))

namespace Json

/-- `bool(value)`. -/
def truthy : Json → Bool
  | .null => false
  | .bool b => b
  | .int n => n ≠ 0
  | .float x => x ≠ .finite 0
  | .str s => s ≠ ""
  | .list items => !items.isEmpty
  | .dict items => !items.isEmpty

/-- `a or b`. -/
def orElse (a b : Json) : Json := if a.truthy then a else b

/-- `value == text`. -/
def isText (text : String) : Json → Bool
  | .str s => s = text
  | _ => false

/-- `payload.get(name, fallback)`. -/
def field (payload : List (String × Json)) (name : String) (fallback : Json) : Json :=
  (Dict.find name payload).getD fallback

end Json

/-- A key of a dictionary, as `==` and `hash` see it: `True`, `1` and `1.0` are one key. -/
inductive Key where
  | null
  | number (x : PyFloat)
  | text (s : String)
  deriving DecidableEq, Repr

/-- Lists and dictionaries cannot be keys. Every NaN is taken for one key here, where Python has
each for a key of its own. -/
def Json.key : Json → Option Key
  | .null => some .null
  | .bool b => some (.number (.finite b.toNat))
  | .int n => some (.number (.finite n))
  | .float x => some (.number x)
  | .str s => some (.text s)
  | .list _ => none
  | .dict _ => none

/-- `request.get_json(silent=True) or {}`, of a body that may not have parsed. -/
def payloadOf (body : Option Json) : Json := (body.getD .null).orElse (.dict [])

/-- `request.remote_addr or "unknown"`. -/
def callerOf (remoteAddr : Option String) : String :=
  match remoteAddr with
  | some addr => if addr = "" then "unknown" else addr
  | none => "unknown"

/-! ### The server -/

/-- What `create_app` keeps; `format` is what an f-string writes for a value other than a string. -/
structure App where
  gatewayZone : String
  gatewayPublicKey : String
  caCert : String
  format : Json → String
  zoned : gatewayZone ≠ ""

/-- `value or fallback`, of a text that may be `None`. -/
def textOr (value : Option String) (fallback : String) : String :=
  match value with
  | some text => if text = "" then fallback else text
  | none => fallback

/-- `create_app`; `environ` is the zone the environment gives. -/
def createApp (zone gatewayPublicKey caCert environ : Option String) (format : Json → String) :
    Except String App :=
  let selected := textOr zone (environ.getD "")
  if h : selected = "" then .error "GATEWAY_ZONE environment variable is required"
  else .ok {
    gatewayZone := selected
    gatewayPublicKey := textOr gatewayPublicKey "gateway-public-key-placeholder"
    caCert := textOr caCert "ca-cert-placeholder"
    format
    zoned := h }

structure AuditEvent where
  event : String
  payload : Json
  timestamp : Rat

/-- A field of its payload. -/
def AuditEvent.field (e : AuditEvent) (name : String) : Json :=
  match e.payload with
  | .dict payload => Json.field payload name .null
  | _ => .null

/-- An entry of `ROLES`, with its key as it was first written. -/
structure RoleEntry where
  userId : Json
  role : Json
  zone : Json

structure Server where
  audit : List AuditEvent := []
  roles : Dict Key RoleEntry := ∅
  enrollAttempts : EnrollAttempts := ∅

inductive Body where
  | json (value : Json)
  | events (events : List AuditEvent)
  | roles (roles : List RoleEntry)
  | text (s : String)
  /-- The framework's page. -/
  | page

structure Response where
  status : Nat
  body : Body

def errorResponse (status : Nat) (message : String) : Response :=
  ⟨status, .json (.dict [("error", .str message)])⟩

/-- The answer to an exception that no handler catches. -/
def internalServerError : Response := ⟨500, .page⟩

def Server.record (s : Server) (event : String) (payload : Json) (timestamp : Rat) : Server :=
  {s with audit := s.audit ++ [⟨event, payload, timestamp⟩]}

/-! ### Handlers -/

/-- `f"sensor-certificate-for-{sensor_id}"`. -/
def App.certificateFor (app : App) (sensorId : Json) : String :=
  "sensor-certificate-for-" ++ match sensorId with
    | .str s => s
    | other => app.format other

def App.enrolled (app : App) (sensorId : Json) : Response :=
  ⟨200, .json (.dict [("gateway_public_key", .str app.gatewayPublicKey),
    ("ca_cert", .str app.caCert), ("sensor_certificate", .str (app.certificateFor sensorId)),
    ("sensor_id", sensorId), ("zone", .str app.gatewayZone)])⟩

/-- `payload.get("sensor_id") or payload.get("device_id")`. -/
def sensorIdOf (payload : List (String × Json)) : Json :=
  (Json.field payload "sensor_id" .null).orElse (Json.field payload "device_id" .null)

/-- `enroll` past the limiter: its answer, and what it audits. -/
def App.judge (app : App) (body : Option Json) : Response × Option (String × Json) :=
  match payloadOf body with
  | .dict payload =>
    if !(Json.field payload "zone" .null).isText app.gatewayZone then
      (errorResponse 403 "zone does not match gateway zone",
        some ("enroll_rejected_zone", .dict payload))
    else if !(sensorIdOf payload).truthy then (errorResponse 400 "sensor_id is required", none)
    else (app.enrolled (sensorIdOf payload),
      some ("enroll_granted",
        .dict [("sensor_id", sensorIdOf payload), ("zone", .str app.gatewayZone)]))
  -- nothing but a dictionary has a `get`
  | _ => (internalServerError, none)

def Server.enroll (app : App) (remoteAddr : Option String) (body : Option Json) (now stamp : Rat)
    (s : Server) : Response × Server :=
  let (limited, enrollAttempts) := rateLimited now (callerOf remoteAddr) s.enrollAttempts
  let s := {s with enrollAttempts}
  if limited then (errorResponse 429 "enrollment rate limit exceeded", s)
  else
    match app.judge body with
    | (response, some (event, payload)) => (response, s.record event payload stamp)
    | (response, none) => (response, s)

def Server.postRole (app : App) (body : Option Json) (stamp : Rat) (s : Server) :
    Response × Server :=
  match payloadOf body with
  | .dict payload =>
    let userId := Json.field payload "user_id" .null
    let role := Json.field payload "role" .null
    if !userId.truthy || !role.truthy then
      (errorResponse 400 "user_id and role are required", s)
    else
      match userId.key with
      | some key =>
        let zone := Json.field payload "zone" (.str app.gatewayZone)
        let written := (s.roles.get key).elim userId RoleEntry.userId
        let s := {s with roles := s.roles.set key ⟨written, role, zone⟩}
        (⟨201, .json (.dict [("user_id", userId), ("role", role), ("zone", zone)])⟩,
          s.record "role_set" (.dict [("user_id", userId), ("role", role)]) stamp)
      | none => (internalServerError, s)
  | _ => (internalServerError, s)

def Server.deleteRole (userId : String) (stamp : Rat) (s : Server) : Response × Server :=
  let removed := s.roles.get (.text userId)
  let s := {s with roles := s.roles.erase (.text userId)}
  let s := s.record "role_deleted" (.dict [("user_id", .str userId)]) stamp
  if removed.isNone then (errorResponse 404 "role not found", s) else (⟨204, .text ""⟩, s)

def Key.isText : Key → Bool
  | .text _ => true
  | _ => false

/-- `jsonify` sorts the keys, and a text does not compare with a number. -/
def sortable (keys : List Key) : Bool := keys.all Key.isText || keys.all fun key => !key.isText

def Server.getRoles (s : Server) : Response :=
  if sortable (s.roles.entries.map Prod.fst) then ⟨200, .roles (s.roles.entries.map Prod.snd)⟩
  else internalServerError

/-- A request, with the times its handler reads. -/
inductive Request where
  | enroll (remoteAddr : Option String) (body : Option Json) (now stamp : Rat)
  | postRole (body : Option Json) (stamp : Rat)
  | deleteRole (userId : String) (stamp : Rat)
  | getRoles
  | auditLog
  | health
  | zones

def respond (app : App) (s : Server) : Request → Response × Server
  | .enroll remoteAddr body now stamp => s.enroll app remoteAddr body now stamp
  | .postRole body stamp => s.postRole app body stamp
  | .deleteRole userId stamp => s.deleteRole userId stamp
  | .getRoles => (s.getRoles, s)
  | .auditLog => (⟨200, .events s.audit⟩, s)
  | .health => (⟨200, .json (.dict [("status", .str "ok"), ("zone", .str app.gatewayZone)])⟩, s)
  | .zones => (⟨200, .json (.dict [("zones", .list [.str app.gatewayZone])])⟩, s)

def step (app : App) (s : Server) (request : Request) : Server := (respond app s request).2

def answer (app : App) (s : Server) (request : Request) : Response := (respond app s request).1

/-- The server after the requests. -/
def after (app : App) (requests : List Request) : Server := run (step app) {} requests

/-- What the next request is answered. -/
def answerAfter (app : App) (requests : List Request) (request : Request) : Response :=
  answer app (after app requests) request

/-! ### Certificates -/

/-- The limiter's call of a request. -/
def callOf : Request → Option (String × Rat)
  | .enroll remoteAddr _ now _ => some (callerOf remoteAddr, now)
  | _ => none

/-- The calls of the limiter in a run. -/
def calls (requests : List Request) : List (String × Rat) := requests.filterMap callOf

/-- The time of an enrollment of the caller whose answer has such a status. -/
def answeredAt (app : App) (caller : String) (p : Nat → Bool) (s : Server) (request : Request) :
    Option Rat :=
  match request with
  | .enroll remoteAddr _ now _ =>
    if callerOf remoteAddr = caller ∧ p (answer app s request).status = true then some now else none
  | _ => none

/-- The times of the caller's enrollments that were let through. -/
def passed (app : App) (caller : String) (requests : List Request) : List Rat :=
  emits (step app) (answeredAt app caller (· ≠ 429)) {} requests

/-- The times of the caller's certificates. -/
def issued (app : App) (caller : String) (requests : List Request) : List Rat :=
  emits (step app) (answeredAt app caller (· = 200)) {} requests

/-- A body for which a certificate is issued: of this zone, with an identifier. -/
def Eligible (app : App) (body : Option Json) : Prop :=
  ∃ payload, body = some (.dict payload) ∧
    Dict.find "zone" payload = some (.str app.gatewayZone) ∧
    ∃ name ∈ ["sensor_id", "device_id"], (Json.field payload name .null).truthy = true

section
variable {app : App}

theorem judge_ne_limited (body : Option Json) : (app.judge body).1.status ≠ 429 := by
  unfold App.judge
  cases payloadOf body with
  | dict payload =>
    dsimp only
    split_ifs <;> simp [errorResponse, App.enrolled]
  | _ => simp [internalServerError]

theorem status_enroll (s : Server) (remoteAddr : Option String) (body : Option Json)
    (now stamp : Rat) :
    (s.enroll app remoteAddr body now stamp).1.status =
      if (rateLimited now (callerOf remoteAddr) s.enrollAttempts).1 then 429
      else (app.judge body).1.status := by
  unfold Server.enroll
  dsimp only
  split_ifs
  · rfl
  · rcases app.judge body with ⟨response, _ | ⟨event, payload⟩⟩ <;> rfl

theorem attempts_enroll (s : Server) (remoteAddr : Option String) (body : Option Json)
    (now stamp : Rat) :
    (s.enroll app remoteAddr body now stamp).2.enrollAttempts =
      enrollStep s.enrollAttempts (callerOf remoteAddr, now) := by
  unfold Server.enroll
  dsimp only
  split_ifs
  · rfl
  · rcases app.judge body with ⟨response, _ | ⟨event, payload⟩⟩ <;> rfl

/-- The limiter sees the enrollments and nothing else. -/
theorem attempts_after (requests : List Request) :
    (after app requests).enrollAttempts = run enrollStep ∅ (calls requests) := by
  have hstep (s : Server) (request : Request) : (step app s request).enrollAttempts =
      (callOf request).elim s.enrollAttempts (enrollStep s.enrollAttempts) := by
    cases request with
    | enroll remoteAddr body now stamp => exact attempts_enroll s remoteAddr body now stamp
    | postRole body stamp =>
      show (s.postRole app body stamp).2.enrollAttempts = s.enrollAttempts
      unfold Server.postRole
      cases payloadOf body with
      | dict payload =>
        dsimp only
        split_ifs
        · rfl
        · cases (Json.field payload "user_id" .null).key <;> rfl
      | _ => rfl
    | deleteRole userId stamp =>
      show (s.deleteRole userId stamp).2.enrollAttempts = s.enrollAttempts
      unfold Server.deleteRole
      dsimp only
      split_ifs <;> rfl
    | getRoles => rfl
    | auditLog => rfl
    | health => rfl
    | zones => rfl
  have hrun := run_view hstep {} requests
  rwa [emits_carried] at hrun

/-- An enrollment is let through when the limiter says so. -/
theorem answeredAt_passed (caller : String) (s : Server) (remoteAddr : Option String)
    (body : Option Json) (now stamp : Rat) :
    answeredAt app caller (· ≠ 429) s (.enroll remoteAddr body now stamp) =
      unlimitedAt caller s.enrollAttempts (callerOf remoteAddr, now) := by
  have hstatus : (answer app s (.enroll remoteAddr body now stamp)).status ≠ 429 ↔
      (rateLimited now (callerOf remoteAddr) s.enrollAttempts).1 = false := by
    show (s.enroll app remoteAddr body now stamp).1.status ≠ 429 ↔ _
    rw [status_enroll]
    cases (rateLimited now (callerOf remoteAddr) s.enrollAttempts).1 with
    | true => simp
    | false => simp [judge_ne_limited]
  unfold answeredAt unlimitedAt
  simp only [decide_eq_true_iff, hstatus]

theorem passed_eq (caller : String) (requests : List Request) :
    passed app caller requests = unlimited caller (calls requests) := by
  induction requests using List.reverseRecOn with
  | nil => rfl
  | append_singleton requests request ih =>
    rw [passed, emits_snoc, ← passed, ih, ← after]
    have hcalls : calls (requests ++ [request]) = calls requests ++ (callOf request).toList := by
      rw [calls, List.filterMap_append]
      cases request <;> rfl
    cases request with
    | enroll remoteAddr body now stamp =>
      have hcall : (callOf (.enroll remoteAddr body now stamp)).toList =
        [(callerOf remoteAddr, now)] := rfl
      rw [hcalls, hcall, unlimited, unlimited, emits_snoc, answeredAt_passed, attempts_after]
    | _ =>
      rw [hcalls]
      exact (List.append_nil _).trans (congrArg _ (List.append_nil _).symm)

/-- Certificates are for those let through. -/
theorem issued_sublist (caller : String) (requests : List Request) :
    (issued app caller requests).Sublist (passed app caller requests) := by
  refine emits_part (step app) ?_ {} requests
  intro s request a h
  cases request with
  | enroll remoteAddr body now stamp =>
    unfold answeredAt at h ⊢
    dsimp only at h ⊢
    split at h
    · rename_i hissued
      have hstatus := of_decide_eq_true hissued.2
      rw [if_pos ⟨hissued.1, by simp [hstatus]⟩]
      exact h
    · cases h
  | _ => cases h

/-- A dictionary that is not empty is the payload. -/
theorem payloadOf_dict {body : Option Json} {payload : List (String × Json)}
    (h : payloadOf body = .dict payload) (hne : payload ≠ []) : body = some (.dict payload) := by
  cases body with
  | none => exact absurd (Json.dict.inj h).symm hne
  | some value =>
    unfold payloadOf Json.orElse at h
    split at h
    · exact congrArg some h
    · exact absurd (Json.dict.inj h).symm hne

theorem sensorIdOf_truthy (payload : List (String × Json)) :
    (sensorIdOf payload).truthy = true ↔
      ∃ name ∈ ["sensor_id", "device_id"], (Json.field payload name .null).truthy = true := by
  unfold sensorIdOf Json.orElse
  split
  · rename_i hsensor
    exact ⟨fun h => ⟨"sensor_id", by simp, h⟩, fun _ => hsensor⟩
  · rename_i hsensor
    constructor
    · exact fun h => ⟨"device_id", by simp, h⟩
    · intro ⟨name, hname, h⟩
      rcases List.mem_cons.mp hname with rfl | hname
      · exact absurd h hsensor
      · rwa [List.mem_singleton.mp hname] at h

theorem isText_field {payload : List (String × Json)} {name text : String} :
    (Json.field payload name .null).isText text = true ↔
      Dict.find name payload = some (.str text) := by
  unfold Json.field
  cases Dict.find name payload with
  | none => simp [Json.isText]
  | some value => cases value <;> simp [Json.isText]

theorem judge_issues (body : Option Json) :
    (app.judge body).1.status = 200 ↔ Eligible app body := by
  constructor
  · intro h
    unfold App.judge at h
    cases hpayload : payloadOf body with
    | dict payload =>
      rw [hpayload] at h
      dsimp only at h
      split_ifs at h with hzone hid
      · cases h
      · cases h
      · rw [Bool.not_eq_true', Bool.not_eq_false] at hzone hid
        have hfind := isText_field.mp hzone
        refine ⟨payload, payloadOf_dict hpayload ?_, hfind, (sensorIdOf_truthy payload).mp hid⟩
        rintro rfl
        cases hfind
    | _ =>
      rw [hpayload] at h
      cases h
  · intro ⟨payload, hbody, hzone, hid⟩
    have hpayload : payloadOf body = .dict payload := by
      rw [hbody]
      cases payload with
      | nil => rfl
      | cons first rest => rfl
    unfold App.judge
    rw [hpayload]
    dsimp only
    rw [isText_field.mpr hzone, (sensorIdOf_truthy payload).mpr hid]
    rfl

end

/-- Certificates are issued as a window says: to an enrollment when fewer than the limit of its
caller's were let through within the last one and its body names this zone and a sensor, and
none holds more than the limit of one caller. -/
structure CertificatesExact (window : Rat) (app : App) (requests : List Request)
    (remoteAddr : Option String) (body : Option Json) (now stamp : Rat) : Prop where
  granted : (answerAfter app requests (.enroll remoteAddr body now stamp)).status = 200 ↔
    ((passed app (callerOf remoteAddr) requests).filter
      fun a => now - window < a ∧ a ≤ now).length < ENROLL_LIMIT ∧ Eligible app body
  within : ∀ caller start, ((issued app caller requests).filter
    fun a => start ≤ a ∧ a < start + window).length ≤ ENROLL_LIMIT

theorem certificatesExact {window : Rat} {app : App} {requests : List Request} {now : Rat}
    (h : ∀ caller, ExactWindow window (calls requests) caller now) (remoteAddr : Option String)
    (body : Option Json) (stamp : Rat) :
    CertificatesExact window app requests remoteAddr body now stamp := by
  refine ⟨?_, fun caller start => ?_⟩
  · have hlimited := (h (callerOf remoteAddr)).limited
    have hmost := (h (callerOf remoteAddr)).within' (now - window)
    rw [sub_add_cancel] at hmost
    show (Server.enroll app remoteAddr body now stamp (after app requests)).1.status = 200 ↔ _
    rw [status_enroll, attempts_after, passed_eq, ← judge_issues, hmost.lt_iff_ne, Ne, ← hlimited]
    cases (rateLimited now (callerOf remoteAddr) (run enrollStep ∅ (calls requests))).1 with
    | true => simp
    | false => simp
  · refine le_trans ((issued_sublist caller requests).filter _).length_le ?_
    rw [passed_eq]
    exact (h caller).within start

/-- **When a certificate is issued.** After any run of requests certificates are issued as a
window of an hour less 2^-42 s says, and as the hour says once the clock is past second 2048. -/
theorem certificates_exact (app : App) (requests : List Request) (remoteAddr : Option String)
    (body : Option Json) (now stamp : Rat)
    (hclock : Nondecreasing ((calls requests).map Prod.snd ++ [now])) :
    CertificatesExact enrollWindow app requests remoteAddr body now stamp ∧
      ((∀ t ∈ (calls requests).map Prod.snd ++ [now], LateReading t) →
        CertificatesExact ENROLL_WINDOW_SECONDS app requests remoteAddr body now stamp) :=
  ⟨certificatesExact (exactWindow_own hclock) remoteAddr body stamp,
    fun hlate => certificatesExact (exactWindow_late hclock hlate) remoteAddr body stamp⟩

/-- The eleventh enrollment in an hour gets none, after ten that did. -/
theorem certificates_eleventh :
    let app : App := ⟨"North", "gateway", "ca", fun _ => "", by decide⟩
    let body := some (Json.dict [("zone", .str "North"), ("sensor_id", .str "s1")])
    let ten := List.replicate 10 (Request.enroll (some "a") body 3000 3000)
    ¬(answerAfter app ten (.enroll (some "a") body 6599 6599)).status = 200 ∧
      (issued app "a" ten).length = 10 := by
  intro app body ten
  have hclock : Nondecreasing ((calls ten).map Prod.snd ++ [6599]) := by
    unfold Nondecreasing
    decide +kernel
  have hlate : ∀ t ∈ (calls ten).map Prod.snd ++ [6599], LateReading t := by decide +kernel
  refine ⟨?_, by decide +kernel⟩
  rw [((certificates_exact app ten (some "a") body 6599 6599 hclock).2 hlate).granted]
  have hfull : ¬((passed app (callerOf (some "a")) ten).filter
      fun a => 6599 - ENROLL_WINDOW_SECONDS < a ∧ a ≤ 6599).length < ENROLL_LIMIT := by
    decide +kernel
  exact fun h => hfull h.1

end FarmChain.Gateway.EnrollmentServer
