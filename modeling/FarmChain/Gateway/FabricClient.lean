import Mathlib.Algebra.Order.Ring.Rat
import FarmChain.Lib.Dict
import FarmChain.Chaincode.Success

/-! The Fabric client's retries (`fabric_client.py`), before the ledger's replay check.

`_invoke` sends one request, up to `max_attempts` times, until the invoker returns. The
ledger behind it executes a request whose nonce it has not executed yet and refuses all
others, so a request whose response was lost is refused when it is sent again: it was
executed, and `_invoke` raises. `invoke_truthful_iff` says when the caller is told the
truth: the first attempt that reaches the ledger, if there is one, gets its response. -/
namespace FarmChain.Gateway

/-! ### The client -/

/-- A value of a payload. -/
inductive Arg (V : Type) where
  | text (s : String)
  | other (v : V)
  deriving DecidableEq, Repr

/-- What the invoker is called with. -/
structure Request (V : Type) where
  transactionName : String
  payload : Dict String (Arg V)
  deriving DecidableEq

inductive InvokeFailure (ε : Type) where
  /-- The last error of the invoker. -/
  | raised (e : ε)
  /-- `assert last_error is not None`, without any attempt. -/
  | assertion
  deriving DecidableEq, Repr

structure FabricClient where
  initialBackoff : Rat := 1
  backoffMultiplier : Rat := 2
  maxBackoff : Rat := 60
  jitter : Rat := 1 / 10
  maxAttempts : Int := 3
  fixedNonce : Option String := none

/-- What one attempt meets: what the invoker reads from outside, and the random jitter. -/
structure Trial (I : Type) where
  input : I
  jitterDelta : Rat := 0

/-- What a call of `_invoke` did: the requests it sent, how long it slept between them, the
state of what is behind the invoker, and what it returned or raised. -/
structure Invocation (V S ε A : Type) where
  sent : List (Request V)
  slept : List Rat
  state : S
  result : Except (InvokeFailure ε) A

section
variable {V S I ε A : Type} (client : FabricClient)

/-- `fixed_nonce or str(uuid4())`: an empty nonce counts as none. -/
def FabricClient.newNonce (uuid : String) : String :=
  match client.fixedNonce with
  | some nonce => if nonce = "" then uuid else nonce
  | none => uuid

/-- How long to sleep after a failed attempt. -/
def FabricClient.sleepFor (delay jitterDelta : Rat) : Rat :=
  max 0 (min client.maxBackoff (delay + if client.jitter = 0 then 0 else jitterDelta))

variable (invoker : I → S → Request V → S × Except ε A) (trials : Nat → Trial I)
  (request : Request V)

/-- The loop, from an attempt on, with so many attempts left. -/
def FabricClient.attempts : Nat → Nat → Rat → S → Invocation V S ε A
  | 0, _, _, s => ⟨[], [], s, .error .assertion⟩
  | left + 1, attempt, delay, s =>
    match invoker (trials attempt).input s request with
    | (s, .ok a) => ⟨[request], [], s, .ok a⟩
    | (s, .error e) =>
      if left = 0 then ⟨[request], [], s, .error (.raised e)⟩
      else
        let later := attempts left (attempt + 1)
          (min client.maxBackoff (delay * client.backoffMultiplier)) s
        {later with
          sent := request :: later.sent
          slept := client.sleepFor delay (trials attempt).jitterDelta :: later.slept}

end

section
variable {V S I ε A : Type} (client : FabricClient)
  (invoker : I → S → Request V → S × Except ε A) (trials : Nat → Trial I) (s : S)
  (transactionName : String) (payload : Dict String (Arg V))

/-- The request that `_invoke` sends. -/
def FabricClient.request (uuid : String) (addNonce : Bool) : Request V where
  transactionName := transactionName
  payload := if addNonce then payload.set "nonce" (.text (client.newNonce uuid)) else payload

/-- `_invoke`. -/
def FabricClient.invoke (uuid : String) (addNonce : Bool) : Invocation V S ε A :=
  client.attempts invoker trials (client.request transactionName payload uuid addNonce)
    client.maxAttempts.toNat 1 client.initialBackoff s

def FabricClient.invokeWithNonce (nonce : String) : Invocation V S ε A :=
  client.invoke invoker trials s transactionName (payload.set "nonce" (.text nonce)) "" false

end

/-! ### The ledger behind the invoker -/

def Request.nonce {V : Type} (request : Request V) : Option (Arg V) := request.payload.get "nonce"

/-- What becomes of an attempt on its way. -/
inductive Transport where
  | returns
  /-- It reaches the ledger, and the response is lost. -/
  | lost
  | unreached
  deriving DecidableEq, Repr

inductive SubmitFailure where
  | replay
  | lost
  | unreached
  deriving DecidableEq, Repr

section
variable {V : Type} [DecidableEq V]

/-- The ledger executes a request when its nonce has not been executed before. -/
def execute (executed : List (Request V)) (request : Request V) :
    List (Request V) × Except SubmitFailure Unit :=
  if request.nonce ∈ executed.map Request.nonce then (executed, .error .replay)
  else (executed ++ [request], .ok ())

def submit (transport : Transport) (executed : List (Request V)) (request : Request V) :
    List (Request V) × Except SubmitFailure Unit :=
  match transport with
  | .returns => execute executed request
  | .lost => ((execute executed request).1, .error .lost)
  | .unreached => (executed, .error .unreached)

end

/-! ### What a call does -/

section
variable {V S I ε A : Type} (client : FabricClient)
  (invoker : I → S → Request V → S × Except ε A) (trials : Nat → Trial I) (request : Request V)

/-- Every attempt sends the same request, and there are no more than are left. -/
theorem attempts_sent (left attempt : Nat) (delay : Rat) (s : S) :
    ∃ n, n ≤ left ∧ (client.attempts invoker trials request left attempt delay s).sent =
      List.replicate n request := by
  induction left generalizing attempt delay s with
  | zero => exact ⟨0, Nat.le_refl 0, rfl⟩
  | succ left ih =>
    unfold FabricClient.attempts
    split
    · exact ⟨1, by omega, rfl⟩
    · split
      · exact ⟨1, by omega, rfl⟩
      · rename_i s' e _ _
        obtain ⟨n, hn, hsent⟩ := ih (attempt + 1)
          (min client.maxBackoff (delay * client.backoffMultiplier)) s'
        exact ⟨n + 1, by omega, by rw [List.replicate_succ, ← hsent]⟩

end

/-! ### Against the ledger -/

section
variable {V : Type} [DecidableEq V] {client : FabricClient} {trials : Nat → Trial Transport}
  {request : Request V} {executed : List (Request V)}

theorem execute_fresh (h : request.nonce ∉ executed.map Request.nonce) :
    execute executed request = (executed ++ [request], .ok ()) := if_neg h

theorem execute_replay (h : request.nonce ∈ executed.map Request.nonce) :
    execute executed request = (executed, .error .replay) := if_pos h

/-- An attempt with a nonce that was executed raises, and executes nothing. -/
theorem submit_replay (h : request.nonce ∈ executed.map Request.nonce) (transport : Transport) :
    ∃ e, submit transport executed request = (executed, .error e) := by
  cases transport with
  | returns => exact ⟨.replay, execute_replay h⟩
  | lost => exact ⟨.lost, by rw [submit, execute_replay h]⟩
  | unreached => exact ⟨.unreached, rfl⟩

variable (client trials) in
/-- After the request was executed, the call can only raise. -/
theorem attempts_replay (h : request.nonce ∈ executed.map Request.nonce) (left attempt : Nat)
    (delay : Rat) :
    (client.attempts submit trials request left attempt delay executed).state = executed ∧
      ∃ e, (client.attempts submit trials request left attempt delay executed).result =
        .error e := by
  induction left generalizing attempt delay with
  | zero => exact ⟨rfl, .assertion, rfl⟩
  | succ left ih =>
    obtain ⟨e, he⟩ := submit_replay h (trials attempt).input
    unfold FabricClient.attempts
    rw [he]
    dsimp only
    split
    · exact ⟨rfl, .raised e, rfl⟩
    · exact ih (attempt + 1) _

/-- How a call with a fresh nonce ends. -/
inductive CallEnd (trials : Nat → Trial Transport) (request : Request V)
    (executed : List (Request V)) (left attempt : Nat) :
    List (Request V) → Except (InvokeFailure SubmitFailure) Unit → Prop
  | unreached (hnone : ∀ k, attempt ≤ k → k < attempt + left → (trials k).input = .unreached)
    (e : InvokeFailure SubmitFailure) :
    CallEnd trials request executed left attempt executed (.error e)
  | returned (k : Nat) (hfrom : attempt ≤ k) (hto : k < attempt + left)
    (hbefore : ∀ j, attempt ≤ j → j < k → (trials j).input = .unreached)
    (hk : (trials k).input = .returns) :
    CallEnd trials request executed left attempt (executed ++ [request]) (.ok ())
  | lost (k : Nat) (hfrom : attempt ≤ k) (hto : k < attempt + left)
    (hbefore : ∀ j, attempt ≤ j → j < k → (trials j).input = .unreached)
    (hk : (trials k).input = .lost) (e : InvokeFailure SubmitFailure) :
    CallEnd trials request executed left attempt (executed ++ [request]) (.error e)

variable (client trials) in
theorem attempts_fresh (h : request.nonce ∉ executed.map Request.nonce) (left attempt : Nat)
    (delay : Rat) :
    CallEnd trials request executed left attempt
      (client.attempts submit trials request left attempt delay executed).state
      (client.attempts submit trials request left attempt delay executed).result := by
  induction left generalizing attempt delay with
  | zero => exact .unreached (fun k hfrom hto => by omega) _
  | succ left ih =>
    unfold FabricClient.attempts
    cases hinput : (trials attempt).input with
    | returns =>
      have hsubmit : submit .returns executed request = (executed ++ [request], .ok ()) :=
        execute_fresh h
      rw [hsubmit]
      exact .returned attempt (Nat.le_refl _) (by omega) (fun j hfrom hto => by omega) hinput
    | lost =>
      have hsubmit : submit .lost executed request = (executed ++ [request], .error .lost) := by
        rw [submit, execute_fresh h]
      rw [hsubmit]
      dsimp only
      split
      · exact .lost attempt (Nat.le_refl _) (by omega) (fun j hfrom hto => by omega) hinput _
      · have hspent : request.nonce ∈ (executed ++ [request]).map Request.nonce := by simp
        obtain ⟨hstate, e, hresult⟩ := attempts_replay client trials hspent left
          (attempt + 1) (min client.maxBackoff (delay * client.backoffMultiplier))
        dsimp only
        rw [hstate, hresult]
        exact .lost attempt (Nat.le_refl _) (by omega) (fun j hfrom hto => by omega) hinput e
    | unreached =>
      have hsubmit : submit .unreached executed request = (executed, .error .unreached) := rfl
      rw [hsubmit]
      dsimp only
      have hbefore (k : Nat) (hearlier : ∀ j, attempt + 1 ≤ j → j < k →
          (trials j).input = .unreached) (j : Nat) (hfrom : attempt ≤ j) (hto : j < k) :
          (trials j).input = .unreached := by
        by_cases hj : j = attempt
        · rw [hj]
          exact hinput
        · exact hearlier j (by omega) hto
      split
      · rename_i hleft
        refine .unreached (fun k hfrom hto => hbefore (k + 1) (fun j hj hk => ?_) k hfrom ?_) _
        · omega
        · omega
      · have hlater := ih (attempt + 1)
          (min client.maxBackoff (delay * client.backoffMultiplier))
        dsimp only
        generalize (client.attempts submit trials request left (attempt + 1) _ executed).state =
          state at hlater ⊢
        generalize (client.attempts submit trials request left (attempt + 1) _ executed).result =
          result at hlater ⊢
        cases hlater with
        | unreached hnone e =>
          exact .unreached (fun k hfrom hto => hbefore (k + 1)
            (fun j hj hk => hnone j hj (by omega)) k hfrom (Nat.lt_succ_self k)) e
        | returned k hfrom hto hearlier hk =>
          exact .returned k (by omega) (by omega) (hbefore k hearlier) hk
        | lost k hfrom hto hearlier hk e =>
          exact .lost k (by omega) (by omega) (hbefore k hearlier) hk e

end

/-! ### The truth -/

/-- The first of the attempts that reaches the ledger, if there is one, gets its response. -/
def FirstReachReturns (trials : Nat → Trial Transport) (maxAttempts : Nat) : Prop :=
  ∀ k, 1 ≤ k → k < 1 + maxAttempts → (trials k).input ≠ .unreached →
    (∀ j, 1 ≤ j → j < k → (trials j).input = .unreached) → (trials k).input = .returns

/-- What a caller may rely on. -/
structure Truthful {V : Type} (request : Request V) (executed : List (Request V)) (maxAttempts : Nat)
    (call : Invocation V (List (Request V)) SubmitFailure Unit) : Prop where
  same : ∀ sent ∈ call.sent, sent = request
  bounded : call.sent.length ≤ maxAttempts
  /-- The ledger executes the request and nothing else, and at most once. -/
  once : call.state = executed ∨ call.state = executed ++ [request]
  returned_iff : call.result = .ok () ↔ call.state = executed ++ [request]
  raised_iff : (∃ e, call.result = .error e) ↔ call.state = executed

section
variable {V : Type} [DecidableEq V]

theorem truthful_iff {client : FabricClient} {trials : Nat → Trial Transport} {request : Request V}
    {executed : List (Request V)} (h : request.nonce ∉ executed.map Request.nonce)
    (maxAttempts : Nat) (delay : Rat) :
    Truthful request executed maxAttempts
        (client.attempts submit trials request maxAttempts 1 delay executed) ↔
      FirstReachReturns trials maxAttempts := by
  have hgrown : executed ++ [request] ≠ executed := fun heq => by simpa using congrArg List.length heq
  obtain ⟨n, hn, hsent⟩ := attempts_sent client submit trials request maxAttempts 1 delay executed
  have houtcome := attempts_fresh client trials h maxAttempts 1 delay
  generalize client.attempts submit trials request maxAttempts 1 delay executed = call
    at hsent houtcome
  have hsame : ∀ sent ∈ call.sent, sent = request := by
    rw [hsent]
    exact fun sent hmem => List.eq_of_mem_replicate hmem
  have hbounded : call.sent.length ≤ maxAttempts := by
    rw [hsent, List.length_replicate]
    exact hn
  generalize hstate : call.state = state at houtcome
  generalize hresult : call.result = result at houtcome
  cases houtcome with
  | unreached hnone e =>
    refine iff_of_true ⟨hsame, hbounded, .inl hstate, ?_, ?_⟩ ?_
    · simp [hstate, hresult]
    · simp [hstate, hresult]
    · exact fun k hfrom hto hreach _ => absurd (hnone k hfrom hto) hreach
  | returned k hfrom hto hbefore hk =>
    refine iff_of_true ⟨hsame, hbounded, .inr hstate, ?_, ?_⟩ ?_
    · simp [hstate, hresult]
    · simp [hstate, hresult]
    · intro j hj _ hreach hearlier
      rcases Nat.lt_trichotomy j k with hlt | heq | hgt
      · exact absurd (hbefore j hj hlt) hreach
      · rw [heq]
        exact hk
      · cases hk.symm.trans (hearlier k hfrom hgt)
  | lost k hfrom hto hbefore hk e =>
    refine iff_of_false (fun htruthful => ?_) (fun hfirst => ?_)
    · cases hresult.symm.trans (htruthful.returned_iff.mpr hstate)
    · cases hk.symm.trans (hfirst k hfrom hto (by rw [hk]; exact Transport.noConfusion) hbefore)

/-- With a fresh nonce, the caller is told the truth exactly if the first attempt to reach
the ledger gets its response, or none reaches it. -/
theorem invoke_truthful_iff (client : FabricClient) (transactionName : String)
    (payload : Dict String (Arg V)) (uuid : String) (addNonce : Bool)
    (trials : Nat → Trial Transport) (executed : List (Request V))
    (hfresh : (client.request transactionName payload uuid addNonce).nonce ∉
      executed.map Request.nonce) :
    Truthful (client.request transactionName payload uuid addNonce) executed
        client.maxAttempts.toNat
        (client.invoke submit trials executed transactionName payload uuid addNonce) ↔
      FirstReachReturns trials client.maxAttempts.toNat :=
  truthful_iff hfresh client.maxAttempts.toNat client.initialBackoff

end

def lostFirst (attempt : Nat) : Trial Transport := {input := if attempt = 1 then .lost else .returns}

/-- The second attempt is the first to reach the ledger, and returns. -/
theorem invoke_truthful_second :
    Truthful (V := Nat) (FabricClient.request {} "CheckAccess" ∅ "n-1" true) [] 3
      (FabricClient.invoke {} submit
        (fun attempt => {input := if attempt = 1 then .unreached else .returns}) []
        "CheckAccess" ∅ "n-1" true) := by
  refine (invoke_truthful_iff {} "CheckAccess" ∅ "n-1" true _ [] (List.not_mem_nil)).mpr ?_
  intro k _ _ hreach _
  by_cases hk : k = 1
  · simp [hk] at hreach
  · simp [hk]

/-- The response of the first attempt is lost: the request was executed once, the two
others are refused, and the caller is told that it failed. -/
theorem invoke_lies :
    (FabricClient.invoke (V := Nat) {} submit lostFirst [] "SubmitSensorReading" ∅ "n-1" true).state =
        [FabricClient.request {} "SubmitSensorReading" ∅ "n-1" true] ∧
      (FabricClient.invoke (V := Nat) {} submit lostFirst [] "SubmitSensorReading" ∅ "n-1"
        true).result = .error (.raised .replay) ∧
      (FabricClient.invoke (V := Nat) {} submit lostFirst [] "SubmitSensorReading" ∅ "n-1"
        true).sent.length = 3 := by
  decide +kernel

/-! ### The replay check of the chaincode -/

section
open Chaincode
variable {V B : Type} [DecidableEq V] {R : Runtime B} {l : Ledger B} {ctx : Context}
  {executed : List (Request V)} {request : Request V} {id nonce : String}

/-- The nonce records of a ledger are those of the requests executed for a caller. -/
structure Recorded (R : Runtime B) (l : Ledger B) (id : String) (executed : List (Request V)) :
    Prop where
  keys : ∀ nonce, l.get (nonceKey id nonce) = none ↔
    some (.text nonce) ∉ executed.map Request.nonce
  index : ∃ keys, getStringIndex R l nonceIndexKey = .ok keys

/-- `validateNonce` accepts what the ledger executes. -/
theorem validateNonce_iff_execute (h : Recorded R l id executed) (hid : id ≠ "") (hne : nonce ≠ "")
    (hnonce : request.nonce = some (.text nonce)) :
    (∃ ws, validateNonce R l ctx id nonce = .ok ws) ↔ (execute executed request).2 = .ok () := by
  obtain ⟨keys, hkeys⟩ := h.index
  have haccepts : (∃ ws, validateNonce R l ctx id nonce = .ok ws) ↔
      l.get (nonceKey id nonce) = none := by
    constructor
    · intro haccepted
      obtain ⟨ws, hws⟩ := haccepted
      exact (validateNonce_eq_ok.mp hws).2.2.1
    · intro hfree
      exact ⟨_, validateNonce_eq_ok.mpr ⟨hid, hne, hfree, keys, hkeys, rfl⟩⟩
  rw [haccepts, h.keys, ← hnonce]
  by_cases hspent : request.nonce ∈ executed.map Request.nonce
  · exact iff_of_false (fun hfree => hfree hspent) (by rw [execute_replay hspent]; simp)
  · exact iff_of_true hspent (by rw [execute_fresh hspent])

omit [DecidableEq V] in
/-- What it then writes records the request as executed. -/
theorem Recorded.step (h : Recorded R l id executed) (hnonce : request.nonce = some (.text nonce))
    {ws : WriteSet B} (hws : validateNonce R l ctx id nonce = .ok ws) :
    Recorded R (l.apply ws) id (executed ++ [request]) := by
  obtain ⟨_, _, _, keys, _, rfl⟩ := validateNonce_eq_ok.mp hws
  constructor
  · intro other
    have hindex : nonceKey id other ≠ nonceIndexKey :=
      ne_of_kind (by rw [kindOf_nonceKey, kindOf_nonceIndexKey]; decide)
    have hsame : nonceKey id other = nonceKey id nonce ↔ other = nonce := by
      simp [nonceKey]
    rw [Store.apply_cons, Store.apply_cons, Store.apply_nil, putStringIndex, Store.get_write,
      if_neg hindex, Store.get_write]
    by_cases hother : other = nonce
    · simp [hother, hnonce]
    · rw [if_neg (fun heq => hother (hsame.mp heq)), h.keys]
      simp [hnonce, hother]
  · exact ⟨keys ++ [nonceKey id nonce],
      getStringIndex_put (by simp [putStringIndex, Store.get_write])⟩

end

end FarmChain.Gateway
