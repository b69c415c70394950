import FarmChain.Lib.Fallible
import FarmChain.Lib.WriteSet
import FarmChain.Chaincode.Keys
import FarmChain.Chaincode.Records

/-! What the contract runs on: the ledger, one transaction's context, and the Go
functions whose answers it stores.

`GetState` reads the ledger committed before the transaction, so an operation is
a function of that ledger; what it writes is returned and takes effect only when
the operation succeeds. The stub's own calls are taken not to fail. -/
namespace FarmChain.Chaincode

/-- The world state over stored bytes of type `B`. -/
abbrev Ledger (B : Type) := Store String B

/-- The writes of one transaction. -/
abbrev WriteSet (B : Type) := List (Write String B)

/-- `shim.Timestamp`. -/
structure Timestamp where
  seconds : Int64
  nanos : Int32
  deriving DecidableEq, Repr

/-- From the year 1, where `time.Time` counts from, to 1970. -/
def unixToInternal : Int64 := 62135596800

/-- `time.Time`, as far as it is used: a 64-bit count of seconds since the year 1, and the
nanoseconds within the second. -/
structure Time where
  ext : Int64
  nsec : Int32
  deriving DecidableEq, Repr

namespace Time

/-- `time.Unix`; nanoseconds outside the second are carried over, and the seconds wrap. -/
def unix (sec nsec : Int64) : Time :=
  if nsec < 0 ∨ 1000000000 ≤ nsec then
    let n := nsec / 1000000000
    let sec := sec + n
    let nsec := nsec - n * 1000000000
    if nsec < 0 then ⟨sec - 1 + unixToInternal, (nsec + 1000000000).toInt32⟩
    else ⟨sec + unixToInternal, nsec.toInt32⟩
  else ⟨sec + unixToInternal, nsec.toInt32⟩

/-- `Time.After`: the counts are compared as they are, wrapped or not. -/
def after (a b : Time) : Bool := b.ext < a.ext || (b.ext = a.ext && b.nsec < a.nsec)

/-- `Time.Unix`. -/
def sec (t : Time) : Int := (t.ext - unixToInternal).toInt

/-- `Time.UnixNano`, a 64-bit count that wraps. -/
def unixNano (t : Time) : Int :=
  ((t.ext - unixToInternal) * 1000000000 + t.nsec.toInt64).toInt

/-- The order of the instants. -/
instance : LT Time := ⟨fun a b => a.sec < b.sec ∨ a.sec = b.sec ∧ a.nsec < b.nsec⟩

instance (a b : Time) : Decidable (a < b) :=
  inferInstanceAs (Decidable (a.sec < b.sec ∨ a.sec = b.sec ∧ a.nsec < b.nsec))

theorem sec_le {a b : Time} (h : a < b) : a.sec ≤ b.sec := by
  rcases h with hlt | ⟨heq, _⟩
  · exact le_of_lt hlt
  · exact le_of_eq heq

@[simp] theorem sec_unix_zero (sec : Int64) : (unix sec 0).sec = sec.toInt := by
  show (sec + unixToInternal - unixToInternal).toInt = _
  rw [Int64.add_sub_cancel]

/-- The second from which on `unix` wraps: 2^63 less what is added. -/
def firstWrapped : Int := 9223371974719179008

/-- The count of seconds does not fit. -/
def Wrapped (t : Time) : Prop := firstWrapped ≤ t.sec

instance (t : Time) : Decidable t.Wrapped := inferInstanceAs (Decidable (firstWrapped ≤ t.sec))

/-- The count of seconds, wrapped or not. -/
theorem ext_toInt (t : Time) :
    t.ext.toInt = t.sec + 62135596800 - if t.Wrapped then 2 ^ 64 else 0 := by
  have hlow := Int64.le_toInt t.ext
  have hhigh := Int64.toInt_lt t.ext
  have hsec : t.sec = (t.ext.toInt - 62135596800).bmod (2 ^ 64) := Int64.toInt_sub t.ext unixToInternal
  rw [Int.bmod_def] at hsec
  unfold Wrapped firstWrapped
  omega

theorem ext_le_of_after {a b : Time} (h : a.after b = true) : b.ext.toInt ≤ a.ext.toInt := by
  simp only [after, Bool.or_eq_true, Bool.and_eq_true, decide_eq_true_eq] at h
  rcases h with hlt | ⟨heq, _⟩
  · exact le_of_lt (Int64.lt_iff_toInt_lt.mp hlt)
  · rw [heq]

/-- What `after` takes for later is not earlier, unless it compared a wrapped count with one
that is not. -/
theorem sec_le_iff_of_after {a b : Time} (h : a.after b = true) :
    b.sec ≤ a.sec ↔ (b.Wrapped → a.Wrapped) := by
  have hle := ext_le_of_after h
  have hlow := Int64.toInt_lt (b.ext - unixToInternal)
  change b.sec < 2 ^ 63 at hlow
  rw [ext_toInt a, ext_toInt b] at hle
  unfold Wrapped firstWrapped at *
  split_ifs at hle <;> omega

end Time

/-- Encoding and decoding of one record type; decoding undoes encoding. -/
structure Codec (α B : Type) where
  marshal : α → B
  unmarshal : B → Except String α
  unmarshal_marshal : ∀ a, unmarshal (marshal a) = .ok a

attribute [simp] Codec.unmarshal_marshal

theorem Codec.marshal_injective {α B : Type} (c : Codec α B) : Function.Injective c.marshal := by
  intro a b h
  have hdecode := congrArg c.unmarshal h
  rw [c.unmarshal_marshal, c.unmarshal_marshal] at hdecode
  exact Except.ok.inj hdecode

/-- The Go functions the contract calls. -/
structure Runtime (B : Type) where
  role : Codec RoleAssignment B
  token : Codec CrossZoneToken B
  audit : Codec AuditEntry B
  nonce : Codec Nonce B
  index : Codec (List String) B
  /-- `[]byte(s)`. -/
  bytes : String → B
  /-- `json.Unmarshal` into a raw message: whether a text is JSON. -/
  rawMessage : String → Except String Unit
  /-- `json.Unmarshal` into `struct{ Attrs map[string]string }`. -/
  attrs : String → Option (Store String String)
  /-- `json.Unmarshal` into `map[string]string`. -/
  direct : String → Option (Store String String)
  /-- `time.Parse` with the layout `time.RFC3339`. -/
  parseRFC3339 : String → Except String Time
  /-- `Time.String`. -/
  timeString : Time → String
  /-- `hex.EncodeToString` of `sha256.Sum256`. -/
  sha256Hex : String → String
  /-- The verb `%q`. -/
  quote : String → String

/-- An X.509 certificate, as far as it is read; each extension by its value. -/
structure Certificate where
  serialNumber : Int
  commonName : String
  organizationalUnit : List String
  locality : List String
  extensions : List String
  deriving DecidableEq, Repr

/-- The order in which `range` walks over a map's keys: any order of them. -/
structure MapOrder where
  iterate : List String → List String
  perm : ∀ keys, (iterate keys).Perm keys

/-- One transaction as its stub shows it. `attributes` is `GetAttributeValue`,
when the stub offers it; `creator` is the certificate parsed from `GetCreator`,
when the stub offers that, or the error of reading it. -/
structure Context where
  attributes : Option (String → Except String (Option String))
  creator : Option (Except String Certificate)
  txID : String
  timestamp : Timestamp
  mapOrder : MapOrder

/-- `txTime`. -/
def txTime (ctx : Context) : Time :=
  Time.unix ctx.timestamp.seconds ctx.timestamp.nanos.toInt64

/-- The transaction time in Unix seconds. -/
def Context.now (ctx : Context) : Int := (txTime ctx).sec

/-- `deleteState`: both ways of deleting leave the key without a value. -/
def deleteState {B : Type} (key : String) : Write String B := (key, none)

section Index
variable {B : Type} (R : Runtime B) (l : Ledger B)

/-- The keys an index lists; none when it was never written. -/
def getStringIndex (key : String) : Except String (List String) :=
  match l.get key with
  | none => .ok []
  | some payload =>
    wrapError ("failed to unmarshal index " ++ key ++ ": " ++ ·) (R.index.unmarshal payload)

def putStringIndex (key : String) (values : List String) : Write String B :=
  (key, some (R.index.marshal values))

variable {R l}

theorem getStringIndex_congr {l' : Ledger B} {key : String} (h : l.get key = l'.get key) :
    getStringIndex R l key = getStringIndex R l' key := by
  simp only [getStringIndex, h]

/-- An index reads back as the keys last put. -/
theorem getStringIndex_put {key : String} {values : List String}
    (h : l.get key = some (R.index.marshal values)) : getStringIndex R l key = .ok values := by
  simp [getStringIndex, h, wrapError]

end Index

/-! ### Keys of other kinds -/

/-- A write leaves the records of the other kinds as they were. -/
theorem get_write_of_kind {B : Type} (l : Ledger B) {w : Write String B} {key : String}
    (h : kindOf w.1 ≠ kindOf key) : (l.write w).get key = l.get key := by
  obtain ⟨k, o⟩ := w
  exact (Store.get_write l k o key).trans (if_neg (ne_of_kind h.symm))

/-- So do several. -/
theorem get_apply_of_kinds {B : Type} (l : Ledger B) {ws : WriteSet B} {key : String}
    (h : ∀ w ∈ ws, kindOf w.1 ≠ kindOf key) : (l.apply ws).get key = l.get key :=
  Store.get_apply_of_forall_ne l ws key fun w hw => ne_of_kind (h w hw)

/-! ### A runtime that keeps documents as values -/

/-- Stored bytes as the documents they encode. -/
inductive Document where
  | role (a : RoleAssignment)
  | token (t : CrossZoneToken)
  | audit (e : AuditEntry)
  | nonce (n : Nonce)
  | index (keys : List String)
  | text (s : String)
  deriving DecidableEq, Repr

/-- Encoding is the constructor; texts are looked up in the tables given. -/
def Runtime.documents (attrs : List (String × List (String × String)))
    (instants : List (String × Time)) (clock : List (Time × String))
    (digests : List (String × String)) : Runtime Document where
  role := ⟨.role, fun | .role a => .ok a | _ => .error "not a role assignment", fun _ => rfl⟩
  token := ⟨.token, fun | .token t => .ok t | _ => .error "not a token", fun _ => rfl⟩
  audit := ⟨.audit, fun | .audit e => .ok e | _ => .error "not an audit entry", fun _ => rfl⟩
  nonce := ⟨.nonce, fun | .nonce n => .ok n | _ => .error "not a nonce", fun _ => rfl⟩
  index := ⟨.index, fun | .index keys => .ok keys | _ => .error "not an index", fun _ => rfl⟩
  bytes := .text
  rawMessage := fun s => if s = "" then .error "unexpected end of JSON input" else .ok ()
  attrs := fun s => (attrs.lookup s).map fun m => (m.map fun kv => ⟨kv.1, kv.2⟩).toFinmap
  direct := fun _ => none
  parseRFC3339 := fun s => ((instants.lookup s).map .ok).getD (.error "cannot parse")
  timeString := fun t => (clock.lookup t).getD ""
  sha256Hex := fun s => (digests.lookup s).getD ""
  quote := fun s => "\"" ++ s ++ "\""

/-- The map order that walks over the keys as they come. -/
def MapOrder.same : MapOrder := ⟨id, fun _ => .refl _⟩

/-- The mock stub of the contract's tests: a caller known by its attributes and by
a certificate that repeats them. -/
def mockContext (txID : String) (seconds : Int64) (id : String) (role : Role) (zone : String)
    (serial : Int) : Context where
  attributes := some fun name => .ok
    (if name = "hf.EnrollmentID" then some id else if name = "role" then some role.name
      else if name = "zone" then some zone else none)
  creator := some (.ok ⟨serial, id, [role.name], [zone], []⟩)
  txID := txID
  timestamp := ⟨seconds, 0⟩
  mapOrder := .same

end FarmChain.Chaincode
