import Mathlib.Algebra.Order.Ring.Rat
import Mathlib.Data.Finset.Insert
import FarmChain.Lib.Run
import FarmChain.Gateway.CrtDecode

/-! The gateway's LoRa receiver.

A packet carries one residue of a reading. `processPacket` reads the packet before it
takes the lock, and under the lock drops the assemblies that timed out, ignores a
reading that was assembled before, and keeps the residue; the second distinct modulus
completes the reading, which is put on the queue after the lock is released. The clock is
read where the source reads it; times are exact rationals, whose differences are not rounded
as those of floats are. -/
namespace FarmChain.Gateway

inductive Signature where
  | text (s : String)
  | bytes (b : List UInt8)
  deriving DecidableEq, Repr

structure SensorReading where
  deviceId : String
  readingId : String
  value : Nat
  zone : Option String := none
  timestamp : Option Rat := none
  signature : Option Signature := none
  certificate : Option String := none
  residues : List (Nat × Int) := []
  deriving DecidableEq, Repr

/-- A packet's fields; `none` where the packet has no such key. `deviceId` and
`readingId` are what `str` makes of theirs. -/
structure Packet where
  deviceId : Option String
  readingId : Option String
  modulus : Option Value := none
  modulusIndex : Option Value := none
  channel : Option Value := none
  residue : Option Value
  zone : Option String := none
  timestamp : Option Rat := none
  signature : Option Signature := none
  certificate : Option String := none
  deriving DecidableEq, Repr

/-- What a source hands over. -/
inductive Incoming where
  | packet (pkt : Packet)
  /-- Neither a mapping nor an object with attributes. -/
  | other
  deriving DecidableEq, Repr

abbrev Key := String × String

structure Assembly where
  firstSeen : Rat
  packets : List Packet := []
  residues : Dict Nat Int := ∅
  deriving DecidableEq, Repr

structure Receiver where
  timeoutSeconds : Rat := 60
  assemblies : Dict Key Assembly := ∅
  assembled : Finset Key := ∅
  readings : List SensorReading := []
  deriving DecidableEq

/-- A receiver as `__init__` leaves it. -/
def Receiver.fresh (timeoutSeconds : Rat) : Receiver := {timeoutSeconds}

/-! ### Reading a packet -/

def packetToDict : Incoming → Except Failure Packet
  | .packet pkt => .ok pkt
  | .other => .error (.value "packet must be a mapping or object with attributes")

/-- `pkt[key]`. -/
def lookup {α : Type} (key : String) : Option α → Except Failure α
  | some a => .ok a
  | none => .error (.missing key)

/-- `MODULI[index]`: a tuple counts a negative index from its end. -/
def moduliAt (index : Int) : Except Failure Nat :=
  let place := if index < 0 then index + MODULI.length else index
  if place < 0 then .error .index
  else match MODULI[place.toNat]? with
    | some modulus => .ok modulus
    | none => .error .index

def channelModulus : Value → Except Failure Int
  | .int channel =>
    if 0 ≤ channel ∧ channel < 3 then do
      let modulus ← moduliAt channel
      .ok modulus
    else .ok channel
  | channel => channel.toInt

/-- The modulus a packet names, before it is checked. -/
def namedModulus (packet : Packet) : Except Failure Int :=
  match packet.modulus, packet.modulusIndex, packet.channel with
  | some modulus, _, _ => modulus.toInt
  | none, some modulusIndex, _ => do
    let index ← modulusIndex.toInt
    let modulus ← moduliAt index
    .ok modulus
  | none, none, some channel => channelModulus channel
  | none, none, none => .error (.value "packet must include modulus, modulus_index, or channel")

def packetModulus (packet : Packet) : Except Failure Nat := do
  let modulus ← namedModulus packet
  supportedModulus modulus

/-- A packet as `processPacket` has read it when it takes the lock. -/
structure Parsed where
  pkt : Packet
  deviceId : String
  readingId : String
  modulus : Nat
  residue : Int
  deriving DecidableEq, Repr

def Parsed.key (p : Parsed) : Key := (p.deviceId, p.readingId)

def parsePacket (packet : Incoming) : Except Failure Parsed := do
  let pkt ← packetToDict packet
  let deviceId ← lookup "device_id" pkt.deviceId
  let readingId ← lookup "reading_id" pkt.readingId
  let modulus ← packetModulus pkt
  let residue ← lookup "residue" pkt.residue
  let residue ← residue.toInt
  .ok {pkt, deviceId, readingId, modulus, residue}

/-! ### Under the lock -/

def Receiver.expire (now : Rat) (r : Receiver) : Receiver :=
  {r with assemblies :=
    r.assemblies.filter fun e => decide (¬r.timeoutSeconds ≤ now - e.2.firstSeen)}

/-- The assembly of a packet's key with the packet's residue in it; `firstSeen` is the
clock as read for a new one. -/
def Receiver.extended (firstSeen : Rat) (p : Parsed) (r : Receiver) : Assembly :=
  let assembly := (r.assemblies.get p.key).getD {firstSeen}
  {assembly with
    residues := assembly.residues.set p.modulus p.residue
    packets := assembly.packets ++ [p.pkt]}

/-- The reading a packet completes. -/
def Parsed.reading (p : Parsed) (value : Nat) (assembly : Assembly) : SensorReading where
  deviceId := p.deviceId
  readingId := p.readingId
  value := value
  zone := p.pkt.zone
  timestamp := p.pkt.timestamp
  signature := p.pkt.signature
  certificate := p.pkt.certificate
  residues := assembly.residues.entries

/-- What `processPacket` does while it holds the lock. An error leaves what was done
before it: the packet's residue stays in its assembly. -/
def Receiver.collect (now firstSeen : Rat) (p : Parsed) (r : Receiver) :
    Receiver × Except Failure (Option SensorReading) :=
  let r := r.expire now
  if p.key ∈ r.assembled then (r, .ok none)
  else
    let assembly := r.extended firstSeen p
    let r := {r with assemblies := r.assemblies.set p.key assembly}
    if assembly.residues.length < 2 then (r, .ok none)
    else match decode (.mapping (asItems assembly.residues.entries)) with
      | .error e => (r, .error e)
      | .ok value =>
        ({r with assemblies := r.assemblies.erase p.key, assembled := insert p.key r.assembled},
          .ok (some (p.reading value assembly)))

/-- `queue.put`. -/
def Receiver.put (reading : SensorReading) (r : Receiver) : Receiver :=
  {r with readings := r.readings ++ [reading]}

def processPacket (now firstSeen : Rat) (packet : Incoming) (r : Receiver) :
    Receiver × Except Failure (Option SensorReading) :=
  match parsePacket packet with
  | .error e => (r, .error e)
  | .ok p =>
    match r.collect now firstSeen p with
    | (r, .ok (some reading)) => (r.put reading, .ok (some reading))
    | result => result

/-- `queue.get`, with the queue empty until the timeout. -/
def nextReading (r : Receiver) : Receiver × Option SensorReading :=
  match r.readings with
  | [] => (r, none)
  | reading :: rest => ({r with readings := rest}, some reading)

end FarmChain.Gateway
