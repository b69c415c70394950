import FarmChain.Lib.Polling
import FarmChain.Gateway.Handle

/-! The gateway's two loops.

`_source_loop` hands what its source returns to `process_packet` and what that
assembles to `on_reading`; the loop of `Gateway.run` hands what it takes from the queue
to `handle_reading`. Neither catches what these raise, so the first failure ends the
loop, and with it the thread. -/
namespace FarmChain.Gateway

variable {S C ε : Type}

/-- A pass of `_source_loop` that has a packet. The state is what the calls change, and the
context what they read besides, the work of other threads included. -/
def receivePass (processPacket : C → S → Incoming → S × Except ε (Option SensorReading))
    (onReading : Option (C → S → SensorReading → S × Except ε Unit)) (context : C) (s : S)
    (packet : Incoming) : S × Except ε Unit :=
  match processPacket context s packet with
  | (s, .error e) => (s, .error e)
  | (s, .ok none) => (s, .ok ())
  | (s, .ok (some reading)) =>
    match onReading with
    | none => (s, .ok ())
    | some onReading => onReading context s reading

def sourceLoop (processPacket : C → S → Incoming → S × Except ε (Option SensorReading))
    (onReading : Option (C → S → SensorReading → S × Except ε Unit)) (s : S)
    (passes : List (Polling.Pass C Incoming)) : Polling.Result S Incoming ε :=
  Polling.poll (receivePass processPacket onReading) s passes

/-- The loop of `Gateway.run`. -/
def runLoop (handleReading : C → S → SensorReading → S × Except ε Unit) (s : S)
    (passes : List (Polling.Pass C SensorReading)) : Polling.Result S SensorReading ε :=
  Polling.poll handleReading s passes

/-- Each loop hands over all that it is offered until stop is requested exactly if no call
in it raises, unless for the last packet or reading. -/
theorem loops_complete_iff :
    (∀ (processPacket : C → S → Incoming → S × Except ε (Option SensorReading))
        (onReading : Option (C → S → SensorReading → S × Except ε Unit)) (s : S)
        (passes : List (Polling.Pass C Incoming)),
      (sourceLoop processPacket onReading s passes).handled = Polling.offered passes ↔
        Polling.OnlyLastRaises (receivePass processPacket onReading) s passes) ∧
      ∀ (handleReading : C → S → SensorReading → S × Except ε Unit) (s : S)
        (passes : List (Polling.Pass C SensorReading)),
        (runLoop handleReading s passes).handled = Polling.offered passes ↔
          Polling.OnlyLastRaises handleReading s passes :=
  ⟨fun _ _ _ _ => Polling.poll_complete_iff, fun _ _ _ => Polling.poll_complete_iff⟩

/-! ### The gateway's own calls -/

/-- `process_packet` in a pass, with the two times it reads. -/
def processPass (clock : Rat × Rat) (g : Shared) (packet : Incoming) :
    Shared × Except Unit (Option SensorReading) :=
  match processPacket clock.1 clock.2 packet g.receiver with
  | (receiver, .error _) => ({g with receiver}, .error ())
  | (receiver, .ok reading) => ({g with receiver}, .ok reading)

/-- `handle_reading` in a pass, with what it finds outside. -/
def handlePass (gw : Config) (c : Handling) (g : Shared) (reading : SensorReading) :
    Shared × Except Unit Unit :=
  match handleReading gw g {c with reading} with
  | (.raised, g) | (.submitted (.error _), g) => (g, .error ())
  | (_, g) => (g, .ok ())

/-- A source thread of the gateway. -/
def gatewaySourceLoop (gw : Config) :
    Shared → List (Polling.Pass ((Rat × Rat) × Handling) Incoming) →
      Polling.Result Shared Incoming Unit :=
  sourceLoop (fun context => processPass context.1) (some fun context => handlePass gw context.2)

/-- The main thread of the gateway. -/
def gatewayRunLoop (gw : Config) :
    Shared → List (Polling.Pass Handling SensorReading) → Polling.Result Shared SensorReading Unit :=
  runLoop (handlePass gw)

/-- One pass for each of some items, with the same context and stop never requested. -/
def passes {A C : Type} (context : C) (items : List A) : List (Polling.Pass C A) :=
  items.map fun item => ⟨false, some item, context⟩

/-- A reading for which Fabric raises, after all retries. -/
def failingHandling : Handling :=
  {probeHandling "a" "north" 0 0 with checkAccess := fun _ _ => .error .conversion}

def twoReadings : List SensorReading :=
  [{deviceId := "a", readingId := "1", value := 5}, {deviceId := "a", readingId := "2", value := 5}]

/-- A packet of modulus 99 ends the source thread: the next packet is not processed. And a
reading for which Fabric raises ends the main thread: the next is not handled. -/
theorem loops_end_early :
    Polling.offered (passes ((0, 0), failingHandling)
        [(packetAt 0 99 5).packet, (packetAt 0 97 5).packet]) =
      [(packetAt 0 99 5).packet, (packetAt 0 97 5).packet] ∧
    (gatewaySourceLoop unsignedGateway (unused 60 300 fiveMinutes_positive)
        (passes ((0, 0), failingHandling)
          [(packetAt 0 99 5).packet, (packetAt 0 97 5).packet])).handled =
      [(packetAt 0 99 5).packet] ∧
    Polling.offered (passes failingHandling twoReadings) = twoReadings ∧
    (gatewayRunLoop unsignedGateway (unused 60 300 fiveMinutes_positive)
        (passes failingHandling twoReadings)).handled.length = 1 :=
  ⟨by decide +kernel, by decide +kernel, by decide +kernel, by decide +kernel⟩

end FarmChain.Gateway
