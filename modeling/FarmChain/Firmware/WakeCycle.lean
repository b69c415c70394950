import FarmChain.Firmware.CertStore
import FarmChain.Lib.Fallible

/-! A wake of the sensor.

`app_main` runs once per wake: it waits for the time, checks the certificate, measures,
signs, transmits and goes back to sleep. What the board answers in a wake is a `Board`;
`appMain` is what the firmware does with it.

The certificate is looked at only when the time is known (`transmission_verified_iff`):
without the time not only its end is left unchecked but also whether there is one. -/
namespace FarmChain.Firmware

def SNTP_TIMEOUT_MS : Int64 := 10000
def SLEEP_CYCLE_US : UInt64 := 30 * 60 * 1000000
def MIN_SLEEP_US : UInt64 := 5 * 1000000
def LORA_CHANNEL_COUNT : Nat := 3

inductive NvsErr where
  | ESP_ERR_NVS_NO_FREE_PAGES | ESP_ERR_NVS_NEW_VERSION_FOUND
  | other (err : Int)
  deriving DecidableEq, Repr

inductive SntpSyncStatus where
  | SNTP_SYNC_STATUS_RESET | SNTP_SYNC_STATUS_COMPLETED | SNTP_SYNC_STATUS_IN_PROGRESS
  deriving DecidableEq, Repr

/-- What the board answers in a wake. An error that is not told apart is its code. -/
structure Board (Key : Type) where
  nvsFlashInit : Except NvsErr Unit
  nvsFlashErase : Except Int Unit
  /-- What `nvs_flash_init` returns after an erase. -/
  nvsFlashReinit : Except NvsErr Unit
  espNetifInit : Except Int Unit
  espEventLoopCreateDefault : Except Int Unit
  /-- `esp_timer_get_time` when `sync_time` starts. -/
  syncStart : Int64
  /-- The turns of `sync_time`'s loop so far: the timer, and the status if it is asked. -/
  syncPolls : List (Int64 × SntpSyncStatus)
  time : Int64
  sensorInit : Except Int Unit
  loraInit : Except Int Unit
  sensorRead : Except Int SensorReading
  espReadMac : Except Int (Vector UInt8 6)
  espRandom : UInt32
  privateKeyRead : Except Int (Vector UInt8 CERT_PRIVATE_KEY_LEN)
  wolfssl : Wolfssl Key
  espRomCrc32Le : UInt32 → List UInt8 → UInt32
  loraTransmit : Except Int Unit

/-- What `lora_transmit_residue_packets` is called with. -/
structure Transmitted where
  deviceId : UInt32
  readingId : UInt16
  residueValues : List UInt8
  signature : List UInt8
  deriving DecidableEq, Repr

/-- How a wake ends. -/
inductive WakeEnd where
  /-- `ESP_ERROR_CHECK` restarts the chip. -/
  | aborted
  | deepSleep (us : UInt64)
  /-- `sync_time` still polls. -/
  | syncing
  deriving DecidableEq, Repr

structure Wake where
  transmitted : Option Transmitted
  ending : WakeEnd
  deriving DecidableEq, Repr

/-- `ESP_ERROR_CHECK`. -/
def espErrorCheck {ε α : Type} : Except ε α → Except WakeEnd α
  | .error _ => .error .aborted
  | .ok a => .ok a

/-- The loop of `sync_time`; `none` while it goes on. -/
def syncLoop (deadline : Int64) : List (Int64 × SntpSyncStatus) → Option Bool
  | [] => none
  | (time, status) :: polls =>
    if time < deadline then
      if status = .SNTP_SYNC_STATUS_COMPLETED then some true else syncLoop deadline polls
    else some false

section Board
variable {Key : Type} (board : Board Key)

def syncTime : Option Bool :=
  syncLoop (board.syncStart + SNTP_TIMEOUT_MS * 1000) board.syncPolls

/-- The last four bytes of the address, as they lie in memory. -/
def deviceIdFromMac : Except WakeEnd UInt32 := do
  let mac ← espErrorCheck board.espReadMac
  return mac[2].toUInt32 ||| mac[3].toUInt32 <<< 8 ||| mac[4].toUInt32 <<< 16 |||
    mac[5].toUInt32 <<< 24

def nvsInit : Except WakeEnd Unit := do
  match board.nvsFlashInit with
  | .error .ESP_ERR_NVS_NO_FREE_PAGES | .error .ESP_ERR_NVS_NEW_VERSION_FOUND =>
    espErrorCheck board.nvsFlashErase
    espErrorCheck board.nvsFlashReinit
  | err => espErrorCheck err

/-- `esp_deep_sleep` does not return. -/
def enterEnrollmentMode : Except WakeEnd Unit := .error (.deepSleep MIN_SLEEP_US)

/-- The certificate check of `app_main`: `now` afterwards, which stays zero without the time. -/
def certCheck (rtcCert : RtcCertData) (timeSynced : Bool) : Except WakeEnd Int64 := do
  if timeSynced then
    let now := board.time
    if certStoreIsExpired board.espRomCrc32Le rtcCert now then enterEnrollmentMode
    return now
  else return 0

/-- `app_main` from the sensors to what is transmitted. -/
def measure (timeSynced : Bool) (now : Int64) : Except WakeEnd Transmitted := do
  espErrorCheck board.sensorInit
  espErrorCheck board.loraInit
  let reading ← espErrorCheck board.sensorRead
  let payload := sensorPayload (← deviceIdFromMac board) board.espRandom reading timeSynced now
  let signature ← espErrorCheck
    (signSensorData board.wolfssl board.privateKeyRead (some payload.bytes) (some []))
  let residues ← espErrorCheck (crtEncode (encodeSensorValue reading) (some []))
  return {
    deviceId := payload.deviceId
    readingId := payload.readingId
    residueValues := (residues.take LORA_CHANNEL_COUNT).map (·.value)
    signature }

/-- `app_main` as far as the transmission. -/
def beforeTransmission (rtcCert : RtcCertData) : Except WakeEnd Transmitted := do
  nvsInit board
  espErrorCheck board.espNetifInit
  espErrorCheck board.espEventLoopCreateDefault
  match syncTime board with
  | none => .error .syncing
  | some timeSynced => measure board timeSynced (← certCheck board rtcCert timeSynced)

def appMain (rtcCert : RtcCertData) : Wake :=
  match beforeTransmission board rtcCert with
  | .error ending => ⟨none, ending⟩
  | .ok transmitted =>
    match espErrorCheck board.loraTransmit with
    | .error ending => ⟨some transmitted, ending⟩
    | .ok () =>
      ⟨some transmitted,
        .deepSleep (if SLEEP_CYCLE_US < MIN_SLEEP_US then MIN_SLEEP_US else SLEEP_CYCLE_US)⟩

/-! ### When the firmware transmits -/

/-- Everything the firmware needs of the board before it can transmit, in a wake in which
the signed time is `now`. -/
structure Board.Ready (timeSynced : Bool) (now : Int64) : Prop where
  nvs : board.nvsFlashInit = .ok () ∨
    (board.nvsFlashInit = .error .ESP_ERR_NVS_NO_FREE_PAGES ∨
      board.nvsFlashInit = .error .ESP_ERR_NVS_NEW_VERSION_FOUND) ∧
    board.nvsFlashErase = .ok () ∧ board.nvsFlashReinit = .ok ()
  netif : board.espNetifInit = .ok ()
  eventLoop : board.espEventLoopCreateDefault = .ok ()
  sensor : board.sensorInit = .ok ()
  lora : board.loraInit = .ok ()
  /-- There is a reading and an address, and the payload can be signed. -/
  signs : ∃ reading deviceId signature, board.sensorRead = .ok reading ∧
    deviceIdFromMac board = .ok deviceId ∧
    signSensorData board.wolfssl board.privateKeyRead
      (some (sensorPayload deviceId board.espRandom reading timeSynced now).bytes) (some []) =
        .ok signature

@[simp]
theorem espErrorCheck_eq_ok {ε α : Type} {x : Except ε α} {a : α} :
    espErrorCheck x = .ok a ↔ x = .ok a := by
  cases x <;> simp [espErrorCheck]

theorem nvsInit_eq_ok :
    nvsInit board = .ok () ↔ board.nvsFlashInit = .ok () ∨
      (board.nvsFlashInit = .error .ESP_ERR_NVS_NO_FREE_PAGES ∨
        board.nvsFlashInit = .error .ESP_ERR_NVS_NEW_VERSION_FOUND) ∧
      board.nvsFlashErase = .ok () ∧ board.nvsFlashReinit = .ok () := by
  have herase : (∃ u, board.nvsFlashErase = .ok u) ↔ board.nvsFlashErase = .ok () :=
    ⟨fun ⟨_, h⟩ => h, fun h => ⟨(), h⟩⟩
  unfold nvsInit
  split
  · rename_i h
    simp [h, Except.bind_eq_ok, herase]
  · rename_i h
    simp [h, Except.bind_eq_ok, herase]
  · rename_i hpages hversion
    rw [espErrorCheck_eq_ok, or_iff_left]
    intro ⟨h, _⟩
    exact h.elim hpages hversion

/-- Without the time the check passes whatever the record is. -/
theorem certCheck_eq_ok {rtcCert : RtcCertData} {timeSynced : Bool} {now : Int64} :
    certCheck board rtcCert timeSynced = .ok now ↔
      if timeSynced then
        certStoreIsExpired board.espRomCrc32Le rtcCert board.time = false ∧ now = board.time
      else now = 0 := by
  unfold certCheck
  cases timeSynced with
  | false => simp [pure, Except.pure, eq_comm]
  | true =>
    cases hexpired : certStoreIsExpired board.espRomCrc32Le rtcCert board.time <;>
      simp [hexpired, enterEnrollmentMode, bind, Except.bind, pure, Except.pure, eq_comm]

theorem measure_ok_iff {timeSynced : Bool} {now : Int64} :
    (∃ transmitted, measure board timeSynced now = .ok transmitted) ↔
      board.sensorInit = .ok () ∧ board.loraInit = .ok () ∧
        ∃ reading deviceId signature, board.sensorRead = .ok reading ∧
          deviceIdFromMac board = .ok deviceId ∧
          signSensorData board.wolfssl board.privateKeyRead
            (some (sensorPayload deviceId board.espRandom reading timeSynced now).bytes)
            (some []) = .ok signature := by
  unfold measure
  constructor
  · intro ⟨transmitted, h⟩
    simp only [Except.bind_eq_ok, espErrorCheck_eq_ok] at h
    obtain ⟨_, hsensor, _, hlora, reading, hreading, deviceId, hdevice, signature, hsigned,
      _⟩ := h
    exact ⟨hsensor, hlora, reading, deviceId, signature, hreading, hdevice, hsigned⟩
  · intro ⟨hsensor, hlora, reading, deviceId, signature, hreading, hdevice, hsigned⟩
    simp only [Except.bind_eq_ok, espErrorCheck_eq_ok]
    exact ⟨_, (), hsensor, (), hlora, reading, hreading, deviceId, hdevice, signature, hsigned, _,
      crtEncode_encodeSensorValue reading [], rfl⟩

theorem beforeTransmission_ok_iff {rtcCert : RtcCertData} :
    (∃ transmitted, beforeTransmission board rtcCert = .ok transmitted) ↔
      ∃ timeSynced now, syncTime board = some timeSynced ∧
        certCheck board rtcCert timeSynced = .ok now ∧ board.Ready timeSynced now := by
  unfold beforeTransmission
  simp only [Except.bind_eq_ok, espErrorCheck_eq_ok]
  constructor
  · intro ⟨transmitted, _, hnvs, _, hnetif, _, hloop, h⟩
    split at h
    · cases h
    · rename_i timeSynced hsync
      obtain ⟨now, hcheck, hmeasure⟩ := Except.bind_eq_ok.mp h
      obtain ⟨hsensor, hlora, hsigns⟩ := measure_ok_iff board |>.mp ⟨transmitted, hmeasure⟩
      exact ⟨timeSynced, now, hsync, hcheck,
        ⟨nvsInit_eq_ok board |>.mp hnvs, hnetif, hloop, hsensor, hlora, hsigns⟩⟩
  · intro ⟨timeSynced, now, hsync, hcheck, hready⟩
    obtain ⟨transmitted, hmeasure⟩ :=
      (measure_ok_iff board).mpr ⟨hready.sensor, hready.lora, hready.signs⟩
    refine ⟨transmitted, (), nvsInit_eq_ok board |>.mpr hready.nvs, (), hready.netif, (),
      hready.eventLoop, ?_⟩
    rw [hsync]
    exact Except.bind_eq_ok.mpr ⟨now, hcheck, hmeasure⟩

/-- The firmware reaches the transmission exactly when the wait for the time ends, the
certificate check passes and the board does its part. -/
theorem appMain_transmits_iff {rtcCert : RtcCertData} :
    (appMain board rtcCert).transmitted.isSome ↔
      ∃ timeSynced now, syncTime board = some timeSynced ∧
        certCheck board rtcCert timeSynced = .ok now ∧ board.Ready timeSynced now := by
  rw [← beforeTransmission_ok_iff]
  unfold appMain
  cases beforeTransmission board rtcCert with
  | error ending => simp
  | ok transmitted => cases espErrorCheck board.loraTransmit <;> simp

/-- What the sensor should hold to: it transmits only with a certificate that can be read
and, if it knows the time, has not ended. -/
def Verified (rtcCert : RtcCertData) : Prop :=
  (appMain board rtcCert).transmitted.isSome →
    (∀ buffer, certStoreRead board.espRomCrc32Le rtcCert (some buffer) = .ok rtcCert) ∧
      (syncTime board = some true → board.time < rtcCert.notAfter)

/-- The sensor holds to it exactly when the wait for the time does not time out, or the
record is sound, or the board would not have let it transmit. -/
theorem transmission_verified_iff (rtcCert : RtcCertData) :
    Verified board rtcCert ↔
      syncTime board ≠ some false ∨
        rtcCert.magic = CERT_MAGIC ∧ certCrc32 board.espRomCrc32Le rtcCert = rtcCert.crc32 ∨
        ¬board.Ready false 0 := by
  unfold Verified
  rw [appMain_transmits_iff]
  constructor
  · intro h
    by_cases hsync : syncTime board = some false
    · by_cases hready : board.Ready false 0
      · obtain ⟨hread, _⟩ := h ⟨false, 0, hsync, (certCheck_eq_ok board).mpr rfl, hready⟩
        obtain ⟨hmagic, hcrc, _⟩ := certStoreRead_iff.mp (hread .unwritten)
        exact .inr (.inl ⟨hmagic, hcrc⟩)
      · exact .inr (.inr hready)
    · exact .inl hsync
  · intro h ⟨timeSynced, now, hsync, hcheck, hready⟩
    rw [certCheck_eq_ok] at hcheck
    cases timeSynced with
    | true =>
      obtain ⟨hmagic, hcrc, hnow⟩ := certStoreIsExpired_eq_false.mp hcheck.1
      exact ⟨fun _ => certStoreRead_iff.mpr ⟨hmagic, hcrc, rfl⟩, fun _ => hnow⟩
    | false =>
      have hnow : now = 0 := hcheck
      rw [hnow] at hready
      rcases h with h | ⟨hmagic, hcrc⟩ | h
      · exact absurd hsync h
      · refine ⟨fun _ => certStoreRead_iff.mpr ⟨hmagic, hcrc, rfl⟩, fun h => ?_⟩
        rw [hsync] at h
        cases h
      · exact absurd hready h

end Board

/-- A board on which everything works, except that the time server never answers. -/
def timelessBoard : Board Unit where
  nvsFlashInit := .ok ()
  nvsFlashErase := .ok ()
  nvsFlashReinit := .ok ()
  espNetifInit := .ok ()
  espEventLoopCreateDefault := .ok ()
  syncStart := 0
  syncPolls := [(0, .SNTP_SYNC_STATUS_RESET), (10000000, .SNTP_SYNC_STATUS_RESET)]
  time := 0
  sensorInit := .ok ()
  loraInit := .ok ()
  sensorRead := .ok ⟨2000, 2150⟩
  espReadMac := .ok (Vector.replicate 6 7)
  espRandom := 42
  privateKeyRead := .ok (Vector.replicate CERT_PRIVATE_KEY_LEN 1)
  wolfssl := {
    sha256Hash := fun _ => .ok (Vector.replicate SHA256_DIGEST_LEN 2)
    ed25519ImportPrivateOnly := fun _ => .ok ()
    ed25519SignMsg := fun _ _ => .ok (List.replicate SIGNATURE_LEN 3) }
  espRomCrc32Le := fun crc _ => crc
  loraTransmit := .ok ()

/-- After a power loss, with no time server: the sensor transmits without a certificate. -/
theorem timelessBoard_transmits :
    ¬Verified timelessBoard .unwritten ∧
      (appMain timelessBoard .unwritten).transmitted.isSome ∧
      certStoreRead timelessBoard.espRomCrc32Le .unwritten (some .unwritten) =
        .error .ESP_ERR_NOT_FOUND := by
  have htransmits : (appMain timelessBoard .unwritten).transmitted.isSome := by decide +kernel
  refine ⟨fun h => ?_, htransmits, certStoreRead_unwritten .unwritten⟩
  obtain ⟨hread, _⟩ := h htransmits
  cases (certStoreRead_unwritten .unwritten).symm.trans (hread .unwritten)

end FarmChain.Firmware
