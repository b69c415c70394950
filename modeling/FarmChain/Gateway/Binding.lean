import FarmChain.Lib.Strings
import FarmChain.Gateway.Assembly
import FarmChain.Gateway.Forgery

/-! What the signed bytes tell apart.

The four signed fields are joined by colons that nothing escapes, and a missing zone is
signed as an empty one. Two readings are signed alike exactly when a colon can be moved:
between the ids, or past the value (`signaturePayload_eq_iff`). -/
namespace FarmChain.Gateway

/-- The readings differ in a signed field. -/
def Differ (x y : SensorReading) : Prop :=
  x.deviceId ≠ y.deviceId ∨ x.readingId ≠ y.readingId ∨ x.value ≠ y.value ∨ x.zone ≠ y.zone

instance (x y : SensorReading) : Decidable (Differ x y) := by
  unfold Differ
  infer_instance

/-- Both ids, as they are signed. -/
def SensorReading.ids (reading : SensorReading) : String :=
  reading.deviceId ++ ":" ++ reading.readingId

/-- The zone, as it is signed. -/
def SensorReading.zoneText (reading : SensorReading) : String := reading.zone.getD ""

/-- The device id of `y` goes on, after a colon, into the reading id of `x`. -/
def Shifted (x y : SensorReading) : Prop :=
  ∃ p, y.deviceId = x.deviceId ++ ":" ++ p ∧ x.readingId = p ++ ":" ++ y.readingId

/-- The ids are the same, or differ in which of their colons comes between them; the
values and the zones' texts are the same. -/
structure SameText (x y : SensorReading) : Prop where
  ids : (x.deviceId = y.deviceId ∧ x.readingId = y.readingId) ∨ Shifted x y ∨ Shifted y x
  value : x.value = y.value
  zone : x.zoneText = y.zoneText

/-- The ids of `y` run on through the value of `x` into its zone, the rest of which is the
value and the zone of `y`. -/
def RunsOn (x y : SensorReading) : Prop :=
  ∃ m, y.ids = x.ids ++ ":" ++ toString x.value ++ m ∧
    ":" ++ x.zoneText = m ++ ":" ++ toString y.value ++ ":" ++ y.zoneText

/-- A colon can be moved. -/
def Ambiguous (x y : SensorReading) : Prop := SameText x y ∨ RunsOn x y ∨ RunsOn y x

/-! ### The signed text -/

def signedText (reading : SensorReading) : String :=
  reading.ids ++ ":" ++ toString reading.value ++ ":" ++ reading.zoneText

theorem signaturePayload_eq (reading : SensorReading) :
    signaturePayload reading = utf8 (signedText reading) := by
  unfold signaturePayload signedText SensorReading.ids SensorReading.zoneText
  simp [String.append_assoc, toString]

theorem utf8_inj {a b : String} (h : utf8 a = utf8 b) : a = b := by
  refine String.toByteArray_inj.mp (ByteArray.ext (Array.ext' ?_))
  exact h

theorem signedText_chars (reading : SensorReading) : (signedText reading).toList =
    reading.ids.toList ++ ':' ::
      (Nat.toDigits 10 reading.value ++ ':' :: reading.zoneText.toList) := by
  simp [signedText, String.toList_append, Nat.toList_repr, toString]

theorem colon_notMem_value (n : Nat) : ':' ∉ Nat.toDigits 10 n := by
  intro h
  have hdigit : ':'.isDigit = true := Nat.isDigit_of_mem_toDigits (b := 10) (by decide) (by decide) h
  exact absurd hdigit (by decide)

section
variable {x y : SensorReading}

theorem Shifted.ids (h : Shifted x y) : x.ids = y.ids := by
  obtain ⟨p, hdevice, hreading⟩ := h
  unfold SensorReading.ids
  rw [hdevice, hreading]
  simp only [String.append_assoc]

theorem shifted_of_chars {k : List Char} (hdevice : y.deviceId.toList = x.deviceId.toList ++ k)
    (hreading : ':' :: x.readingId.toList = k ++ ':' :: y.readingId.toList) :
    (x.deviceId = y.deviceId ∧ x.readingId = y.readingId) ∨ Shifted x y := by
  cases k with
  | nil =>
    rw [List.append_nil] at hdevice
    exact .inl ⟨String.toList_inj.mp hdevice.symm, String.toList_inj.mp (List.cons.inj hreading).2⟩
  | cons c p =>
    obtain ⟨rfl, hrest⟩ := List.cons.inj hreading
    refine .inr ⟨String.ofList p, String.toList_inj.mp ?_, String.toList_inj.mp ?_⟩
    · simpa [String.toList_append] using hdevice
    · simpa [String.toList_append] using hrest

/-- The ids join to the same text when a colon of it can come between them in two places. -/
theorem ids_eq_iff : x.ids = y.ids ↔
    (x.deviceId = y.deviceId ∧ x.readingId = y.readingId) ∨ Shifted x y ∨ Shifted y x := by
  constructor
  · intro h
    have hchars : x.deviceId.toList ++ ':' :: x.readingId.toList =
        y.deviceId.toList ++ ':' :: y.readingId.toList := by
      simpa [SensorReading.ids, String.toList_append] using congrArg String.toList h
    rcases List.append_eq_append_iff.mp hchars with ⟨k, hdevice, hreading⟩ | ⟨k, hdevice, hreading⟩
    · exact (shifted_of_chars hdevice hreading).imp_right .inl
    · exact (shifted_of_chars hdevice hreading).imp (And.imp Eq.symm Eq.symm) .inr
  · rintro (⟨hdevice, hreading⟩ | hshifted | hshifted)
    · rw [SensorReading.ids, SensorReading.ids, hdevice, hreading]
    · exact hshifted.ids
    · exact hshifted.ids.symm

theorem runsOn_of_chars {m : List Char}
    (hids : y.ids.toList = x.ids.toList ++ ':' :: Nat.toDigits 10 x.value ++ m)
    (hzone : ':' :: x.zoneText.toList =
      m ++ ':' :: (Nat.toDigits 10 y.value ++ ':' :: y.zoneText.toList)) : RunsOn x y := by
  refine ⟨String.ofList m, String.toList_inj.mp ?_, String.toList_inj.mp ?_⟩
  · simp [hids, String.toList_append, Nat.toList_repr, toString]
  · simpa [String.toList_append, Nat.toList_repr, toString] using hzone

theorem sameText_of_chars (hids : x.ids.toList = y.ids.toList)
    (hvalue : Nat.toDigits 10 x.value = Nat.toDigits 10 y.value)
    (hzone : x.zoneText.toList = y.zoneText.toList) : SameText x y where
  ids := ids_eq_iff.mp (String.toList_inj.mp hids)
  value := Strings.natDigits_inj hvalue
  zone := String.toList_inj.mp hzone

/-- A text that runs on past the value is signed the same. -/
theorem RunsOn.signedText (h : RunsOn x y) : signedText x = signedText y := by
  obtain ⟨m, hids, hzone⟩ := h
  unfold Gateway.signedText
  rw [hids]
  calc x.ids ++ ":" ++ toString x.value ++ ":" ++ x.zoneText
      = x.ids ++ ":" ++ toString x.value ++ (":" ++ x.zoneText) := by
        simp only [String.append_assoc]
    _ = x.ids ++ ":" ++ toString x.value ++
          (m ++ ":" ++ toString y.value ++ ":" ++ y.zoneText) := by rw [hzone]
    _ = _ := by simp only [String.append_assoc]

/-- **Two readings are signed alike exactly when a colon can be moved.** -/
theorem signaturePayload_eq_iff : signaturePayload x = signaturePayload y ↔ Ambiguous x y := by
  rw [signaturePayload_eq, signaturePayload_eq]
  constructor
  · intro h
    have hchars := congrArg String.toList (utf8_inj h)
    rw [signedText_chars, signedText_chars] at hchars
    have hx := colon_notMem_value x.value
    have hy := colon_notMem_value y.value
    rcases List.append_eq_append_iff.mp hchars with ⟨k, hids, hk⟩ | ⟨k, hids, hk⟩
    · rcases Strings.join_longer (a := x.ids.toList) hx hy hk with
        ⟨rfl, hvalue, hzone⟩ | ⟨m, hm, hzone⟩
      · exact .inl (sameText_of_chars (by rw [hids, List.append_nil]) hvalue hzone)
      · exact .inr (.inl (runsOn_of_chars (hids.trans hm) hzone))
    · rcases Strings.join_longer (a := y.ids.toList) hy hx hk with
        ⟨rfl, hvalue, hzone⟩ | ⟨m, hm, hzone⟩
      · exact .inl (sameText_of_chars (by rw [hids, List.append_nil]) hvalue.symm hzone.symm)
      · exact .inr (.inr (runsOn_of_chars (hids.trans hm) hzone))
  · rintro (hsame | hruns | hruns)
    · unfold signedText
      rw [ids_eq_iff.mpr hsame.ids, hsame.value, hsame.zone]
    · rw [hruns.signedText]
    · rw [hruns.signedText]

end

/-! ### Signatures -/

/-- A signature verifies over one message under a key. -/
def BindsMessage {PublicKey : Type} (crypto : Cryptography PublicKey) : Prop :=
  ∀ publicKey signature message message', crypto.verify publicKey signature message = .ok () →
    crypto.verify publicKey signature message' = .ok () → message = message'

/-- `y` with the signature and the certificate of `x`. -/
def SensorReading.signedAs (y x : SensorReading) : SensorReading :=
  {y with signature := x.signature, certificate := x.certificate}

/-- The signature of an accepted reading is accepted with another exactly when that is
signed alike. -/
theorem signedAs_accepted_iff {PublicKey : Type} {crypto : Cryptography PublicKey}
    (hbinds : BindsMessage crypto) {x : SensorReading} (y : SensorReading)
    {publicKeyPem : Option KeyMaterial} (hsigned : x.signature ≠ none)
    (haccepted : verifySignature crypto x publicKeyPem = .ok true) :
    verifySignature crypto (y.signedAs x) publicKeyPem = .ok true ↔
      signaturePayload x = signaturePayload y := by
  obtain ⟨s, hs⟩ := Option.ne_none_iff_exists'.mp hsigned
  obtain ⟨material, hmaterial, bytes, hbytes, publicKey, hload, hkind, hverify⟩ :=
    (verifySignature_eq_ok hs).mp haccepted
  have hsy : (y.signedAs x).signature = some s := hs
  have hmaterialy : keyMaterial publicKeyPem (y.signedAs x) = some material := hmaterial
  rw [verifySignature_eq_ok hsy]
  constructor
  · rintro ⟨_, hmaterial', _, hbytes', _, hload', _, hverify'⟩
    cases hmaterialy.symm.trans hmaterial'
    cases hbytes.symm.trans hbytes'
    cases hload.symm.trans hload'
    exact hbinds publicKey bytes _ _ hverify hverify'
  · intro hsame
    refine ⟨material, hmaterialy, bytes, hbytes, publicKey, hload, hkind, ?_⟩
    rw [hsame] at hverify
    exact hverify

/-- **The signed bytes of two readings that differ are different, and the signature of one
is refused with the other, exactly when no colon can be moved.** -/
theorem signed_fields_bound_iff (x y : SensorReading) :
    ((Differ x y → signaturePayload x ≠ signaturePayload y) ↔ ¬(Differ x y ∧ Ambiguous x y)) ∧
    ∀ {PublicKey : Type} (crypto : Cryptography PublicKey), BindsMessage crypto →
      ∀ publicKeyPem, x.signature ≠ none → verifySignature crypto x publicKeyPem = .ok true →
        ((Differ x y → verifySignature crypto (y.signedAs x) publicKeyPem ≠ .ok true) ↔
          ¬(Differ x y ∧ Ambiguous x y)) := by
  refine ⟨?_, fun crypto hbinds publicKeyPem hsigned haccepted => ?_⟩
  · rw [Ne, signaturePayload_eq_iff, not_and]
  · rw [Ne, signedAs_accepted_iff hbinds y hsigned haccepted, signaturePayload_eq_iff, not_and]

theorem twoKeys_bindsMessage : BindsMessage twoKeys := by
  intro device signature message message' h h'
  have hmessage (m : List UInt8) (hm : twoKeys.verify device signature m = .ok ()) :
      (m, signature) = signedWith device := by
    by_contra hne
    cases (if_neg hne).symm.trans hm
  exact congrArg Prod.fst ((hmessage message h).trans (hmessage message' h').symm)

/-- A reading the device of `twoKeys` signed; its signature is refused with another value. -/
theorem signature_refused : verifySignature twoKeys
    (SensorReading.signedAs
      {deviceId := "probe", readingId := "1", value := 65, zone := some "north"}
      {deviceId := "probe", readingId := "1", value := 64, zone := some "north"
       signature := some (.bytes deviceSignature), certificate := some devicePem})
    none ≠ .ok true := by
  have hbound := signed_fields_bound_iff
    {deviceId := "probe", readingId := "1", value := 64, zone := some "north"
     signature := some (.bytes deviceSignature), certificate := some devicePem}
    {deviceId := "probe", readingId := "1", value := 65, zone := some "north"}
  have hapart := hbound.1.mp fun _ => by decide +kernel
  refine (hbound.2 twoKeys twoKeys_bindsMessage none ?_ ?_).mpr hapart (by decide)
  · exact Option.some_ne_none _
  · decide +kernel

/-- A packet of a reading with these ids. -/
def packetFrom (deviceId readingId : String) (modulus : Nat) : Delivery where
  packet := .packet
    {deviceId, readingId, modulus := some (.int modulus), residue := some (.int 5)}
  now := 0
  firstSeen := 0

/-- Readings of two devices that a receiver emits and that are signed alike. -/
theorem colon_moved :
    ∃ x y, Run.emits receive emission (Receiver.fresh 60)
        [packetFrom "a:1" "2" 97, packetFrom "a:1" "2" 101, packetFrom "a" "1:2" 97,
          packetFrom "a" "1:2" 101] = [x, y] ∧
      Differ x y ∧ signaturePayload x = signaturePayload y := by
  refine ⟨{deviceId := "a:1", readingId := "2", value := 5, residues := [(97, 5), (101, 5)]},
    {deviceId := "a", readingId := "1:2", value := 5, residues := [(97, 5), (101, 5)]}, ?_, ?_, ?_⟩
  · decide +kernel
  · decide
  · decide +kernel

end FarmChain.Gateway
