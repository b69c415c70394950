import FarmChain.Gateway.Handle
import FarmChain.Gateway.Verify

/-! What rewriting a rejected reading achieves.

A reading's signature and the key it is checked under both come from its packet, and
`handle_reading` passes no key of its own. A party that knows some key pairs may keep,
remove or replace either field. `rewriting_rejected_iff`: the rewritten reading is
rejected exactly if it still carries a signature and is not signed over its own text
under a key pair that the party knows. -/
namespace FarmChain.Gateway

/-! ### Rewriting -/

inductive FieldEdit (α : Type) where
  | keep
  | remove
  | substitute (a : α)
  deriving DecidableEq, Repr

def FieldEdit.apply {α : Type} (edit : FieldEdit α) (field : Option α) : Option α :=
  match edit with
  | .keep => field
  | .remove => none
  | .substitute a => some a

/-- What becomes of a reading's signature and certificate. -/
structure Rewriting where
  signature : FieldEdit Signature
  certificate : FieldEdit String
  deriving DecidableEq, Repr

def Rewriting.apply (w : Rewriting) (reading : SensorReading) : SensorReading :=
  {reading with
    signature := w.signature.apply reading.signature
    certificate := w.certificate.apply reading.certificate}

/-! ### Key pairs -/

/-- A key pair: its public key, the PEM text of it, and the signatures that its private key
makes of a message. -/
structure Signer (PublicKey : Type) where
  publicKey : PublicKey
  pem : String
  Signs : List UInt8 → List UInt8 → Prop

section
variable {PublicKey : Type} (crypto : Cryptography PublicKey) (known : Signer PublicKey → Prop)

/-- Signatures that verify are made with the private key. -/
structure Unforgeable : Prop where
  loads : ∀ k, known k → crypto.loadPemPublicKey (utf8 k.pem) = .ok k.publicKey
  supported : ∀ k, known k → crypto.kind k.publicKey ≠ .other
  /-- What a known pair signs verifies under it, and nothing else does. -/
  verifies : ∀ k, known k → ∀ message signature,
    crypto.verify k.publicKey signature message = .ok () ↔ k.Signs message signature
  /-- A signature made with a known pair verifies under no key but those of known pairs. -/
  foreign : ∀ k, known k → ∀ message signature, k.Signs message signature →
    ∀ publicKey message', crypto.verify publicKey signature message' = .ok () →
      ∃ k', known k' ∧ k'.publicKey = publicKey

/-- A rewriting by a party that knows these pairs: what it puts in is its own. -/
structure Rewriting.By (w : Rewriting) : Prop where
  signature : ∀ s, w.signature = .substitute s →
    ∃ k, known k ∧ ∃ message bytes, s.toBytes = .ok bytes ∧ k.Signs message bytes
  certificate : ∀ pem, w.certificate = .substitute pem → ∃ k, known k ∧ k.pem = pem

/-- The reading is signed over its own text under a known pair, and comes with its key. -/
def SignedByKnown (reading : SensorReading) : Prop :=
  ∃ k, known k ∧ ∃ pem, reading.certificate = some pem ∧ pem ≠ "" ∧
    crypto.loadPemPublicKey (utf8 pem) = .ok k.publicKey ∧
    ∃ s bytes, reading.signature = some s ∧ s.toBytes = .ok bytes ∧
      k.Signs (signaturePayload reading) bytes

/-- `verify_signature` does not return true, called as `handle_reading` calls it. -/
def Rejects (reading : SensorReading) : Prop := verifySignature crypto reading none ≠ .ok true

/-- `handle_reading` does not submit the reading, whatever it finds. -/
def NeverSubmits (reading : SensorReading) : Prop :=
  ∀ (zone : String) (g : Shared) (c : Handling) (result : Except Failure Unit),
    c.reading = reading → (handleReading (.verifying crypto zone) g c).1 ≠ .submitted result

variable {crypto known} {reading : SensorReading}

/-! ### Acceptance -/

theorem tryVerify_eq_ok {material : KeyMaterial} {signature : List UInt8} :
    tryVerify crypto material signature reading = .ok true ↔
      ∃ publicKey, crypto.loadPemPublicKey material.encode = .ok publicKey ∧
        crypto.kind publicKey ≠ .other ∧
        crypto.verify publicKey signature (signaturePayload reading) = .ok () := by
  unfold tryVerify
  rw [Except.bind_eq_ok]
  refine exists_congr fun publicKey => and_congr_right fun _ => ?_
  have hunit (x : Except CryptoFailure Unit) : (∃ u, x = .ok u) ↔ x = .ok () := Unique.exists_iff
  cases crypto.kind publicKey <;> simp [Except.bind_eq_ok, hunit]

theorem keyMaterial_none {material : KeyMaterial} :
    keyMaterial none reading = some material ↔
      ∃ pem, reading.certificate = some pem ∧ pem ≠ "" ∧ material = .text pem := by
  unfold keyMaterial
  cases reading.certificate with
  | none => simp
  | some pem =>
    show Option.filter _ (some (KeyMaterial.text pem)) = some material ↔ _
    rw [Option.filter_some]
    by_cases hpem : pem = ""
    · simp [hpem]
    · constructor
      · intro h
        rw [if_pos (by simp [hpem])] at h
        exact ⟨pem, rfl, hpem, (Option.some_inj.mp h).symm⟩
      · intro h
        obtain ⟨_, hsame, _, rfl⟩ := h
        cases hsame
        exact if_pos (by simp [hpem])

/-- A signed reading is accepted when its signature verifies under the key material. -/
theorem verifySignature_eq_ok {s : Signature} {publicKeyPem : Option KeyMaterial}
    (h : reading.signature = some s) :
    verifySignature crypto reading publicKeyPem = .ok true ↔
      ∃ material, keyMaterial publicKeyPem reading = some material ∧
        ∃ bytes, s.toBytes = .ok bytes ∧
          ∃ publicKey, crypto.loadPemPublicKey material.encode = .ok publicKey ∧
            crypto.kind publicKey ≠ .other ∧
            crypto.verify publicKey bytes (signaturePayload reading) = .ok () := by
  unfold verifySignature
  rw [h]
  dsimp only
  cases keyMaterial publicKeyPem reading with
  | none => simp
  | some material =>
    constructor
    · intro haccepted
      obtain ⟨bytes, hbytes, hresult⟩ := Except.bind_eq_ok.mp haccepted
      refine ⟨material, rfl, bytes, hbytes, ?_⟩
      split at hresult
      · rename_i verified hverified
        cases hresult
        exact tryVerify_eq_ok.mp hverified
      · cases hresult
      · cases hresult
      · cases hresult
    · intro haccepted
      obtain ⟨_, hmaterial, bytes, hbytes, hverified⟩ := haccepted
      cases hmaterial
      refine Except.bind_eq_ok.mpr ⟨bytes, hbytes, ?_⟩
      rw [tryVerify_eq_ok.mpr hverified]

/-- A signed reading is accepted under the key it comes with. -/
theorem verifySignature_signed {s : Signature} (h : reading.signature = some s) :
    verifySignature crypto reading none = .ok true ↔
      ∃ pem, reading.certificate = some pem ∧ pem ≠ "" ∧ ∃ bytes, s.toBytes = .ok bytes ∧
        ∃ publicKey, crypto.loadPemPublicKey (utf8 pem) = .ok publicKey ∧
          crypto.kind publicKey ≠ .other ∧
          crypto.verify publicKey bytes (signaturePayload reading) = .ok () := by
  rw [verifySignature_eq_ok h]
  constructor
  · intro haccepted
    obtain ⟨material, hmaterial, hverified⟩ := haccepted
    obtain ⟨pem, hpem, hne, rfl⟩ := keyMaterial_none.mp hmaterial
    exact ⟨pem, hpem, hne, hverified⟩
  · intro haccepted
    obtain ⟨pem, hpem, hne, hverified⟩ := haccepted
    exact ⟨.text pem, keyMaterial_none.mpr ⟨pem, hpem, hne, rfl⟩, hverified⟩

/-- A rejected reading is not submitted. -/
theorem Rejects.neverSubmits (h : Rejects crypto reading) : NeverSubmits crypto reading := by
  intro zone g c result hc hsubmitted
  unfold handleReading at hsubmitted
  have hverify : (Config.verifying crypto zone).verifySignature c.reading ≠ .ok true := by
    rw [hc]
    exact h
  split at hsubmitted
  · cases hsubmitted
  · cases hsubmitted
  · rename_i haccepted
    exact hverify haccepted

/-! ### The exact condition -/

/-- Without a signature a reading is accepted. -/
theorem unsigned_accepted (h : reading.signature = none) :
    verifySignature crypto reading none = .ok true := by
  unfold verifySignature
  rw [h]

theorem signedByKnown_accepted (hcrypto : Unforgeable crypto known)
    (h : SignedByKnown crypto known reading) : verifySignature crypto reading none = .ok true := by
  obtain ⟨k, hk, pem, hpem, hne, hload, s, bytes, hs, hbytes, hsigns⟩ := h
  exact (verifySignature_signed hs).mpr ⟨pem, hpem, hne, bytes, hbytes, k.publicKey, hload,
    hcrypto.supported k hk, (hcrypto.verifies k hk _ _).mpr hsigns⟩

/-- An accepted rewriting of a rejected reading has no signature, or is signed over its text
under a pair of the rewriting party. -/
theorem accepted_rewriting (hcrypto : Unforgeable crypto known) (hrejects : Rejects crypto reading)
    {w : Rewriting} (hw : w.By known) {s : Signature}
    (hs : (w.apply reading).signature = some s)
    (haccepted : verifySignature crypto (w.apply reading) none = .ok true) :
    SignedByKnown crypto known (w.apply reading) := by
  obtain ⟨pem, hpem, hne, bytes, hbytes, publicKey, hload, hkind, hverify⟩ :=
    (verifySignature_signed hs).mp haccepted
  -- the key it verifies under is of a known pair
  have hkey : ∃ k, known k ∧ k.publicKey = publicKey := by
    cases hsignature : w.signature with
    | remove =>
      have hnone : (w.apply reading).signature = none := by
        simp [Rewriting.apply, hsignature, FieldEdit.apply]
      cases hnone.symm.trans hs
    | substitute own =>
      obtain ⟨k, hk, message, made, hmade, hsigns⟩ := hw.signature own hsignature
      have hown : (w.apply reading).signature = some own := by
        simp [Rewriting.apply, hsignature, FieldEdit.apply]
      cases hown.symm.trans hs
      cases hmade.symm.trans hbytes
      exact hcrypto.foreign k hk message bytes hsigns publicKey _ hverify
    | keep =>
      cases hcertificate : w.certificate with
      | remove =>
        have hnone : (w.apply reading).certificate = none := by
          simp [Rewriting.apply, hcertificate, FieldEdit.apply]
        cases hnone.symm.trans hpem
      | substitute own =>
        obtain ⟨k, hk, hkpem⟩ := hw.certificate own hcertificate
        have hown : (w.apply reading).certificate = some own := by
          simp [Rewriting.apply, hcertificate, FieldEdit.apply]
        cases hown.symm.trans hpem
        have hloads := hcrypto.loads k hk
        rw [hkpem, hload] at hloads
        cases hloads
        exact ⟨k, hk, rfl⟩
      | keep =>
        have hsame : w.apply reading = reading := by
          simp [Rewriting.apply, hsignature, hcertificate, FieldEdit.apply]
        rw [hsame] at haccepted
        exact absurd haccepted hrejects
  obtain ⟨k, hk, rfl⟩ := hkey
  exact ⟨k, hk, pem, hpem, hne, hload, s, bytes, hs, hbytes, (hcrypto.verifies k hk _ _).mp hverify⟩

/-- What a rejected reading becomes by rewriting is rejected, and never submitted, exactly
if it has a signature and is not signed over its own text under a known pair whose key it
comes with. -/
theorem rewriting_rejected_iff (hcrypto : Unforgeable crypto known)
    (hrejects : Rejects crypto reading) {w : Rewriting} (hw : w.By known) :
    Rejects crypto (w.apply reading) ∧ NeverSubmits crypto (w.apply reading) ↔
      (w.apply reading).signature ≠ none ∧ ¬SignedByKnown crypto known (w.apply reading) := by
  constructor
  · intro h
    refine ⟨fun hnone => h.1 (unsigned_accepted hnone), fun hsigned => ?_⟩
    exact h.1 (signedByKnown_accepted hcrypto hsigned)
  · intro h
    obtain ⟨hsome, hforeign⟩ := h
    obtain ⟨s, hs⟩ := Option.ne_none_iff_exists'.mp hsome
    have hrejected : Rejects crypto (w.apply reading) :=
      fun haccepted => hforeign (accepted_rewriting hcrypto hrejects hw hs haccepted)
    exact ⟨hrejected, hrejected.neverSubmits⟩

end

/-! A device and a stranger have an Ed25519 key pair each and have signed one text each. The
device's reading was altered on its way, and is rejected. -/

def devicePem : String :=
  "-----BEGIN PUBLIC KEY-----\nMCowBQYDK2VwAyEAPUAXw+hDiVqStwqnTRt+vJyYLM8uxJaMwM1V8Sr0Zgw=\n" ++
    "-----END PUBLIC KEY-----\n"

def strangerPem : String :=
  "-----BEGIN PUBLIC KEY-----\nMCowBQYDK2VwAyEA/FHNjmIYoaONpH7QAjDwWAgW7RO6MwOsXeuRFUiQgCU=\n" ++
    "-----END PUBLIC KEY-----\n"

/-- The device's, of `probe:1:64:north`. -/
def deviceSignature : List UInt8 :=
  [105, 136, 82, 65, 88, 40, 65, 124, 77, 63, 128, 247, 218, 25, 141, 107, 94, 87, 122, 0, 162,
    160, 165, 111, 183, 51, 3, 36, 122, 122, 246, 213, 157, 135, 59, 147, 42, 82, 19, 40, 75,
    78, 229, 222, 137, 114, 235, 44, 45, 25, 190, 64, 151, 174, 183, 170, 71, 217, 253, 152,
    100, 239, 132, 15]

/-- The stranger's, of `probe:1:65:north`. -/
def strangerSignature : List UInt8 :=
  [93, 124, 99, 30, 112, 147, 126, 176, 235, 150, 168, 159, 208, 197, 150, 89, 172, 156, 27, 6,
    39, 73, 193, 12, 181, 64, 191, 52, 44, 151, 93, 49, 146, 25, 58, 105, 80, 85, 185, 179, 212,
    250, 130, 169, 78, 143, 138, 43, 84, 108, 136, 238, 225, 45, 250, 101, 149, 7, 106, 191, 72,
    171, 94, 4]

/-- What has been signed with the device's private key and with the stranger's. -/
def signedWith (device : Bool) : List UInt8 × List UInt8 :=
  if device then (utf8 "probe:1:64:north", deviceSignature)
  else (utf8 "probe:1:65:north", strangerSignature)

def twoKeys : Cryptography Bool where
  loadPemPublicKey pem :=
    if pem = utf8 devicePem then .ok true
    else if pem = utf8 strangerPem then .ok false
    else .error .value
  kind _ := .ed25519
  verify device signature message :=
    if (message, signature) = signedWith device then .ok () else .error .invalidSignature

def stranger : Signer Bool where
  publicKey := false
  pem := strangerPem
  Signs message signature := (message, signature) = signedWith false

def alteredReading : SensorReading :=
  {deviceId := "probe", readingId := "1", value := 65, zone := some "north"
   signature := some (.bytes deviceSignature), certificate := some devicePem}

theorem twoKeys_unforgeable : Unforgeable twoKeys (· = stranger) where
  loads := by
    intro k hk
    rw [hk]
    decide +kernel
  supported := fun k _ => KeyKind.noConfusion
  verifies := by
    intro k hk message signature
    rw [hk]
    simp [twoKeys, stranger]
  foreign := by
    intro k hk message signature hsigns publicKey message' hverify
    rw [hk] at hsigns
    refine ⟨stranger, rfl, ?_⟩
    cases publicKey with
    | false => rfl
    | true =>
      have hdevice : (message', signature) = signedWith true := by
        by_contra hne
        cases (if_neg hne).symm.trans hverify
      have hsame : deviceSignature = strangerSignature :=
        (congrArg Prod.snd hdevice).symm.trans (congrArg Prod.snd hsigns)
      exact absurd hsame (by decide)

theorem alteredReading_rejected : Rejects twoKeys alteredReading := by
  unfold Rejects
  decide +kernel

/-- The stranger's signature under the device's key is rejected too. -/
theorem rewriting_rejected_stranger :
    Rejects twoKeys
        (Rewriting.apply ⟨.substitute (.bytes strangerSignature), .keep⟩ alteredReading) ∧
      NeverSubmits twoKeys
        (Rewriting.apply ⟨.substitute (.bytes strangerSignature), .keep⟩ alteredReading) := by
  refine (rewriting_rejected_iff twoKeys_unforgeable alteredReading_rejected ⟨?_, ?_⟩).mpr ⟨?_, ?_⟩
  · intro s hs
    cases hs
    exact ⟨stranger, rfl, utf8 "probe:1:65:north", _, rfl, rfl⟩
  · intro pem hpem
    cases hpem
  · exact Option.some_ne_none _
  · intro h
    obtain ⟨k, hk, pem, hpem, _, hload, _⟩ := h
    cases hpem
    rw [hk] at hload
    have hdevice : twoKeys.loadPemPublicKey (utf8 devicePem) = .ok true := by decide +kernel
    cases hdevice.symm.trans hload

/-- Without its signature the altered reading is accepted and submitted, and so it is with
the stranger's signature and public key. -/
theorem rewriting_accepted :
    Rejects twoKeys alteredReading ∧
      verifySignature twoKeys (Rewriting.apply ⟨.remove, .keep⟩ alteredReading) none = .ok true ∧
      verifySignature twoKeys (Rewriting.apply
        ⟨.substitute (.bytes strangerSignature), .substitute strangerPem⟩
        alteredReading) none = .ok true ∧
      (handleReading (.verifying twoKeys "north") (unused 60 300 fiveMinutes_positive)
        {reading := Rewriting.apply ⟨.remove, .keep⟩ alteredReading, lookAt := 0, storeAt := 0
         checkAccess _ _ := .ok (some (.text "GRANT"))
         submitSensorReading := .ok ()}).1 = .submitted (.ok ()) := by
  refine ⟨?_, ?_, ?_, ?_⟩
  · unfold Rejects
    decide +kernel
  · decide +kernel
  · decide +kernel
  · decide +kernel

end FarmChain.Gateway
