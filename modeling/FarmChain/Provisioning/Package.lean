import FarmChain.Lib.Crc
import FarmChain.Lib.Endian
import FarmChain.Lib.Fallible
import FarmChain.Provisioning.FlashPackage

/-! The flash package.

A package is the magic number, the certificate behind its length, the seed, the zone in
eight bytes, and the CRC-32 of all that. Every part can be read back from the bytes
(`package_injective`), and a package with a short burst of damage, or a wrong CRC, is none
that the script writes for any input (`package_damage`). -/
namespace FarmChain.Provisioning
open Crc (Burst bits feed)
open Endian (big ofBig)

def MAGIC : Nat := 0xDEADBEEF
def ZONE_BYTES : Nat := 8

/-- How the script stops: `fail`, an exception nothing catches, or `argparse`'s usage error. -/
inductive Exit where
  | fail (message : String)
  | unicodeEncodeError
  | usage
  deriving DecidableEq, Repr

/-- A file by its path, and its content or why it cannot be read. -/
structure File where
  path : String
  content : Except String (List UInt8)

def readFile (file : File) : Except Exit (List UInt8) :=
  match file.content with
  | .ok bytes => .ok bytes
  | .error exc => .error (.fail s!"unable to read {file.path}: {exc}")

/-- `encode("ascii")`. -/
def ascii (text : String) : Except Exit (List UInt8) :=
  if text.toList.all fun c => c.toNat < 128 then .ok (text.toList.map fun c => UInt8.ofNat c.toNat)
  else .error .unicodeEncodeError

def encodeZone (zone : String) : Except Exit (List UInt8) := do
  let encoded ← ascii zone
  if encoded = [] then .error (.fail "zone must not be empty")
  else if ZONE_BYTES < encoded.length then
    .error (.fail s!"zone must fit in {ZONE_BYTES} ASCII bytes")
  else .ok (encoded ++ List.replicate (ZONE_BYTES - encoded.length) 0)

/-- `binascii.crc32`. -/
def crc32 (bytes : List UInt8) : Nat :=
  (~~~feed 0xEDB88320#32 (BitVec.allOnes 32) (bits bytes)).toNat

/-- `struct.pack(">IH", ..)` and what follows it. -/
def packageBody (cert rawKey zone : List UInt8) : List UInt8 :=
  big 4 MAGIC ++ big 2 cert.length ++ cert ++ rawKey ++ zone

def buildPackage (cert rawKey : List UInt8) (zone : String) : Except Exit (List UInt8) :=
  if 0xFFFF < cert.length then .error (.fail "certificate is too large for 2-byte length field")
  else do
    let zone ← encodeZone zone
    let body := packageBody cert rawKey zone
    return body ++ big 4 (crc32 body)

/-- `choices` of `--zone`. -/
def zoneChoices : List String := ["North", "South", "East", "West"]

/-- `main`, as far as the package that is written. -/
def makeFlashPackage (cert key : File) (zone : String) : Except Exit (List UInt8) := do
  require (zone ∈ zoneChoices) Exit.usage
  let cert ← readFile cert
  let keyBytes ← readFile key
  match extractRawEd25519PrivateKey keyBytes with
  | .error message => .error (.fail message)
  | .ok rawKey => buildPackage cert rawKey zone

/-! ### What a package holds -/

theorem readFile_eq_ok {file : File} {bytes : List UInt8} :
    readFile file = .ok bytes ↔ file.content = .ok bytes := by
  unfold readFile
  cases file.content <;> simp

/-- A zone that can be chosen takes up to five bytes. -/
theorem encodeZone_choices : ∀ zone ∈ zoneChoices, ∃ bytes, encodeZone zone = .ok bytes ∧
    bytes.length = ZONE_BYTES := by
  intro zone hzone
  simp only [zoneChoices, List.mem_cons, List.not_mem_nil, or_false] at hzone
  rcases hzone with rfl | rfl | rfl | rfl
  · exact ⟨_, rfl, by decide⟩
  · exact ⟨_, rfl, by decide⟩
  · exact ⟨_, rfl, by decide⟩
  · exact ⟨_, rfl, by decide⟩

theorem encodeZone_injective : ∀ zone ∈ zoneChoices, ∀ zone' ∈ zoneChoices,
    encodeZone zone = encodeZone zone' → zone = zone' := by
  decide +kernel

/-- A seed has 32 bytes, whatever file it comes from. -/
theorem length_extracted {keyBytes seed : List UInt8}
    (h : extractRawEd25519PrivateKey keyBytes = .ok seed) : seed.length = RAW_ED25519_KEY_BYTES := by
  unfold extractRawEd25519PrivateKey at h
  split at h
  · rename_i hlength
    exact Except.ok.inj h ▸ hlength
  · obtain ⟨decoded, _, hfound⟩ := Except.bind_eq_ok.mp h
    unfold seedAfterMarker at hfound
    split at hfound
    · rename_i i hi
      have hroom : i + 2 + RAW_ED25519_KEY_BYTES ≤ decoded.length := by
        simpa using (Option.filter_eq_some_iff.mp hi).2
      rw [← Except.ok.inj hfound, List.length_take, List.length_drop]
      omega
    · cases hfound

/-- What a package is made of: a certificate its length field has room for, a seed and a
zone. -/
structure Holds (cert key : File) (zone : String) (certBytes seed zoneBytes : List UInt8) : Prop where
  chosen : zone ∈ zoneChoices
  cert : cert.content = .ok certBytes
  room : certBytes.length ≤ 0xFFFF
  key : ∃ keyBytes, key.content = .ok keyBytes ∧ extractRawEd25519PrivateKey keyBytes = .ok seed
  zone : encodeZone zone = .ok zoneBytes

theorem buildPackage_eq_ok {cert rawKey package : List UInt8} {zone : String} :
    buildPackage cert rawKey zone = .ok package ↔ cert.length ≤ 0xFFFF ∧
      ∃ zoneBytes, encodeZone zone = .ok zoneBytes ∧
        package = packageBody cert rawKey zoneBytes ++
          big 4 (crc32 (packageBody cert rawKey zoneBytes)) := by
  unfold buildPackage
  split
  · rename_i hlarge
    exact iff_of_false (fun h => by cases h) fun h => absurd h.1 (Nat.not_le.mpr hlarge)
  · rename_i hroom
    rw [Except.bind_eq_ok]
    refine ⟨fun ⟨zoneBytes, hzone, h⟩ => ?_, fun ⟨_, zoneBytes, hzone, h⟩ => ?_⟩
    · exact ⟨Nat.le_of_not_lt hroom, zoneBytes, hzone, (Except.ok.inj h).symm⟩
    · exact ⟨zoneBytes, hzone, congrArg Except.ok h.symm⟩

/-- A package is written exactly when there is all that it is made of. -/
theorem makeFlashPackage_eq_ok {cert key : File} {zone : String} {package : List UInt8} :
    makeFlashPackage cert key zone = .ok package ↔
      ∃ certBytes seed zoneBytes, Holds cert key zone certBytes seed zoneBytes ∧
        package = packageBody certBytes seed zoneBytes ++
          big 4 (crc32 (packageBody certBytes seed zoneBytes)) := by
  unfold makeFlashPackage
  simp only [Except.bind_eq_ok, Except.require_eq_ok, readFile_eq_ok]
  constructor
  · rintro ⟨_, hchosen, certBytes, hcert, keyBytes, hkey, h⟩
    split at h
    · cases h
    · rename_i seed hseed
      obtain ⟨hroom, zoneBytes, hzone, hpackage⟩ := buildPackage_eq_ok.mp h
      exact ⟨certBytes, seed, zoneBytes, ⟨hchosen, hcert, hroom, ⟨keyBytes, hkey, hseed⟩, hzone⟩,
        hpackage⟩
  · rintro ⟨certBytes, seed, zoneBytes, hholds, hpackage⟩
    obtain ⟨keyBytes, hkey, hseed⟩ := hholds.key
    refine ⟨(), hholds.chosen, certBytes, hholds.cert, keyBytes, hkey, ?_⟩
    rw [hseed]
    exact buildPackage_eq_ok.mpr ⟨hholds.room, zoneBytes, hholds.zone, hpackage⟩

/-! ### Reading it back -/

section
variable {cert key cert' key' : File} {zone zone' : String}
  {certBytes seed zoneBytes certBytes' seed' zoneBytes' : List UInt8}

theorem Holds.length_seed (h : Holds cert key zone certBytes seed zoneBytes) :
    seed.length = RAW_ED25519_KEY_BYTES := by
  obtain ⟨keyBytes, _, hseed⟩ := h.key
  exact length_extracted hseed

theorem Holds.length_zone (h : Holds cert key zone certBytes seed zoneBytes) :
    zoneBytes.length = ZONE_BYTES := by
  obtain ⟨bytes, hbytes, hlength⟩ := encodeZone_choices zone h.chosen
  cases h.zone.symm.trans hbytes
  exact hlength

/-- The length field says where the certificate ends. -/
theorem packageBody_injective (h : Holds cert key zone certBytes seed zoneBytes)
    (h' : Holds cert' key' zone' certBytes' seed' zoneBytes')
    (heq : packageBody certBytes seed zoneBytes = packageBody certBytes' seed' zoneBytes') :
    certBytes = certBytes' ∧ seed = seed' ∧ zone = zone' := by
  unfold packageBody at heq
  obtain ⟨hfront, hzone⟩ := List.append_inj' heq (h.length_zone.trans h'.length_zone.symm)
  obtain ⟨hfront, hseed⟩ := List.append_inj' hfront (h.length_seed.trans h'.length_seed.symm)
  obtain ⟨_, hcert⟩ := List.append_inj hfront (by simp)
  refine ⟨hcert, hseed, encodeZone_injective zone h.chosen zone' h'.chosen ?_⟩
  rw [h.zone, h'.zone, hzone]

end

/-! ### The CRC -/

theorem crc32_lt (bytes : List UInt8) : crc32 bytes < 256 ^ 4 := BitVec.isLt _

/-- The CRC of a body with a short burst of damage is another. -/
theorem crc32_burst {body body' : List UInt8} (h : Burst 32 (bits body) (bits body')) :
    crc32 body ≠ crc32 body' := by
  intro heq
  have hregister : ~~~feed 0xEDB88320#32 (BitVec.allOnes 32) (bits body) =
      ~~~feed 0xEDB88320#32 (BitVec.allOnes 32) (bits body') := BitVec.eq_of_toNat_eq heq
  have hpoly : (0xEDB88320#32).msb = true := by decide
  exact Crc.burst_detected hpoly _ h (BitVec.not_inj.mp hregister)

/-! ### The places of the fields -/

/-- Where the fields of a package are: the magic number, the certificate behind its length, the
seed, the zone, and the CRC-32 of all that comes before it. -/
structure Layout (package certBytes seed zoneBytes : List UInt8) : Prop where
  size : package.length = certBytes.length + 50
  magic : ofBig (package.take 4) = MAGIC
  certLength : ofBig ((package.drop 4).take 2) = certBytes.length
  cert : (package.drop 6).take certBytes.length = certBytes
  seed : (package.drop (6 + certBytes.length)).take RAW_ED25519_KEY_BYTES = seed
  zone : (package.drop (38 + certBytes.length)).take ZONE_BYTES = zoneBytes
  crc : ofBig (package.drop (46 + certBytes.length)) =
    crc32 (package.take (46 + certBytes.length))

/-- A field behind so many bytes. -/
theorem field_at {n m : Nat} {before field after : List UInt8} (hn : before.length = n)
    (hm : field.length = m) : ((before ++ (field ++ after)).drop n).take m = field := by
  rw [List.drop_left' hn, List.take_left' hm]

theorem Holds.layout {cert key : File} {zone : String} {certBytes seed zoneBytes : List UInt8}
    (h : Holds cert key zone certBytes seed zoneBytes) :
    Layout (packageBody certBytes seed zoneBytes ++
      big 4 (crc32 (packageBody certBytes seed zoneBytes))) certBytes seed zoneBytes := by
  have hseed := h.length_seed
  have hzone := h.length_zone
  rw [RAW_ED25519_KEY_BYTES] at hseed
  rw [ZONE_BYTES] at hzone
  have hbody : (packageBody certBytes seed zoneBytes).length = 46 + certBytes.length := by
    simp only [packageBody, List.length_append, Endian.length_big, hseed, hzone]
    omega
  generalize hsum : big 4 (crc32 (packageBody certBytes seed zoneBytes)) = sum
  have hlength : sum.length = 4 := hsum ▸ Endian.length_big 4 _
  refine ⟨?_, ?_, ?_, ?_, ?_, ?_, ?_⟩
  · rw [List.length_append, hbody, hlength]
    omega
  · have hmagic : (packageBody certBytes seed zoneBytes ++ sum).take 4 = big 4 MAGIC := by
      simp only [packageBody, List.append_assoc]
      exact List.take_left' (Endian.length_big 4 _)
    rw [hmagic, Endian.ofBig_big (by decide)]
  · have hroom : certBytes.length < 256 ^ 2 := Nat.lt_succ_of_le h.room
    have hfield : ((packageBody certBytes seed zoneBytes ++ sum).drop 4).take 2 =
        big 2 certBytes.length := by
      simp only [packageBody, List.append_assoc]
      exact field_at (Endian.length_big 4 _) (Endian.length_big 2 _)
    rw [hfield, Endian.ofBig_big hroom]
  · rw [packageBody, List.append_assoc, List.append_assoc, List.append_assoc]
    exact field_at (by simp) rfl
  · rw [packageBody, List.append_assoc, List.append_assoc]
    refine field_at ?_ hseed
    simp only [List.length_append, Endian.length_big]
  · rw [packageBody, List.append_assoc]
    refine field_at ?_ hzone
    simp only [List.length_append, Endian.length_big, hseed]
    omega
  · rw [List.drop_left' hbody, List.take_left' hbody, ← hsum, Endian.ofBig_big (crc32_lt _)]

/-- **A package can be read back: the magic number, the certificate's length, the certificate,
the seed, the zone and the CRC-32 of all that are at their places, and two runs that write the
same package were given the same certificate, a key with the same seed and the same zone.** -/
theorem package_injective {cert key cert' key' : File} {zone zone' : String} {package : List UInt8}
    (h : makeFlashPackage cert key zone = .ok package)
    (h' : makeFlashPackage cert' key' zone' = .ok package) :
    ∃ certBytes seed zoneBytes, cert.content = .ok certBytes ∧ cert'.content = .ok certBytes ∧
      (∃ keyBytes, key.content = .ok keyBytes ∧ extractRawEd25519PrivateKey keyBytes = .ok seed) ∧
      (∃ keyBytes, key'.content = .ok keyBytes ∧ extractRawEd25519PrivateKey keyBytes = .ok seed) ∧
      zone = zone' ∧ encodeZone zone = .ok zoneBytes ∧
      Layout package certBytes seed zoneBytes := by
  obtain ⟨certBytes, seed, zoneBytes, hholds, rfl⟩ := makeFlashPackage_eq_ok.mp h
  obtain ⟨certBytes', seed', zoneBytes', hholds', hpackage⟩ := makeFlashPackage_eq_ok.mp h'
  have hbody := (List.append_inj' hpackage (by simp)).1
  obtain ⟨rfl, rfl, hzone⟩ := packageBody_injective hholds hholds' hbody
  exact ⟨certBytes, seed, zoneBytes, hholds.cert, hholds'.cert, hholds.key, hholds'.key, hzone,
    hholds.zone, hholds.layout⟩

/-! ### A small package -/

def smallCert : File := ⟨"cert.der", .ok [0x30, 0x03, 0x02, 0x01, 0x07]⟩

/-- One seed, in two files. -/
def smallKey : File := ⟨"key.der", .ok (pkcs8 (List.replicate 32 9))⟩

def smallSeed : File := ⟨"seed.bin", .ok (List.replicate 32 9)⟩

def smallBody : List UInt8 :=
  packageBody [0x30, 0x03, 0x02, 0x01, 0x07] (List.replicate 32 9) [78, 111, 114, 116, 104, 0, 0, 0]

def smallPackage : List UInt8 := smallBody ++ big 4 (crc32 smallBody)

theorem smallPackage_written :
    makeFlashPackage smallCert smallKey "North" = .ok smallPackage ∧
      makeFlashPackage smallCert smallSeed "North" = .ok smallPackage := by
  decide +kernel

theorem smallPackage_read : ∃ certBytes seed zoneBytes, smallCert.content = .ok certBytes ∧
    smallCert.content = .ok certBytes ∧
    (∃ keyBytes, smallKey.content = .ok keyBytes ∧
      extractRawEd25519PrivateKey keyBytes = .ok seed) ∧
    (∃ keyBytes, smallSeed.content = .ok keyBytes ∧
      extractRawEd25519PrivateKey keyBytes = .ok seed) ∧
    "North" = "North" ∧ encodeZone "North" = .ok zoneBytes ∧
    Layout smallPackage certBytes seed zoneBytes :=
  package_injective smallPackage_written.1 smallPackage_written.2

/-! ### Damage -/

/-- **A package whose body was damaged in up to 32 consecutive bits, a byte's lowest bit first,
or whose CRC was changed, is none that the script writes, whatever it is given.** -/
theorem package_damage {cert key : File} {zone : String} {body sum : List UInt8}
    (h : makeFlashPackage cert key zone = .ok (body ++ sum)) (hlength : sum.length = 4)
    (cert' key' : File) (zone' : String) :
    (∀ body', Burst 32 (bits body) (bits body') →
      makeFlashPackage cert' key' zone' ≠ .ok (body' ++ sum)) ∧
    ∀ sum', sum'.length = 4 → sum' ≠ sum →
      makeFlashPackage cert' key' zone' ≠ .ok (body ++ sum') := by
  obtain ⟨certBytes, seed, zoneBytes, _, hpackage⟩ := makeFlashPackage_eq_ok.mp h
  obtain ⟨rfl, rfl⟩ := List.append_inj' hpackage (by simp [hlength])
  refine ⟨fun body' hburst h' => ?_, fun sum' hlength' hne h' => ?_⟩
  · obtain ⟨_, _, _, _, heq⟩ := makeFlashPackage_eq_ok.mp h'
    obtain ⟨rfl, hsum⟩ := List.append_inj' heq (by simp)
    have hsame := congrArg ofBig hsum
    rw [Endian.ofBig_big (crc32_lt _), Endian.ofBig_big (crc32_lt _)] at hsame
    exact crc32_burst hburst hsame
  · obtain ⟨_, _, _, _, heq⟩ := makeFlashPackage_eq_ok.mp h'
    obtain ⟨hbody, hsum⟩ := List.append_inj' heq (by simp [hlength'])
    exact hne (by rw [hsum, ← hbody])

/-- The small package with the certificate's last two bytes overwritten. -/
def damagedBody : List UInt8 :=
  packageBody [0x30, 0x03, 0x02, 0xFF, 0xF0] (List.replicate 32 9) [78, 111, 114, 116, 104, 0, 0, 0]

theorem smallPackage_damaged :
    makeFlashPackage smallCert smallSeed "North" ≠ .ok (damagedBody ++ big 4 (crc32 smallBody)) ∧
      makeFlashPackage smallCert smallSeed "North" ≠ .ok (smallBody ++ [0, 0, 0, 0]) := by
  have hburst : Burst 32 (bits smallBody) (bits damagedBody) :=
    ⟨bits (smallBody.take 9), bits [0x01, 0x07], bits [0xFF, 0xF0], bits (smallBody.drop 11),
      by decide +kernel, by decide +kernel, rfl, by decide, by decide⟩
  have hdamage :=
    package_damage smallPackage_written.1 (Endian.length_big 4 _) smallCert smallSeed "North"
  exact ⟨hdamage.1 damagedBody hburst, hdamage.2 [0, 0, 0, 0] rfl (by decide +kernel)⟩

end FarmChain.Provisioning
