import Mathlib.Data.Finmap
import FarmChain.Lib.Strings

/-! The ledger's key space.

Every record lives under a key the contract builds by joining a prefix with free
texts. `kindOf` reads the prefix back: whatever the texts spell, a key built for
one kind of record is never a key of another, and the two indices are keys of no
record. -/
namespace FarmChain.Chaincode

def roleKeyPrefix : String := "role:"
def cztKeyPrefix : String := "czt:"
def auditKeyPrefix : String := "audit:"
def nonceKeyPrefix : String := "nonce:"
def sensorKeyPrefix : String := "sensor:"

def auditIndexKey : String := "audit:index"
def nonceIndexKey : String := "nonce:index"

def roleKey (subjectID : String) : String := roleKeyPrefix ++ subjectID

def cztKey (tokenID : String) : String := cztKeyPrefix ++ tokenID

def nonceKey (subjectID nonce : String) : String := nonceKeyPrefix ++ subjectID ++ ":" ++ nonce

def auditKey (txID : String) : String := auditKeyPrefix ++ txID

def auditKeyWithSequence (txID : String) (sequence : Nat) : String :=
  if sequence = 0 then auditKey txID else auditKeyPrefix ++ txID ++ ":" ++ toString sequence

/-- The key `WriteSensorData` formats from a device and a time in nanoseconds. -/
def sensorKey (deviceID : String) (unixNano : Int) : String :=
  sensorKeyPrefix ++ deviceID ++ ":" ++ toString unixNano

/-- The key `CheckAccess` reads for a certificate's serial number. -/
def crlKey (serialHex : String) : String := "crl:" ++ serialHex

/-- What a key is for. -/
inductive Kind where
  | role | czt | audit | auditIndex | nonce | nonceIndex | sensor | crl | other
  deriving DecidableEq, Repr

def kindOf (key : String) : Kind :=
  match key.toList with
  | 'r' :: 'o' :: 'l' :: 'e' :: ':' :: _ => .role
  | 'c' :: 'z' :: 't' :: ':' :: _ => .czt
  | 'a' :: 'u' :: 'd' :: 'i' :: 't' :: ':' :: rest =>
    if rest = "index".toList then .auditIndex else .audit
  | 'n' :: 'o' :: 'n' :: 'c' :: 'e' :: ':' :: rest =>
    if rest = "index".toList then .nonceIndex else .nonce
  | 's' :: 'e' :: 'n' :: 's' :: 'o' :: 'r' :: ':' :: _ => .sensor
  | 'c' :: 'r' :: 'l' :: ':' :: _ => .crl
  | _ => .other

@[simp] theorem kindOf_roleKey (s : String) : kindOf (roleKey s) = .role := by
  simp [kindOf, roleKey, roleKeyPrefix]

@[simp] theorem kindOf_cztKey (s : String) : kindOf (cztKey s) = .czt := by
  simp [kindOf, cztKey, cztKeyPrefix]

@[simp] theorem kindOf_crlKey (s : String) : kindOf (crlKey s) = .crl := by
  simp [kindOf, crlKey]

@[simp] theorem kindOf_sensorKey (s : String) (n : Int) : kindOf (sensorKey s n) = .sensor := by
  simp [kindOf, sensorKey, sensorKeyPrefix]

@[simp] theorem kindOf_auditIndexKey : kindOf auditIndexKey = .auditIndex := by decide

@[simp] theorem kindOf_nonceIndexKey : kindOf nonceIndexKey = .nonceIndex := by decide

/-- A text with a colon in it does not spell the index. -/
private theorem colon_ne_index (a b : List Char) : a ++ ':' :: b ≠ "index".toList := by
  intro h
  have hmem : ':' ∈ "index".toList := h ▸ List.mem_append_right a (List.mem_cons_self ..)
  exact absurd hmem (by decide)

@[simp] theorem kindOf_nonceKey (s n : String) : kindOf (nonceKey s n) = .nonce := by
  have h := colon_ne_index s.toList n.toList
  simp only [kindOf, nonceKey, nonceKeyPrefix, String.toList_append, List.append_assoc]
  exact if_neg h

/-- An audit key never reaches another kind; only the transaction id `index`
makes it spell the index. -/
theorem kindOf_auditKey (txID : String) :
    kindOf (auditKey txID) = if txID = "index" then .auditIndex else .audit := by
  have h : txID.toList = "index".toList ↔ txID = "index" := String.toList_inj
  simp only [kindOf, auditKey, auditKeyPrefix, String.toList_append]
  simp only [← h]
  rfl

theorem kindOf_auditKeyWithSequence (txID : String) (sequence : Nat) :
    kindOf (auditKeyWithSequence txID sequence) =
      if sequence = 0 ∧ txID = "index" then .auditIndex else .audit := by
  unfold auditKeyWithSequence
  by_cases h0 : sequence = 0
  · simp [h0, kindOf_auditKey]
  · have h := colon_ne_index txID.toList (toString sequence).toList
    rw [if_neg h0, if_neg fun hcase => h0 hcase.1]
    simp only [kindOf, auditKeyPrefix, String.toList_append, List.append_assoc]
    exact if_neg h

/-- Audit keys are of the two audit kinds. -/
theorem kindOf_auditKeyWithSequence_or (txID : String) (sequence : Nat) :
    kindOf (auditKeyWithSequence txID sequence) = .audit ∨
      kindOf (auditKeyWithSequence txID sequence) = .auditIndex := by
  rw [kindOf_auditKeyWithSequence]
  split <;> simp

/-- A hexadecimal text, as the network's transaction identifiers are. -/
def IsHex (s : String) : Prop := ∀ c ∈ s.toList, c ∈ "0123456789abcdefABCDEF".toList

instance (s : String) : Decidable (IsHex s) :=
  List.decidableBAll (fun c => c ∈ "0123456789abcdefABCDEF".toList) s.toList

theorem IsHex.kindOf_auditKey {txID : String} (h : IsHex txID) : kindOf (auditKey txID) = .audit := by
  rw [Chaincode.kindOf_auditKey, if_neg]
  intro heq
  subst heq
  exact absurd (h 'i' (by decide)) (by decide)

theorem IsHex.trimSpace {s : String} (h : IsHex s) : Strings.trimSpace s = s := by
  have hdigits : "0123456789abcdefABCDEF".toList.all (fun c => !Strings.isSpace c) = true := by decide
  refine Strings.trimSpace_of_forall fun c hc => ?_
  simpa using List.all_eq_true.mp hdigits c (h c hc)

theorem ne_of_kind {a b : String} (h : kindOf a ≠ kindOf b) : a ≠ b :=
  fun he => h (congrArg kindOf he)

theorem roleKey_inj {a b : String} : roleKey a = roleKey b ↔ a = b :=
  ⟨Strings.append_inj_left, congrArg roleKey⟩

theorem cztKey_inj {a b : String} : cztKey a = cztKey b ↔ a = b :=
  ⟨Strings.append_inj_left, congrArg cztKey⟩

theorem auditKey_inj {a b : String} : auditKey a = auditKey b ↔ a = b :=
  ⟨Strings.append_inj_left, congrArg auditKey⟩

/-- A device's identifier may contain colons; the time does not. -/
theorem sensorKey_inj {a b : String} {m n : Int} : sensorKey a m = sensorKey b n ↔ a = b ∧ m = n := by
  constructor
  · intro h
    have hcolon (k : Int) : ':' ∉ (toString k).toList := by
      intro hmem
      have hchar := Strings.decimal_char hmem
      revert hchar
      decide
    have hsplit : a ++ String.singleton ':' ++ toString m = b ++ String.singleton ':' ++ toString n :=
      Strings.append_inj_left (p := sensorKeyPrefix) (by simpa [sensorKey, String.append_assoc] using h)
    obtain ⟨hdevice, htime⟩ := Strings.append_separator_inj (hcolon m) (hcolon n) hsplit
    exact ⟨hdevice, Strings.decimal_inj htime⟩
  · intro h
    rw [h.1, h.2]

/-- The keys a transaction can use for its audit entry are all different. -/
theorem auditKeyWithSequence_injective (txID : String) :
    Function.Injective (auditKeyWithSequence txID) := by
  have hlong (n : Nat) : auditKeyPrefix ++ txID ++ ":" ++ toString n ≠ auditKey txID := by
    intro h
    have hlen := congrArg String.length h
    have hcolon : ":".length = 1 := rfl
    simp only [auditKey, String.length_append] at hlen
    omega
  intro a b h
  unfold auditKeyWithSequence at h
  split at h <;> split at h
  · omega
  · exact absurd h.symm (hlong b)
  · exact absurd h (hlong a)
  · have hdigits := congrArg String.toList (Strings.append_inj_left h)
    exact Strings.natDigits_inj (by simpa [Nat.toList_repr] using hdigits)

end FarmChain.Chaincode
