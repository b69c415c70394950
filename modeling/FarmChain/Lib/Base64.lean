import Mathlib.Data.List.Basic
import FarmChain.Lib.Fallible

/-! Base64, as Python's `binascii` has it.

`b2a` writes three bytes as four characters. `a2b` reads characters one at a time and,
not being strict, skips what is neither in the alphabet nor padding. It reads back what
`b2a` wrote (`a2b_b2a`), and never gives more than three bytes for four characters of
the alphabet (`length_of_a2b`). -/
namespace FarmChain.Base64

/-! ### The alphabet -/

def PAD : UInt8 := 61

/-- The character of six bits. -/
def encodeDigit (n : Nat) : UInt8 :=
  if n < 26 then .ofNat (65 + n)
  else if n < 52 then .ofNat (97 + (n - 26))
  else if n < 62 then .ofNat (48 + (n - 52))
  else if n = 62 then 43
  else 47

def decodeDigit (c : UInt8) : Option Nat :=
  if 65 ≤ c ∧ c ≤ 90 then some (c.toNat - 65)
  else if 97 ≤ c ∧ c ≤ 122 then some (c.toNat - 97 + 26)
  else if 48 ≤ c ∧ c ≤ 57 then some (c.toNat - 48 + 52)
  else if c = 43 then some 62
  else if c = 47 then some 63
  else none

/-- The byte is a character of the alphabet. -/
def isDigit (c : UInt8) : Bool := (decodeDigit c).isSome

theorem decodeDigit_encodeDigit {n : Nat} (h : n < 64) : decodeDigit (encodeDigit n) = some n := by
  have hall : ∀ n < 64, decodeDigit (encodeDigit n) = some n := by decide
  exact hall n h

theorem encodeDigit_ne_pad {n : Nat} (h : n < 64) : encodeDigit n ≠ PAD := by
  have hall : ∀ n < 64, encodeDigit n ≠ PAD := by decide
  exact hall n h

/-! ### Encoding -/

/-- `b2a_base64`, without the newline at the end. -/
def b2a : List UInt8 → List UInt8
  | [] => []
  | [a] => [encodeDigit (a.toNat / 4), encodeDigit (a.toNat % 4 * 16), PAD, PAD]
  | [a, b] =>
    [encodeDigit (a.toNat / 4), encodeDigit (a.toNat % 4 * 16 + b.toNat / 16),
      encodeDigit (b.toNat % 16 * 4), PAD]
  | a :: b :: c :: rest =>
    encodeDigit (a.toNat / 4) :: encodeDigit (a.toNat % 4 * 16 + b.toNat / 16) ::
      encodeDigit (b.toNat % 16 * 4 + c.toNat / 64) :: encodeDigit (c.toNat % 64) :: b2a rest

/-! ### Decoding -/

/-- How much of a group of four characters has been read: the bits left over of it, and in
the third place whether a pad was seen. -/
inductive Quad where
  | first
  | second (left : Nat)
  | third (left : Nat) (padded : Bool)
  | fourth (left : Nat)
  deriving DecidableEq, Repr

/-- At the end of the text; `read` bytes have been written. -/
def Quad.finish (read : Nat) : Quad → Except String (List UInt8)
  | .first => .ok []
  | .second _ =>
    .error (s!"Invalid base64-encoded string: number of data characters ({read / 3 * 4 + 1})" ++
      " cannot be 1 more than a multiple of 4")
  | .third _ _ | .fourth _ => .error "Incorrect padding"

/-- The pads that end a group are two in the third place, one in the fourth. -/
def Quad.pad : Quad → Option Quad
  | .first => some .first
  | .second left => some (.second left)
  | .third left false => some (.third left true)
  | .third _ true | .fourth _ => none

/-- The byte that a character completes, if it does, and what is read then. -/
def Quad.digit (n : Nat) : Quad → List UInt8 × Quad
  | .first => ([], .second n)
  | .second left => ([.ofNat (left * 4 + n / 16)], .third (n % 16) false)
  | .third left _ => ([.ofNat (left * 16 + n / 4)], .fourth (n % 4))
  | .fourth left => ([.ofNat (left * 64 + n)], .first)

/-- The loop of `a2b_base64`. -/
def a2bLoop : Nat → Quad → List UInt8 → Except String (List UInt8)
  | read, quad, [] => quad.finish read
  | read, quad, c :: rest =>
    if c = PAD then
      match quad.pad with
      | none => .ok []
      | some quad => a2bLoop read quad rest
    else
      match decodeDigit c with
      | none => a2bLoop read quad rest
      | some n => do
        let more ← a2bLoop (read + (quad.digit n).1.length) (quad.digit n).2 rest
        .ok ((quad.digit n).1 ++ more)

/-- `a2b_base64`, not strict. -/
def a2b (text : List UInt8) : Except String (List UInt8) := a2bLoop 0 .first text

/-! ### Round trip -/

theorem a2bLoop_encodeDigit {n : Nat} (h : n < 64) (read : Nat) (quad : Quad) (rest : List UInt8) :
    a2bLoop read quad (encodeDigit n :: rest) = (do
      let more ← a2bLoop (read + (quad.digit n).1.length) (quad.digit n).2 rest
      .ok ((quad.digit n).1 ++ more)) := by
  rw [a2bLoop, if_neg (encodeDigit_ne_pad h), decodeDigit_encodeDigit h]

/-- The first byte of a group is in its first two characters. -/
theorem first_byte (a : UInt8) {n : Nat} (h : n < 16) :
    UInt8.ofNat (a.toNat / 4 * 4 + (a.toNat % 4 * 16 + n) / 16) = a := by
  rw [show a.toNat / 4 * 4 + (a.toNat % 4 * 16 + n) / 16 = a.toNat by omega]
  exact UInt8.ofNat_toNat

/-- The second is in the second and third. -/
theorem second_byte (b : UInt8) (m : Nat) {n : Nat} (h : n < 4) :
    UInt8.ofNat ((m * 16 + b.toNat / 16) % 16 * 16 + (b.toNat % 16 * 4 + n) / 4) = b := by
  have hb := b.toNat_lt
  rw [show (m * 16 + b.toNat / 16) % 16 * 16 + (b.toNat % 16 * 4 + n) / 4 = b.toNat by omega]
  exact UInt8.ofNat_toNat

/-- The third is in the last two. -/
theorem third_byte (c : UInt8) (m : Nat) :
    UInt8.ofNat ((m * 4 + c.toNat / 64) % 4 * 64 + c.toNat % 64) = c := by
  have hc := c.toNat_lt
  rw [show (m * 4 + c.toNat / 64) % 4 * 64 + c.toNat % 64 = c.toNat by omega]
  exact UInt8.ofNat_toNat

/-- The three bytes of a group. -/
theorem a2bLoop_group (read : Nat) (a b c : UInt8) (rest : List UInt8) :
    a2bLoop read .first (b2a (a :: b :: c :: rest)) = (do
      let more ← a2bLoop (read + 3) .first (b2a rest)
      .ok (a :: b :: c :: more)) := by
  have ha := a.toNat_lt
  have hb := b.toNat_lt
  have hc := c.toNat_lt
  rw [b2a, a2bLoop_encodeDigit (by omega), Quad.digit, a2bLoop_encodeDigit (by omega), Quad.digit,
    a2bLoop_encodeDigit (by omega), Quad.digit, a2bLoop_encodeDigit (by omega), Quad.digit,
    first_byte a (by omega), second_byte b _ (by omega), third_byte]
  cases a2bLoop (read + 3) .first (b2a rest) with
  | error e => rfl
  | ok more => rfl

/-- **What was encoded is decoded.** -/
theorem a2b_b2a (bytes : List UInt8) : a2b (b2a bytes) = .ok bytes := by
  suffices h : ∀ read, a2bLoop read .first (b2a bytes) = .ok bytes from h 0
  induction bytes using b2a.induct with
  | case1 => exact fun _ => rfl
  | case2 a =>
    intro read
    have ha := a.toNat_lt
    have hfirst : UInt8.ofNat (a.toNat / 4 * 4 + a.toNat % 4 * 16 / 16) = a :=
      first_byte a (by decide : 0 < 16)
    rw [b2a, a2bLoop_encodeDigit (by omega), Quad.digit, a2bLoop_encodeDigit (by omega), Quad.digit,
      hfirst]
    rfl
  | case3 a b =>
    intro read
    have ha := a.toNat_lt
    have hb := b.toNat_lt
    have hsecond : UInt8.ofNat ((a.toNat % 4 * 16 + b.toNat / 16) % 16 * 16 +
        b.toNat % 16 * 4 / 4) = b :=
      second_byte b (a.toNat % 4) (by decide : 0 < 4)
    rw [b2a, a2bLoop_encodeDigit (by omega), Quad.digit, a2bLoop_encodeDigit (by omega), Quad.digit,
      a2bLoop_encodeDigit (by omega), Quad.digit, first_byte a (by omega), hsecond]
    rfl
  | case4 a b c rest ih =>
    intro read
    rw [a2bLoop_group, ih (read + 3)]
    rfl

/-! ### Length -/

/-- What a started group still adds to three quarters of the characters to come. -/
def Quad.credit : Quad → Nat
  | .first => 0
  | .second _ => 3
  | .third _ _ => 2
  | .fourth _ => 1

theorem credit_digit (quad : Quad) (n : Nat) :
    4 * (quad.digit n).1.length + (quad.digit n).2.credit = 3 + quad.credit := by
  cases quad <;> rfl

theorem credit_pad {quad quad' : Quad} (h : quad.pad = some quad') : quad'.credit = quad.credit := by
  cases quad with
  | first => cases h; rfl
  | second left => cases h; rfl
  | third left padded =>
    cases padded <;> cases h
    rfl
  | fourth left => cases h

theorem length_of_a2bLoop {read : Nat} {quad : Quad} {text bytes : List UInt8}
    (h : a2bLoop read quad text = .ok bytes) :
    4 * bytes.length ≤ 3 * text.countP isDigit + quad.credit := by
  induction text generalizing read quad bytes with
  | nil =>
    cases quad with
    | first =>
      cases h
      exact Nat.zero_le _
    | second left => cases h
    | third left padded => cases h
    | fourth left => cases h
  | cons c rest ih =>
    rw [a2bLoop] at h
    split at h
    · have hcount : rest.countP isDigit ≤ (c :: rest).countP isDigit :=
        (List.sublist_cons_self c rest).countP_le
      split at h
      · cases h
        exact Nat.zero_le _
      · rename_i quad' hpad
        have hrest := ih h
        rw [credit_pad hpad] at hrest
        omega
    · split at h
      · have hcount : rest.countP isDigit ≤ (c :: rest).countP isDigit :=
          (List.sublist_cons_self c rest).countP_le
        have hrest := ih h
        omega
      · rename_i n hdigit
        obtain ⟨more, hmore, hbytes⟩ := Except.bind_eq_ok.mp h
        cases hbytes
        have hrest := ih hmore
        have hcredit := credit_digit quad n
        have hcount : (c :: rest).countP isDigit = rest.countP isDigit + 1 :=
          List.countP_cons_of_pos (by rw [isDigit, hdigit]; rfl)
        rw [List.length_append, hcount]
        omega

/-- **Four characters of the alphabet are no more than three bytes.** -/
theorem length_of_a2b {text bytes : List UInt8} (h : a2b text = .ok bytes) :
    4 * bytes.length ≤ 3 * text.countP isDigit :=
  length_of_a2bLoop h

/-- What is written is the alphabet's or a pad. -/
theorem mem_b2a {bytes : List UInt8} {c : UInt8} (h : c ∈ b2a bytes) :
    isDigit c = true ∨ c = PAD := by
  have hdigit {n : Nat} (hn : n < 64) (hc : c = encodeDigit n) : isDigit c = true ∨ c = PAD := by
    rw [hc, isDigit, decodeDigit_encodeDigit hn]
    exact .inl rfl
  induction bytes using b2a.induct with
  | case1 => cases h
  | case2 a =>
    have ha := a.toNat_lt
    simp only [b2a, List.mem_cons, List.not_mem_nil, or_false] at h
    rcases h with h | h | h | h
    · exact hdigit (by omega) h
    · exact hdigit (by omega) h
    · exact .inr h
    · exact .inr h
  | case3 a b =>
    have ha := a.toNat_lt
    have hb := b.toNat_lt
    simp only [b2a, List.mem_cons, List.not_mem_nil, or_false] at h
    rcases h with h | h | h | h
    · exact hdigit (by omega) h
    · exact hdigit (by omega) h
    · exact hdigit (by omega) h
    · exact .inr h
  | case4 a b c' rest ih =>
    have ha := a.toNat_lt
    have hb := b.toNat_lt
    have hc := c'.toNat_lt
    simp only [b2a, List.mem_cons] at h
    rcases h with h | h | h | h | h
    · exact hdigit (by omega) h
    · exact hdigit (by omega) h
    · exact hdigit (by omega) h
    · exact hdigit (by omega) h
    · exact ih h

end FarmChain.Base64
