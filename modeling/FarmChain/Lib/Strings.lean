import Mathlib.Data.List.DropRight

/-! Go's `strings` package, as far as a program that trims, splits and joins keys
needs it.

A Go string is a `String` here: its text is valid UTF-8, and the functions that
walk over runes walk over its characters. -/
namespace FarmChain.Strings

/-- `unicode.IsSpace`. -/
def isSpace (c : Char) : Bool :=
  c ∈ ['\t', '\n', '\x0b', '\x0c', '\r', ' ', '\u0085', '\u00a0', '\u1680', '\u2028', '\u2029',
    '\u202f', '\u205f', '\u3000'] || ('\u2000' ≤ c && c ≤ '\u200a')

/-- `strings.TrimSpace`. -/
def trimSpace (s : String) : String :=
  String.ofList ((s.toList.dropWhile isSpace).rdropWhile isSpace)

/-- `strings.Split` at a one-character separator. -/
def split (s : String) (separator : Char) : List String :=
  (s.toList.splitOn separator).map String.ofList

/-- `strings.FieldsFunc`: the maximal runs of characters that are not separators. -/
def fieldsFunc (s : String) (separator : Char → Bool) : List String :=
  ((s.toList.splitOnP separator).filter (· ≠ [])).map String.ofList

/-- `strings.SplitN` with limit two: the text before and after the first
separator, or nothing when there is none. -/
def splitPair (s : String) (separator : Char) : Option (String × String) :=
  if separator ∈ s.toList then
    some (String.ofList (s.toList.takeWhile (· ≠ separator)),
      String.ofList ((s.toList.dropWhile (· ≠ separator)).drop 1))
  else none

private theorem dropWhile_rdropWhile (p : Char → Bool) (l : List Char) :
    ((l.dropWhile p).rdropWhile p).dropWhile p = (l.dropWhile p).rdropWhile p := by
  rw [List.dropWhile_eq_self_iff]
  intro hlen
  have hinit := List.rdropWhile_prefix p (l := l.dropWhile p)
  rw [hinit.getElem hlen]
  exact List.dropWhile_get_zero_not p l (hlen.trans_le hinit.length_le)

@[simp] theorem trimSpace_trimSpace (s : String) : trimSpace (trimSpace s) = trimSpace s := by
  unfold trimSpace
  rw [String.toList_ofList, dropWhile_rdropWhile, List.rdropWhile_idempotent]

/-- What has nothing to trim stays as it is. -/
theorem trim_of_forall {α : Type} {p : α → Bool} {l : List α} (h : ∀ a ∈ l, p a = false) :
    (l.dropWhile p).rdropWhile p = l := by
  have hdrop : l.dropWhile p = l := by
    rw [List.dropWhile_eq_self_iff]
    exact fun hlen => Bool.eq_false_iff.mp (h _ (List.getElem_mem hlen))
  rw [hdrop, List.rdropWhile_eq_self_iff]
  exact fun hne => Bool.eq_false_iff.mp (h _ (List.getLast_mem hne))

/-- A text without spaces stays as it is. -/
theorem trimSpace_of_forall {s : String} (h : ∀ c ∈ s.toList, isSpace c = false) :
    trimSpace s = s := by
  rw [trimSpace, trim_of_forall h, String.ofList_toList]

/-- A text without the separator is its own only part. -/
theorem split_of_notMem (s : String) (separator : Char) (h : separator ∉ s.toList) :
    split s separator = [s] := by
  simp [split, List.splitOn_eq_singleton h]

/-- Two texts that start differently are different. -/
theorem append_inj_left {p a b : String} (h : p ++ a = p ++ b) : a = b := by
  rw [← String.toList_inj, String.toList_append, String.toList_append] at h
  exact String.toList_inj.mp (List.append_cancel_left h)

/-- Two texts split at a separator that comes last. -/
theorem append_separator_inj {a b x y : String} {separator : Char} (hx : separator ∉ x.toList)
    (hy : separator ∉ y.toList)
    (h : a ++ String.singleton separator ++ x = b ++ String.singleton separator ++ y) :
    a = b ∧ x = y := by
  have hchars : a.toList ++ separator :: x.toList = b.toList ++ separator :: y.toList := by
    simpa using congrArg String.toList h
  rw [← String.toList_inj, ← String.toList_inj]
  rcases List.append_eq_append_iff.mp hchars with ⟨between, hb, hsplit⟩ | ⟨between, ha, hsplit⟩
  · cases between with
    | nil => exact ⟨by simpa using hb.symm, (List.cons.inj hsplit).2⟩
    | cons first rest =>
      refine absurd ?_ hx
      rw [(List.cons.inj hsplit).2]
      exact List.mem_append_right _ (List.mem_cons_self ..)
  · cases between with
    | nil => exact ⟨by simpa using ha, (List.cons.inj hsplit).2.symm⟩
    | cons first rest =>
      refine absurd ?_ hy
      rw [(List.cons.inj hsplit).2]
      exact List.mem_append_right _ (List.mem_cons_self ..)

/-- Two texts split at a separator that comes first. -/
theorem separator_append_inj {separator : Char} {v v' z z' : List Char} (hv : separator ∉ v)
    (hv' : separator ∉ v') (h : v ++ separator :: z = v' ++ separator :: z') : v = v' ∧ z = z' := by
  rcases List.append_eq_append_iff.mp h with ⟨between, rfl, hsplit⟩ | ⟨between, rfl, hsplit⟩
  · cases between with
    | nil => exact ⟨(List.append_nil v).symm, (List.cons.inj hsplit).2⟩
    | cons first rest =>
      cases (List.cons.inj hsplit).1
      exact absurd (List.mem_append_right _ (List.mem_cons_self ..)) hv'
  · cases between with
    | nil => exact ⟨List.append_nil v', (List.cons.inj hsplit).2.symm⟩
    | cons first rest =>
      cases (List.cons.inj hsplit).1
      exact absurd (List.mem_append_right _ (List.mem_cons_self ..)) hv

/-- A longer text in front, joined to a part without separators, runs on into the rest of
the shorter one. -/
theorem join_longer {separator : Char} {a k v v' z z' : List Char} (hv : separator ∉ v)
    (hv' : separator ∉ v')
    (h : separator :: (v ++ separator :: z) = k ++ separator :: (v' ++ separator :: z')) :
    (k = [] ∧ v = v' ∧ z = z') ∨
      ∃ m, a ++ k = a ++ separator :: v ++ m ∧
        separator :: z = m ++ separator :: (v' ++ separator :: z') := by
  cases k with
  | nil => exact .inl ⟨rfl, separator_append_inj hv hv' (List.cons.inj h).2⟩
  | cons first k =>
    obtain ⟨rfl, hrest⟩ := List.cons.inj h
    rcases List.append_eq_append_iff.mp hrest with ⟨m, rfl, hm⟩ | ⟨between, rfl, hbetween⟩
    · exact .inr ⟨m, by simp, hm⟩
    · cases between with
      | nil => exact .inr ⟨[], by simp, hbetween.symm⟩
      | cons c rest =>
        cases (List.cons.inj hbetween).1
        exact absurd (List.mem_append_right _ (List.mem_cons_self ..)) hv

/-! ### Decimals -/

theorem natDigits_inj {m n : Nat} (h : Nat.toDigits 10 m = Nat.toDigits 10 n) : m = n := by
  have hvalues := congrArg (fun digits => Nat.ofDigitChars 10 digits 0) h
  simpa [Nat.ofDigitChars_ten_toDigits] using hvalues

/-- The decimal text of a number: its digits, after a minus sign if it is negative. -/
theorem toList_decimal (n : Int) :
    (toString n).toList =
      if n < 0 then '-' :: Nat.toDigits 10 n.natAbs else Nat.toDigits 10 n.natAbs := by
  show n.repr.toList = _
  cases n with
  | ofNat n =>
    simp [Int.repr]
  | negSucc n => simp [Int.repr, Int.negSucc_lt_zero]

theorem decimal_char {n : Int} {c : Char} (h : c ∈ (toString n).toList) :
    c = '-' ∨ c.isDigit = true := by
  have hdigit (h : c ∈ Nat.toDigits 10 n.natAbs) : c.isDigit = true :=
    Nat.isDigit_of_mem_toDigits (by decide) (by decide) h
  rw [toList_decimal] at h
  split at h
  · exact (List.mem_cons.mp h).imp id hdigit
  · exact .inr (hdigit h)

theorem decimal_inj {m n : Int} (h : toString m = toString n) : m = n := by
  have hminus (k : Int) (rest : List Char) : '-' :: rest ≠ Nat.toDigits 10 k.natAbs := by
    intro heq
    have hdigit : '-'.isDigit = true := Nat.isDigit_of_mem_toDigits (b := 10) (by decide) (by decide)
      (heq ▸ List.mem_cons_self ..)
    exact absurd hdigit (by decide)
  have hchars := congrArg String.toList h
  rw [toList_decimal, toList_decimal] at hchars
  split at hchars <;> split at hchars
  · have := natDigits_inj (List.cons.inj hchars).2
    omega
  · exact absurd hchars (hminus n _)
  · exact absurd hchars.symm (hminus m _)
  · have := natDigits_inj hchars
    omega

example : trimSpace "\t North \n" = "North" := by decide
example : fieldsFunc ";role=Admin,,x" (fun c => c = ';' || c = ',') = ["role=Admin", "x"] := by decide
example : splitPair "role=a=b" '=' = some ("role", "a=b") := by decide

end FarmChain.Strings
