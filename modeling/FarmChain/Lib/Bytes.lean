import Mathlib.Data.List.Infix
import FarmChain.Lib.Strings

/-! Python's `bytes`, as far as a program that takes a text file apart needs it.

Lines end in a line feed, a carriage return or both. What is made of the lines one by one
can be said line by line (`flatMap_splitlines_line`), whichever of the three ends them. -/
namespace FarmChain.Bytes

def LF : UInt8 := 10
def CR : UInt8 := 13

/-- ASCII white space. -/
def isSpace (c : UInt8) : Bool := c ∈ ([32, 9, 10, 13, 11, 12] : List UInt8)

/-- `bytes.strip`. -/
def strip (bytes : List UInt8) : List UInt8 := (bytes.dropWhile isSpace).rdropWhile isSpace

/-- A line feed after a carriage return ends no line of its own. -/
def splitlinesFrom (afterCr : Bool) (line : List UInt8) : List UInt8 → List (List UInt8)
  | [] => if line = [] then [] else [line]
  | c :: rest =>
    if c = LF then
      if afterCr then splitlinesFrom false [] rest else line :: splitlinesFrom false [] rest
    else if c = CR then line :: splitlinesFrom true [] rest
    else splitlinesFrom false (line ++ [c]) rest

/-- `bytes.splitlines`. -/
def splitlines (bytes : List UInt8) : List (List UInt8) := splitlinesFrom false [] bytes

/-- `bytes.rfind`: where the last occurrence starts. -/
def rfind (marker : List UInt8) : List UInt8 → Option Nat
  | [] => if marker = [] then some 0 else none
  | c :: rest =>
    match rfind marker rest with
    | some i => some (i + 1)
    | none => if marker <+: c :: rest then some 0 else none

/-! ### Occurrences -/

theorem rfind_eq_none {marker bytes : List UInt8} :
    rfind marker bytes = none ↔ ¬marker <:+: bytes := by
  induction bytes with
  | nil => simp [rfind, List.infix_nil]
  | cons c rest ih =>
    rw [rfind, List.infix_cons_iff]
    cases hrest : rfind marker rest with
    | some i =>
      rw [hrest] at ih
      simp only [reduceCtorEq, false_iff, not_not] at ih ⊢
      exact .inr ih
    | none =>
      rw [hrest] at ih
      have hnot := ih.mp rfl
      by_cases hstarts : marker <+: c :: rest
      · simp [hstarts]
      · simp [hstarts, hnot]

/-- An occurrence behind others is the last. -/
theorem rfind_append {marker bytes : List UInt8} {i : Nat} (h : rfind marker bytes = some i)
    (before : List UInt8) : rfind marker (before ++ bytes) = some (before.length + i) := by
  induction before with
  | nil => simpa using h
  | cons c rest ih =>
    rw [List.cons_append, rfind, ih]
    simp only [List.length_cons, Option.some.injEq]
    omega

/-- A text that starts with a byte not in front starts behind. -/
theorem infix_append_iff {c : UInt8} {text before bytes : List UInt8} (h : c ∉ before) :
    (c :: text) <:+: before ++ bytes ↔ (c :: text) <:+: bytes := by
  induction before with
  | nil => exact Iff.rfl
  | cons b rest ih =>
    rw [List.mem_cons, not_or] at h
    rw [List.cons_append, List.infix_cons_iff, ih h.2]
    refine or_iff_right fun hstarts => ?_
    exact h.1 (List.cons_prefix_cons.mp hstarts).1

/-! ### Lines -/

theorem strip_sublist (bytes : List UInt8) : (strip bytes).Sublist bytes :=
  (List.rdropWhile_prefix _ _).sublist.trans (List.dropWhile_sublist _)

/-- Bytes without white space stay as they are. -/
theorem strip_of_forall {bytes : List UInt8} (h : ∀ c ∈ bytes, isSpace c = false) :
    strip bytes = bytes :=
  Strings.trim_of_forall h

theorem flatten_splitlinesFrom (afterCr : Bool) (line bytes : List UInt8) :
    (splitlinesFrom afterCr line bytes).flatten.Sublist (line ++ bytes) := by
  induction bytes generalizing afterCr line with
  | nil =>
    unfold splitlinesFrom
    split <;> simp
  | cons c rest ih =>
    rw [splitlinesFrom]
    split
    · split
      · have hrest := (ih false []).trans (List.sublist_cons_self c rest)
        exact hrest.trans (List.sublist_append_right line _)
      · exact (ih false []).trans (List.sublist_cons_self c rest) |>.append_left line
    · split
      · exact (ih true []).trans (List.sublist_cons_self c rest) |>.append_left line
      · simpa using ih false (line ++ [c])

/-- The lines have no bytes but the text's. -/
theorem flatten_splitlines (bytes : List UInt8) : (splitlines bytes).flatten.Sublist bytes :=
  flatten_splitlinesFrom false [] bytes

/-- How a line ends. -/
inductive LineEnd where
  | lf | cr | crlf
  deriving DecidableEq, Repr

def LineEnd.bytes : LineEnd → List UInt8
  | .lf => [LF]
  | .cr => [CR]
  | .crlf => [CR, LF]

/-- No line ends in these bytes. -/
def Unbroken (bytes : List UInt8) : Prop := LF ∉ bytes ∧ CR ∉ bytes

instance : DecidablePred Unbroken := fun bytes =>
  inferInstanceAs (Decidable (LF ∉ bytes ∧ CR ∉ bytes))

section
variable {f : List UInt8 → List UInt8}

theorem flatMap_unbroken {text : List UInt8} (h : Unbroken text) (line rest : List UInt8) :
    (splitlinesFrom false line (text ++ rest)).flatMap f =
      (splitlinesFrom false (line ++ text) rest).flatMap f := by
  induction text generalizing line with
  | nil => simp
  | cons c text ih =>
    obtain ⟨hlf, hcr⟩ := h
    rw [List.mem_cons, not_or] at hlf hcr
    rw [List.cons_append, splitlinesFrom, if_neg (Ne.symm hlf.1), if_neg (Ne.symm hcr.1),
      ih ⟨hlf.2, hcr.2⟩, List.append_assoc]
    rfl

/-- The second half of a line end adds an empty line at most. -/
theorem flatMap_afterCr (hf : f [] = []) (rest : List UInt8) :
    (splitlinesFrom true [] rest).flatMap f = (splitlinesFrom false [] rest).flatMap f := by
  cases rest with
  | nil => rfl
  | cons c rest =>
    by_cases hlf : c = LF
    · simp [splitlinesFrom, hlf, hf]
    · simp [splitlinesFrom, hlf]

/-- **The first line of a text, and the rest.** -/
theorem flatMap_splitlines_line (hf : f [] = []) {text : List UInt8} (h : Unbroken text)
    (ending : LineEnd) (rest : List UInt8) :
    (splitlines (text ++ ending.bytes ++ rest)).flatMap f =
      f text ++ (splitlines rest).flatMap f := by
  unfold splitlines
  rw [List.append_assoc, flatMap_unbroken h, List.nil_append]
  cases ending with
  | lf => simp [LineEnd.bytes, splitlinesFrom]
  | cr =>
    have hne : CR ≠ LF := by decide
    simp [LineEnd.bytes, splitlinesFrom, hne, flatMap_afterCr hf]
  | crlf =>
    have hne : CR ≠ LF := by decide
    simp [LineEnd.bytes, splitlinesFrom, hne]

/-- A last line without an end. -/
theorem flatMap_splitlines_last (hf : f [] = []) {text : List UInt8} (h : Unbroken text) :
    (splitlines text).flatMap f = f text := by
  have hall := flatMap_unbroken (f := f) h [] []
  rw [List.append_nil, List.nil_append] at hall
  rw [splitlines, hall, splitlinesFrom]
  split
  · rename_i hnil
    rw [hnil, hf]
    rfl
  · simp

end

end FarmChain.Bytes
