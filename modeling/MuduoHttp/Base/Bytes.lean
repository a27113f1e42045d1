import Mathlib.Data.List.DropRight
import Mathlib.Algebra.Group.Int.Defs
import Mathlib.Algebra.Group.Nat.Defs
import Mathlib.Data.Int.Order.Basic
import MuduoHttp.Support.Search

/-!
# Byte strings and the C++ library functions on them

A `std::string`, and a range of `char`, is a list of bytes.  `std::find` on
such a range is `List.idxOf`: the index of the first match, or the length of
the range.  The functions of the C++ library that the server calls on text
are modelled here with the behaviour of the "C" locale.
-/

namespace MuduoHttp

open Support

abbrev Byte := UInt8

/-- The contents of a `std::string` or of a range of `char`. -/
abbrev Bytes := List Byte

/-- The bytes of an ASCII literal. -/
def ascii (text : String) : Bytes :=
  text.toList.map fun c => c.toNat.toUInt8

def CR : Byte := 13
def LF : Byte := 10
def SP : Byte := 32
def COLON : Byte := 58
def QUESTION : Byte := 63

/-- `Buffer::kCRLF`. -/
def CRLF : Bytes := [CR, LF]

theorem CR_ne_LF : CR ≠ LF := by decide

/-- The exceptions that the modelled library functions throw. -/
inductive StdException
  | invalidArgument
  | outOfRange
  | lengthError
  deriving DecidableEq, Repr

def isspace (b : Byte) : Bool := b = SP ∨ (9 ≤ b ∧ b ≤ 13)

def isdigit (b : Byte) : Bool := 48 ≤ b ∧ b ≤ 57

/-- The number written by a string of decimal digits. -/
def decimal (digits : Bytes) : ℕ :=
  digits.foldl (fun value d => value * 10 + (d.toNat - 48)) 0

/-- `static_cast<size_t>` of an `int`. -/
def sizeT (n : ℤ) : ℕ := (n % 2 ^ 64).toNat

/-- `std::stoi` in base ten: leading white space and one sign are skipped,
and whatever follows the digits is ignored. -/
def stoi (str : Bytes) : Except StdException ℤ :=
  let text := str.dropWhile isspace
  let negative := text.head? = some 45
  let unsigned :=
    if text.head? = some 45 ∨ text.head? = some 43 then text.tail else text
  let digits := unsigned.takeWhile isdigit
  if digits = [] then .error .invalidArgument
  else
    let value : ℤ := if negative then -(decimal digits : ℤ) else decimal digits
    if -2 ^ 31 ≤ value ∧ value < 2 ^ 31 then .ok value
    else .error .outOfRange

theorem isspace_eq_false_of_isdigit {b : Byte} (h : isdigit b = true) :
    isspace b = false := by
  simp only [isdigit, isspace, SP, decide_eq_true_eq, decide_eq_false_iff_not,
    UInt8.le_iff_toNat_le, UInt8.ext_iff] at h ⊢
  simp only [UInt8.toNat_ofNat] at h ⊢
  omega

/-- On a non-empty string of digits, `stoi` returns the number it writes, or
throws when an `int` cannot hold it. -/
theorem stoi_of_digits {digits : Bytes} (hne : digits ≠ [])
    (hdigits : ∀ d ∈ digits, isdigit d = true) :
    stoi digits =
      if decimal digits < 2 ^ 31 then .ok (decimal digits)
      else .error .outOfRange := by
  cases digits with
  | nil => exact absurd rfl hne
  | cons d ds =>
      have hd := hdigits d (List.mem_cons_self ..)
      have hnospace := isspace_eq_false_of_isdigit hd
      have hsign : d ≠ 45 ∧ d ≠ 43 := by
        constructor <;> rintro rfl <;> simp [isdigit] at hd
      have htake : (d :: ds).takeWhile isdigit = d :: ds :=
        List.takeWhile_eq_self_iff.mpr hdigits
      have hrange : ((-2 ^ 31 : ℤ) ≤ (decimal (d :: ds) : ℤ) ∧
          (decimal (d :: ds) : ℤ) < 2 ^ 31) ↔
            decimal (d :: ds) < 2 ^ 31 := by
        constructor
        · rintro ⟨-, hfits⟩
          exact_mod_cast hfits
        · intro hfits
          have : (0 : ℤ) ≤ (decimal (d :: ds) : ℤ) := Int.natCast_nonneg _
          exact ⟨by omega, by exact_mod_cast hfits⟩
      simp only [stoi, List.dropWhile_cons, hnospace, Bool.false_eq_true,
        if_false, List.head?_cons, Option.some.injEq, hsign.1, hsign.2,
        or_self, htake, reduceCtorEq, hrange]

theorem stoi_digits {digits : Bytes} (hne : digits ≠ [])
    (hdigits : ∀ d ∈ digits, isdigit d = true)
    (hfits : decimal digits < 2 ^ 31) :
    stoi digits = .ok (decimal digits) := by
  rw [stoi_of_digits hne hdigits, if_pos hfits]

/-! ## Numbers in decimal -/

theorem ascii_toString (n : ℕ) :
    ascii (toString n) = (Nat.toDigits 10 n).map fun c => c.toNat.toUInt8 := by
  rw [ascii, Nat.toString_eq_repr, Nat.toList_repr]

/-- A digit as a byte. -/
theorem toNat_toUInt8_of_isDigit {c : Char} (h : c.isDigit = true) :
    48 ≤ c.toNat ∧ c.toNat ≤ 57 ∧ c.toNat.toUInt8.toNat = c.toNat := by
  have hbound : 48 ≤ c.toNat ∧ c.toNat ≤ 57 := by
    simp only [Char.isDigit, Bool.and_eq_true, decide_eq_true_eq, ge_iff_le,
      UInt32.le_iff_toNat_le] at h
    exact h
  refine ⟨hbound.1, hbound.2, ?_⟩
  change (UInt8.ofNat _).toNat = _
  rw [UInt8.toNat_ofNat']
  omega

theorem isdigit_of_mem_toString {n : ℕ} {d : Byte}
    (h : d ∈ ascii (toString n)) : isdigit d = true := by
  rw [ascii_toString] at h
  obtain ⟨c, hc, rfl⟩ := List.mem_map.mp h
  have hdigit := Nat.isDigit_of_mem_toDigits (by decide) (by decide) hc
  obtain ⟨hlow, hhigh, hbyte⟩ := toNat_toUInt8_of_isDigit hdigit
  simp only [isdigit, decide_eq_true_eq, UInt8.le_iff_toNat_le, hbyte]
  exact ⟨hlow, hhigh⟩

theorem ascii_toString_ne_nil (n : ℕ) : ascii (toString n) ≠ [] := by
  rw [ascii_toString, ne_eq, List.map_eq_nil_iff]
  exact Nat.toDigits_ne_nil

/-- Printing a number in decimal and reading it back. -/
theorem decimal_toString (n : ℕ) : decimal (ascii (toString n)) = n := by
  have hfold : ∀ (cs : List Char) (value : ℕ),
      (∀ c ∈ cs, c.isDigit = true) →
        (cs.map fun c => c.toNat.toUInt8).foldl
            (fun value d => value * 10 + (d.toNat - 48)) value =
          Nat.ofDigitChars 10 cs value := by
    intro cs
    induction cs with
    | nil => intro value _; rfl
    | cons c cs ih =>
        intro value hcs
        obtain ⟨-, -, hbyte⟩ := toNat_toUInt8_of_isDigit (hcs c (.head _))
        rw [List.map_cons, List.foldl_cons, hbyte,
          ih _ fun d hd => hcs d (.tail _ hd), Nat.ofDigitChars_cons,
          Nat.mul_comm]
        rfl
  rw [ascii_toString, decimal, hfold, Nat.ofDigitChars_ten_toDigits]
  intro c hc
  exact Nat.isDigit_of_mem_toDigits (by decide) (by decide) hc

theorem length_toString_le_iff {n k : ℕ} (h : 0 < k) :
    (ascii (toString n)).length ≤ k ↔ n < 10 ^ k := by
  rw [ascii_toString, List.length_map]
  exact Nat.length_toDigits_le_iff (by decide) h

end MuduoHttp
