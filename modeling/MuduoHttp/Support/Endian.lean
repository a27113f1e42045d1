import Mathlib.Data.Nat.Digits.Defs

/-!
# Words in memory

A word of `n` bytes lies in the memory of a little-endian host with its low
byte first.  Swapping its bytes turns it into the word whose memory has the
high byte first, and is its own inverse.
-/

namespace MuduoHttp.Support

/-- The low `n` bytes of a number, the low byte first. -/
def littleEndian : ℕ → ℕ → List UInt8
  | 0, _ => []
  | n + 1, x => x.toUInt8 :: littleEndian n (x / 256)

/-- The low `n` bytes of a number, the high byte first. -/
def bigEndian (n x : ℕ) : List UInt8 := (littleEndian n x).reverse

/-- The number with the given bytes, the low byte first. -/
def ofLittleEndian (bytes : List UInt8) : ℕ :=
  Nat.ofDigits 256 (bytes.map UInt8.toNat)

variable {n x : ℕ} {bytes : List UInt8}

@[simp] theorem length_littleEndian (n x : ℕ) :
    (littleEndian n x).length = n := by
  induction n generalizing x with
  | zero => rfl
  | succ n ih => rw [littleEndian, List.length_cons, ih]

theorem ofLittleEndian_cons (b : UInt8) (bytes : List UInt8) :
    ofLittleEndian (b :: bytes) = b.toNat + 256 * ofLittleEndian bytes := by
  simp [ofLittleEndian, Nat.ofDigits_cons]

theorem ofLittleEndian_littleEndian (n x : ℕ) :
    ofLittleEndian (littleEndian n x) = x % 256 ^ n := by
  induction n generalizing x with
  | zero => simp [littleEndian, ofLittleEndian, Nat.mod_one]
  | succ n ih =>
      have hbyte : x.toUInt8.toNat = x % 256 := UInt8.toNat_ofNat'
      rw [littleEndian, ofLittleEndian_cons, ih, hbyte, pow_succ',
        Nat.mod_mul]

theorem ofLittleEndian_lt (bytes : List UInt8) :
    ofLittleEndian bytes < 256 ^ bytes.length := by
  have hdigits : ∀ d ∈ bytes.map UInt8.toNat, d < 256 := by
    intro d hd
    obtain ⟨b, -, rfl⟩ := List.mem_map.mp hd
    exact b.toNat_lt
  have hlt := Nat.ofDigits_lt_base_pow_length (by decide) hdigits
  rwa [List.length_map] at hlt

theorem littleEndian_ofLittleEndian (h : bytes.length = n) :
    littleEndian n (ofLittleEndian bytes) = bytes := by
  induction bytes generalizing n with
  | nil =>
      rw [← h]
      rfl
  | cons b bytes ih =>
      rw [← h, List.length_cons, littleEndian, ofLittleEndian_cons]
      have hb := b.toNat_lt
      have hrest : (b.toNat + 256 * ofLittleEndian bytes) / 256 =
          ofLittleEndian bytes := by
        omega
      have hfirst : (b.toNat + 256 * ofLittleEndian bytes).toUInt8 = b := by
        apply UInt8.toNat_inj.mp
        rw [Nat.toUInt8, UInt8.toNat_ofNat']
        omega
      rw [hrest, hfirst, ih rfl]

/-! ## Words -/

/-- A word of `n` bytes. -/
abbrev Word (n : ℕ) := BitVec (8 * n)

theorem two_pow_mul (n : ℕ) : 2 ^ (8 * n) = 256 ^ n :=
  pow_mul 2 8 n

/-- The bytes of a word in the memory of a little-endian host. -/
def memory (n : ℕ) (x : Word n) : List UInt8 := littleEndian n x.toNat

/-- The word that lies in memory. -/
def ofMemory (n : ℕ) (bytes : List UInt8) : Word n :=
  BitVec.ofNat (8 * n) (ofLittleEndian bytes)

/-- The word with the bytes in the other order. -/
def byteSwap (n : ℕ) (x : Word n) : Word n :=
  ofMemory n (memory n x).reverse

@[simp] theorem length_memory (n : ℕ) (x : Word n) :
    (memory n x).length = n :=
  length_littleEndian n x.toNat

theorem ofMemory_memory (n : ℕ) (x : Word n) : ofMemory n (memory n x) = x := by
  apply BitVec.eq_of_toNat_eq
  rw [ofMemory, memory, ofLittleEndian_littleEndian, BitVec.toNat_ofNat,
    ← two_pow_mul, Nat.mod_mod, Nat.mod_eq_of_lt x.isLt]

theorem memory_ofMemory (h : bytes.length = n) :
    memory n (ofMemory n bytes) = bytes := by
  have hlt := ofLittleEndian_lt bytes
  rw [h, ← two_pow_mul] at hlt
  rw [memory, ofMemory, BitVec.toNat_ofNat, Nat.mod_eq_of_lt hlt,
    littleEndian_ofLittleEndian h]

/-- The swapped word lies in memory with the high byte first. -/
theorem memory_byteSwap (n : ℕ) (x : Word n) :
    memory n (byteSwap n x) = bigEndian n x.toNat := by
  rw [byteSwap, memory_ofMemory (by simp)]
  rfl

theorem byteSwap_byteSwap (n : ℕ) (x : Word n) :
    byteSwap n (byteSwap n x) = x := by
  rw [byteSwap, memory_byteSwap, bigEndian, List.reverse_reverse]
  exact ofMemory_memory n x

/-- The two's complement of an integer in `n` bytes, the high byte first. -/
def twosComplement (n : ℕ) (z : ℤ) : List UInt8 :=
  bigEndian n (z % 2 ^ (8 * n)).toNat

/-- A word that stands for a signed integer is its two's complement. -/
theorem bigEndian_toNat (n : ℕ) (x : Word n) :
    bigEndian n x.toNat = twosComplement n x.toInt := by
  have hmod : x.toInt % 2 ^ (8 * n) = x.toNat := by
    have hlt : (x.toNat : ℤ) < ((2 ^ (8 * n) : ℕ) : ℤ) :=
      Int.ofNat_lt.mpr x.isLt
    have hcast : (2 : ℤ) ^ (8 * n) = ((2 ^ (8 * n) : ℕ) : ℤ) := by
      push_cast
      rfl
    rw [BitVec.toInt_eq_toNat_bmod, hcast, Int.bmod_emod,
      Int.emod_eq_of_lt (Int.natCast_nonneg _) hlt]
  rw [twosComplement, hmod, Int.toNat_natCast]

end MuduoHttp.Support
