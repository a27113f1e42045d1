import MuduoHttp.Base.AsyncLogging
import MuduoHttp.Base.LogStream

/-!
# Log formatting is exact and bounded

The conversion of a number stores its numeral, and stays inside of the buffer
because 32 bytes hold the longest numeral of 64 bits with a sign and a NUL.
So every item that is inserted into a stream is written whole or not at all,
and nothing is stored outside of `data_`.
-/

namespace MuduoHttp

open Support

/-! ## Digits in place -/

/-- The character of a digit, in upper case. -/
def digitSymbol (d : ℕ) : Byte :=
  if d < 10 then 48 + .ofNat d else 55 + .ofNat d

/-- The numeral of a number, in characters. -/
def numeralText (b n : ℕ) : Bytes := (numeral b n).map digitSymbol

theorem length_numeralText_le {b n k : ℕ} (hb : 1 < b) (hk : 0 < k)
    (h : n < b ^ k) : (numeralText b n).length ≤ k := by
  rw [numeralText, List.length_map]
  exact length_numeral_le hb hk h

/-- The last digit, and the digits in front of it. -/
theorem numeralText_eq_append {b : ℕ} (hb : 1 < b) (n : ℕ) :
    numeralText b n =
      (if n / b = 0 then [] else numeralText b (n / b)) ++
        [digitSymbol (n % b)] := by
  rw [numeralText, numeral_eq_append hb]
  split
  · rfl
  · rw [List.map_append, List.map_singleton, numeralText]

namespace LogStream

theorem symbol_decimal {sign : ℤ} (hsign : sign = 1 ∨ sign = -1) :
    ∀ d : ℕ, d < 10 →
      Radix.decimal.symbol (sign * d) = some (digitSymbol d) := by
  rcases hsign with rfl | rfl <;> decide

theorem symbol_hexadecimal : ∀ d : ℕ, d < 16 →
    Radix.hexadecimal.symbol (1 * d) = some (digitSymbol d) := by
  decide

variable {SIZE : ℕ}

/-- The loop stores the numeral of the magnitude backwards, if the table shows
the remainders of that sign. -/
theorem convertLoop_eq (r : Radix) {sign : ℤ} (hsign : sign = 1 ∨ sign = -1)
    (hsymbol : ∀ d : ℕ, d < r.base →
      r.symbol (sign * d) = some (digitSymbol d))
    (data : FixedArray Byte SIZE) (p m : ℕ) :
    convertLoop r data p (sign * m) =
      (data.write p (numeralText r.base m).reverse).map
        fun data => (data, p + (numeralText r.base m).length) := by
  -- The truncating division treats the magnitude and keeps the sign.
  have hquotient : (sign * m).tdiv r.base = sign * (m / r.base : ℕ) := by
    rcases hsign with rfl | rfl <;> simp
  have hremainder : (sign * m).tmod r.base = sign * (m % r.base : ℕ) := by
    rcases hsign with rfl | rfl <;>
      simp only [neg_mul, one_mul, Int.neg_tmod, Int.ofNat_tmod]
  have hdigit : m % r.base < r.base :=
    Nat.mod_lt _ (Nat.zero_lt_of_lt r.one_lt)
  rw [convertLoop, hremainder, hsymbol _ hdigit, hquotient,
    numeralText_eq_append r.one_lt, List.reverse_append, List.length_append]
  simp only [Option.bind_eq_bind, Option.bind_some]
  by_cases hlast : m / r.base = 0
  · have hdone : ¬ sign * (m / r.base : ℕ) ≠ 0 := by simp [hlast]
    rw [if_pos hlast, Option.map_eq_bind]
    simp only [dif_neg hdone]
    rfl
  · have hmore : sign * (m / r.base : ℕ) ≠ 0 := by
      refine mul_ne_zero ?_ (Int.natCast_ne_zero.mpr hlast)
      rcases hsign with rfl | rfl <;> decide
    have hless : m / r.base < m := by
      apply Nat.div_lt_self (Nat.pos_of_ne_zero _) r.one_lt
      rintro rfl
      exact hlast (Nat.zero_div _)
    have hlength : p + ((numeralText r.base (m / r.base)).length + 1) =
        p + 1 + (numeralText r.base (m / r.base)).length := by omega
    rw [if_neg hlast, List.reverse_singleton, List.length_singleton, hlength,
      ← FixedArray.write_append, Option.map_bind]
    simp only [dif_pos hmore,
      convertLoop_eq r hsign hsymbol _ (p + 1) (m / r.base)]
    rfl

/-- The end turns what was stored and ends it with a NUL. -/
theorem convertEnd_eq (data : FixedArray Byte SIZE) (buf : ℕ) (text : Bytes) :
    ((data.write buf text).bind fun data =>
        convertEnd data buf (buf + text.length)) =
      (data.write buf (text.reverse ++ [NUL])).map
        fun data => (data, text.length) := by
  rw [← FixedArray.write_reverse, ← FixedArray.write_append]
  simp only [convertEnd, Option.bind_eq_bind, Option.bind_assoc,
    Option.map_eq_bind, Function.comp_def, Nat.add_sub_cancel_left]

/-- Without a sign the loop and the end store the numeral and a NUL. -/
theorem convertLoop_end (r : Radix)
    (hsymbol : ∀ d : ℕ, d < r.base → r.symbol (1 * d) = some (digitSymbol d))
    (data : FixedArray Byte SIZE) (buf m : ℕ) :
    ((convertLoop r data buf m).bind fun stored =>
        convertEnd stored.1 buf stored.2) =
      (data.write buf (numeralText r.base m ++ [NUL])).map
        fun data => (data, (numeralText r.base m).length) := by
  have hloop := convertLoop_eq r (.inl rfl) hsymbol data buf m
  have hend := convertEnd_eq data buf (numeralText r.base m).reverse
  rw [one_mul] at hloop
  rw [List.length_reverse, List.reverse_reverse] at hend
  rw [hloop, Option.bind_map, ← hend]
  rfl

/-- The decimal form of a number. -/
def decimalText (v : ℤ) : Bytes :=
  (if v < 0 then [MINUS] else []) ++ numeralText 10 v.natAbs

theorem convert_eq (data : FixedArray Byte SIZE) (buf : ℕ) (value : ℤ) :
    convert data buf value =
      (data.write buf (decimalText value ++ [NUL])).map
        fun data => (data, (decimalText value).length) := by
  by_cases hneg : value < 0
  · have hvalue : value = -1 * (value.natAbs : ℤ) := by omega
    have hloop := convertLoop_eq .decimal (.inr rfl)
      (symbol_decimal (.inr rfl)) data buf value.natAbs
    have hend := convertEnd_eq data buf
      ((numeralText 10 value.natAbs).reverse ++ [MINUS])
    rw [← hvalue] at hloop
    rw [List.reverse_append, List.reverse_reverse, List.reverse_singleton,
      ← FixedArray.write_append, Option.bind_assoc, List.length_append,
      List.length_reverse, List.length_singleton] at hend
    rw [convert, hloop, decimalText, if_pos hneg, List.length_append,
      List.length_singleton, Nat.add_comm 1, ← hend]
    simp only [Option.bind_eq_bind, Option.bind_map, if_pos hneg]
    rfl
  · have hvalue : (value.natAbs : ℤ) = value := by omega
    have hdigits := convertLoop_end .decimal (symbol_decimal (.inl rfl))
      data buf value.natAbs
    rw [hvalue] at hdigits
    rw [decimalText, if_neg hneg, List.nil_append]
    simp only [convert, if_neg hneg]
    exact hdigits

theorem convertHex_eq (data : FixedArray Byte SIZE) (buf : ℕ)
    (value : UInt64) :
    convertHex data buf value =
      (data.write buf (numeralText 16 value.toNat ++ [NUL])).map
        fun data => (data, (numeralText 16 value.toNat).length) :=
  convertLoop_end .hexadecimal symbol_hexadecimal data buf value.toNat

end LogStream

/-! ## Room in the buffer -/

namespace FixedBuffer

variable {SIZE : ℕ}

/-- `b'` is `b` with `text` behind its contents. -/
structure Adds (b b' : FixedBuffer SIZE) (text : Bytes) : Prop where
  contents : b'.toString = b.toString ++ text
  avail : b'.avail = b.avail - text.length

theorem length_toString (b : FixedBuffer SIZE) :
    b.toString.length = b.length := by
  rw [toString, List.length_take, b.data_.2]
  exact min_eq_left b.bound

/-- A store at `cur_` and the move of `cur_` behind a part of it. -/
theorem exists_write_add (b : FixedBuffer SIZE) {text rest : Bytes}
    (h : (text ++ rest).length ≤ b.avail) :
    ∃ data b', b.data_.write b.cur_ (text ++ rest) = some data ∧
      add { b with data_ := data } text.length = some b' ∧
      b.Adds b' text := by
  have hcur := b.bound
  have hwrite : b.cur_ + (text ++ rest).length ≤ SIZE := by
    rw [avail] at h
    omega
  have hadd : b.cur_ + text.length ≤ SIZE := by
    rw [List.length_append] at hwrite
    omega
  obtain ⟨data, hdata, -⟩ := FixedArray.write_of_le (a := b.data_) hwrite
  refine ⟨data, ⟨data, b.cur_ + text.length, hadd⟩, hdata, dif_pos hadd, ?_, ?_⟩
  · exact FixedArray.take_write hdata
  · exact Nat.sub_add_eq _ _ _

theorem append_of_lt (b : FixedBuffer SIZE) {buf : Bytes}
    (h : buf.length < b.avail) :
    ∃ b', b.append buf = some b' ∧ b.Adds b' buf := by
  have hfits : (buf ++ []).length ≤ b.avail := by simpa using h.le
  obtain ⟨data, b', hwrite, hadd, hadds⟩ := b.exists_write_add hfits
  rw [List.append_nil] at hwrite
  refine ⟨b', ?_, hadds⟩
  rw [append, if_pos h, hwrite]
  exact hadd

theorem append_of_le (b : FixedBuffer SIZE) {buf : Bytes}
    (h : b.avail ≤ buf.length) : b.append buf = some b :=
  if_neg (Nat.not_lt.mpr h)

end FixedBuffer

/-! ## What an item says -/

/-- The value of an item, whatever its type. -/
inductive LogValue
  | plain (bytes : Bytes)
  | integer (v : ℤ) (bound : v.natAbs < 2 ^ 64)
  | pointer (p : UInt64)

namespace LogValue

/-- A number is written exactly: an integer in decimal, with a minus sign only
if it is negative, and a pointer in hexadecimal behind `0x`. -/
def Renders : LogValue → Bytes → Prop
  | .plain bytes, text => text = bytes
  | .integer v _, text => ∃ ds, IsNumeral 10 v.natAbs ds ∧
      text = (if v < 0 then [MINUS] else []) ++ ds.map digitSymbol
  | .pointer p, text => ∃ ds, IsNumeral 16 p.toNat ds ∧
      text = ascii "0x" ++ ds.map digitSymbol

/-- What a stream asks of its buffer before it writes a value. -/
def Room : LogValue → ℕ → Prop
  | .plain bytes, avail => bytes.length < avail
  | .integer _ _, avail => kMaxNumericSize ≤ avail
  | .pointer _, avail => kMaxNumericSize ≤ avail

/-- There is one way to write a value. -/
theorem Renders.unique {v : LogValue} {text text' : Bytes}
    (h : v.Renders text) (h' : v.Renders text') : text = text' := by
  cases v with
  | plain bytes =>
      obtain rfl : text = bytes := h
      exact h'.symm
  | integer v bound =>
      obtain ⟨ds, hds, rfl⟩ := h
      obtain ⟨ds', hds', rfl⟩ := h'
      rw [hds.eq_numeral (by decide), hds'.eq_numeral (by decide)]
  | pointer p =>
      obtain ⟨ds, hds, rfl⟩ := h
      obtain ⟨ds', hds', rfl⟩ := h'
      rw [hds.eq_numeral (by decide), hds'.eq_numeral (by decide)]

end LogValue

theorem natAbs_lt_of_signed {v : ℤ} {k : ℕ} (hk : k < 64) (hlow : -2 ^ k ≤ v)
    (hhigh : v < 2 ^ k) : v.natAbs < 2 ^ 64 := by
  have hcast : ((2 ^ k : ℕ) : ℤ) = 2 ^ k := by simp
  have hpow : 2 ^ k < 2 ^ 64 := Nat.pow_lt_pow_right (by decide) hk
  omega

theorem natAbs_lt_of_unsigned {n k : ℕ} (hk : k ≤ 64) (h : n < 2 ^ k) :
    (n : ℤ).natAbs < 2 ^ 64 := by
  rw [Int.natAbs_natCast]
  exact h.trans_le (Nat.pow_le_pow_right (by decide) hk)

/-- The value of what is inserted. -/
def LogItem.value : LogItem → LogValue
  | .bool v => .plain (ascii (if v then "1" else "0"))
  | .short v =>
      .integer v.toInt (natAbs_lt_of_signed (by decide) v.le_toInt v.toInt_lt)
  | .unsignedShort v =>
      .integer v.toNat (natAbs_lt_of_unsigned (by decide) v.toNat_lt)
  | .int v =>
      .integer v.toInt (natAbs_lt_of_signed (by decide) v.le_toInt v.toInt_lt)
  | .unsignedInt v =>
      .integer v.toNat (natAbs_lt_of_unsigned (by decide) v.toNat_lt)
  | .long v | .longLong v =>
      .integer v.toInt (natAbs_lt_of_signed (by decide) v.le_toInt v.toInt_lt)
  | .unsignedLong v | .unsignedLongLong v =>
      .integer v.toNat (natAbs_lt_of_unsigned (by decide) v.toNat_lt)
  | .pointer p => .pointer p
  | .char v => .plain [v]
  | .charPointer none | .unsignedCharPointer none => .plain (ascii "(null)")
  | .charPointer (some str) | .unsignedCharPointer (some str) =>
      .plain (str.take (str.idxOf NUL))
  | .string v | .stringPiece v => .plain v

/-- The bytes that show an item. -/
def LogItem.Renders (item : LogItem) (text : Bytes) : Prop :=
  item.value.Renders text

/-! ## Insertions -/

namespace LogStream

/-- `operator<<` on the value of its argument. -/
def put (s : LogStream) : LogValue → Option LogStream
  | .plain bytes => s.append bytes
  | .integer v _ => s.formatInteger v
  | .pointer p => s.formatPointer p

theorem insert_eq_put (s : LogStream) (item : LogItem) :
    s.insert item = s.put item.value := by
  cases item with
  | bool v => cases v <;> rfl
  | short v => rw [insert, Int16.toInt_toInt32]; rfl
  | unsignedShort v => rfl
  | charPointer str => cases str <;> rfl
  | unsignedCharPointer str => cases str <;> rfl
  | _ => rfl

/-- The longest number of 64 bits has 20 digits. -/
theorem length_decimalText_le {v : ℤ} (h : v.natAbs < 2 ^ 64) :
    (decimalText v).length ≤ 21 := by
  have hdigits : (numeralText 10 v.natAbs).length ≤ 20 :=
    length_numeralText_le (by decide) (by decide) (h.trans (by decide))
  rw [decimalText, List.length_append]
  split
  · rw [List.length_singleton]
    omega
  · rw [List.length_nil]
    omega

theorem length_hexText_le (p : UInt64) :
    (numeralText 16 p.toNat).length ≤ 16 :=
  length_numeralText_le (by decide) (by decide) p.toNat_lt

theorem formatInteger_of_le (s : LogStream) {v : ℤ} (hv : v.natAbs < 2 ^ 64)
    (h : kMaxNumericSize ≤ s.buffer_.avail) :
    ∃ s', s.formatInteger v = some s' ∧
      s.buffer_.Adds s'.buffer_ (decimalText v) := by
  have hfits : (decimalText v ++ [NUL]).length ≤ s.buffer_.avail := by
    have hlength := length_decimalText_le hv
    rw [kMaxNumericSize] at h
    rw [List.length_append, List.length_singleton]
    omega
  obtain ⟨data, b', hwrite, hadd, hadds⟩ := s.buffer_.exists_write_add hfits
  refine ⟨{ s with buffer_ := b' }, ?_, hadds⟩
  rw [formatInteger, if_pos h, convert_eq, hwrite]
  simp only [Option.map_some, Option.bind_eq_bind, Option.bind_some, hadd]

theorem formatPointer_of_le (s : LogStream) (p : UInt64)
    (h : kMaxNumericSize ≤ s.buffer_.avail) :
    ∃ s', s.formatPointer p = some s' ∧
      s.buffer_.Adds s'.buffer_ (ascii "0x" ++ numeralText 16 p.toNat) := by
  have hfits : ((ascii "0x" ++ numeralText 16 p.toNat) ++ [NUL]).length ≤
      s.buffer_.avail := by
    have hlength := length_hexText_le p
    have htwo : (ascii "0x").length = 2 := rfl
    rw [kMaxNumericSize] at h
    rw [List.length_append, List.length_append, List.length_singleton]
    omega
  obtain ⟨data, b', hwrite, hadd, hadds⟩ := s.buffer_.exists_write_add hfits
  refine ⟨{ s with buffer_ := b' }, ?_, hadds⟩
  rw [List.append_assoc, ← FixedArray.write_append,
    show ascii "0x" = ascii "0" ++ ascii "x" from rfl,
    ← FixedArray.write_append, Option.bind_assoc] at hwrite
  obtain ⟨data₁, hfirst, hwrite⟩ := Option.bind_eq_some_iff.mp hwrite
  obtain ⟨data₂, hsecond, hlast⟩ := Option.bind_eq_some_iff.mp hwrite
  change data₁.write (s.buffer_.cur_ + 1) _ = _ at hsecond
  change data₂.write (s.buffer_.cur_ + 2) _ = _ at hlast
  rw [List.length_append, Nat.add_comm] at hadd
  change FixedBuffer.add _ (_ + 2) = _ at hadd
  rw [formatPointer, if_pos h]
  simp only [convertHex_eq, Option.bind_eq_bind, hfirst, hsecond, hlast,
    Option.bind_some, Option.map_some, hadd]

theorem append_of_lt (s : LogStream) {bytes : Bytes}
    (h : bytes.length < s.buffer_.avail) :
    ∃ s', s.append bytes = some s' ∧ s.buffer_.Adds s'.buffer_ bytes := by
  obtain ⟨b', happend, hadds⟩ := s.buffer_.append_of_lt h
  refine ⟨{ s with buffer_ := b' }, ?_, hadds⟩
  rw [append, happend]
  rfl

/-- With room for it a value is written whole. -/
theorem put_of_room (s : LogStream) {v : LogValue}
    (h : v.Room s.buffer_.avail) :
    ∃ s' text, s.put v = some s' ∧ v.Renders text ∧
      s.buffer_.Adds s'.buffer_ text := by
  cases v with
  | plain bytes =>
      obtain ⟨s', hput, hadds⟩ := s.append_of_lt h
      exact ⟨s', bytes, hput, rfl, hadds⟩
  | integer v bound =>
      obtain ⟨s', hput, hadds⟩ := s.formatInteger_of_le bound h
      exact ⟨s', decimalText v, hput,
        ⟨_, isNumeral_numeral (by decide) _, rfl⟩, hadds⟩
  | pointer p =>
      obtain ⟨s', hput, hadds⟩ := s.formatPointer_of_le p h
      exact ⟨s', ascii "0x" ++ numeralText 16 p.toNat, hput,
        ⟨_, isNumeral_numeral (by decide) _, rfl⟩, hadds⟩

/-- Without it the stream stays as it is. -/
theorem put_of_full (s : LogStream) {v : LogValue}
    (h : ¬ v.Room s.buffer_.avail) : s.put v = some s := by
  cases v with
  | plain bytes =>
      rw [put, append, s.buffer_.append_of_le (Nat.not_lt.mp h)]
      rfl
  | integer v bound => exact if_neg h
  | pointer p => exact if_neg h

end LogStream

/-! ## Sequences of insertions -/

/-- The items that are written when `avail` bytes are left at first, each with
the bytes that show it.  An item is skipped only when there is no room. -/
inductive Written : ℕ → List LogItem → List (LogItem × Bytes) → Prop
  | nil (avail : ℕ) : Written avail [] []
  | written {avail : ℕ} {item : LogItem} {text : Bytes} {items : List LogItem}
      {rest : List (LogItem × Bytes)} (hroom : item.value.Room avail)
      (htext : item.Renders text)
      (hrest : Written (avail - text.length) items rest) :
      Written avail (item :: items) ((item, text) :: rest)
  | skipped {avail : ℕ} {item : LogItem} {items : List LogItem}
      {rest : List (LogItem × Bytes)} (hroom : ¬ item.value.Room avail)
      (hrest : Written avail items rest) : Written avail (item :: items) rest

/-- What is written is determined by the items. -/
theorem Written.unique {avail : ℕ} {items : List LogItem}
    {w w' : List (LogItem × Bytes)} (h : Written avail items w)
    (h' : Written avail items w') : w = w' := by
  induction h generalizing w' with
  | nil avail => cases h' with | nil => rfl
  | written hroom htext hrest ih =>
      cases h' with
      | written _ htext' hrest' =>
          obtain rfl := htext.unique htext'
          rw [ih hrest']
      | skipped hfull _ => exact absurd hroom hfull
  | skipped hfull hrest ih =>
      cases h' with
      | written hroom _ _ => exact absurd hroom hfull
      | skipped _ hrest' => exact ih hrest'

/-- Insertions append what is written to the contents. -/
theorem LogStream.insertAll_written (s : LogStream) (items : List LogItem) :
    ∃ s' w, s.insertAll items = some s' ∧
      Written s.buffer_.avail items w ∧
      s'.buffer_.toString = s.buffer_.toString ++ (w.map Prod.snd).flatten := by
  induction items generalizing s with
  | nil => exact ⟨s, [], rfl, .nil _, by simp⟩
  | cons item items ih =>
      by_cases hroom : item.value.Room s.buffer_.avail
      · obtain ⟨s₁, text, hput, htext, hadds⟩ := s.put_of_room hroom
        obtain ⟨s₂, w, hall, hwritten, hcontents⟩ := ih s₁
        rw [hadds.avail] at hwritten
        refine ⟨s₂, (item, text) :: w, ?_, .written hroom htext hwritten, ?_⟩
        · rw [insertAll, insert_eq_put, hput]
          exact hall
        · rw [hcontents, hadds.contents, List.append_assoc]
          rfl
      · obtain ⟨s₁, w, hall, hwritten, hcontents⟩ := ih s
        refine ⟨s₁, w, ?_, .skipped hroom hwritten, hcontents⟩
        rw [insertAll, insert_eq_put, s.put_of_full hroom]
        exact hall

/-- Whatever `data_` holds at first and whatever is inserted, nothing is stored
outside of `data_`, every item is written whole and exactly or skipped whole,
and the contents are what was written. -/
theorem logFormatting_exact (data : FixedArray Byte kSmallBuffer)
    (items : List LogItem) :
    ∃ s w, (LogStream.new data).insertAll items = some s ∧
      s.buffer_.length ≤ kSmallBuffer ∧
      Written kSmallBuffer items w ∧
      s.buffer_.toString = (w.map Prod.snd).flatten := by
  obtain ⟨s, w, hall, hwritten, hcontents⟩ :=
    (LogStream.new data).insertAll_written items
  exact ⟨s, w, hall, s.buffer_.bound, hwritten, hcontents⟩

/-- The text of a stream does not depend on what its memory held. -/
theorem LogStream.text_eq (data data' : FixedArray Byte kSmallBuffer)
    (items : List LogItem) :
    ∃ s s', (LogStream.new data).insertAll items = some s ∧
      (LogStream.new data').insertAll items = some s' ∧
      s.buffer_.toString = s'.buffer_.toString := by
  obtain ⟨s, w, hall, hwritten, htext⟩ :=
    (LogStream.new data).insertAll_written items
  obtain ⟨s', w', hall', hwritten', htext'⟩ :=
    (LogStream.new data').insertAll_written items
  obtain rfl := hwritten.unique hwritten'
  exact ⟨s, s', hall, hall', htext.trans htext'.symm⟩

/-! ## The buffers of the back end -/

/-- A `FixedBuffer` with the contents of a `LogBuffer` keeps them under
appends. -/
theorem FixedBuffer.append_logBuffer {b : FixedBuffer kLargeBuffer}
    {lines : LogBuffer} (h : b.toString = lines.data) (logline : Line) :
    ∃ b', b.append logline = some b' ∧
      b'.toString = (lines.append logline).data := by
  have havail : b.avail = lines.avail := by
    rw [avail, LogBuffer.avail, LogBuffer.length, ← h, length_toString]
    rfl
  by_cases hfits : logline.length < b.avail
  · obtain ⟨b', happend, hadds⟩ := b.append_of_lt hfits
    refine ⟨b', happend, ?_⟩
    rw [hadds.contents, h, LogBuffer.data, LogBuffer.data,
      LogBuffer.lines_append (havail ▸ hfits), List.flatten_append,
      List.flatten_singleton]
  · refine ⟨b, b.append_of_le (Nat.not_lt.mp hfits), ?_⟩
    rw [h, LogBuffer.append, dif_neg (havail ▸ hfits)]

theorem FixedBuffer.appendAll_logBuffer {b : FixedBuffer kLargeBuffer}
    {buffer : LogBuffer} (h : b.toString = buffer.data) (lines : List Line) :
    ∃ b', lines.foldlM FixedBuffer.append b = some b' ∧
      b'.toString = (lines.foldl LogBuffer.append buffer).data := by
  induction lines generalizing b buffer with
  | nil => exact ⟨b, rfl, h⟩
  | cons logline lines ih =>
      obtain ⟨b₁, hfirst, hsame⟩ := append_logBuffer h logline
      obtain ⟨b₂, hrest, hlast⟩ := ih hsame
      refine ⟨b₂, ?_, hlast⟩
      rw [List.foldlM_cons, hfirst]
      exact hrest

/-- The buffers of the back end as lists of lines: a fresh `FixedBuffer` holds
what a `LogBuffer` has of the lines that are appended, and an empty one takes
the text of every stream. -/
theorem logBuffer_refined (data : FixedArray Byte kLargeBuffer)
    (lines : List Line) :
    (∃ b, lines.foldlM FixedBuffer.append (FixedBuffer.new data) = some b ∧
      b.toString = (lines.foldl LogBuffer.append .empty).data) ∧
    ∀ s : LogStream,
      (LogBuffer.empty.append s.buffer_.toString).data =
        s.buffer_.toString := by
  refine ⟨FixedBuffer.appendAll_logBuffer rfl lines, fun s => ?_⟩
  have hfits : s.buffer_.toString.length < LogBuffer.empty.avail := by
    calc
      s.buffer_.toString.length = s.buffer_.length :=
        s.buffer_.length_toString
      _ ≤ kSmallBuffer := s.buffer_.bound
      _ < kLargeBuffer := by decide
  rw [LogBuffer.data, LogBuffer.lines_append hfits]
  exact List.append_nil _

end MuduoHttp
