import MuduoHttp.Http.FastCgi

/-!
# The buffer of the parameters

`Params` builds the parameters in an array on the stack, through a pointer
that nothing compares with the end.  The array is modelled together with the
place of the pointer; a byte that would be written behind the end is lost here
and leaves a mark.  As long as there is none, the record is the one of the
codec.
-/

namespace MuduoHttp

namespace FastCgi

def PARAMS_BUFF_LEN : ℕ := 1024

/-- A `size_t` as an argument of type `int`. -/
def toInt (n : ℕ) : ℤ := (n : ℤ).bmod (2 ^ 32)

theorem toInt_of_lt {n : ℕ} (h : n < 2 ^ 31) : toInt n = n := by
  have hbound : (n : ℤ) < 2 ^ 31 := by exact_mod_cast h
  exact Int.bmod_eq_of_le (by omega) (by omega)

/-- The array `bodyBuff`, the offset of the next byte, and whether a byte was
written behind the end. -/
structure BodyBuff where
  bytes : Bytes
  next : ℕ
  overrun : Bool

namespace BodyBuff

/-- The array after `bzero`. -/
def zero : BodyBuff where
  bytes := List.replicate PARAMS_BUFF_LEN 0
  next := 0
  overrun := false

/-- `*bodyBuffPtr++ = b`. -/
def put (buff : BodyBuff) (b : Byte) : BodyBuff where
  bytes := buff.bytes.set buff.next b
  next := buff.next + 1
  overrun := buff.overrun || decide (PARAMS_BUFF_LEN ≤ buff.next)

/-- A length: in one byte, or in four with the top bit set. -/
def putLength (buff : BodyBuff) (len : ℤ) : BodyBuff :=
  if len < 128 then buff.put (lowByte len)
  else
    (((buff.put (lowByte (len / 2 ^ 24) ||| 0x80)).put
      (lowByte (len / 2 ^ 16))).put (lowByte (len / 2 ^ 8))).put (lowByte len)

/-- `FastCgi::makeNameValueBody`, from the place of the pointer on. -/
def makeNameValueBody (buff : BodyBuff) (name : Bytes) (nameLen : ℤ)
    (value : Bytes) (valueLen : ℤ) : BodyBuff :=
  value.foldl put (name.foldl put ((buff.putLength nameLen).putLength valueLen))

/-- The loop of `FastCgi::Params`. -/
def putPairs (buff : BodyBuff) (pairs : List (Bytes × Bytes)) : BodyBuff :=
  pairs.foldl
    (fun buff pair =>
      buff.makeNameValueBody pair.1 (toInt pair.1.length) pair.2
        (toInt pair.2.length))
    buff

end BodyBuff

/-- The array when the loop of `FastCgi::Params` ends. -/
def bodyBuff (pairs : List (Bytes × Bytes)) : BodyBuff :=
  BodyBuff.zero.putPairs pairs

/-- `FastCgi::Params` on vectors, with the array. -/
def Params (requestId : ℤ) (pairs : List (Bytes × Bytes)) : Bytes :=
  let buff := bodyBuff pairs
  (makeHeader FCGI_PARAMS requestId buff.next 0).bytes ++
    buff.bytes.take buff.next

/-! ## What the array holds -/

/-- The bytes of a length. -/
def lengthCode (len : ℤ) : Bytes :=
  if len < 128 then [lowByte len]
  else
    [lowByte (len / 2 ^ 24) ||| 0x80, lowByte (len / 2 ^ 16),
      lowByte (len / 2 ^ 8), lowByte len]

/-- The bytes of a name and a value. -/
def pairCode (pair : Bytes × Bytes) : Bytes :=
  lengthCode (toInt pair.1.length) ++ lengthCode (toInt pair.2.length) ++
    pair.1 ++ pair.2

namespace BodyBuff

/-- The array holds what was written, as far as there is room, and zeros. -/
structure Holds (buff : BodyBuff) (written : Bytes) : Prop where
  next : buff.next = written.length
  overrun : buff.overrun = decide (PARAMS_BUFF_LEN < written.length)
  bytes : buff.bytes =
    written.take PARAMS_BUFF_LEN ++
      List.replicate (PARAMS_BUFF_LEN - written.length) 0

variable {buff : BodyBuff} {written : Bytes}

theorem holds_zero : Holds zero [] where
  next := rfl
  overrun := rfl
  bytes := rfl

theorem Holds.put (h : Holds buff written) (b : Byte) :
    Holds (buff.put b) (written ++ [b]) where
  next := by rw [BodyBuff.put, h.next, List.length_append]; rfl
  overrun := by
    rw [BodyBuff.put, h.next, h.overrun, List.length_append]
    simp only [List.length_singleton, ← Bool.decide_or, decide_eq_decide]
    omega
  bytes := by
    rw [BodyBuff.put, h.next, h.bytes, List.length_append,
      List.length_singleton]
    by_cases hroom : written.length < PARAMS_BUFF_LEN
    · have hzeros : PARAMS_BUFF_LEN - written.length =
          PARAMS_BUFF_LEN - (written.length + 1) + 1 := by omega
      rw [List.take_of_length_le hroom.le, hzeros, List.replicate_succ,
        List.set_append_right _ _ le_rfl, Nat.sub_self, List.set_cons_zero,
        List.take_of_length_le (by simp; omega), List.append_assoc]
      rfl
    · have hfull : PARAMS_BUFF_LEN ≤ written.length := by omega
      rw [Nat.sub_eq_zero_of_le hfull, Nat.sub_eq_zero_of_le (by omega),
        List.take_append_of_le_length hfull, List.replicate_zero,
        List.append_nil,
        List.set_eq_of_length_le (by rw [List.length_take]; omega)]

theorem Holds.foldl_put (h : Holds buff written) (bytes : Bytes) :
    Holds (bytes.foldl BodyBuff.put buff) (written ++ bytes) := by
  induction bytes generalizing buff written with
  | nil => simpa using h
  | cons b bytes ih =>
      rw [List.foldl_cons, List.append_cons]
      exact ih (h.put b)

theorem Holds.putLength (h : Holds buff written) (len : ℤ) :
    Holds (buff.putLength len) (written ++ lengthCode len) := by
  unfold BodyBuff.putLength lengthCode
  split
  · exact h.put _
  · have hfour := (((h.put (lowByte (len / 2 ^ 24) ||| 0x80)).put
      (lowByte (len / 2 ^ 16))).put (lowByte (len / 2 ^ 8))).put (lowByte len)
    simpa only [List.append_assoc, List.cons_append, List.nil_append] using hfour

theorem Holds.makeNameValueBody (h : Holds buff written)
    (pair : Bytes × Bytes) :
    Holds
      (buff.makeNameValueBody pair.1 (toInt pair.1.length) pair.2
        (toInt pair.2.length))
      (written ++ pairCode pair) := by
  have hpair := (((h.putLength (toInt pair.1.length)).putLength
    (toInt pair.2.length)).foldl_put pair.1).foldl_put pair.2
  rw [pairCode, ← List.append_assoc, ← List.append_assoc, ← List.append_assoc]
  exact hpair

theorem Holds.putPairs (h : Holds buff written)
    (pairs : List (Bytes × Bytes)) :
    Holds (buff.putPairs pairs) (written ++ pairs.flatMap pairCode) := by
  induction pairs generalizing buff written with
  | nil =>
      rw [List.flatMap_nil, List.append_nil]
      exact h
  | cons pair pairs ih =>
      rw [List.flatMap_cons, ← List.append_assoc]
      exact ih (h.makeNameValueBody pair)

end BodyBuff

/-- The array holds the parameters as far as there is room. -/
theorem holds_bodyBuff (pairs : List (Bytes × Bytes)) :
    (bodyBuff pairs).Holds (pairs.flatMap pairCode) :=
  BodyBuff.holds_zero.putPairs pairs

/-! ## The records of the codec -/

theorem lowByte_natCast (n : ℕ) : lowByte n = n.toUInt8 := by
  have hmod : ((n : ℤ) % 2 ^ 8).toNat = n % 2 ^ 8 := by omega
  rw [lowByte, hmod, UInt8.ext_iff]
  change (UInt8.ofNat _).toNat = (UInt8.ofNat _).toNat
  rw [UInt8.toNat_ofNat', UInt8.toNat_ofNat', Nat.mod_mod]

theorem lengthCode_toInt {n : ℕ} (h : n < 2 ^ 31) :
    lengthCode (toInt n) = lengthBytes n := by
  have hbyte : ∀ k : ℕ, lowByte ((n : ℤ) / 2 ^ k) = (n / 2 ^ k).toUInt8 := by
    intro k
    rw [← lowByte_natCast]
    push_cast
    rfl
  have hsmall : (n : ℤ) < 128 ↔ n < 128 := by omega
  rw [toInt_of_lt h, lengthCode, lengthBytes]
  simp only [hsmall, hbyte, lowByte_natCast]
  split
  · rfl
  · have htop : (n / 2 ^ 24 ||| 0x80).toUInt8 =
        (n / 2 ^ 24).toUInt8 ||| 0x80 := UInt8.ofNat_or _ _
    rw [htop]

theorem pairCode_eq {pair : Bytes × Bytes} (hname : pair.1.length < 2 ^ 31)
    (hvalue : pair.2.length < 2 ^ 31) :
    pairCode pair = makeNameValueBody pair.1 pair.2 := by
  rw [pairCode, lengthCode_toInt hname, lengthCode_toInt hvalue,
    makeNameValueBody]

theorem lengths_lt_of_fits {pairs : List (Bytes × Bytes)}
    (h : (pairs.flatMap pairCode).length ≤ PARAMS_BUFF_LEN)
    {pair : Bytes × Bytes} (hpair : pair ∈ pairs) :
    pair.1.length < 2 ^ 31 ∧ pair.2.length < 2 ^ 31 := by
  have hsub : (pairCode pair).Sublist (pairs.flatMap pairCode) := by
    rw [List.flatMap_def]
    exact List.sublist_flatten_of_mem (List.mem_map_of_mem hpair)
  have hcode := hsub.length_le.trans h
  simp only [pairCode, List.length_append, PARAMS_BUFF_LEN] at hcode
  constructor <;> omega

/-- Parameters that fit are the ones of the codec. -/
theorem flatMap_pairCode {pairs : List (Bytes × Bytes)}
    (h : (pairs.flatMap pairCode).length ≤ PARAMS_BUFF_LEN) :
    pairs.flatMap pairCode =
      pairs.flatMap fun pair => makeNameValueBody pair.1 pair.2 := by
  apply List.flatMap_congr
  intro pair hpair
  obtain ⟨hname, hvalue⟩ := lengths_lt_of_fits h hpair
  exact pairCode_eq hname hvalue

/-- `Params` writes the record of the codec as long as the parameters fit. -/
theorem Params_eq {pairs : List (Bytes × Bytes)}
    (h : (pairs.flatMap pairCode).length ≤ PARAMS_BUFF_LEN)
    (requestId : ℤ) : Params requestId pairs = params requestId pairs := by
  have hholds := holds_bodyBuff pairs
  have htake : (bodyBuff pairs).bytes.take (bodyBuff pairs).next =
      pairs.flatMap pairCode := by
    rw [hholds.next, hholds.bytes, List.take_of_length_le h, List.take_left]
  rw [Params, params, htake, hholds.next, flatMap_pairCode h]

end FastCgi

end MuduoHttp
