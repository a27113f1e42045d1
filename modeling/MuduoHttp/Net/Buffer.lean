import MuduoHttp.Base.Bytes

/-!
# The buffer of a connection

`Buffer` is used here through its readable bytes only: everything the parser
and the senders do with one is determined by them.  The asserts of the source
are compiled out, so `retrieve` of too many bytes clears the buffer.
-/

namespace MuduoHttp

open Support

/-- Text that a line can hold. -/
structure NoBreak (text : Bytes) : Prop where
  cr : CR ∉ text
  lf : LF ∉ text

instance (text : Bytes) : Decidable (NoBreak text) :=
  decidable_of_iff (CR ∉ text ∧ LF ∉ text)
    ⟨fun h => ⟨h.1, h.2⟩, fun h => ⟨h.cr, h.lf⟩⟩

namespace Buffer

/-- `Buffer::findCRLF`, as an offset from `peek()`. -/
def findCRLF (buf : Bytes) : Option ℕ := search CRLF buf

/-- `Buffer::retrieve`. -/
def retrieve (buf : Bytes) (len : ℕ) : Bytes :=
  if len < buf.length then buf.drop len else []

/-- `Buffer::retrieveUntil`, with the end as an offset from `peek()`. -/
def retrieveUntil (buf : Bytes) (stop : ℕ) : Bytes := retrieve buf stop

/-- `Buffer::append`. -/
def append (buf data : Bytes) : Bytes := buf ++ data

@[simp] theorem retrieve_eq_drop (buf : Bytes) (len : ℕ) :
    retrieve buf len = buf.drop len := by
  unfold retrieve
  split
  · rfl
  · exact (List.drop_eq_nil_of_le (by omega)).symm

@[simp] theorem retrieveUntil_eq_drop (buf : Bytes) (stop : ℕ) :
    retrieveUntil buf stop = buf.drop stop :=
  retrieve_eq_drop buf stop

@[simp] theorem append_eq (buf data : Bytes) : append buf data = buf ++ data :=
  rfl

theorem findCRLF_eq_none {line : Bytes} (h : CR ∉ line) :
    findCRLF line = none :=
  search_eq_none_of_notMem h

theorem findCRLF_line {line : Bytes} (h : findCRLF line = none)
    (rest : Bytes) : findCRLF (line ++ CRLF ++ rest) = some line.length :=
  search_append_pair CR_ne_LF h rest

theorem findCRLF_take_eq_none {buf : Bytes} {crlf : ℕ}
    (h : findCRLF buf = some crlf) : findCRLF (buf.take crlf) = none :=
  search_take_eq_none (by simp [CRLF]) h

theorem findCRLF_split {buf : Bytes} {crlf : ℕ}
    (h : findCRLF buf = some crlf) :
    buf = buf.take crlf ++ CRLF ++ buf.drop (crlf + 2) :=
  search_split h

/-- A buffer with a line end starts with a line. -/
theorem exists_line {buf : Bytes} {crlf : ℕ}
    (h : findCRLF buf = some crlf) :
    ∃ line rest, buf = line ++ CRLF ++ rest ∧ findCRLF line = none :=
  ⟨buf.take crlf, buf.drop (crlf + 2), findCRLF_split h,
    findCRLF_take_eq_none h⟩

theorem findCRLF_add_two_le {buf : Bytes} {crlf : ℕ}
    (h : findCRLF buf = some crlf) : crlf + 2 ≤ buf.length :=
  search_add_length_le h

theorem findCRLF_append {buf : Bytes} {crlf : ℕ}
    (h : findCRLF buf = some crlf) (data : Bytes) :
    findCRLF (buf ++ data) = some crlf :=
  search_append_right h data

/-- Two ways of reading a first line off the same bytes agree. -/
theorem line_inj {line₁ line₂ rest₁ rest₂ : Bytes}
    (h₁ : findCRLF line₁ = none) (h₂ : findCRLF line₂ = none)
    (h : line₁ ++ CRLF ++ rest₁ = line₂ ++ CRLF ++ rest₂) :
    line₁ = line₂ ∧ rest₁ = rest₂ :=
  append_pair_inj CR_ne_LF h₁ h₂ h

end Buffer

end MuduoHttp
