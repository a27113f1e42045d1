import Std.Data.ExtTreeMap
import MuduoHttp.Base.Bytes

/-!
# HTTP requests

`HttpRequest` with the setters the parser uses.  The header map is a
`std::map`, ordered by the bytes of the names.  `receiveTime_` is left out:
nothing reads it.
-/

namespace MuduoHttp

/-- `std::map<std::string, std::string>`. -/
abbrev HeaderMap := Std.ExtTreeMap Bytes Bytes compare

inductive HttpRequest.Method
  | kInvalid
  | kGet
  | kPost
  | kHead
  | kPut
  | kDelete
  deriving DecidableEq, Repr

inductive HttpRequest.Version
  | kUnknown
  | kHttp10
  | kHttp11
  deriving DecidableEq, Repr

structure HttpRequest where
  method : HttpRequest.Method := .kInvalid
  version : HttpRequest.Version := .kUnknown
  path : Bytes := []
  query : Bytes := []
  headers : HeaderMap := ∅
  body : Bytes := []

namespace HttpRequest

/-- The comparison chain of `setMethod`. -/
def Method.ofBytes (m : Bytes) : Method :=
  if m = ascii "GET" then .kGet
  else if m = ascii "POST" then .kPost
  else if m = ascii "HEAD" then .kHead
  else if m = ascii "PUT" then .kPut
  else if m = ascii "DELETE" then .kDelete
  else .kInvalid

def Method.methodString : Method → Bytes
  | .kGet => ascii "GET"
  | .kPost => ascii "POST"
  | .kHead => ascii "HEAD"
  | .kPut => ascii "PUT"
  | .kDelete => ascii "DELETE"
  | .kInvalid => ascii "UNKNOWN"

def setMethod (request : HttpRequest) (m : Bytes) : Bool × HttpRequest :=
  let method := Method.ofBytes m
  (method ≠ .kInvalid, { request with method := method })

def setVersion (request : HttpRequest) (v : Version) : HttpRequest :=
  { request with version := v }

def setPath (request : HttpRequest) (path : Bytes) : HttpRequest :=
  { request with path := path }

def setQuery (request : HttpRequest) (query : Bytes) : HttpRequest :=
  { request with query := query }

def setBody (request : HttpRequest) (body : Bytes) : HttpRequest :=
  { request with body := body }

/-- The white space that `addHeader` takes off both ends of a value. -/
def trim (value : Bytes) : Bytes :=
  (value.dropWhile isspace).rdropWhile isspace

/-- `addHeader(start, colon, end)`, with the colon as an offset. -/
def addHeader (request : HttpRequest) (line : Bytes) (colon : ℕ) :
    HttpRequest :=
  { request with
    headers :=
      request.headers.insert (line.take colon) (trim (line.drop (colon + 1))) }

def getHeader (request : HttpRequest) (field : Bytes) : Bytes :=
  (request.headers[field]?).getD []

theorem Method.ofBytes_methodString {m : Method} (h : m ≠ .kInvalid) :
    Method.ofBytes m.methodString = m := by
  cases m with
  | kInvalid => exact absurd rfl h
  | kGet => decide
  | kPost => decide
  | kHead => decide
  | kPut => decide
  | kDelete => decide

/-- Only the five method names are methods. -/
theorem Method.methodString_ofBytes {m : Bytes}
    (h : Method.ofBytes m ≠ .kInvalid) :
    (Method.ofBytes m).methodString = m := by
  unfold Method.ofBytes at h ⊢
  split_ifs at h ⊢ with h₁ h₂ h₃ h₄ h₅
  · exact h₁.symm
  · exact h₂.symm
  · exact h₃.symm
  · exact h₄.symm
  · exact h₅.symm
  · exact absurd rfl h

theorem Method.notMem_methodString (m : Method) :
    SP ∉ m.methodString ∧ CR ∉ m.methodString := by
  cases m <;> decide

end HttpRequest

end MuduoHttp
