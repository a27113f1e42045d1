import MuduoHttp.Http.HttpRequest

/-!
# HTTP responses

`HttpResponse` with its setters and the bytes that `appendToBuffer` writes.
-/

namespace MuduoHttp

inductive HttpResponse.HttpStatusCode
  | kUnknown
  | k200Ok
  | k301MovedPermanently
  | k400BadRequest
  | k404NotFound
  | k403Forbidden
  deriving DecidableEq, Repr

/-- The number that `%d` prints for the enumerator. -/
def HttpResponse.HttpStatusCode.code : HttpStatusCode → ℕ
  | .kUnknown => 0
  | .k200Ok => 200
  | .k301MovedPermanently => 301
  | .k400BadRequest => 400
  | .k404NotFound => 404
  | .k403Forbidden => 403

structure HttpResponse where
  headers : HeaderMap := ∅
  statusCode : HttpResponse.HttpStatusCode := .kUnknown
  statusMessage : Bytes := []
  closeConnection : Bool
  body : Bytes := []

namespace HttpResponse

def setStatusCode (resp : HttpResponse) (code : HttpStatusCode) :
    HttpResponse :=
  { resp with statusCode := code }

def setStatusMessage (resp : HttpResponse) (message : Bytes) : HttpResponse :=
  { resp with statusMessage := message }

def addHeader (resp : HttpResponse) (key value : Bytes) : HttpResponse :=
  { resp with headers := resp.headers.insert key value }

def setBody (resp : HttpResponse) (data : Bytes) : HttpResponse :=
  { resp with body := data }

/-- The bytes of a response, headers in the order of the map. -/
def appendToBuffer (resp : HttpResponse) : Bytes :=
  ascii "HTTP/1.1 " ++ ascii (toString resp.statusCode.code) ++ [SP] ++
    resp.statusMessage ++ CRLF ++
    (if resp.closeConnection then ascii "Connection: close\r\n"
     else
      ascii "Content-Length: " ++ ascii (toString resp.body.length) ++ CRLF ++
        ascii "Connection: Keep-Alive\r\n") ++
    resp.headers.toList.flatMap
      (fun header => header.1 ++ ascii ": " ++ header.2 ++ CRLF) ++
    CRLF ++ resp.body

theorem appendToBuffer_ne_nil (resp : HttpResponse) :
    resp.appendToBuffer ≠ [] := by
  simp [appendToBuffer, CRLF]

example :
    appendToBuffer
        ((({ closeConnection := false } : HttpResponse).setStatusCode
          .k200Ok).setStatusMessage (ascii "OK")) =
      ascii ("HTTP/1.1 200 OK\r\nContent-Length: 0\r\n" ++
        "Connection: Keep-Alive\r\n\r\n") := by
  decide

end HttpResponse

end MuduoHttp
