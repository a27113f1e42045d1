import MuduoHttp.Http.CgiServer
import MuduoHttp.Http.FcgiRequest
import MuduoHttp.Http.Framing

/-!
# The parameters of a request for a script

`server_cgi` passes the name of the script and the method to `Params`.  The
parser accepts a path of any length, and nothing cuts it on the way to the
array, so that the parameters fit exactly when the path is short enough.
-/

namespace MuduoHttp

open Support HttpContext FastCgi

namespace HttpServer

/-- The names and values that `server_cgi` passes to `Params`. -/
def cgiParams (request : HttpRequest) : List (Bytes × Bytes) :=
  [(ascii "SCRIPT_FILENAME", CgiServer.WEB_PATH ++ request.path),
    (ascii "REQUEST_METHOD", request.method.methodString)]

/-- The bytes that the loop of `Params` writes for the request. -/
def paramsWritten (request : HttpRequest) : ℕ :=
  (bodyBuff (cgiParams request)).next

/-- The parser builds the request from some input, and it goes to
`server_cgi`. -/
def ReachesServerCgi (request : HttpRequest) : Prop :=
  isCgi request = true ∧
    ∃ (garbage : ℤ) (close : Bool) (buf rest : Bytes) (context : HttpContext),
      parseRequest garbage (fresh close) buf = .returned true context rest ∧
        context.gotAll = true ∧ context.request = request

theorem length_lengthCode (len : ℤ) :
    (lengthCode len).length = if len < 128 then 1 else 4 := by
  unfold lengthCode
  split <;> rfl

/-- The bytes are those of both names and values, with a length in front of
each. -/
theorem paramsWritten_eq (request : HttpRequest) :
    paramsWritten request =
      32 + (lengthCode
          (toInt (CgiServer.WEB_PATH.length + request.path.length))).length +
        (CgiServer.WEB_PATH.length + request.path.length) +
          request.method.methodString.length := by
  have hmethod : (lengthCode
      (toInt request.method.methodString.length)).length = 1 := by
    cases request.method <;> rfl
  have hscript : (lengthCode
      (toInt (ascii "SCRIPT_FILENAME").length)).length = 1 := rfl
  have hname : (lengthCode
      (toInt (ascii "REQUEST_METHOD").length)).length = 1 := rfl
  have hnames : (ascii "SCRIPT_FILENAME").length = 15 ∧
      (ascii "REQUEST_METHOD").length = 14 := by decide
  rw [paramsWritten, (holds_bodyBuff _).next]
  simp only [cgiParams, List.flatMap_cons, List.flatMap_nil, pairCode,
    List.length_append, hmethod, hscript, hname, List.length_nil]
  omega

end HttpServer

/-- The parameters of a request fit the array exactly when the name of the
script and the method leave 36 bytes for the rest. -/
theorem paramsWritten_le_iff (request : HttpRequest) :
    HttpServer.paramsWritten request ≤ PARAMS_BUFF_LEN ↔
      CgiServer.WEB_PATH.length + request.path.length +
          request.method.methodString.length + 36 ≤ PARAMS_BUFF_LEN := by
  have hmethod : request.method.methodString.length ≤ 7 := by
    cases request.method <;> decide
  rw [HttpServer.paramsWritten_eq, HttpServer.length_lengthCode,
    PARAMS_BUFF_LEN]
  by_cases hfits : CgiServer.WEB_PATH.length + request.path.length < 2 ^ 31
  · rw [toInt_of_lt hfits]
    split <;> omega
  · constructor <;> intro h <;> omega

/-- The request that goes to php-fpm, as long as its parameters fit. -/
def HttpServer.fcgiRequest (request : HttpRequest)
    (h : HttpServer.paramsWritten request ≤ PARAMS_BUFF_LEN) (reqid : ℕ)
    (hid : reqid < 2 ^ 16) : FcgiRequest where
  requestId := reqid
  requestId_lt := hid
  pairs := HttpServer.cgiParams request
  pairs_ne := List.cons_ne_nil _ _
  fits := by
    rw [← (holds_bodyBuff _).next]
    exact h

/-- The records that the server sends for it are its records. -/
theorem requestRecords_eq (request : HttpRequest)
    (h : HttpServer.paramsWritten request ≤ PARAMS_BUFF_LEN) (reqid : ℕ)
    (hid : reqid < 2 ^ 16) :
    CgiServer.requestRecords reqid (CgiServer.WEB_PATH ++ request.path)
        request.method.methodString =
      (HttpServer.fcgiRequest request h reqid hid).bytes := by
  have hfits := (HttpServer.fcgiRequest request h reqid hid).fits
  rw [FcgiRequest.bytes, Params_eq hfits]
  rfl

theorem requestRecords_eq_script :
    ∃ request : FcgiRequest,
      CgiServer.requestRecords 7 (CgiServer.WEB_PATH ++ ascii "/cgi-bin/a")
        (ascii "GET") = request.bytes := by
  let request : HttpRequest :=
    { method := .kGet, path := ascii "/cgi-bin/a" }
  have hfits : HttpServer.paramsWritten request ≤ PARAMS_BUFF_LEN :=
    (paramsWritten_le_iff request).mpr (by decide)
  exact ⟨_, requestRecords_eq request hfits 7 (by decide)⟩

/-- A request for a path, without headers and without a body. -/
def requestForPath (path : Bytes) (hspace : SP ∉ path) (hcr : CR ∉ path) :
    RequestMessage where
  grammar :=
    { requestLine :=
        { RequestLine.getRoot with
          target := path
          noSpace := hspace }
      isLine := by
        apply Buffer.findCRLF_eq_none
        simp only [RequestLine.bytes, List.mem_append, List.mem_cons, hcr]
        decide
      fields := [] }
  body := []
  announced := by
    intro field hfield
    exact absurd hfield List.not_mem_nil
  unannounced := fun _ => rfl

/-- The parser accepts every path of a script, of any length. -/
theorem exists_reachesServerCgi {path : Bytes} (hspace : SP ∉ path)
    (hcr : CR ∉ path) (hquestion : QUESTION ∉ path)
    (hcgi : (search (ascii "cgi-bin") path).isSome = true) :
    ∃ request, HttpServer.ReachesServerCgi request ∧ request.path = path := by
  have hcall := parseRequest_of_length_lt (requestForPath path hspace hcr)
    (show 0 < 2 ^ 31 by decide) false 0 []
  have hpath : (requestForPath path hspace hcr).grammar.request.path =
      path := by
    change path.take (path.idxOf QUESTION) = path
    rw [List.idxOf_eq_length hquestion, List.take_length]
  have hscript :
      HttpServer.isCgi (requestForPath path hspace hcr).grammar.request =
        true := by
    rw [HttpServer.isCgi, hpath, hcgi]
  exact ⟨_, ⟨hscript, 0, false, _, _, _, hcall, rfl, rfl⟩, hpath⟩

/-- The parser accepts scripts with names of any length. -/
theorem exists_reachesServerCgi_length (n : ℕ) :
    ∃ request, HttpServer.ReachesServerCgi request ∧
      request.path.length = 9 + n := by
  have hmem : ∀ b ∈ ascii "/cgi-bin/" ++ List.replicate n 97,
      b ∈ ascii "/cgi-bin/" ∨ b = 97 := by
    intro b hb
    rw [List.mem_append] at hb
    exact hb.imp_right List.eq_of_mem_replicate
  have hprefix : search (ascii "cgi-bin") (ascii "/cgi-bin/") = some 1 := by
    decide
  have hcgi := search_append_right hprefix (List.replicate n 97)
  obtain ⟨request, hreach, hpath⟩ := exists_reachesServerCgi
    (fun h => absurd (hmem _ h) (by decide))
    (fun h => absurd (hmem _ h) (by decide))
    (fun h => absurd (hmem _ h) (by decide)) (Option.isSome_of_eq_some hcgi)
  refine ⟨request, hreach, ?_⟩
  rw [hpath, List.length_append, List.length_replicate]
  rfl

/-- With a name of a thousand bytes, the loop of `Params` writes more bytes than
the array has. -/
theorem paramsWritten_gt_longPath :
    ¬ ∀ request, HttpServer.ReachesServerCgi request →
      HttpServer.paramsWritten request ≤ PARAMS_BUFF_LEN := by
  intro hfits
  obtain ⟨request, hreach, hpath⟩ := exists_reachesServerCgi_length 1000
  have hwritten := hfits request hreach
  rw [HttpServer.paramsWritten_eq, hpath, PARAMS_BUFF_LEN] at hwritten
  omega

end MuduoHttp
