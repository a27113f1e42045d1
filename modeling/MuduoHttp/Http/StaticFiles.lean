import MuduoHttp.Http.Conversation
import MuduoHttp.Http.WebRoot

/-!
# Static files

The callback of the server answers with the file that the path names.
`StaticFile` asks `stat` for the kind and the size, and opens the file in any
case.  While the files stay as they are, a client gets the contents of a
readable file, 404 for what cannot be opened, and 403 for everything else.
-/

namespace MuduoHttp

open Support HttpServer

/-- What is used of a `struct stat`: `S_ISREG`, `S_IRUSR` and `st_size`. -/
structure FileStat where
  isReg : Bool
  userRead : Bool
  size : ℕ

/-- What the system calls on a name return: `stat`, whether `open` succeeds,
and the bytes that `pread` puts into a buffer of any size. -/
structure FileCalls where
  stat : Option FileStat
  opens : Bool
  pread : ℕ → Bytes

inductive StaticFile.FileStatusCode
  | OK
  | NotFound
  | Forbidden
  | ReadError
  deriving DecidableEq

structure StaticFile where
  sbuf : FileStat
  status : StaticFile.FileStatusCode := .OK

namespace StaticFile

/-- The constructor; without a result of `stat`, `sbuf_` is what the memory
held before. -/
def new (calls : FileCalls) (garbage : FileStat) : StaticFile :=
  let file : StaticFile :=
    match calls.stat with
    | some sbuf => { sbuf := sbuf }
    | none => { sbuf := garbage, status := .NotFound }
  if !file.sbuf.isReg || !file.sbuf.userRead then
    { file with status := .Forbidden }
  else file

def openFile (calls : FileCalls) (file : StaticFile) : StaticFile :=
  if calls.opens then file else { file with status := .ReadError }

/-- The bytes that are not read stay zero. -/
def readContent (calls : FileCalls) (file : StaticFile) : Bytes :=
  let content := List.replicate file.sbuf.size (0 : Byte)
  let data := (calls.pread file.sbuf.size).take file.sbuf.size
  data ++ content.drop data.length

end StaticFile

namespace HttpResponse

def setCloseConnection (resp : HttpResponse) (on : Bool) : HttpResponse :=
  { resp with closeConnection := on }

def setContentType (resp : HttpResponse) (contentType : Bytes) :
    HttpResponse :=
  resp.addHeader (ascii "Content-Type") contentType

end HttpResponse

def getFiletype (filename : Bytes) : Bytes :=
  if (search (ascii ".html") filename).isSome then ascii "text/html"
  else if (search (ascii ".jpg") filename).isSome then ascii "image/jpeg"
  else if (search (ascii ".gif") filename).isSome then ascii "image/gif"
  else if (search (ascii ".mp4") filename).isSome then ascii "video/mp4"
  else ascii "text/plain"

def notFoundPage : Bytes :=
  ascii ("<html><head><title>This is title</title></head>" ++
    "<body><h1>404 Not Found</h1></html>")

def serverStatic (system : Bytes → FileCalls) (garbage : FileStat)
    (resp : HttpResponse) (reqpath : Bytes) : HttpResponse :=
  let filename := CgiServer.WEB_PATH ++ reqpath
  let calls := system (cString filename)
  let file := (StaticFile.new calls garbage).openFile calls
  if file.status = .NotFound ∨ file.status = .ReadError then
    (((((resp.setStatusCode .k404NotFound).setStatusMessage
      (ascii "Not Found")).setContentType (ascii "text/html")).addHeader
      (ascii "Server") (ascii "Muduo")).setBody notFoundPage).setCloseConnection
      true
  else if file.status = .Forbidden then
    ((resp.setStatusCode .k403Forbidden).setStatusMessage
      (ascii "Forbidden")).setCloseConnection true
  else
    (((resp.setBody (file.readContent calls)).setStatusCode
      .k200Ok).setStatusMessage (ascii "OK")).setContentType
      (getFiletype filename)

/-- `onRequest` of `muduo_server.cc`; a path with `cgi-bin` is only logged. -/
def siteCallback (system : Bytes → FileCalls) (garbage : FileStat) :
    HttpCallback := fun request resp =>
  if isCgi request then resp
  else serverStatic system garbage resp (reqpath request)

/-! ## The files -/

/-- What a name stands for, as long as nothing changes it.  Whether a file can
be opened is up to its permissions and those of the server. -/
inductive FileNode
  | absent
  | special (opens : Bool)
  | regular (userRead opens : Bool) (contents : Bytes)

namespace FileNode

/-- The most that one call of `pread` transfers. -/
def preadLimit : ℕ := 0x7ffff000

/-- What the system calls find. -/
def FoundBy : FileNode → FileCalls → Prop
  | .absent, calls => calls.stat = none ∧ calls.opens = false
  | .special opens, calls =>
      (∃ sbuf, calls.stat = some sbuf ∧ sbuf.isReg = false) ∧
        calls.opens = opens
  | .regular userRead opens contents, calls =>
      calls.stat = some ⟨true, userRead, contents.length⟩ ∧
        calls.opens = opens ∧
          ∀ n, calls.pread n = contents.take (min n preadLimit)

/-- Whether it is opened, and what a client may read of it. -/
def opens : FileNode → Bool
  | .absent => false
  | .special opens => opens
  | .regular _ opens _ => opens

def readable : FileNode → Option Bytes
  | .regular true true contents => some contents
  | _ => none

/-- The bytes of a page: what one `pread` does not reach is zero. -/
def served (contents : Bytes) : Bytes :=
  contents.take preadLimit ++
    List.replicate (contents.length - preadLimit) 0

/-- What the client is to get for the file. -/
def page (node : FileNode) (filename : Bytes) : ReadResponse :=
  match node.readable with
  | some contents =>
      { code := 200
        message := ascii "OK"
        headers := (∅ : HeaderMap).insert (ascii "Content-Type")
          (getFiletype filename)
        body := served contents }
  | none =>
      if node.opens then
        { code := 403, message := ascii "Forbidden", headers := ∅, body := [] }
      else
        { code := 404
          message := ascii "Not Found"
          headers := ((∅ : HeaderMap).insert (ascii "Content-Type")
            (ascii "text/html")).insert (ascii "Server") (ascii "Muduo")
          body := notFoundPage }

end FileNode

/-! ## The replies -/

/-- A header that a reader can take apart. -/
def PlainHeader (header : Bytes × Bytes) : Prop :=
  NoBreak header.1 ∧ NoBreak header.2 ∧ COLON ∉ header.1 ∧
    ¬ IsFraming header.1

theorem plainHeader_insert {headers : HeaderMap} {key value : Bytes}
    (hheaders : ∀ header ∈ headers.toList, PlainHeader header)
    (hnew : PlainHeader (key, value)) :
    ∀ header ∈ (headers.insert key value).toList, PlainHeader header := by
  rintro ⟨k, v⟩ hmem
  rw [Std.ExtTreeMap.mem_toList_iff_getElem?_eq_some,
    Std.ExtTreeMap.getElem?_insert] at hmem
  split at hmem
  next heq =>
    rw [Std.LawfulEqCmp.compare_eq_iff_eq] at heq
    cases hmem
    exact heq ▸ hnew
  next =>
    exact hheaders _ (Std.ExtTreeMap.mem_toList_iff_getElem?_eq_some.mpr hmem)

def PlainResponse.ofHeaders (resp : HttpResponse)
    (hmessage : NoBreak resp.statusMessage)
    (hheaders : ∀ header ∈ resp.headers.toList, PlainHeader header) :
    PlainResponse where
  toHttpResponse := resp
  message_noBreak := hmessage
  name_noBreak header hmem := (hheaders header hmem).1
  value_noBreak header hmem := (hheaders header hmem).2.1
  name_noColon header hmem := (hheaders header hmem).2.2.1
  name_notFraming header hmem := (hheaders header hmem).2.2.2

theorem getFiletype_noBreak (filename : Bytes) :
    NoBreak (getFiletype filename) := by
  unfold getFiletype
  split_ifs <;> exact ⟨by decide, by decide⟩

theorem plainHeader_contentType {value : Bytes} (h : NoBreak value) :
    PlainHeader (ascii "Content-Type", value) := by
  have hname : NoBreak (ascii "Content-Type") := ⟨by decide, by decide⟩
  have hother : COLON ∉ ascii "Content-Type" ∧
      ¬ IsFraming (ascii "Content-Type") := by decide
  exact ⟨hname, h, hother⟩

theorem plainHeader_empty :
    ∀ header ∈ (∅ : HeaderMap).toList, PlainHeader header := by simp

namespace FileNode

/-- The file itself. -/
def okReply (filename : Bytes) (close : Bool) (contents : Bytes) :
    PlainResponse :=
  .ofHeaders
    { headers := (∅ : HeaderMap).insert (ascii "Content-Type")
        (getFiletype filename)
      statusCode := .k200Ok
      statusMessage := ascii "OK"
      closeConnection := close
      body := served contents }
    noBreak_ok
    (plainHeader_insert plainHeader_empty
      (plainHeader_contentType (getFiletype_noBreak filename)))

def forbiddenReply : PlainResponse :=
  .ofHeaders
    { statusCode := .k403Forbidden
      statusMessage := ascii "Forbidden"
      closeConnection := true }
    ⟨by decide, by decide⟩ plainHeader_empty

def notFoundReply : PlainResponse :=
  .ofHeaders
    { headers := ((∅ : HeaderMap).insert (ascii "Content-Type")
        (ascii "text/html")).insert (ascii "Server") (ascii "Muduo")
      statusCode := .k404NotFound
      statusMessage := ascii "Not Found"
      closeConnection := true
      body := notFoundPage }
    ⟨by decide, by decide⟩
    (plainHeader_insert
      (plainHeader_insert plainHeader_empty
        (plainHeader_contentType ⟨by decide, by decide⟩))
      ⟨⟨by decide, by decide⟩, ⟨by decide, by decide⟩, by decide, by decide⟩)

def reply (node : FileNode) (filename : Bytes) (close : Bool) :
    PlainResponse :=
  match node.readable with
  | some contents => okReply filename close contents
  | none => if node.opens then forbiddenReply else notFoundReply

theorem reply_parts (node : FileNode) (filename : Bytes) (close : Bool) :
    (node.reply filename close).parts = node.page filename := by
  unfold reply page
  split
  · rfl
  · split_ifs <;> rfl

theorem reply_closeConnection (node : FileNode) (filename : Bytes)
    (close : Bool) :
    (node.reply filename close).closeConnection = true ↔
      close = true ∨ node.readable = none := by
  unfold reply
  split
  next contents hreadable => simp [okReply, PlainResponse.ofHeaders, hreadable]
  next hreadable =>
    split_ifs <;>
      simp [forbiddenReply, notFoundReply, PlainResponse.ofHeaders, hreadable]

/-- The whole buffer, after one `pread`. -/
theorem readContent_eq {contents : Bytes} {calls : FileCalls}
    (hpread : ∀ n, calls.pread n = contents.take (min n preadLimit))
    {file : StaticFile} (hsize : file.sbuf.size = contents.length) :
    file.readContent calls = served contents := by
  have hdata : (calls.pread contents.length).take contents.length =
      contents.take preadLimit := by
    rw [hpread, List.take_take]
    rcases Nat.le_total contents.length preadLimit with hle | hle
    · rw [Nat.min_eq_left hle, Nat.min_self, List.take_length,
        List.take_of_length_le hle]
    · rw [Nat.min_eq_right hle, Nat.min_eq_right hle]
  have hdrop (k n : ℕ) : (List.replicate n (0 : Byte)).drop (min k n) =
      List.replicate (n - k) 0 := by
    rw [List.drop_replicate]
    congr 1
    omega
  simp only [StaticFile.readContent, hsize, hdata, served, List.length_take,
    hdrop]

/-- Whatever memory held where `stat` has no result. -/
theorem status_eq {node : FileNode} {calls : FileCalls} (garbage : FileStat)
    (h : node.FoundBy calls) :
    ((StaticFile.new calls garbage).openFile calls).status =
      if node.opens then (if node.readable.isSome then .OK else .Forbidden)
      else .ReadError := by
  cases node with
  | absent => simp [StaticFile.openFile, h.2, opens]
  | special opened =>
      obtain ⟨⟨sbuf, hstat, hreg⟩, hopens⟩ := h
      cases opened <;>
        simp [StaticFile.openFile, StaticFile.new, hopens, hstat, hreg, opens,
          readable]
  | regular userRead opened contents =>
      obtain ⟨hstat, hopens, -⟩ := h
      cases opened <;> cases userRead <;>
        simp [StaticFile.openFile, StaticFile.new, hopens, hstat, opens,
          readable]

theorem exists_of_readable {node : FileNode} {contents : Bytes}
    (h : node.readable = some contents) :
    node = .regular true true contents := by
  unfold readable at h
  split at h
  · cases h
    rfl
  · cases h

theorem serverStatic_eq {node : FileNode} {system : Bytes → FileCalls}
    (garbage : FileStat) (close : Bool) (path : Bytes)
    (h : node.FoundBy (system (cString (CgiServer.WEB_PATH ++ path)))) :
    serverStatic system garbage { closeConnection := close } path =
      (node.reply (CgiServer.WEB_PATH ++ path) close).toHttpResponse := by
  have hstatus := status_eq garbage h
  cases hreadable : node.readable with
  | some contents =>
      obtain rfl := exists_of_readable hreadable
      obtain ⟨hstat, hopens, hpread⟩ := h
      rw [hreadable] at hstatus
      simp only [opens, Option.isSome_some, if_true] at hstatus
      have hsize : ((StaticFile.new (system (cString
          (CgiServer.WEB_PATH ++ path))) garbage).openFile (system (cString
            (CgiServer.WEB_PATH ++ path)))).sbuf.size = contents.length := by
        simp [StaticFile.openFile, StaticFile.new, hstat, hopens]
      simp only [serverStatic, hstatus, readContent_eq hpread hsize, reply,
        hreadable]
      rfl
  | none =>
      rw [hreadable] at hstatus
      simp only [serverStatic, reply, hreadable]
      cases hopens : node.opens with
      | true =>
          simp only [hopens, Option.isSome_none, Bool.false_eq_true, if_true,
            if_false] at hstatus
          rw [hstatus]
          rfl
      | false =>
          simp only [hopens, Bool.false_eq_true, if_false] at hstatus
          rw [hstatus]
          rfl

end FileNode

/-! ## The site -/

/-- The files by the names that the system calls are given. -/
abbrev Disk := Bytes → FileNode

namespace Disk

variable (disk : Disk) (r : BodylessRequest)

/-- The file of a request. -/
def node : FileNode := disk (cString (filename r.request))

def page : ReadResponse := (disk.node r).page (filename r.request)

def reply : PlainResponse :=
  (disk.node r).reply (filename r.request) (closes r.request)

end Disk

theorem answers_siteCallback {disk : Disk} {system : Bytes → FileCalls}
    (garbage : FileStat) (hsystem : ∀ name, (disk name).FoundBy (system name))
    {requests : List BodylessRequest}
    (hstatic : ∀ r ∈ requests, isCgi r.request = false) :
    ServedConnection.answers (siteCallback system garbage) requests =
      (requests.map disk.reply).map PlainResponse.toHttpResponse := by
  rw [ServedConnection.answers, List.map_map]
  refine List.map_congr_left fun r hr => ?_
  have hcgi := hstatic r hr
  have hname : filename r.request = CgiServer.WEB_PATH ++ reqpath r.request := by
    simp [filename, hcgi]
  simp only [answerTo, siteCallback, hcgi, Bool.false_eq_true, if_false,
    Function.comp_apply, Disk.reply, Disk.node, hname]
  exact FileNode.serverStatic_eq garbage _ _ (hsystem _)

/-- The home page, and nothing else. -/
def homeOnly : Disk := fun name =>
  if name = CgiServer.WEB_PATH ++ ascii "/home.html" then
    .regular true true (ascii "home")
  else .absent

def homeCalls (name : Bytes) : FileCalls :=
  if name = CgiServer.WEB_PATH ++ ascii "/home.html" then
    ⟨some ⟨true, true, 4⟩, true,
      fun n => (ascii "home").take (min n FileNode.preadLimit)⟩
  else ⟨none, false, fun _ => []⟩

end MuduoHttp
