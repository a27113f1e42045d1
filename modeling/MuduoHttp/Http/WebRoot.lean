import MuduoHttp.Http.CgiServer
import MuduoHttp.Http.RequestHead
import MuduoHttp.Support.LexicalPath

/-!
# The web root

The name of the file of a request is `WEB_PATH` followed by the path as it was
parsed, for the static files and for php-fpm alike.  Nothing looks for `..`
in the path, nor for the slash in front of it.
-/

namespace MuduoHttp

open Support HttpContext

def SLASH : Byte := 47

/-! ## Names of files -/

/-- A name as the system calls read it, up to the first NUL. -/
def cString (name : Bytes) : Bytes := name.takeWhile (· ≠ 0)

/-- One segment of a name. -/
def move (segment : Bytes) : Move Bytes :=
  if segment = [] ∨ segment = ascii "." then .stay
  else if segment = ascii ".." then .up
  else .down segment

/-- The segments between the slashes. -/
def segments (name : Bytes) : List (Move Bytes) :=
  (name.splitOn SLASH).map move

/-- The names that lead from the root to the file of an absolute name. -/
def components (name : Bytes) : List Bytes :=
  Support.resolve [] (segments (cString name))

/-- The file is `WEB_PATH` or below it. -/
def InWebRoot (name : Bytes) : Prop :=
  components CgiServer.WEB_PATH <+: components name

instance (name : Bytes) : Decidable (InWebRoot name) :=
  inferInstanceAs (Decidable (_ <+: _))

/-! ## The files of requests -/

/-- The `reqpath` that `onRequest` passes to `server_static`. -/
def reqpath (request : HttpRequest) : Bytes :=
  if request.path = ascii "/" then request.path ++ ascii "home.html"
  else request.path

/-- The file that `server_static` opens, or that `server_cgi` names in
`SCRIPT_FILENAME`. -/
def filename (request : HttpRequest) : Bytes :=
  if HttpServer.isCgi request then CgiServer.WEB_PATH ++ request.path
  else CgiServer.WEB_PATH ++ reqpath request

/-- The directory of `WEB_PATH`, and its own name there. -/
def webDir : Bytes := ascii "/home/xibaohe/ServerCode/chenshuo/muduo_11/muduo/http"

def webName : Bytes := ascii "web"

theorem WEB_PATH_eq : CgiServer.WEB_PATH = webDir ++ SLASH :: webName := by
  decide

/-- The path as seen from the directory of `WEB_PATH`. -/
def fromWebDir (path : Bytes) : RelativePath Bytes :=
  relative (segments (webName ++ cString path))

/-- Where the path goes up from the directory of `WEB_PATH`, it comes down
again through the same directories to `WEB_PATH`. -/
def KeepsRoot (path : Bytes) : Prop :=
  (components CgiServer.WEB_PATH).drop
      ((components webDir).length - (fromWebDir path).ups) <+:
    (fromWebDir path).downs

instance (path : Bytes) : Decidable (KeepsRoot path) :=
  inferInstanceAs (Decidable (_ <+: _))

theorem segments_slash (first last : Bytes) :
    segments (first ++ SLASH :: last) = segments first ++ segments last := by
  rw [segments, List.splitOn_append_cons_self, List.map_append, segments,
    segments]

theorem cString_WEB_PATH (path : Bytes) :
    cString (CgiServer.WEB_PATH ++ path) =
      CgiServer.WEB_PATH ++ cString path := by
  have hall : CgiServer.WEB_PATH.all (· ≠ 0) = true := by decide
  exact List.takeWhile_append_of_pos (List.all_eq_true.mp hall)

/-- The file of a path, resolved from the directory of `WEB_PATH`. -/
theorem components_WEB_PATH (path : Bytes) :
    components (CgiServer.WEB_PATH ++ path) =
      Support.resolve (components webDir)
        (segments (webName ++ cString path)) := by
  have hdir : cString webDir = webDir := by decide
  rw [components, cString_WEB_PATH, WEB_PATH_eq, List.append_assoc,
    List.cons_append, segments_slash, resolve_append, components, hdir]

theorem segments_webName : segments webName = [.down webName] := by
  rw [segments, List.splitOn_eq_singleton (by decide)]
  rfl

theorem components_root :
    components CgiServer.WEB_PATH = components webDir ++ [webName] := by
  have hroot := components_WEB_PATH []
  rw [List.append_nil, cString, List.takeWhile_nil, List.append_nil,
    segments_webName] at hroot
  exact hroot

theorem inWebRoot_iff (path : Bytes) :
    InWebRoot (CgiServer.WEB_PATH ++ path) ↔ KeepsRoot path := by
  rw [InWebRoot, KeepsRoot, components_WEB_PATH, components_root]
  exact prefix_resolve_iff (components webDir) webName
    (segments (webName ++ cString path))

/-- A path with a slash in front that goes up no further than it went down
keeps to the web root. -/
theorem keepsRoot_of_covered {path : Bytes}
    (h : (relative (segments (cString path))).ups = 0) :
    KeepsRoot (SLASH :: path) := by
  have hcut : cString (SLASH :: path) = SLASH :: cString path :=
    List.takeWhile_cons_of_pos (by decide)
  have hform : fromWebDir (SLASH :: path) =
      { downs := webName :: (relative (segments (cString path))).downs } := by
    rw [fromWebDir, hcut, segments_slash, segments_webName]
    exact relative_below webName h
  rw [KeepsRoot, hform, components_root, Nat.sub_zero, List.drop_left]
  exact List.prefix_append [webName] _

/-- A path that stays in the directory of `WEB_PATH` but goes down elsewhere. -/
theorem not_keepsRoot {path : Bytes} (hups : (fromWebDir path).ups = 0)
    (hdowns : ¬ [webName] <+: (fromWebDir path).downs) : ¬ KeepsRoot path := by
  rw [KeepsRoot, hups, components_root, Nat.sub_zero, List.drop_left]
  exact hdowns

/-- The file of a request is in the web root when its path keeps to it. -/
theorem inWebRoot_filename_iff (request : HttpRequest) :
    InWebRoot (filename request) ↔ KeepsRoot request.path := by
  unfold filename reqpath
  by_cases hcgi : HttpServer.isCgi request = true
  · rw [if_pos hcgi]
    exact inWebRoot_iff request.path
  · rw [if_neg hcgi]
    by_cases hroot : request.path = ascii "/"
    · rw [if_pos hroot, inWebRoot_iff, hroot]
      exact iff_of_true (keepsRoot_of_covered (by decide))
        (keepsRoot_of_covered (by decide))
    · rw [if_neg hroot]
      exact inWebRoot_iff request.path

/-! ## Request lines -/

/-- The path of a request line, the target up to the first question mark. -/
def RequestLine.path (r : RequestLine) : Bytes :=
  r.target.take (r.target.idxOf QUESTION)

theorem path_setTarget (request : HttpRequest) (target : Bytes) :
    (setTarget request target).path =
      target.take (target.idxOf QUESTION) := by
  rw [setTarget_eq_ite]

/-- A line that is accepted is a request line, and the file of the request is
in the web root exactly when the path of the line keeps to it. -/
theorem webRoot_kept_iff (request : HttpRequest) {line : Bytes}
    (h : (processRequestLine request line).1 = true) :
    (∃ r : RequestLine, line = r.bytes) ∧
      ∀ r : RequestLine, line = r.bytes →
        (InWebRoot (filename (processRequestLine request line).2) ↔
          KeepsRoot r.path) := by
  refine ⟨RequestLine.exists_of_processRequestLine h, ?_⟩
  rintro r rfl
  have hpath : (processRequestLine request r.bytes).2.path = r.path := by
    rw [r.processRequestLine_bytes]
    exact path_setTarget _ r.target
  rw [inWebRoot_filename_iff, hpath]

/-- `GET /a/../b HTTP/1.1`. -/
def getSibling : RequestLine :=
  { RequestLine.getRoot with
    target := ascii "/a/../b"
    noSpace := by decide }

/-- The path goes up, but not above the web root. -/
theorem webRoot_kept_iff_getSibling :
    InWebRoot (filename (processRequestLine {} getSibling.bytes).2) := by
  have haccepted : (processRequestLine {} getSibling.bytes).1 = true := by
    rw [getSibling.processRequestLine_bytes]
  exact ((webRoot_kept_iff {} haccepted).2 _ rfl).mpr
    (keepsRoot_of_covered (show (relative
      (segments (cString (ascii "/a/../b")))).ups = 0 by decide))

/-- `GET /../HttpServer.cc HTTP/1.1`. -/
def getParent : RequestLine :=
  { RequestLine.getRoot with
    target := ascii "/../HttpServer.cc"
    noSpace := by decide }

/-- The request opens a file beside the web root. -/
theorem webRoot_left_getParent :
    (processRequestLine {} getParent.bytes).1 = true ∧
      ¬ InWebRoot (filename (processRequestLine {} getParent.bytes).2) := by
  have hline := getParent.processRequestLine_bytes {}
  constructor
  · rw [hline]
  · rw [inWebRoot_filename_iff, hline]
    exact not_keepsRoot (by decide) (by decide)

end MuduoHttp
