import MuduoHttp.Http.CgiResponse

/-!
# The ranges of the output of a script

The loop of `parseFromcgi` asserts that the colon it found lies between the
start of the line and its end, and that the line that ends it is empty.  The
colon is searched in the whole rest of the message.  On an output with header
lines, an empty line and a body, the asserts hold and the response is the one
that the output stands for exactly when there is no colon in the body.
-/

namespace MuduoHttp

open Support

namespace HttpServer

/-- The asserts in the loop of `parseFromcgi` and the one behind it, from
position `l` on. -/
def headerAsserts (message : Bytes) : ℕ → ℕ → Bool
  | 0, _ => false
  | fuel + 1, l =>
      match findLineEnd message l with
      | none => false
      | some n =>
          match findColon message l with
          | none => n = l
          | some cl =>
              decide (l < cl ∧ cl < n) && headerAsserts message fuel (n + 2)

/-- Whether the asserts of `parseFromcgi` hold. -/
def parseAsserts (message : Bytes) : Bool :=
  headerAsserts message (message.length + 1) 0

variable {message rest : Bytes} {l : ℕ}

theorem headerAsserts_line (header : CgiHeader) (hname : header.name ≠ [])
    (fuel : ℕ) (hdrop : message.drop l = header.line ++ CRLF ++ rest) :
    headerAsserts message (fuel + 1) l =
      headerAsserts message fuel (l + (header.line.length + 2)) := by
  have hend : findLineEnd message l = some (l + header.line.length) :=
    findLineEnd_line header.isLine hdrop
  have hcolon := findColon_line header hdrop
  have hpos := List.length_pos_iff.mpr hname
  have hlength := header.length_line
  have hassert : l < l + header.name.length ∧
      l + header.name.length < l + header.line.length := by omega
  rw [headerAsserts, hend]
  simp only [hcolon, decide_eq_true hassert, Bool.true_and]
  rw [Nat.add_assoc]

/-- The asserts hold on the header section. -/
theorem headerAsserts_lines (headers : List CgiHeader)
    (hnames : ∀ header ∈ headers, header.name ≠ []) (fuel : ℕ)
    (hdrop : message.drop l =
      headers.flatMap (fun header => header.line ++ CRLF) ++ rest) :
    headerAsserts message (headers.length + fuel) l =
      headerAsserts message fuel
        (l + (headers.flatMap
          (fun header => header.line ++ CRLF)).length) := by
  induction headers generalizing l with
  | nil => simp
  | cons header headers ih =>
      rw [List.flatMap_cons, List.append_assoc] at hdrop
      have hrest := ih (fun h hh => hnames h (.tail _ hh))
        (drop_headerLine hdrop)
      rw [List.length_cons, Nat.add_right_comm,
        headerAsserts_line header (hnames header (.head _)) _ hdrop, hrest,
        List.flatMap_cons, List.length_append, List.length_append,
        Nat.add_assoc]
      rfl

/-- In front of the body, the assert behind the loop holds unless the loop goes
on for a colon of the body. -/
theorem headerAsserts_body {body : Bytes} (fuel : ℕ)
    (hdrop : message.drop l = CRLF ++ body) :
    headerAsserts message (fuel + 1) l = decide (COLON ∉ body) := by
  have hend : findLineEnd message l = some (l + 0) :=
    findLineEnd_line (show Buffer.findCRLF [] = none from rfl) hdrop
  have hfind := findColon_body hdrop
  rw [headerAsserts, hend, Nat.add_zero]
  by_cases hcolon : COLON ∈ body
  · rw [if_pos hcolon] at hfind
    have hassert : ¬ (l < l + (2 + body.idxOf COLON) ∧
        l + (2 + body.idxOf COLON) < l) := by omega
    simp only [hfind, decide_eq_false hassert, Bool.false_and, hcolon,
      not_true_eq_false, decide_false]
  · rw [if_neg hcolon] at hfind
    simp only [hfind, hcolon, not_false_eq_true, decide_true]

end HttpServer

/-- An output whose headers all have names. -/
structure NamedOutput extends CgiOutput where
  names_ne : ∀ header ∈ headers, header.name ≠ []

namespace NamedOutput

/-- The asserts hold, and the response has exactly the headers and the body of
the output, and its status. -/
def ParsedFaithfully (output : NamedOutput) : Prop :=
  HttpServer.parseAsserts output.bytes = true ∧
    ∀ close : Bool,
      HttpServer.parseFromcgi output.bytes { closeConnection := close } =
        .ok (output.response close)

theorem parseAsserts_bytes (output : NamedOutput) :
    HttpServer.parseAsserts output.bytes = decide (COLON ∉ output.body) := by
  obtain ⟨fuel, hfuel⟩ := output.exists_fuel
  have hdrop : output.bytes.drop
      (0 + (output.headers.flatMap fun header => header.line ++ CRLF).length) =
        CRLF ++ output.body := by
    rw [Nat.zero_add, output.drop_headers]
  rw [HttpServer.parseAsserts, hfuel,
    HttpServer.headerAsserts_lines output.headers output.names_ne (fuel + 1)
      rfl,
    HttpServer.headerAsserts_body fuel hdrop]

end NamedOutput

/-- An output is parsed faithfully exactly when there is no colon in its
body. -/
theorem parsedFaithfully_iff (output : NamedOutput) :
    output.ParsedFaithfully ↔ COLON ∉ output.body := by
  constructor
  · rintro ⟨hasserts, -⟩
    rw [output.parseAsserts_bytes] at hasserts
    exact of_decide_eq_true hasserts
  · intro hcolon
    refine ⟨?_, ?_⟩
    · rw [output.parseAsserts_bytes, decide_eq_true hcolon]
    · intro close
      rw [HttpServer.parseFromcgi_bytes, if_neg hcolon]

/-- An HTML page with a style. -/
def styledPage : NamedOutput where
  headers :=
    [{ name := ascii "Content-type"
       value := ascii "text/html"
       noColon := by decide
       isLine := by decide }]
  body := ascii "<p style=\"color:red\">"
  names_ne := by decide

/-- Its colon makes the loop take the empty line for a header line, with a range
that ends in front of its start. -/
theorem not_parsedFaithfully_styledPage :
    ¬ ∀ output : NamedOutput, output.ParsedFaithfully := by
  intro hall
  obtain ⟨-, hparsed⟩ := hall styledPage
  have hcolon : COLON ∈ styledPage.body := by decide
  have h := hparsed false
  rw [HttpServer.parseFromcgi_bytes, if_pos hcolon] at h
  cases h

end MuduoHttp
