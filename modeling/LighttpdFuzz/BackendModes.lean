import LighttpdFuzz.AssocMap
import LighttpdFuzz.Connection
import LighttpdFuzz.PyText

/-!
# Response modes of the backend

The backend fixture answers every request with one of a fixed list of
behaviours. `selectMode` finds the mode in the `x-backend-mode` header or
in the URI; `responsePlan` is the answer for a mode. Whatever the client
sends, the mode is one of `MODE_NAMES` (`selectMode_mem`). A front notes
the mode of each of its calls of `response_plan` (`callResponsePlan`).
-/

namespace LighttpdFuzz

/-! ## Python's library -/

/-- `str.lower` on one Latin-1 character. -/
def lowerLatin1 (c : Char) : Char :=
  let n := c.toNat
  if (0x41 ≤ n ∧ n ≤ 0x5a) ∨ (0xc0 ≤ n ∧ n ≤ 0xde ∧ n ≠ 0xd7) then Char.ofNat (n + 0x20) else c

/-- Every character is in Latin-1. -/
def IsLatin1 (t : Text) : Prop := ∀ c ∈ t, c.toNat < 256

theorem isLatin1_of_all {t : Text} (h : t.all (fun c => c.toNat < 256) = true) : IsLatin1 t :=
  fun c hc => of_decide_eq_true (List.all_eq_true.mp h c hc)

/-- What the responder uses of Python's library besides the operations
modelled here; `none` is a `ValueError`. -/
structure PyLibrary where
  /-- `urlsplit`: path and query. -/
  urlsplit : Text → Option (Text × Text)
  /-- `parse_qs(query, keep_blank_values=True)` -/
  parseQs : Text → Option (AssocMap Text (List Text))
  /-- `str.lower` -/
  lower : Text → Text
  lower_latin1 : ∀ t, IsLatin1 t → lower t = t.map lowerLatin1

/-- `data.decode("latin-1")` -/
def decodeLatin1 (data : Bytes) : Text :=
  data.map fun b => Char.ofNat b.toNat

/-! ## Modes -/

inductive BackendMode where
  | normal | chunkedTrailers | continue100 | earlyHints103 | interim | earlyClose
  | malformedHeaders | truncatedHeaders | malformedChunk | truncatedChunk
  | redirectCookie | upgrade | shortWrites
  deriving DecidableEq, Repr

def BackendMode.name : BackendMode → Text
  | .normal => "normal".toList
  | .chunkedTrailers => "chunked-trailers".toList
  | .continue100 => "100".toList
  | .earlyHints103 => "103".toList
  | .interim => "interim".toList
  | .earlyClose => "early-close".toList
  | .malformedHeaders => "malformed-headers".toList
  | .truncatedHeaders => "truncated-headers".toList
  | .malformedChunk => "malformed-chunk".toList
  | .truncatedChunk => "truncated-chunk".toList
  | .redirectCookie => "redirect-cookie".toList
  | .upgrade => "upgrade".toList
  | .shortWrites => "partial".toList

def BackendMode.all : List BackendMode :=
  [.normal, .chunkedTrailers, .continue100, .earlyHints103, .interim, .earlyClose,
    .malformedHeaders, .truncatedHeaders, .malformedChunk, .truncatedChunk, .redirectCookie,
    .upgrade, .shortWrites]

/-- `MODE_NAMES` -/
def modeNames : List Text := BackendMode.all.map BackendMode.name

/-- `_MODE_ALIASES` -/
def modeAliases : List (Text × Text) :=
  [("100-103".toList, "interim".toList), ("content-length-mismatch".toList, "early-close".toList),
    ("length-mismatch".toList, "early-close".toList),
    ("set-cookie-location".toList, "redirect-cookie".toList),
    ("short-writes".toList, "partial".toList)]

/-- `t.replace("_", "-")` -/
def dashed (t : Text) : Text := t.map fun c => if c = '_' then '-' else c

section Select

variable (lib : PyLibrary)

/-- `_mode_value(value)` on text. -/
def modeValue (value : Text) : Text :=
  let value := (dashed (lib.lower value.strip)).take 64
  (AssocMap.find value modeAliases).getD value

/-- `_canonical_mode(value)` -/
def canonicalMode (value : Text) : Text :=
  let value := modeValue lib value
  if value ∈ modeNames then value else "normal".toList

/-- The first mode that the query names, if any. -/
def queryMode (query : AssocMap Text (List Text)) : List Text → Option Text
  | [] => none
  | key :: keys =>
      match query.get key with
      | some (value :: _) => some (canonicalMode lib value)
      | _ => queryMode query keys

/-- The mode in the last component of a path. -/
def pathMode (path : Text) : Text :=
  let finalComponent := (path.rdropWhile (· == '/')).rtakeWhile (· != '/')
  let candidate := modeValue lib finalComponent
  if candidate ∈ modeNames then candidate else "normal".toList

def modeHeader : Text := "x-backend-mode".toList

/-- `select_mode(uri, headers)` -/
def selectMode (uri : Bytes) (headers : AssocMap Text Bytes) : Text :=
  match headers.get modeHeader with
  | some headerMode => canonicalMode lib (decodeLatin1 headerMode)
  | none =>
      let uri := decodeLatin1 uri
      match lib.urlsplit uri with
      | none => pathMode lib (uri.takeWhile (· != '?'))
      | some (path, query) =>
          match lib.parseQs query with
          | none => pathMode lib (uri.takeWhile (· != '?'))
          | some query =>
              match queryMode lib query ["backend-mode".toList, "mode".toList] with
              | some mode => mode
              | none => pathMode lib path

variable {lib}

theorem canonicalMode_mem (value : Text) : canonicalMode lib value ∈ modeNames := by
  rw [canonicalMode]
  split
  · assumption
  · decide

theorem pathMode_mem (path : Text) : pathMode lib path ∈ modeNames := by
  rw [pathMode]
  split
  · assumption
  · decide

theorem queryMode_mem {query : AssocMap Text (List Text)} {mode : Text} :
    ∀ {keys : List Text}, queryMode lib query keys = some mode → mode ∈ modeNames
  | [], h => by cases h
  | key :: keys, h => by
      unfold queryMode at h
      split at h
      · cases h
        exact canonicalMode_mem _
      · exact queryMode_mem h

theorem selectMode_mem (uri : Bytes) (headers : AssocMap Text Bytes) :
    selectMode lib uri headers ∈ modeNames := by
  unfold selectMode
  split
  · exact canonicalMode_mem _
  · simp only
    split
    · exact pathMode_mem _
    · split
      · exact pathMode_mem _
      · split
        · next hquery => exact queryMode_mem hquery
        · exact pathMode_mem _

end Select

/-! ## Responses -/

/-- Response bytes and transmission flags. -/
structure Plan where
  data : Bytes
  inPieces : Bool
  closeEarly : Bool
  upgrade : Bool
  deriving DecidableEq, Repr

def maxRequest : Nat := 1024 * 1024

/-- `_headers(status, fields, http)` -/
def headerBlock (status : String) (fields : List (String × String)) (http : Bool) : Bytes :=
  Bytes.ascii (if http then "HTTP/1.1 " else "Status: ") ++ Bytes.ascii status
    ++ Bytes.ascii "\r\n"
    ++ (fields.flatMap fun f => Bytes.ascii f.1 ++ Bytes.ascii ": " ++ Bytes.ascii f.2
      ++ Bytes.ascii "\r\n")
    ++ Bytes.ascii "\r\n"

/-- The first line of a response whose headers are not well formed. -/
def statusLine (http : Bool) : Bytes :=
  Bytes.ascii (if http then "HTTP/1.1 200 OK\r\n" else "Status: 200 OK\r\n")

def normalResponse (http : Bool) : Bytes :=
  headerBlock "200 OK" [("Content-Type", "text/plain"), ("Content-Length", "11"),
    ("Connection", "close")] http ++ Bytes.ascii "backend-ok\n"

/-- The response of a mode. -/
def BackendMode.plan (http : Bool) (echo : Bytes) : BackendMode → Plan
  | .normal => ⟨normalResponse http, false, false, false⟩
  | .shortWrites => ⟨normalResponse http, true, false, false⟩
  | .chunkedTrailers =>
      ⟨headerBlock "200 OK" [("Content-Type", "text/plain"), ("Transfer-Encoding", "chunked"),
          ("Trailer", "X-Backend-Trailer"), ("Connection", "close")] http
        ++ Bytes.ascii "4\r\npart\r\n3\r\nial\r\n0\r\nX-Backend-Trailer: done\r\n\r\n",
        false, false, false⟩
  | .continue100 =>
      ⟨headerBlock "100 Continue" [] http ++ normalResponse http, false, false, false⟩
  | .earlyHints103 =>
      ⟨headerBlock "103 Early Hints" [("Link", "</early.css>; rel=preload")] http
        ++ normalResponse http, false, false, false⟩
  | .interim =>
      ⟨headerBlock "100 Continue" [] http
        ++ headerBlock "103 Early Hints" [("Link", "</early.css>; rel=preload")] http
        ++ normalResponse http, false, false, false⟩
  | .earlyClose =>
      ⟨headerBlock "200 OK" [("Content-Type", "text/plain"), ("Content-Length", "64"),
          ("Connection", "close")] http ++ Bytes.ascii "short\n", false, true, false⟩
  | .malformedHeaders =>
      ⟨statusLine http ++ Bytes.ascii "Header Without Colon\r\nContent-Length: 3\r\n\r\nbad",
        false, false, false⟩
  | .truncatedHeaders =>
      ⟨statusLine http ++ Bytes.ascii "Content-Length: 3\r\nX-Truncated:", false, true, false⟩
  | .malformedChunk =>
      ⟨headerBlock "200 OK" [("Transfer-Encoding", "chunked"), ("Connection", "close")] http
        ++ Bytes.ascii "Z\r\nbad\r\n0\r\n\r\n", false, false, false⟩
  | .truncatedChunk =>
      ⟨headerBlock "200 OK" [("Transfer-Encoding", "chunked"), ("Connection", "close")] http
        ++ Bytes.ascii "5\r\nxy", false, true, false⟩
  | .redirectCookie =>
      ⟨headerBlock "302 Found" [("Location", "/__backend__/normal"),
          ("Set-Cookie", "fixture=1; Path=/; Domain=backend.invalid"),
          ("Content-Length", "0"), ("Connection", "close")] http, false, false, false⟩
  | .upgrade =>
      ⟨headerBlock "101 Switching Protocols" [("Connection", "Upgrade"),
          ("Upgrade", "backend-echo")] http ++ echo.take maxRequest, false, false, true⟩

/-- `response_plan(mode, http, echo)`; the canonical mode is the name of
one of the modes. -/
def responsePlan (lib : PyLibrary) (mode : Text) (http : Bool) (echo : Bytes) : Plan :=
  let mode := canonicalMode lib mode
  ((BackendMode.all.find? fun m => decide (m.name = mode)).getD .normal).plan http echo

/-- A plan is the plan of one of the modes. -/
theorem responsePlan_mode (lib : PyLibrary) (mode : Text) :
    ∃ m : BackendMode, canonicalMode lib mode = m.name
      ∧ ∀ http echo, responsePlan lib mode http echo = m.plan http echo := by
  obtain ⟨m, -, hm⟩ := List.mem_map.mp (@canonicalMode_mem lib mode)
  refine ⟨m, hm.symm, fun http echo => ?_⟩
  have hfind : BackendMode.all.find? (fun m' => decide (m'.name = m.name)) = some m := by
    cases m <;> decide
  unfold responsePlan
  simp only [← hm, hfind, Option.getD_some]

/-- Only the tunnel of `upgrade` depends on what is echoed. -/
theorem plan_echo {m : BackendMode} (hm : m ≠ .upgrade) (http : Bool) (echo : Bytes) :
    m.plan http echo = m.plan http [] := by
  cases m with
  | upgrade => exact absurd rfl hm
  | _ => rfl

theorem plan_ne_nil (m : BackendMode) (http : Bool) (echo : Bytes) :
    (m.plan http echo).data ≠ [] := by
  cases m <;> cases http <;> nofun

/-- A program over a connection that notes the modes it answers with. -/
abbrev Front (α : Type) := Handler Text α

/-- The call of `response_plan` by a front. -/
def callResponsePlan (lib : PyLibrary) (mode : Text) (http : Bool) (echo : Bytes) : Front Plan := do
  Connection.note mode
  return responsePlan lib mode http echo

/-- `_send(sock, data, partial)` -/
def sendData (data : Bytes) (inPieces : Bool) : Front Unit :=
  if inPieces then Connection.sendPieces 3 data else Connection.sendall data

theorem callResponsePlan_run (lib : PyLibrary) (mode : Text) (http : Bool) (echo : Bytes)
    (c : Connection Text) :
    callResponsePlan lib mode http echo c
      = (.ok (responsePlan lib mode http echo), { c with noted := c.noted ++ [mode] }) := rfl

theorem sendData_eq (data : Bytes) (inPieces : Bool) (c : Connection Text) :
    ∃ accepts, sendData data inPieces c
      = (.ok (), { c with written := c.written ++ data, accepts := accepts }) := by
  cases inPieces with
  | false => exact ⟨c.accepts, rfl⟩
  | true => exact Connection.sendPieces_eq (by decide) _ rfl c

end LighttpdFuzz
