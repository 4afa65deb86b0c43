import LighttpdFuzz.BackendModes
import LighttpdFuzz.Multiplex

/-!
# The FastCGI front of the backend

`handle_fastcgi` reads records, keeps a map from request ids to partly
received requests, and answers a request when its closing STDIN record
arrives. The loop ends when a response asks for it, or with the exception
of a malformed record or of the end of the stream.

A record reads and changes the entry of its own id only: `requestStep` is
what it does to that entry, and `handleRecord_ok` says that this is all it
does.
-/

namespace LighttpdFuzz

open Connection

/-! ## Name-value pairs -/

/-- `_fcgi_length(length)` -/
def fcgiLength (length : Nat) : Except PyException Bytes :=
  if length < 128 then .ok [UInt8.ofNat length]
  else Bytes.toBytesBig 4 (length ||| 0x80000000)

def truncatedParams : PyException := .valueError "truncated FastCGI params"

/-- `take_length()`, on the data from the current offset on. -/
def takeLength (data : Bytes) : Except PyException (Nat × Bytes) :=
  match data with
  | [] => .error truncatedParams
  | b :: rest =>
      if b &&& 0x80 ≠ 0 then
        if data.length < 4 then .error truncatedParams
        else .ok (Bytes.intFromBig (data.slice 0 4) &&& 0x7fffffff, data.drop 4)
      else .ok (b.toNat, rest)

theorem length_lt_of_takeLength {data rest : Bytes} {n : Nat}
    (h : takeLength data = .ok (n, rest)) : rest.length < data.length := by
  cases data with
  | nil => cases h
  | cons b tail =>
      rw [takeLength] at h
      split at h
      · split at h
        · cases h
        · cases h
          rw [List.length_drop, List.length_cons]
          omega
      · cases h
        exact Nat.lt_succ_self _

/-- The loop of `_fcgi_params`, on the data from the current offset on. -/
def fcgiParamsLoop (result : AssocMap Text Bytes) (data : Bytes) :
    Except PyException (AssocMap Text Bytes) :=
  if data = [] then .ok result
  else
    match _hname : takeLength data with
    | .error e => .error e
    | .ok (nameLength, data₁) =>
        match _hvalue : takeLength data₁ with
        | .error e => .error e
        | .ok (valueLength, data₂) =>
            if nameLength + valueLength > data₂.length then .error truncatedParams
            else
              let name := decodeLatin1 (data₂.take nameLength)
              let value := (data₂.drop nameLength).take valueLength
              fcgiParamsLoop (result.set name value) (data₂.drop (nameLength + valueLength))
termination_by data.length
decreasing_by
  have h₁ := length_lt_of_takeLength _hname
  have h₂ := length_lt_of_takeLength _hvalue
  rw [List.length_drop]
  omega

/-- `_fcgi_params(data)` -/
def fcgiParams (data : Bytes) : Except PyException (AssocMap Text Bytes) :=
  fcgiParamsLoop .empty data

/-! ## Records -/

/-- A record as the handler reads it. -/
structure FcgiRecord where
  recordType : UInt8
  requestId : Nat
  content : Bytes
  deriving DecidableEq, Repr

/-- `fcgi_record(record_type, request_id, content)` -/
def fcgiRecord (recordType : UInt8) (requestId : Nat) (content : Bytes) :
    Except PyException Bytes :=
  if content.length > 0xffff then .error (.valueError "FastCGI record too large")
  else
    .ok ([1, recordType] ++ Bytes.bigDigits 2 requestId ++ Bytes.bigDigits 2 content.length
      ++ [0, 0] ++ content)

/-- Read one record and its padding. -/
def readRecord : Front FcgiRecord := do
  let header ← recvExact 8
  let requestId := Bytes.intFromBig (header.slice 2 4)
  if header.getD 0 0 ≠ 1 ∨ requestId = 0 then
    throw (.valueError "invalid FastCGI record")
  else do
    let content ← recvExact (Bytes.intFromBig (header.slice 4 6))
    let _ ← recvExact (header.getD 6 0).toNat
    return ⟨header.getD 1 0, requestId, content⟩

theorem length_lt_of_readRecord {c c' : Connection Text} {record : FcgiRecord}
    (h : readRecord c = (.ok record, c')) : c'.incoming.length < c.incoming.length := by
  obtain ⟨header, c₁, hheader, h⟩ := bind_eq_ok h
  obtain ⟨hlen, hsplit, -⟩ := recvExact_ok hheader
  simp only at h
  split at h
  · cases h
  · obtain ⟨content, c₂, hcontent, h⟩ := bind_eq_ok h
    obtain ⟨padding, c₃, hpadding, h⟩ := bind_eq_ok h
    cases h
    have h₁ := congrArg List.length hsplit
    have h₂ := congrArg List.length (recvExact_ok hcontent).2.1
    have h₃ := congrArg List.length (recvExact_ok hpadding).2.1
    rw [List.length_append] at h₁ h₂ h₃
    omega

/-! ## Requests -/

/-- `state`: a partly received request. -/
structure FcgiRequest where
  params : Bytes
  body : Bytes
  headers : AssocMap Text Bytes
  uri : Bytes
  keep : Bool

section Handle

variable (lib : PyLibrary) (maxRequest : Nat)

/-- The name of a header as CGI spells it, without the `HTTP_`. -/
def cgiHeaderName (key : Text) : Text := dashed (lib.lower (key.drop 5))

def httpPrefix : Text := "HTTP_".toList

/-- The headers among CGI variables. -/
def cgiHeaders (params : AssocMap Text Bytes) : AssocMap Text Bytes :=
  .setAll (fun e => cgiHeaderName lib e.1) Prod.snd .empty
    (params.entries.filter fun e => decide (httpPrefix <+: e.1))

def requestUri : Text := "REQUEST_URI".toList

/-- The bytes of a response, `wire`. -/
def fcgiWire (requestId : Nat) (plan : Plan) : Except PyException Bytes := do
  let wire ← fcgiRecord 6 requestId plan.data
  if plan.closeEarly then return wire
  else do
    let stdoutEnd ← fcgiRecord 6 requestId []
    let requestEnd ← fcgiRecord 3 requestId (List.replicate 8 0)
    return wire ++ stdoutEnd ++ requestEnd

/-- `_fcgi_respond(sock, request_id, mode, body, keep_connection)` -/
def fcgiRespond (requestId : Nat) (mode : Text) (body : Bytes) (keepConnection : Bool) :
    Front Bool := do
  let plan ← callResponsePlan lib mode false body
  match fcgiWire requestId plan with
  | .error e => throw e
  | .ok wire => do
      sendData wire plan.inPieces
      return plan.closeEarly || !keepConnection

/-- The requests that are partly received, by their ids. -/
abbrev FcgiRequests := AssocMap Nat FcgiRequest

/-- The rest of the loop body, after a record has been read: what becomes
of the map of requests, and whether the handler is done. -/
def handleRecord (requests : FcgiRequests) (record : FcgiRecord) :
    Front (FcgiRequests × Bool) :=
  if record.recordType = 1 then
    if record.content.length ≠ 8 ∨ (requests.get record.requestId).isSome then
      throw (.valueError "invalid FastCGI begin request")
    else
      return (requests.set record.requestId
        ⟨[], [], .empty, Bytes.ascii "/", (record.content.getD 2 0) &&& 1 ≠ 0⟩, false)
  else
    match requests.get record.requestId with
    | none => throw (.valueError "FastCGI record without begin request")
    | some state =>
        if record.recordType = 4 then
          if record.content ≠ [] then
            if state.params.length + record.content.length > maxRequest then
              throw (.valueError "FastCGI params too large")
            else
              return (requests.set record.requestId
                { state with params := state.params ++ record.content }, false)
          else
            match fcgiParams state.params with
            | .error e => throw e
            | .ok params =>
                return (requests.set record.requestId
                  { state with
                    uri := (params.get requestUri).getD (Bytes.ascii "/")
                    headers := cgiHeaders lib params }, false)
        else if record.recordType = 5 then
          if record.content ≠ [] then
            if state.body.length + record.content.length > maxRequest then
              throw (.valueError "FastCGI body too large")
            else
              return (requests.set record.requestId
                { state with body := state.body ++ record.content }, false)
          else do
            let close ← fcgiRespond lib record.requestId (selectMode lib state.uri state.headers)
              state.body state.keep
            return (requests.erase record.requestId, close)
        else if record.recordType = 2 then
          return (requests.erase record.requestId, false)
        else
          return (requests, false)

/-- What the handling of a record does besides changing the map. -/
structure RecordEffect where
  written : Bytes
  /-- The modes that responses were made for. -/
  modes : List Text
  /-- Whether the handler is done. -/
  done : Bool

/-- The effect of all records but a closing one. -/
def RecordEffect.none : RecordEffect := ⟨[], [], false⟩

/-- What a record does to the request with its id. -/
def requestStep : Multiplex.Machine FcgiRequest FcgiRecord RecordEffect PyException
  | none, record =>
      if record.recordType ≠ 1 then .error (.valueError "FastCGI record without begin request")
      else if record.content.length ≠ 8 then .error (.valueError "invalid FastCGI begin request")
      else
        .ok (some ⟨[], [], .empty, Bytes.ascii "/", (record.content.getD 2 0) &&& 1 ≠ 0⟩, .none)
  | some state, record =>
      if record.recordType = 1 then .error (.valueError "invalid FastCGI begin request")
      else if record.recordType = 4 then
        if record.content ≠ [] then
          if state.params.length + record.content.length > maxRequest then
            .error (.valueError "FastCGI params too large")
          else .ok (some { state with params := state.params ++ record.content }, .none)
        else
          match fcgiParams state.params with
          | .error e => .error e
          | .ok params =>
              .ok (some { state with
                uri := (params.get requestUri).getD (Bytes.ascii "/")
                headers := cgiHeaders lib params }, .none)
      else if record.recordType = 5 then
        if record.content ≠ [] then
          if state.body.length + record.content.length > maxRequest then
            .error (.valueError "FastCGI body too large")
          else .ok (some { state with body := state.body ++ record.content }, .none)
        else
          let mode := selectMode lib state.uri state.headers
          let plan := responsePlan lib mode false state.body
          match fcgiWire record.requestId plan with
          | .error e => .error e
          | .ok wire => .ok (none, ⟨wire, [mode], plan.closeEarly || !state.keep⟩)
      else if record.recordType = 2 then .ok (none, .none)
      else .ok (some state, .none)

/-! ## The steps of a request -/

section Steps

variable {lib maxRequest} {state : FcgiRequest} {id : Nat} {content : Bytes}

theorem requestStep_begin (hlen : content.length = 8) :
    requestStep lib maxRequest none ⟨1, id, content⟩
      = .ok (some ⟨[], [], .empty, Bytes.ascii "/", content.getD 2 0 &&& 1 ≠ 0⟩, .none) := by
  rw [requestStep, if_neg (not_not.mpr rfl), if_neg (not_not.mpr hlen)]

theorem requestStep_params (hmore : content ≠ []) :
    requestStep lib maxRequest (some state) ⟨4, id, content⟩
      = if state.params.length + content.length > maxRequest then
          .error (.valueError "FastCGI params too large")
        else .ok (some { state with params := state.params ++ content }, .none) := by
  rw [requestStep, if_neg (by decide : (4 : UInt8) ≠ 1), if_pos rfl, if_pos hmore]

theorem requestStep_paramsEnd {params : AssocMap Text Bytes}
    (hdecoded : fcgiParams state.params = .ok params) :
    requestStep lib maxRequest (some state) ⟨4, id, []⟩
      = .ok (some { state with
          uri := (params.get requestUri).getD (Bytes.ascii "/")
          headers := cgiHeaders lib params }, .none) := by
  rw [requestStep, if_neg (by decide : (4 : UInt8) ≠ 1), if_pos rfl, if_neg (not_not.mpr rfl),
    hdecoded]

theorem requestStep_stdin (hmore : content ≠ []) :
    requestStep lib maxRequest (some state) ⟨5, id, content⟩
      = if state.body.length + content.length > maxRequest then
          .error (.valueError "FastCGI body too large")
        else .ok (some { state with body := state.body ++ content }, .none) := by
  rw [requestStep, if_neg (by decide : (5 : UInt8) ≠ 1), if_neg (by decide : (5 : UInt8) ≠ 4),
    if_pos rfl, if_pos hmore]

/-- The record that answers the request. -/
theorem requestStep_stdinEnd {wire : Bytes}
    (hwire : fcgiWire id (responsePlan lib (selectMode lib state.uri state.headers) false
      state.body) = .ok wire) :
    requestStep lib maxRequest (some state) ⟨5, id, []⟩
      = .ok (none, ⟨wire, [selectMode lib state.uri state.headers],
          (responsePlan lib (selectMode lib state.uri state.headers) false state.body).closeEarly
            || !state.keep⟩) := by
  rw [requestStep, if_neg (by decide : (5 : UInt8) ≠ 1), if_neg (by decide : (5 : UInt8) ≠ 4),
    if_pos rfl, if_neg (not_not.mpr rfl)]
  simp only [hwire]

end Steps

/-! ## A record concerns its own request -/

variable {lib maxRequest}

theorem get_set_eq_update (requests : FcgiRequests) (id : Nat) (state : FcgiRequest) :
    (requests.set id state).get = Function.update requests.get id (some state) := by
  funext k
  rw [AssocMap.get_set, Function.update_apply]

theorem get_erase_eq_update (requests : FcgiRequests) (id : Nat) :
    (requests.erase id).get = Function.update requests.get id none := by
  funext k
  rw [AssocMap.get_erase, Function.update_apply]

theorem keep_eq_update (requests : FcgiRequests) {id : Nat} {state : Option FcgiRequest}
    (h : requests.get id = state) : requests.get = Function.update requests.get id state := by
  rw [← h, Function.update_eq_self]

/-- The answer to a request: its bytes are written at once or in pieces. -/
theorem fcgiRespond_ok {id : Nat} {mode : Text} {body wire : Bytes} {keep : Bool}
    (h : fcgiWire id (responsePlan lib mode false body) = .ok wire) (c : Connection Text) :
    ∃ accepts, fcgiRespond lib id mode body keep c
      = (.ok ((responsePlan lib mode false body).closeEarly || !keep),
        { c with
          written := c.written ++ wire, accepts := accepts, noted := c.noted ++ [mode] }) := by
  obtain ⟨accepts, hsend⟩ := sendData_eq wire (responsePlan lib mode false body).inPieces
    { c with noted := c.noted ++ [mode] }
  refine ⟨accepts, ?_⟩
  rw [fcgiRespond, bind_ok (callResponsePlan_run lib mode false body c)]
  simp only [h]
  rw [bind_ok hsend, pure_run]

theorem fcgiRespond_error {id : Nat} {mode : Text} {body : Bytes} {keep : Bool}
    {e : PyException} (h : fcgiWire id (responsePlan lib mode false body) = .error e)
    (c : Connection Text) :
    fcgiRespond lib id mode body keep c = (.error e, { c with noted := c.noted ++ [mode] }) := by
  rw [fcgiRespond, bind_ok (callResponsePlan_run lib mode false body c)]
  simp only [h, throw_run]

theorem handleRecord_ok {requests : FcgiRequests} {record : FcgiRecord}
    {state : Option FcgiRequest} {effect : RecordEffect}
    (h : requestStep lib maxRequest (requests.get record.requestId) record
      = .ok (state, effect)) (c : Connection Text) :
    ∃ requests' accepts, handleRecord lib maxRequest requests record c
        = (.ok (requests', effect.done), { c with
          written := c.written ++ effect.written, accepts := accepts,
          noted := c.noted ++ effect.modes })
      ∧ requests'.get = Function.update requests.get record.requestId state := by
  cases hget : requests.get record.requestId with
  | none =>
      rw [hget, requestStep] at h
      split_ifs at h with htype hlen
      cases h
      refine ⟨_, c.accepts, ?_, get_set_eq_update requests _ _⟩
      rw [handleRecord, if_pos (not_not.mp htype), if_neg (by simp [not_not.mp hlen, hget])]
      simp only [pure_run, RecordEffect.none, List.append_nil]
  | some found =>
      rw [hget, requestStep] at h
      split_ifs at h with hbegin hparams hmore hlen hbody hmore hlen habort
      · cases h
        refine ⟨_, c.accepts, ?_, get_set_eq_update requests _ _⟩
        rw [handleRecord, if_neg hbegin, hget]
        simp only [if_pos hparams, if_pos hmore, if_neg hlen, pure_run, RecordEffect.none,
          List.append_nil]
      · split at h
        · cases h
        · next params hdecoded =>
            cases h
            refine ⟨_, c.accepts, ?_, get_set_eq_update requests _ _⟩
            rw [handleRecord, if_neg hbegin, hget]
            simp only [if_pos hparams, if_neg hmore, hdecoded, pure_run, RecordEffect.none,
              List.append_nil]
      · cases h
        refine ⟨_, c.accepts, ?_, get_set_eq_update requests _ _⟩
        rw [handleRecord, if_neg hbegin, hget]
        simp only [if_neg hparams, if_pos hbody, if_pos hmore, if_neg hlen, pure_run,
          RecordEffect.none, List.append_nil]
      · simp only at h
        split at h
        · cases h
        · next wire hwire =>
            cases h
            obtain ⟨accepts, hrespond⟩ := @fcgiRespond_ok lib _ _ _ wire found.keep hwire c
            refine ⟨_, accepts, ?_, get_erase_eq_update requests _⟩
            rw [handleRecord, if_neg hbegin, hget]
            simp only [if_neg hparams, if_pos hbody, if_neg hmore]
            rw [bind_ok hrespond, pure_run]
      · cases h
        refine ⟨_, c.accepts, ?_, get_erase_eq_update requests _⟩
        rw [handleRecord, if_neg hbegin, hget]
        simp only [if_neg hparams, if_neg hbody, if_pos habort, pure_run, RecordEffect.none,
          List.append_nil]
      · cases h
        refine ⟨_, c.accepts, ?_, keep_eq_update requests hget⟩
        rw [handleRecord, if_neg hbegin, hget]
        simp only [if_neg hparams, if_neg hbody, if_neg habort, pure_run, RecordEffect.none,
          List.append_nil]

/-- A refused record ends the handler; at most a mode has been noted. -/
theorem handleRecord_error {requests : FcgiRequests} {record : FcgiRecord} {e : PyException}
    (h : requestStep lib maxRequest (requests.get record.requestId) record = .error e)
    (c : Connection Text) :
    ∃ noted, handleRecord lib maxRequest requests record c
      = (.error e, { c with noted := noted }) := by
  cases hget : requests.get record.requestId with
  | none =>
      refine ⟨c.noted, ?_⟩
      rw [hget, requestStep] at h
      split_ifs at h with htype hlen
      · cases h
        rw [handleRecord, if_neg htype, hget]
        rfl
      · cases h
        rw [handleRecord, if_pos (not_not.mp htype), if_pos (Or.inl hlen), throw_run]
  | some found =>
      rw [hget, requestStep] at h
      split_ifs at h with hbegin hparams hmore hlen hbody hmore hlen habort
      · cases h
        refine ⟨c.noted, ?_⟩
        rw [handleRecord, if_pos hbegin, if_pos (Or.inr (by rw [hget]; rfl)), throw_run]
      · cases h
        refine ⟨c.noted, ?_⟩
        rw [handleRecord, if_neg hbegin, hget]
        simp only [if_pos hparams, if_pos hmore, if_pos hlen, throw_run]
      · split at h
        · next hdecoded =>
            cases h
            refine ⟨c.noted, ?_⟩
            rw [handleRecord, if_neg hbegin, hget]
            simp only [if_pos hparams, if_neg hmore, hdecoded, throw_run]
        · cases h
      · cases h
        refine ⟨c.noted, ?_⟩
        rw [handleRecord, if_neg hbegin, hget]
        simp only [if_neg hparams, if_pos hbody, if_pos hmore, if_pos hlen, throw_run]
      · simp only at h
        split at h
        · next hwire =>
            cases h
            refine ⟨c.noted ++ [selectMode lib found.uri found.headers], ?_⟩
            rw [handleRecord, if_neg hbegin, hget]
            simp only [if_neg hparams, if_pos hbody, if_neg hmore]
            rw [bind_error (fcgiRespond_error hwire c)]
        · cases h

/-- A closing record calls `response_plan`, whatever becomes of the response. -/
theorem handleRecord_closing {requests : FcgiRequests} {id : Nat} {state : FcgiRequest}
    (hget : requests.get id = some state) (c : Connection Text) :
    (handleRecord lib maxRequest requests ⟨5, id, []⟩ c).2.noted
      = c.noted ++ [selectMode lib state.uri state.headers] := by
  rw [handleRecord, if_neg (by decide : (5 : UInt8) ≠ 1), hget]
  simp only [if_neg (by decide : ¬ (5 : UInt8) = 4), if_pos, ne_eq, not_true, if_false]
  rw [bind_noted fun _ _ => rfl]
  cases hwire : fcgiWire id
      (responsePlan lib (selectMode lib state.uri state.headers) false state.body) with
  | error e => rw [fcgiRespond_error hwire]
  | ok wire =>
      obtain ⟨accepts, hrespond⟩ := @fcgiRespond_ok lib _ _ _ wire state.keep hwire c
      rw [hrespond]

/-- Handling a record reads nothing more. -/
theorem handleRecord_incoming (requests : FcgiRequests) (record : FcgiRecord)
    (c : Connection Text) :
    (handleRecord lib maxRequest requests record c).2.incoming = c.incoming := by
  cases h : requestStep lib maxRequest (requests.get record.requestId) record with
  | error e =>
      obtain ⟨noted, heq⟩ := handleRecord_error h c
      rw [heq]
  | ok result =>
      obtain ⟨requests', accepts, heq, -⟩ := handleRecord_ok h c
      rw [heq]

variable (lib maxRequest)

/-- `handle_fastcgi`, from a map of partly received requests on. -/
def fastcgiLoop (requests : FcgiRequests) (c : Connection Text) :
    Except PyException Bool × Connection Text :=
  match _hread : readRecord c with
  | (.error e, c₁) => (.error e, c₁)
  | (.ok record, c₁) =>
      match _hhandle : handleRecord lib maxRequest requests record c₁ with
      | (.error e, c₂) => (.error e, c₂)
      | (.ok (_, true), c₂) => (.ok true, c₂)
      | (.ok (rest, false), c₂) => fastcgiLoop rest c₂
termination_by c.incoming.length
decreasing_by
  have h₁ := length_lt_of_readRecord _hread
  have h₂ := @handleRecord_incoming lib maxRequest requests record c₁
  rw [_hhandle] at h₂
  rw [h₂]
  exact h₁

/-- `handle_fastcgi(sock, max_request)` -/
def handleFastcgi : Front Bool := fastcgiLoop lib maxRequest .empty

end Handle

end LighttpdFuzz
