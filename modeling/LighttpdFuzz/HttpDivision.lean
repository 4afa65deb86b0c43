import LighttpdFuzz.HttpFront
import LighttpdFuzz.FastcgiMultiplex

/-!
# The HTTP front and the division of the stream

`handle_http` reads in three places, each with a budget of its own: blocks
up to the empty line, the rest of the body, and the tunnel. None of them
lets the division of the stream show: `httpRequest` says, in terms of the
stream alone, what the request is or which exception ends the run, and

- `recvHeaders_eq`, `recvHeaders_none` follow the blocks of the head,
- `readBody_eq`, `readBody_short` the body,
- `echoTunnel_eq` the tunnel.

The handler reads the whole request and then answers it
(`handleHttp_split`), which makes up `handleHttp_outcome`: result and
output are functions of the stream.
-/

namespace LighttpdFuzz

open Connection

/-! ## The request in a stream -/

/-- A request and what follows it. -/
structure HttpRequest where
  head : Bytes
  uri : Bytes
  headers : AssocMap Text Bytes
  body : Bytes
  remainder : Bytes

/-- The length that the headers declare; no length and a length that is no
number are 0. -/
def declaredLength (headers : AssocMap Text Bytes) : Int :=
  (Bytes.toInt ((headers.get contentLengthName).getD (Bytes.ascii "0"))).getD 0

/-- What the handler makes of a stream. -/
def httpRequest (lib : PyLibrary) (stream : Bytes) : Except PyException HttpRequest :=
  match Bytes.find headEnd (stream.take (maxHeaders + 1)) with
  | none =>
      .error (if stream.length ≤ maxHeaders then .eofError else .valueError "headers too large")
  | some marker =>
      match parseHttpHeaders lib (stream.take (marker + 4)) with
      | .error e => .error e
      | .ok (uri, headers) =>
          if declaredLength headers < 0 ∨ declaredLength headers > maxRequest then
            .error (.valueError "invalid content length")
          else if (stream.drop (marker + 4)).length < (declaredLength headers).toNat then
            .error .eofError
          else
            .ok ⟨stream.take (marker + 4), uri, headers,
              (stream.drop (marker + 4)).take (declaredLength headers).toNat,
              (stream.drop (marker + 4)).drop (declaredLength headers).toNat⟩

/-! ## The blocks of the head -/

/-- Without an empty line within the limit the head is refused, or the
stream ends before the limit. -/
theorem recvHeaders_none {stream : Bytes}
    (hfind : Bytes.find headEnd (stream.take (maxHeaders + 1)) = none) :
    ∀ (n : Nat) {data : Bytes} {c : Connection Text}, maxHeaders + 1 - data.length = n →
    data ++ c.incoming = stream → data.length ≤ maxHeaders + 1 →
    ∃ c', recvHeaders data c
        = (.error (if stream.length ≤ maxHeaders then .eofError
            else .valueError "headers too large"), c')
      ∧ c'.written = c.written := by
  intro n
  induction n using Nat.strongRecOn with
  | ind n ih =>
      intro data c hn hstream hdata
      have hsplit := congrArg List.length hstream
      rw [List.length_append] at hsplit
      unfold recvHeaders
      by_cases hroom : data.length ≤ maxHeaders
      · rw [dif_pos hroom]
        by_cases hend : c.incoming = []
        · have hrecv : recv (min 4096 (maxHeaders + 1 - data.length)) c = (.ok [],
              { c with incoming := [], cuts := c.cuts.tail }) := by
            simp [recv, hend]
          rw [hend, List.length_nil] at hsplit
          rw [bind_ok hrecv, dif_pos rfl, if_pos (by omega)]
          exact ⟨_, rfl, rfl⟩
        · obtain ⟨count, hpos, hle, hcount, hrecv⟩ :=
            @recv_spec Text (min 4096 (maxHeaders + 1 - data.length)) c (by omega) hend
          have hblock : c.incoming.take count ≠ [] := by
            rw [← List.length_pos_iff, List.length_take]
            omega
          have hsofar : data ++ c.incoming.take count = stream.take (data.length + count) := by
            rw [← hstream, List.take_length_add_append]
          have hdrop : c.incoming.drop count = stream.drop (data.length + count) := by
            rw [← hstream, List.drop_length_add_append]
          have hno : Bytes.find headEnd (stream.take (data.length + count)) = none := by
            refine Bytes.find_eq_none_iff.mpr fun hp => Bytes.find_eq_none_iff.mp hfind ?_
            have hfront : stream.take (data.length + count) <+: stream.take (maxHeaders + 1) :=
              List.take_prefix_take_left (by omega)
            exact hp.trans hfront.isInfix
          have hlength : (stream.take (data.length + count)).length = data.length + count := by
            rw [List.length_take]
            omega
          rw [bind_ok hrecv, dif_neg hblock, hsofar, hno]
          exact ih (maxHeaders + 1 - (stream.take (data.length + count)).length) (by omega)
            (c := { c with incoming := c.incoming.drop count, cuts := c.cuts.tail }) rfl
            (by rw [hdrop, List.take_append_drop]) (by omega)
      · rw [dif_neg hroom, if_neg (by omega)]
        exact ⟨c, rfl, rfl⟩

/-! ## The body and the tunnel -/

/-- What has come with the head and what still comes make up the body. -/
theorem readBody_eq {extra : Bytes} {length : Nat} {c : Connection Text}
    (h : length ≤ (extra ++ c.incoming).length) :
    ∃ cuts, readBody (extra.take length) length c
      = (.ok ((extra ++ c.incoming).take length),
        { c with incoming := c.incoming.drop (length - extra.length), cuts := cuts }) := by
  rw [List.length_append] at h
  rw [readBody, List.length_take]
  by_cases hshort : min length extra.length < length
  · have hmin : min length extra.length = extra.length := by omega
    obtain ⟨cuts, hread⟩ := recvExact_eq (length - extra.length) (c := c) (by omega)
    refine ⟨cuts, ?_⟩
    rw [if_pos hshort, hmin, bind_ok hread, pure_run, List.take_append,
      List.take_of_length_le (show extra.length ≤ length by omega)]
  · refine ⟨c.cuts, ?_⟩
    rw [if_neg hshort, pure_run, List.take_append_of_le_length (by omega),
      Nat.sub_eq_zero_of_le (by omega), List.drop_zero]

theorem readBody_short {extra : Bytes} {length : Nat} {c : Connection Text}
    (h : (extra ++ c.incoming).length < length) :
    ∃ cuts, readBody (extra.take length) length c
      = (.error .eofError, { c with incoming := [], cuts := cuts }) := by
  rw [List.length_append] at h
  rw [readBody, List.length_take, if_pos (by omega)]
  obtain ⟨cuts, hread⟩ := recvExact_short (length - min length extra.length) (c := c) (by omega)
  exact ⟨cuts, by rw [bind_error hread]⟩

/-- The tunnel gives back what comes, up to its budget. -/
theorem echoTunnel_eq : ∀ (remaining : Nat) (c : Connection Text),
    ∃ cuts, echoTunnel remaining c = (.ok (), { c with
      incoming := c.incoming.drop remaining, cuts := cuts,
      written := c.written ++ c.incoming.take remaining }) := by
  intro remaining
  induction remaining using Nat.strongRecOn with
  | ind remaining ih =>
      intro c
      unfold echoTunnel
      rcases eq_or_ne remaining 0 with rfl | hzero
      · exact ⟨c.cuts, by simp⟩
      · rw [dif_neg hzero]
        by_cases hend : c.incoming = []
        · have hrecv : recv (min 4096 remaining) c = (.ok [],
              { c with incoming := [], cuts := c.cuts.tail }) := by
            simp [recv, hend]
          exact ⟨c.cuts.tail, by rw [bind_ok hrecv, dif_pos rfl]; simp [hend]⟩
        · obtain ⟨count, hpos, hle, hcount, hrecv⟩ :=
            @recv_spec Text (min 4096 remaining) c (by omega) hend
          have hblock : c.incoming.take count ≠ [] := by
            rw [← List.length_pos_iff, List.length_take]
            omega
          have htake : (c.incoming.take count).length = count := by
            rw [List.length_take]
            omega
          obtain ⟨cuts, hrest⟩ := ih (remaining - count) (by omega) { c with
            incoming := c.incoming.drop count, cuts := c.cuts.tail,
            written := c.written ++ c.incoming.take count }
          refine ⟨cuts, ?_⟩
          rw [bind_ok hrecv, dif_neg hblock, htake]
          change echoTunnel (remaining - count) { c with
            incoming := c.incoming.drop count, cuts := c.cuts.tail,
            written := c.written ++ c.incoming.take count } = _
          rw [hrest]
          have hle : count ≤ remaining := by omega
          rw [List.drop_drop, Nat.add_sub_cancel' hle, List.append_assoc, ← List.take_add,
            Nat.add_sub_cancel' hle]

/-! ## Reading and answering -/

/-- The first part of the handler: it reads the request. The remainder is
what has come of it so far. -/
def readHttpRequest (lib : PyLibrary) (maxRequest : Nat) : Front HttpRequest := do
  let (headerData, extra) ← recvHeaders []
  match parseHttpHeaders lib headerData with
  | .error e => throw e
  | .ok (uri, headers) =>
      if declaredLength headers < 0 ∨ declaredLength headers > maxRequest then
        throw (.valueError "invalid content length")
      else do
        let length := (declaredLength headers).toNat
        let body ← readBody (extra.take length) length
        return ⟨headerData, uri, headers, body, extra.drop length⟩

/-- The second part: it answers, and echoes the tunnel after an upgrade. -/
def answerHttpRequest (lib : PyLibrary) (maxRequest : Nat) (request : HttpRequest) :
    Front Bool := do
  let plan ← callResponsePlan lib (selectMode lib request.uri request.headers) true
    request.remainder
  sendData plan.data plan.inPieces
  if plan.upgrade then echoTunnel (maxRequest - request.remainder.length) else pure ()
  return plan.closeEarly || plan.upgrade

theorem handleHttp_split (lib : PyLibrary) (maxRequest : Nat) :
    handleHttp lib maxRequest
      = readHttpRequest lib maxRequest >>= answerHttpRequest lib maxRequest := by
  rw [handleHttp, readHttpRequest, bind_assoc]
  refine bind_congr fun head => ?_
  obtain ⟨headerData, extra⟩ := head
  cases hparse : parseHttpHeaders lib headerData with
  | error e => simp only [hparse]; rfl
  | ok parsed =>
      obtain ⟨uri, headers⟩ := parsed
      simp only [hparse]
      change (if declaredLength headers < 0 ∨ declaredLength headers > maxRequest then _ else _)
        = _
      by_cases hbad : declaredLength headers < 0 ∨ declaredLength headers > maxRequest
      · rw [if_pos hbad, if_pos hbad]
        rfl
      · rw [if_neg hbad, if_neg hbad, bind_assoc]
        rfl

section Outcome

variable {lib : PyLibrary} {stream : Bytes} {cuts accepts : List Nat}

/-- A stream without a whole request: nothing is written. -/
theorem readHttpRequest_error {e : PyException} (h : httpRequest lib stream = .error e) :
    ∃ c', readHttpRequest lib maxRequest (fresh stream cuts accepts) = (.error e, c')
      ∧ c'.written = [] := by
  unfold httpRequest at h
  split at h
  · next hfind =>
      cases h
      obtain ⟨c', hhead, hwritten⟩ := recvHeaders_none hfind _ rfl
        (c := fresh stream cuts accepts) (List.nil_append stream) (Nat.zero_le _)
      exact ⟨c', by rw [readHttpRequest, bind_error hhead], hwritten⟩
  · next marker hfind =>
      obtain ⟨hfind, hmax⟩ := Bytes.find_of_take (by decide) hfind
      obtain ⟨extra, rest, cuts', hhead, hextra⟩ :=
        @recvHeaders_eq _ _ hfind hmax _ [] (fresh stream cuts accepts) rfl (List.nil_append _)
          (by rw [List.length_nil]; omega)
      rw [readHttpRequest, bind_ok hhead]
      split at h
      · next hparse =>
          cases h
          simp only [hparse]
          exact ⟨_, rfl, rfl⟩
      · next uri headers hparse =>
          simp only [hparse]
          split_ifs at h with hbad hshort
          · cases h
            rw [if_pos hbad]
            exact ⟨_, rfl, rfl⟩
          · cases h
            rw [if_neg hbad]
            rw [← hextra] at hshort
            obtain ⟨cuts'', hread⟩ := readBody_short
              (c := { (fresh stream cuts accepts : Connection Text) with
                incoming := rest, cuts := cuts' }) hshort
            exact ⟨_, bind_error hread, rfl⟩

/-- A whole request is read as it stands in the stream; some of the
remainder may have come with it, and nothing has been written. -/
theorem readHttpRequest_ok {request : HttpRequest} (h : httpRequest lib stream = .ok request) :
    ∃ tunnel rest cuts', readHttpRequest lib maxRequest (fresh stream cuts accepts)
        = (.ok { request with remainder := tunnel }, fresh rest cuts' accepts)
      ∧ tunnel ++ rest = request.remainder := by
  unfold httpRequest at h
  split at h
  · cases h
  · next marker hfind =>
      obtain ⟨hfind, hmax⟩ := Bytes.find_of_take (by decide) hfind
      obtain ⟨extra, rest, cuts', hhead, hextra⟩ :=
        @recvHeaders_eq _ _ hfind hmax _ [] (fresh stream cuts accepts) rfl (List.nil_append _)
          (by rw [List.length_nil]; omega)
      rw [readHttpRequest, bind_ok hhead]
      split at h
      · cases h
      · next uri headers hparse =>
          simp only [hparse]
          split_ifs at h with hbad hshort
          cases h
          rw [if_neg hbad]
          rw [← hextra] at hshort ⊢
          obtain ⟨cuts'', hread⟩ := readBody_eq
            (c := { (fresh stream cuts accepts : Connection Text) with
              incoming := rest, cuts := cuts' }) (Nat.le_of_not_lt hshort)
          refine ⟨extra.drop (declaredLength headers).toNat, _, cuts'', bind_ok hread, ?_⟩
          rw [List.drop_append]

/-- The plan of the answer: what is echoed is what follows the request. -/
def HttpRequest.plan (request : HttpRequest) (lib : PyLibrary) : Plan :=
  responsePlan lib (selectMode lib request.uri request.headers) true request.remainder

/-- The header block of an upgrade. -/
def upgradeHead : Bytes :=
  headerBlock "101 Switching Protocols" [("Connection", "Upgrade"), ("Upgrade", "backend-echo")]
    true

theorem plan_upgrade {m : BackendMode} {echo : Bytes} (h : (m.plan true echo).upgrade = true) :
    m.plan true echo = ⟨upgradeHead ++ echo.take maxRequest, false, false, true⟩ := by
  cases m with
  | upgrade => rfl
  | _ => cases h

/-- However much of the remainder had come with the request, the answer is
the planned one: the tunnel echoes what the plan did not have yet. -/
theorem answerHttpRequest_eq {request : HttpRequest} {tunnel : Bytes} {c : Connection Text}
    (h : tunnel ++ c.incoming = request.remainder) :
    ∃ c', answerHttpRequest lib maxRequest { request with remainder := tunnel } c
        = (.ok ((request.plan lib).closeEarly || (request.plan lib).upgrade), c')
      ∧ c'.written = c.written ++ (request.plan lib).data := by
  obtain ⟨m, -, hplan⟩ := responsePlan_mode lib (selectMode lib request.uri request.headers)
  obtain ⟨accepts, hsend⟩ := sendData_eq (m.plan true tunnel).data (m.plan true tunnel).inPieces
    { c with noted := c.noted ++ [selectMode lib request.uri request.headers] }
  rw [answerHttpRequest, bind_ok (callResponsePlan_run _ _ _ _ _), HttpRequest.plan]
  simp only [hplan]
  rw [bind_ok hsend]
  rcases eq_or_ne m .upgrade with rfl | hup
  · obtain ⟨cuts', hecho⟩ := echoTunnel_eq (maxRequest - tunnel.length) { c with
      noted := c.noted ++ [selectMode lib request.uri request.headers],
      written := c.written ++ (BackendMode.upgrade.plan true tunnel).data, accepts := accepts }
    rw [if_pos (show (BackendMode.upgrade.plan true tunnel).upgrade = true from rfl),
      bind_ok hecho]
    refine ⟨_, rfl, ?_⟩
    change c.written ++ (upgradeHead ++ tunnel.take maxRequest) ++ c.incoming.take _
      = c.written ++ (upgradeHead ++ request.remainder.take maxRequest)
    rw [← h, List.take_append, List.append_assoc, List.append_assoc]
  · have hflag : (m.plan true []).upgrade = false := by
      cases m with
      | upgrade => exact absurd rfl hup
      | _ => rfl
    rw [plan_echo hup, plan_echo hup true request.remainder, hflag,
      if_neg Bool.false_ne_true, Bool.or_false]
    exact ⟨_, rfl, rfl⟩

end Outcome

/-! ## The run as a function of the stream -/

/-- How a run ends, and what it writes. -/
def httpOutcome (lib : PyLibrary) (stream : Bytes) : Except PyException Bool × Bytes :=
  match httpRequest lib stream with
  | .error e => (.error e, [])
  | .ok request =>
      (.ok ((request.plan lib).closeEarly || (request.plan lib).upgrade), (request.plan lib).data)

theorem handleHttp_outcome (lib : PyLibrary) (stream : Bytes) (cuts accepts : List Nat) :
    ∃ c', handleHttp lib maxRequest (fresh stream cuts accepts)
        = ((httpOutcome lib stream).1, c')
      ∧ c'.written = (httpOutcome lib stream).2 := by
  rw [handleHttp_split, httpOutcome]
  cases h : httpRequest lib stream with
  | error e =>
      obtain ⟨c', hread, hwritten⟩ := @readHttpRequest_error lib stream cuts accepts e h
      exact ⟨c', bind_error hread, hwritten⟩
  | ok request =>
      obtain ⟨tunnel, rest, cuts', hread, htunnel⟩ :=
        @readHttpRequest_ok lib stream cuts accepts request h
      obtain ⟨c', hanswer, hwritten⟩ :=
        @answerHttpRequest_eq lib request tunnel (fresh rest cuts' accepts) htunnel
      exact ⟨c', (bind_ok hread).trans hanswer, hwritten⟩

example : httpOutcome demoLibrary (Bytes.ascii
      "GET / HTTP/1.1\r\nX-Backend-Mode: upgrade\r\nContent-Length: 2\r\n\r\nabtunnel")
    = (.ok true, upgradeHead ++ Bytes.ascii "tunnel") := by
  decide +kernel

section Request

variable {lib : PyLibrary} {stream : Bytes} {request : HttpRequest}

/-- The parts of a request: the head up to the first empty line, the body,
and what is left. -/
structure Cut (stream : Bytes) (request : HttpRequest) : Prop where
  split : stream = request.head ++ request.body ++ request.remainder
  head : ∃ marker, Bytes.find headEnd stream = some marker ∧ request.head.length = marker + 4
  declared : (request.body.length : Int) = declaredLength request.headers

theorem httpRequest_cut (h : httpRequest lib stream = .ok request) : Cut stream request := by
  unfold httpRequest at h
  split at h
  · cases h
  · next marker hfind =>
      obtain ⟨hfind, -⟩ := Bytes.find_of_take (by decide) hfind
      have hlen := marker_le hfind
      split at h
      · cases h
      · next uri headers _ =>
          split_ifs at h with hbad hshort
          cases h
          refine ⟨?_, ⟨marker, hfind, List.length_take_of_le hlen⟩, ?_⟩
          · rw [List.append_assoc, List.take_append_drop, List.take_append_drop]
          · rw [List.length_take_of_le (Nat.le_of_not_lt hshort)]
            exact Int.toNat_of_nonneg (show 0 ≤ declaredLength headers by omega)

/-- A request is not there before its last byte is. -/
theorem httpRequest_truncated (h : httpRequest lib stream = .ok request) {k : Nat}
    (hk : k < request.head.length + request.body.length) :
    ∃ e, httpRequest lib (stream.take k) = .error e := by
  unfold httpRequest at h
  split at h
  · cases h
  · next marker hfind =>
      obtain ⟨hfind, hmax⟩ := Bytes.find_of_take (by decide) hfind
      have hlen := marker_le hfind
      split at h
      · cases h
      · next uri headers hparse =>
          split_ifs at h with hbad hshort
          cases h
          rw [List.length_take_of_le hlen, List.length_take_of_le (Nat.le_of_not_lt hshort)] at hk
          have hmin := Bytes.find_take (by decide : headEnd ≠ []) hfind
            (min (maxHeaders + 1) k)
          rw [httpRequest, List.take_take, hmin]
          by_cases hhead : marker + headEnd.length ≤ min (maxHeaders + 1) k
          · have hhead' : marker + 4 ≤ k := Nat.le_trans hhead (Nat.min_le_right _ _)
            rw [if_pos hhead]
            simp only [List.take_take, Nat.min_eq_left hhead', hparse]
            rw [if_neg hbad, if_pos]
            · exact ⟨_, rfl⟩
            · rw [List.length_drop, List.length_take]
              omega
          · rw [if_neg hhead]
            exact ⟨_, rfl⟩

end Request

theorem parseHttpHeaders_error {lib : PyLibrary} {data : Bytes} {e : PyException}
    (h : parseHttpHeaders lib data = .error e) : ∃ message, e = .valueError message := by
  rw [parseHttpHeaders] at h
  split at h
  · split_ifs at h
    cases h
    exact ⟨_, rfl⟩
  · cases h
    exact ⟨_, rfl⟩

theorem httpRequest_error {lib : PyLibrary} {stream : Bytes} {e : PyException}
    (h : httpRequest lib stream = .error e) :
    e = .eofError ∨ ∃ message, e = .valueError message := by
  unfold httpRequest at h
  split at h
  · cases h
    split
    · exact Or.inl rfl
    · exact Or.inr ⟨_, rfl⟩
  · split at h
    · next hparse =>
        cases h
        exact Or.inr (parseHttpHeaders_error hparse)
    · split_ifs at h
      · cases h
        exact Or.inr ⟨_, rfl⟩
      · cases h
        exact Or.inl rfl

/-! ## Any two divisions -/

/-- A run that returns: how it went with the request in the stream. -/
structure NormalRun (lib : PyLibrary) (stream : Bytes) (cuts accepts : List Nat) (written : Bytes)
    (request : HttpRequest) : Prop where
  cut : Cut stream request
  parsed : parseHttpHeaders lib request.head = .ok (request.uri, request.headers)
  /-- When the handler begins to answer, the whole body is there, nothing
  is written, and what has been read beyond the body is the tunnel. -/
  received : ∃ tunnel rest cuts', tunnel ++ rest = request.remainder
    ∧ readHttpRequest lib maxRequest (fresh stream cuts accepts)
      = (.ok { request with remainder := tunnel }, fresh rest cuts' accepts)
    ∧ handleHttp lib maxRequest (fresh stream cuts accepts)
      = answerHttpRequest lib maxRequest { request with remainder := tunnel }
        (fresh rest cuts' accepts)
  /-- A stream that ends before the body does gets nothing. -/
  silent : ∀ k < request.head.length + request.body.length, ∀ cuts accepts,
    (handleHttp lib maxRequest (fresh (stream.take k) cuts accepts)).2.written = []
  written_eq : written = (request.plan lib).data
  upgraded : (request.plan lib).upgrade = true →
    written = upgradeHead ++ request.remainder.take maxRequest

theorem normalRun_of_request {lib : PyLibrary} {stream : Bytes} {cuts accepts : List Nat}
    {request : HttpRequest} (h : httpRequest lib stream = .ok request) :
    NormalRun lib stream cuts accepts (request.plan lib).data request where
  cut := httpRequest_cut h
  parsed := by
    unfold httpRequest at h
    split at h
    · cases h
    · split at h
      · cases h
      · next hparse =>
          split_ifs at h
          cases h
          exact hparse
  received := by
    obtain ⟨tunnel, rest, cuts', hread, htunnel⟩ :=
      @readHttpRequest_ok lib stream cuts accepts request h
    exact ⟨tunnel, rest, cuts', htunnel, hread, by rw [handleHttp_split, bind_ok hread]⟩
  silent := by
    intro k hk cuts accepts
    obtain ⟨e, herror⟩ := httpRequest_truncated h hk
    obtain ⟨c', hrun, hwritten⟩ := handleHttp_outcome lib (stream.take k) cuts accepts
    rw [hrun, hwritten, httpOutcome, herror]
  written_eq := rfl
  upgraded := by
    intro hup
    obtain ⟨m, -, hplan⟩ := responsePlan_mode lib (selectMode lib request.uri request.headers)
    rw [HttpRequest.plan, hplan] at hup ⊢
    rw [plan_upgrade hup]

/-- How a run on the stream may end. -/
def RunEnds (lib : PyLibrary) (stream : Bytes) (cuts accepts : List Nat) :
    Except PyException Bool × Connection Text → Prop
  | (.error e, _) => e = .eofError ∨ ∃ message, e = .valueError message
  | (.ok _, c') => ∃ request, NormalRun lib stream cuts accepts c'.written request

/-- The run of the HTTP front depends on the stream, not on its division:
any two divisions end alike and write the same. A run that returns has
taken the stream apart into the head, the body and the remainder. -/
theorem http_division (lib : PyLibrary) (stream : Bytes) :
    (∀ cuts₁ accepts₁ cuts₂ accepts₂,
      (handleHttp lib maxRequest (fresh stream cuts₁ accepts₁)).1
          = (handleHttp lib maxRequest (fresh stream cuts₂ accepts₂)).1
        ∧ (handleHttp lib maxRequest (fresh stream cuts₁ accepts₁)).2.written
          = (handleHttp lib maxRequest (fresh stream cuts₂ accepts₂)).2.written)
      ∧ ∀ cuts accepts, RunEnds lib stream cuts accepts
        (handleHttp lib maxRequest (fresh stream cuts accepts)) := by
  constructor
  · intro cuts₁ accepts₁ cuts₂ accepts₂
    obtain ⟨c₁, hrun₁, hwritten₁⟩ := handleHttp_outcome lib stream cuts₁ accepts₁
    obtain ⟨c₂, hrun₂, hwritten₂⟩ := handleHttp_outcome lib stream cuts₂ accepts₂
    rw [hrun₁, hrun₂]
    exact ⟨rfl, hwritten₁.trans hwritten₂.symm⟩
  · intro cuts accepts
    obtain ⟨c', hrun, hwritten⟩ := handleHttp_outcome lib stream cuts accepts
    rw [hrun]
    cases h : httpRequest lib stream with
    | error e =>
        rw [httpOutcome, h]
        exact httpRequest_error h
    | ok request =>
        rw [httpOutcome, h] at hwritten ⊢
        refine ⟨request, ?_⟩
        rw [hwritten]
        exact normalRun_of_request h

end LighttpdFuzz
