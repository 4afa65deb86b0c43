import LighttpdFuzz.HttpDivision
import LighttpdFuzz.ScgiFront
import LighttpdFuzz.StreamHandler

/-!
# The fronts and their streams

Each front answers the bytes it has got so far: what it has written before
a part of the stream arrives is the beginning of what it writes in the
end, however the stream is divided and whatever follows
(`fronts_follow_stream`).

The FastCGI and the SCGI front read exact amounts, so they are streaming.
The HTTP front reads blocks, but its run is a function of the stream
(`handleHttp_outcome`), and of a prefix if there is a request in it.
-/

namespace LighttpdFuzz

open Connection

/-! ## Parts of the handlers -/

theorem streaming_sendData (data : Bytes) (inPieces : Bool) :
    Streaming (sendData data inPieces) := by
  unfold sendData
  split
  · exact .sendPieces (by omega) data
  · exact .sendall data

theorem streaming_callResponsePlan (lib : PyLibrary) (mode : Text) (http : Bool) (echo : Bytes) :
    Streaming (callResponsePlan lib mode http echo) :=
  .bind (.note mode) fun _ => .pure _

/-! ## FastCGI -/

section Fastcgi

variable (lib : PyLibrary) (maxRequest : Nat)

theorem streaming_readRecord : Streaming readRecord := by
  refine .bind (.recvExact 8) fun header => ?_
  refine .ite (.throw _) ?_
  exact .bind (.recvExact _) fun content => .bind (.recvExact _) fun _ => .pure _

theorem streaming_fcgiRespond (requestId : Nat) (mode : Text) (body : Bytes) (keep : Bool) :
    Streaming (fcgiRespond lib requestId mode body keep) := by
  refine .bind (streaming_callResponsePlan lib mode false body) fun plan => ?_
  split
  · exact .throw _
  · exact .bind (streaming_sendData _ _) fun _ => .pure _

theorem streaming_handleRecord (requests : FcgiRequests) (record : FcgiRecord) :
    Streaming (handleRecord lib maxRequest requests record) := by
  unfold handleRecord
  split
  · exact .ite (.throw _) (.pure _)
  · split
    · exact .throw _
    · split
      · split
        · exact .ite (.throw _) (.pure _)
        · split
          · exact .throw _
          · exact .pure _
      · split
        · split
          · exact .ite (.throw _) (.pure _)
          · exact .bind (streaming_fcgiRespond lib _ _ _ _) fun _ => .pure _
        · exact .ite (.pure _) (.pure _)

/-- The loop, cut off after a number of records. -/
def fastcgiTurns : Nat → FcgiRequests → Front Bool
  | 0, _ => throw .eofError
  | n + 1, requests => do
      let record ← readRecord
      let (rest, done) ← handleRecord lib maxRequest requests record
      if done then return true else fastcgiTurns n rest

theorem streaming_fastcgiTurns : ∀ (n : Nat) (requests : FcgiRequests),
    Streaming (fastcgiTurns lib maxRequest n requests)
  | 0, _ => .throw _
  | n + 1, requests => by
      refine .bind streaming_readRecord fun record => ?_
      refine .bind (streaming_handleRecord lib maxRequest requests record) fun next => ?_
      exact .ite (.pure _) (streaming_fastcgiTurns n next.1)

/-- There are no more records than bytes. -/
theorem fastcgiLoop_eq_turns : ∀ (n : Nat) (requests : FcgiRequests) (c : Connection Text),
    c.incoming.length < n →
    fastcgiLoop lib maxRequest requests c = fastcgiTurns lib maxRequest n requests c
  | 0, _, _, h => absurd h (Nat.not_lt_zero _)
  | n + 1, requests, c, h => by
      rw [fastcgiLoop, fastcgiTurns]
      split
      · next e c₁ hread => rw [bind_error hread]
      · next record c₁ hread =>
          have hshorter := length_lt_of_readRecord hread
          have hincoming := @handleRecord_incoming lib maxRequest requests record c₁
          rw [bind_ok hread]
          split
          · next e c₂ hhandle => rw [bind_error hhandle]
          · next c₂ hhandle =>
              rw [bind_ok hhandle]
              rfl
          · next rest c₂ hhandle =>
              rw [hhandle] at hincoming
              rw [bind_ok hhandle]
              exact fastcgiLoop_eq_turns n rest c₂ (by rw [hincoming]; omega)

theorem streaming_handleFastcgi : Streaming (handleFastcgi lib maxRequest) where
  grows c := by
    rw [handleFastcgi, fastcgiLoop_eq_turns lib maxRequest _ _ c (Nat.lt_succ_self _)]
    exact (streaming_fastcgiTurns lib maxRequest _ _).grows c
  follows {more c c'} hextends := by
    have hlen : c.incoming.length ≤ c'.incoming.length := by
      rw [hextends.incoming, List.length_append]
      omega
    rw [handleFastcgi, fastcgiLoop_eq_turns lib maxRequest (c'.incoming.length + 1) _ c (by omega),
      fastcgiLoop_eq_turns lib maxRequest (c'.incoming.length + 1) _ c' (by omega)]
    exact (streaming_fastcgiTurns lib maxRequest _ _).follows hextends

end Fastcgi

/-! ## SCGI -/

theorem streaming_scgiDigits : ∀ (n : Nat) (digits : Bytes), 10 - digits.length = n →
    Streaming (scgiDigits digits) := by
  intro n
  induction n using Nat.strongRecOn with
  | ind n ih =>
      intro digits hn
      rw [scgiDigits]
      split
      · next hlen =>
          refine .bind (.recvExact 1) fun char => .ite (.pure _) ?_
          split
          · exact .throw _
          · next hdigit =>
              have hpos := List.length_pos_iff.mpr (not_not.mp hdigit).1
              exact ih (10 - (digits ++ char).length)
                (by rw [List.length_append]; omega) _ rfl
      · exact .throw _

theorem streaming_handleScgi (lib : PyLibrary) (maxRequest : Nat) :
    Streaming (handleScgi lib maxRequest) := by
  refine .bind (streaming_scgiDigits _ [] rfl) fun digits => .ite (.throw _) ?_
  split
  · exact .throw _
  · refine .ite (.throw _) (.bind (.recvExact _) fun block => ?_)
    split
    · exact .throw _
    · refine .bind (.recvExact 1) fun comma => .ite (.throw _) ?_
      split
      · exact .throw _
      · refine .ite (.throw _) (.bind (.recvExact _) fun body => ?_)
        refine .bind (streaming_callResponsePlan lib _ _ _) fun plan => ?_
        exact .bind (streaming_sendData _ _) fun _ => .pure _

/-! ## HTTP -/

section Http

variable {lib : PyLibrary} {stream : Bytes}

theorem find_headEnd_append {marker : Nat} (hfind : Bytes.find headEnd stream = some marker)
    (hmax : marker + headEnd.length ≤ maxHeaders + 1) (more : Bytes) :
    Bytes.find headEnd ((stream ++ more).take (maxHeaders + 1)) = some marker := by
  have hstream : Bytes.find headEnd ((stream ++ more).take stream.length) = some marker := by
    rw [List.take_left]
    exact hfind
  rw [Bytes.find_take (by decide) (Bytes.find_of_take (by decide) hstream).1, if_pos hmax]

/-- What is behind a request that is there is left over. -/
theorem httpRequest_append_ok {request : HttpRequest} (h : httpRequest lib stream = .ok request)
    (more : Bytes) : httpRequest lib (stream ++ more)
      = .ok { request with remainder := request.remainder ++ more } := by
  unfold httpRequest at h
  split at h
  · cases h
  · next marker hfind =>
      obtain ⟨hfind, hmax⟩ := Bytes.find_of_take (by decide) hfind
      have hlen := marker_le hfind
      have hlonger := find_headEnd_append hfind hmax more
      split at h
      · cases h
      · next uri headers hparse =>
          split_ifs at h with hbad hshort
          cases h
          have hhead : (stream ++ more).take (marker + 4) = stream.take (marker + 4) :=
            List.take_append_of_le_length hlen
          have hrest : (stream ++ more).drop (marker + 4) = stream.drop (marker + 4) ++ more :=
            List.drop_append_of_le_length hlen
          have hbody := Nat.le_of_not_lt hshort
          unfold httpRequest
          simp only [hlonger, hhead, hrest, hparse]
          rw [if_neg hbad, if_neg (by rw [List.length_append]; omega),
            List.take_append_of_le_length hbody, List.drop_append_of_le_length hbody]

/-- A stream in which a request is refused is refused with more behind it. -/
theorem httpRequest_append_error {e : PyException} (h : httpRequest lib stream = .error e)
    (he : e ≠ .eofError) (more : Bytes) : httpRequest lib (stream ++ more) = .error e := by
  unfold httpRequest at h
  split at h
  · next hfind =>
      split at h
      · cases h
        exact absurd rfl he
      · next hlen =>
          have htake : (stream ++ more).take (maxHeaders + 1) = stream.take (maxHeaders + 1) :=
            List.take_append_of_le_length (by omega)
          unfold httpRequest
          rw [htake, hfind]
          simp only
          rw [if_neg (by rw [List.length_append]; omega)]
          exact h
  · next marker hfind =>
      obtain ⟨hfind, hmax⟩ := Bytes.find_of_take (by decide) hfind
      have hlen := marker_le hfind
      have hlonger := find_headEnd_append hfind hmax more
      have hhead : (stream ++ more).take (marker + 4) = stream.take (marker + 4) :=
        List.take_append_of_le_length hlen
      split at h
      · next hparse =>
          cases h
          unfold httpRequest
          simp only [hlonger, hhead, hparse]
      · next uri headers hparse =>
          unfold httpRequest
          simp only [hlonger, hhead, hparse]
          split_ifs at h with hbad hshort
          · rw [if_pos hbad]
            exact h
          · cases h
            exact absurd rfl he

/-- More of the tunnel adds to the answer. -/
theorem plan_isPrefixOf (request : HttpRequest) (more : Bytes) :
    (request.plan lib).data
      <+: (({ request with remainder := request.remainder ++ more } : HttpRequest).plan lib).data
    ∧ ((request.plan lib).closeEarly || (request.plan lib).upgrade)
      = ((({ request with remainder := request.remainder ++ more } : HttpRequest).plan lib).closeEarly
        || (({ request with remainder := request.remainder ++ more } : HttpRequest).plan lib).upgrade) := by
  obtain ⟨m, -, hplan⟩ := responsePlan_mode lib (selectMode lib request.uri request.headers)
  simp only [HttpRequest.plan, hplan]
  rcases eq_or_ne m .upgrade with rfl | hm
  · refine ⟨?_, rfl⟩
    rw [plan_upgrade rfl, plan_upgrade rfl, List.prefix_append_right_inj, List.take_append]
    exact List.prefix_append _ _
  · rw [plan_echo hm, plan_echo hm true (request.remainder ++ more)]
    exact ⟨List.prefix_refl _, rfl⟩

/-- The HTTP front on a stream and on a continuation of it. -/
theorem httpOutcome_append (lib : PyLibrary) (stream more : Bytes) :
    (httpOutcome lib stream).2 <+: (httpOutcome lib (stream ++ more)).2
      ∧ ((httpOutcome lib stream).1 = (httpOutcome lib (stream ++ more)).1
        ∨ (httpOutcome lib stream).1 = .error .eofError) := by
  cases h : httpRequest lib stream with
  | error e =>
      have houtcome : httpOutcome lib stream = (.error e, []) := by rw [httpOutcome, h]
      rw [houtcome]
      refine ⟨List.nil_prefix, ?_⟩
      by_cases he : e = .eofError
      · exact .inr (by rw [he])
      · refine .inl ?_
        rw [httpOutcome, httpRequest_append_error h he]
  | ok request =>
      have hstart := @plan_isPrefixOf lib request more
      simp only [httpOutcome, h, httpRequest_append_ok h more]
      exact ⟨hstart.1, .inl (congrArg Except.ok hstart.2)⟩

end Http

/-! ## All fronts -/

inductive FrontProtocol where
  | http | fastcgi | scgi
  deriving DecidableEq, Repr

/-- `_HANDLERS` -/
def FrontProtocol.handler (lib : PyLibrary) : FrontProtocol → Front Bool
  | http => handleHttp lib maxRequest
  | fastcgi => handleFastcgi lib maxRequest
  | scgi => handleScgi lib maxRequest

/-- However the stream is divided and whatever follows it, a front has
written a beginning of what it writes in the end, and unless the stream
has ended too early for it, it ends in the same way. With nothing more to
follow, all divisions give the same output. -/
theorem fronts_follow_stream (lib : PyLibrary) (protocol : FrontProtocol) (stream more : Bytes)
    (cuts accepts cuts' accepts' : List Nat) :
    ((protocol.handler lib) (fresh stream cuts accepts)).2.written
        <+: ((protocol.handler lib) (fresh (stream ++ more) cuts' accepts')).2.written
    ∧ (((protocol.handler lib) (fresh stream cuts accepts)).1
        = ((protocol.handler lib) (fresh (stream ++ more) cuts' accepts')).1
      ∨ more ≠ [] ∧ ((protocol.handler lib) (fresh stream cuts accepts)).1 = .error .eofError)
    ∧ (more = [] → ((protocol.handler lib) (fresh stream cuts accepts)).2.written
        = ((protocol.handler lib) (fresh (stream ++ more) cuts' accepts')).2.written) := by
  have hstreaming : ∀ {h : Front Bool}, Streaming h →
      (h (fresh stream cuts accepts)).2.written
          <+: (h (fresh (stream ++ more) cuts' accepts')).2.written
      ∧ ((h (fresh stream cuts accepts)).1 = (h (fresh (stream ++ more) cuts' accepts')).1
        ∨ more ≠ [] ∧ (h (fresh stream cuts accepts)).1 = .error .eofError)
      ∧ (more = [] → (h (fresh stream cuts accepts)).2.written
          = (h (fresh (stream ++ more) cuts' accepts')).2.written) := by
    intro h hh
    obtain ⟨hstart, hsame | hshort⟩ := hh.run stream more cuts accepts cuts' accepts'
    · exact ⟨hstart, .inl hsame.1, fun _ => hsame.2⟩
    · exact ⟨hstart, .inr hshort, fun hnil => absurd hnil hshort.1⟩
  cases protocol with
  | http =>
      obtain ⟨c₁, hrun, hwritten⟩ := handleHttp_outcome lib stream cuts accepts
      obtain ⟨c₂, hrun', hwritten'⟩ := handleHttp_outcome lib (stream ++ more) cuts' accepts'
      obtain ⟨hstart, hresult⟩ := httpOutcome_append lib stream more
      simp only [FrontProtocol.handler, hrun, hrun', hwritten, hwritten']
      refine ⟨hstart, ?_, fun hnil => by rw [hnil, List.append_nil]⟩
      by_cases hmore : more = []
      · exact .inl (by rw [hmore, List.append_nil])
      · exact hresult.imp_right fun heof => ⟨hmore, heof⟩
  | fastcgi => exact hstreaming (streaming_handleFastcgi lib maxRequest)
  | scgi => exact hstreaming (streaming_handleScgi lib maxRequest)

end LighttpdFuzz
