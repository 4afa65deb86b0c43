import LighttpdFuzz.Transmission

/-!
# Replaying a fuzzer input

`send-test-case.py --fuzzer-input` is meant to repeat what the harness
did with an input. Both programs are run here with all writes succeeding
and the same answers to the waits between packets, and the byte strings
they hand to the socket are compared.

They differ in one place: when a wait gets no bytes, the harness gives
the input up (`sendMultipacketData` returns), while the replay tool goes
on to the next packet. `replay_same_segments_iff` says that this is the
only difference in what goes over the connection.
-/

namespace LighttpdFuzz

open Bytes

/-- What happens during a wait for a response: the server sends bytes,
sends nothing before the timeout, or closes its side. -/
inductive WaitOutcome where
  | bytes (first : UInt8) (rest : Bytes)
  | timeout
  | closed
  deriving DecidableEq, Repr

/-! ## The replay tool -/

/-- Which packets `main` is asked to send. -/
inductive ReplayMode where
  | raw
  | packet (number : Int)
  | fuzzerInput
  deriving DecidableEq, Repr

/-- How `main` can end before it opens the connection. -/
inductive ReplayError where
  | parserError (message : String)
  | exception (e : PyException)
  deriving DecidableEq, Repr

/-- `receive_some(sock, timeout)`. -/
def receiveSome : WaitOutcome → Bytes
  | .bytes first rest => first :: rest
  | .timeout => []
  | .closed => []

/-- The control byte as `main` uses it: zero for a raw request. -/
def replayFlags (mode : ReplayMode) (data : Bytes) : UInt8 :=
  match mode, data with
  | .raw, _ => 0
  | _, [] => 0
  | _, flags :: _ => flags

/-- The packets `main` sends. -/
def replayPackets (mode : ReplayMode) (data : Bytes) : Except ReplayError (List Bytes) :=
  match mode with
  | .raw => .ok [data]
  | .fuzzerInput =>
      match fuzzerPackets data with
      | .error e => .error (.exception e)
      | .ok packets => .ok packets
  | .packet number =>
      if number < 1 then .error (.parserError "--packet must be at least 1")
      else
        match fuzzerPackets data with
        | .error e => .error (.exception e)
        | .ok packets =>
            match packets[number.toNat - 1]? with
            | some packet => .ok [packet]
            | none =>
                .error (.exception (.valueError
                  ("fuzzer input contains only " ++ toString packets.length
                    ++ " packets")))

/-- The `sendall` calls for one packet. -/
def packetWrites (flags : UInt8) (packet : Bytes) : List Bytes :=
  if flags &&& 0x01 ≠ 0 ∧ packet.length > 1 then
    [packet.take (packet.length / 2), packet.drop (packet.length / 2)]
  else [packet]

/-- The sending loop of `main`: the `sendall` calls made and the responses
printed on the way. A wait beyond the end of `waits` times out. -/
def replayLoop (flags : UInt8) : List Bytes → List WaitOutcome → List Bytes × List Bytes
  | [], _ => ([], [])
  | packet :: packets, waits =>
      if packets ≠ [] ∧ flags &&& 0x04 ≠ 0 then
        let rest := replayLoop flags packets waits.tail
        (packetWrites flags packet ++ rest.1,
          receiveSome (waits.headD .timeout) :: rest.2)
      else
        let rest := replayLoop flags packets waits
        (packetWrites flags packet ++ rest.1, rest.2)

/-- The byte strings `main` hands to `sendall`, in order. -/
def replayWrites (mode : ReplayMode) (data : Bytes) (waits : List WaitOutcome) :
    List Bytes :=
  match replayPackets mode data with
  | .error _ => []
  | .ok packets => (replayLoop (replayFlags mode data) packets waits).1

/-! ## The harness under the same waits -/

/-- The `poll` result of a wait. -/
def WaitOutcome.poll : WaitOutcome → PollResult
  | .bytes _ _ => .ready true false
  | .timeout => .timeout
  | .closed => .ready true true

/-- The `recv` result of a wait, when `poll` reported something. -/
def WaitOutcome.recv? : WaitOutcome → Option RecvResult
  | .bytes _ rest => some (.count (rest.length + 1))
  | .timeout => none
  | .closed => some (.count 0)

/-- A kernel on which every write succeeds in full and the waits go as
given. -/
def kernelOf (waits : List WaitOutcome) (log : List CEvent) : Kernel :=
  ⟨[], waits.map WaitOutcome.poll, waits.filterMap WaitOutcome.recv?, log⟩

/-- The byte strings handed to `send`, in order. -/
def sentSegments (payload : Bytes) (log : List CEvent) : List Bytes :=
  log.filterMap fun
    | .send start len => some (payload.slice start (start + len))
    | _ => none

/-- The byte strings `fuzzServer` hands to `send` for an input. -/
def harnessWrites (data : Bytes) (waits : List WaitOutcome) : List Bytes :=
  sentSegments (data.drop 1) (fuzzServer true data (kernelOf waits [])).log

/-- The segments that go over the connection: a write of no bytes is none. -/
def segments (writes : List Bytes) : List Bytes := writes.filter (· ≠ [])

/-! ## The harness, packet by packet -/

@[simp] theorem sentSegments_append (payload : Bytes) (xs ys : List CEvent) :
    sentSegments payload (xs ++ ys)
      = sentSegments payload xs ++ sentSegments payload ys := by
  simp [sentSegments]

/-- What `sendAll` does when the socket takes everything at once. -/
def sendAllEvents (start size : Nat) : List CEvent :=
  if 0 < size then [.send start size, .accepted start size] else []

/-- With no result of `send` prescribed, one call takes everything. -/
theorem sendAllLoop_nil (start size : Nat) (log : List CEvent) :
    sendAllLoop start size [] 0 log = (0, [], log ++ sendAllEvents start size) := by
  unfold sendAllLoop sendAllEvents
  split <;> simp

theorem sendAll_kernelOf (start size : Nat) (waits : List WaitOutcome)
    (log : List CEvent) :
    sendAll start size (kernelOf waits log)
      = (0, kernelOf waits (log ++ sendAllEvents start size)) := by
  have hloop : sendAllLoop start size (kernelOf waits log).sends 0 (kernelOf waits log).log
      = (0, [], log ++ sendAllEvents start size) := sendAllLoop_nil start size log
  rw [sendAll, hloop]
  rfl

theorem segments_append (xs ys : List Bytes) :
    segments (xs ++ ys) = segments xs ++ segments ys := by
  simp [segments]

/-- The one `send` of a whole range is the segment of its bytes. -/
theorem sentSegments_sendAll {payload p : Bytes} {start : Nat}
    (hslice : payload.slice start (start + p.length) = p) :
    sentSegments payload (sendAllEvents start p.length) = segments [p] := by
  cases p with
  | nil => rfl
  | cons b p =>
      rw [List.length_cons] at hslice ⊢
      simp [sendAllEvents, sentSegments, segments, hslice]

/-- With all writes succeeding, `sendPacket` succeeds and makes the
segments that the replay tool makes of the packet at `start`. -/
theorem sendPacket_kernelOf {payload p : Bytes} {start : Nat} (flags : UInt8)
    (hslice : payload.slice start (start + p.length) = p)
    (waits : List WaitOutcome) (log : List CEvent) :
    ∃ events,
      sendPacket start p.length (flags &&& fuzzFragmentSendFlag != 0)
          (kernelOf waits log) = (0, kernelOf waits (log ++ events))
        ∧ sentSegments payload events = segments (packetWrites flags p) := by
  rw [show fuzzFragmentSendFlag = 0x01 from rfl]
  by_cases hsplit : flags &&& 0x01 ≠ 0 ∧ p.length > 1
  · have hlen₁ : (p.take (p.length / 2)).length = p.length / 2 := by
      rw [List.length_take]; omega
    have hlen₂ : (p.drop (p.length / 2)).length = p.length - p.length / 2 :=
      List.length_drop ..
    have hfirst : payload.slice start (start + (p.take (p.length / 2)).length)
        = p.take (p.length / 2) := by
      rw [hlen₁]
      exact slice_take hslice (by omega)
    have hsecond : payload.slice (start + p.length / 2)
        (start + p.length / 2 + (p.drop (p.length / 2)).length)
        = p.drop (p.length / 2) := by
      rw [hlen₂, show start + p.length / 2 + (p.length - p.length / 2)
        = start + p.length by omega]
      exact slice_drop hslice _
    refine ⟨sendAllEvents start (p.length / 2)
      ++ sendAllEvents (start + p.length / 2) (p.length - p.length / 2), ?_, ?_⟩
    · rw [sendPacket, if_neg (by simp [hsplit.1]; omega)]
      simp only [sendAll_kernelOf]
      rw [if_neg (by decide), List.append_assoc]
    · have hseg₁ := sentSegments_sendAll hfirst
      have hseg₂ := sentSegments_sendAll hsecond
      rw [hlen₁] at hseg₁
      rw [hlen₂] at hseg₂
      rw [packetWrites, if_pos hsplit, sentSegments_append, hseg₁, hseg₂,
        ← segments_append, List.singleton_append]
  · refine ⟨sendAllEvents start p.length, ?_, ?_⟩
    · rw [sendPacket, if_pos, sendAll_kernelOf]
      by_cases hflag : flags &&& 0x01 = 0
      · exact .inl (by simp [hflag])
      · have := not_and.mp hsplit hflag
        exact .inr (by omega)
    · rw [packetWrites, if_neg hsplit, sentSegments_sendAll hslice]

@[simp] theorem kernelOf_note (waits : List WaitOutcome) (log events : List CEvent) :
    (kernelOf waits log).note events = kernelOf waits (log ++ events) := rfl

/-- A wait succeeds exactly when bytes arrive, and then uses up one outcome. -/
theorem readSomeResponse_kernelOf (waits : List WaitOutcome) (log : List CEvent) :
    (∃ first rest, waits.headD .timeout = .bytes first rest
        ∧ readSomeResponse (kernelOf waits log) = (0, kernelOf waits.tail log))
      ∨ ((∀ first rest, waits.headD .timeout ≠ .bytes first rest)
        ∧ (readSomeResponse (kernelOf waits log)).1 = -1
        ∧ (readSomeResponse (kernelOf waits log)).2.log = log) := by
  cases waits with
  | nil => exact .inr ⟨by simp, rfl, rfl⟩
  | cons outcome waits =>
      cases outcome with
      | bytes first rest => exact .inl ⟨first, rest, rfl, rfl⟩
      | timeout => exact .inr ⟨by simp, rfl, rfl⟩
      | closed => exact .inr ⟨by simp, rfl, rfl⟩

/-- The segments of the packets, up to the first wait without bytes. -/
def harnessSegments (flags : UInt8) : List Bytes → List WaitOutcome → List Bytes
  | [], _ => []
  | p :: packets, waits =>
      segments (packetWrites flags p) ++
        if packets ≠ [] ∧ flags &&& 0x04 ≠ 0 then
          match waits.headD .timeout with
          | .bytes _ _ => harnessSegments flags packets waits.tail
          | _ => []
        else harnessSegments flags packets waits

/-- From an offset where packets begin, the harness makes their segments
up to the first wait without bytes. -/
theorem sendMultipacketLoop_kernelOf {data : Bytes} (flags : UInt8) :
    ∀ {packets : List Bytes} {offset : Nat} (waits : List WaitOutcome) (log : List CEvent),
      packetFraming.readAll (data.drop offset) = some packets →
      sentSegments data
          (sendMultipacketLoop data data.length (flags &&& fuzzWaitForResponseFlag != 0)
            (flags &&& fuzzFragmentSendFlag != 0) offset (kernelOf waits log)).2.log
        = sentSegments data log ++ harnessSegments flags packets waits
  | [], offset, waits, log, h => by
      have hend : ¬ offset < data.length := fun hlt => by
        obtain ⟨p, rest, hcons, -⟩ := packet_at_offset hlt h
        cases hcons
      rw [sendMultipacketLoop, if_neg hend, harnessSegments, List.append_nil]
      rfl
  | p :: packets, offset, waits, log, h => by
      have hlt : offset < data.length := by
        by_contra hend
        rw [readAll_drop_end hend] at h; cases h
      obtain ⟨q, rest, hcons, hsize, hin, hslice, hrest⟩ := packet_at_offset hlt h
      obtain ⟨rfl, rfl⟩ := List.cons.inj hcons
      -- more input remains exactly when more packets do
      have hmore : offset + 2 + p.length < data.length ↔ packets ≠ [] := by
        constructor
        · rintro hlt' rfl
          obtain ⟨_, _, hcons', -⟩ := packet_at_offset hlt' hrest
          cases hcons'
        · intro hne
          by_contra hend
          rw [readAll_drop_end hend] at hrest
          exact hne (Option.some.inj hrest).symm
      obtain ⟨events, hsend, hseg⟩ := sendPacket_kernelOf flags hslice waits
        (log ++ [.load offset, .load (offset + 1), .setOffset (offset + 2)])
      -- the record after the packet went out and `offset` moved on
      let log' := log ++ [.load offset, .load (offset + 1), .setOffset (offset + 2)]
        ++ events ++ [.setOffset (offset + 2 + p.length)]
      have hlog' : sentSegments data log'
          = sentSegments data log ++ segments (packetWrites flags p) := by
        simp only [log', sentSegments_append, hseg]
        simp [sentSegments]
      rw [sendMultipacketLoop, if_pos hlt, hsize]
      simp only [kernelOf_note, hsend]
      rw [if_neg (by decide), harnessSegments]
      have hcond : (offset + 2 + p.length < data.length
          ∧ (flags &&& fuzzWaitForResponseFlag != 0) = true)
          ↔ packets ≠ [] ∧ flags &&& 0x04 ≠ 0 := by
        rw [hmore, bne_iff_ne, fuzzWaitForResponseFlag]
      by_cases hwait : packets ≠ [] ∧ flags &&& 0x04 ≠ 0
      · rw [if_pos (hcond.mpr hwait), if_pos hwait]
        rcases readSomeResponse_kernelOf waits log' with
          ⟨first, tail, hhead, hread⟩ | ⟨hhead, hfail, hlog⟩
        · rw [hhead, show readSomeResponse (kernelOf waits log') = _ from hread,
            if_neg (show ¬ (0 : Int) = -1 by decide),
            sendMultipacketLoop_kernelOf flags waits.tail log' hrest,
            hlog', List.append_assoc]
        · rw [if_pos hfail, hlog, hlog']
          cases houtcome : waits.headD .timeout with
          | bytes first tail => exact absurd houtcome (hhead first tail)
          | timeout => simp
          | closed => simp
      · rw [if_neg (mt hcond.mp hwait), if_neg hwait,
          sendMultipacketLoop_kernelOf flags waits log' hrest, hlog', List.append_assoc]

/-- The harness drops exactly the inputs the replay tool rejects. -/
theorem acceptsInput_iff (data : Bytes) :
    acceptsInput data = true ↔ ∃ packets, fuzzerPackets data = .ok packets := by
  cases data with
  | nil => simp [acceptsInput, fuzzerPackets]
  | cons flags payload =>
      by_cases hmulti : flags &&& 0x02 = 0
      · simp [acceptsInput, fuzzerPackets, fuzzMultipacketFlag, hmulti]
      · simp only [fuzzerPackets_eq_ok_iff hmulti]
        rw [← fuzzValidMultipacketData_iff]
        simp [acceptsInput, fuzzMultipacketFlag, hmulti]

/-- What the harness sends: the segments of the input's packets, up to the
first wait without bytes. -/
theorem harnessWrites_eq {flags : UInt8} {payload : Bytes} {packets : List Bytes}
    (h : fuzzerPackets (flags :: payload) = .ok packets) (waits : List WaitOutcome) :
    harnessWrites (flags :: payload) waits = harnessSegments flags packets waits := by
  have haccepts : acceptsInput (flags :: payload) = true :=
    (acceptsInput_iff _).mpr ⟨packets, h⟩
  have hlog : ∀ sent : Int × Kernel,
      (if sent.1 = 0 then (readSomeResponse sent.2).2 else sent.2).log = sent.2.log := by
    intro sent
    split
    · exact readSomeResponse_log sent.2
    · rfl
  rw [harnessWrites, fuzzServer, haccepts]
  simp only [Bool.not_true, Bool.or_false, Bool.false_eq_true, if_false, hlog,
    List.headD_cons, List.drop_one, List.tail_cons]
  by_cases hmulti : flags &&& 0x02 = 0
  · rw [fuzzerPackets, if_pos hmulti] at h
    obtain rfl := Except.ok.inj h
    have hslice : payload.slice 0 (0 + payload.length) = payload := by simp [slice]
    obtain ⟨events, hsend, hseg⟩ := sendPacket_kernelOf flags hslice waits []
    rw [if_neg (by simp [fuzzMultipacketFlag, hmulti]), hsend]
    show sentSegments payload ([] ++ events) = _
    rw [List.nil_append, hseg]
    simp [harnessSegments]
  · have hread := (encodesPayload_iff.mp ((fuzzerPackets_eq_ok_iff hmulti).mp h)).1
    rw [if_pos (by simp [fuzzMultipacketFlag, hmulti])]
    exact sendMultipacketLoop_kernelOf flags waits [] hread

/-! ## Where the two runs part -/

/-- The input asks for responses and every wait between two of its packets
gets some bytes; or it does not ask for responses. -/
def WaitsAnswered (flags : UInt8) (packets : List Bytes) (waits : List WaitOutcome) :
    Prop :=
  flags &&& 0x04 ≠ 0 →
    ∀ i, i + 1 < packets.length → ∃ first rest, waits[i]? = some (.bytes first rest)

theorem waitsAnswered_cons_cons {flags : UInt8} (hwait : flags &&& 0x04 ≠ 0)
    {p q : Bytes} {packets : List Bytes} {waits : List WaitOutcome} :
    WaitsAnswered flags (p :: q :: packets) waits ↔
      (∃ first rest, waits.headD .timeout = .bytes first rest)
        ∧ WaitsAnswered flags (q :: packets) waits.tail := by
  constructor
  · intro h
    refine ⟨?_, fun hflag i hi => ?_⟩
    · obtain ⟨first, rest, h0⟩ := h hwait 0 (by simp)
      cases waits with
      | nil => simp at h0
      | cons outcome waits => exact ⟨first, rest, by simpa using h0⟩
    · obtain ⟨first, rest, hi'⟩ := h hwait (i + 1) (by simpa using hi)
      exact ⟨first, rest, by rwa [List.getElem?_tail]⟩
  · rintro ⟨⟨first, rest, hhead⟩, htail⟩ hflag i hi
    cases waits with
    | nil => simp at hhead
    | cons outcome waits =>
        cases i with
        | zero => exact ⟨first, rest, by simpa using hhead⟩
        | succ i => exact htail hflag i (by simpa using hi)

/-- A nonempty packet makes at least one segment. -/
theorem segments_packetWrites_ne_nil {flags : UInt8} {p : Bytes} (hp : p ≠ []) :
    segments (packetWrites flags p) ≠ [] := by
  unfold packetWrites
  split
  · next h =>
      have hhead : p.take (p.length / 2) ≠ [] := by
        intro hnil
        have := congrArg List.length hnil
        rw [List.length_take, List.length_nil] at this
        omega
      simp [segments, hhead]
  · simp [segments, hp]

theorem segments_replayLoop_ne_nil {flags : UInt8} {q : Bytes} (hq : q ≠ [])
    (packets : List Bytes) (waits : List WaitOutcome) :
    segments (replayLoop flags (q :: packets) waits).1 ≠ [] := by
  unfold replayLoop
  split <;>
    · rw [segments_append]
      exact List.append_ne_nil_of_left_ne_nil (segments_packetWrites_ne_nil hq) _

/-- The harness sends a prefix of what the replay tool sends. It is all of
it exactly when every wait is answered: a packet whose wait gets no bytes
is the last the harness sends, and not the last the replay tool sends. -/
theorem segments_replayLoop (flags : UInt8) : ∀ (packets : List Bytes)
    (waits : List WaitOutcome), (∀ p ∈ packets.tail, p ≠ []) →
      harnessSegments flags packets waits <+: segments (replayLoop flags packets waits).1
        ∧ (segments (replayLoop flags packets waits).1 = harnessSegments flags packets waits
            ↔ WaitsAnswered flags packets waits)
  | [], waits, _ => ⟨List.prefix_rfl, fun _ _ i hi => by simp at hi, fun _ => rfl⟩
  | [p], waits, _ => by
      have hrun : segments (replayLoop flags [p] waits).1
          = harnessSegments flags [p] waits := by
        simp [replayLoop, harnessSegments]
      rw [hrun]
      exact ⟨List.prefix_rfl, fun _ _ i hi => by simp at hi, fun _ => rfl⟩
  | p :: q :: packets, waits, hne => by
      have hq : q ≠ [] := hne q (by simp)
      have htail : ∀ p ∈ (q :: packets).tail, p ≠ [] :=
        fun p hp => hne p (List.mem_cons_of_mem _ hp)
      rw [replayLoop, harnessSegments]
      by_cases hwait : flags &&& 0x04 ≠ 0
      · obtain ⟨hpre, hiff⟩ := segments_replayLoop flags (q :: packets) waits.tail htail
        rw [if_pos ⟨by simp, hwait⟩, if_pos ⟨by simp, hwait⟩, waitsAnswered_cons_cons hwait]
        simp only [segments_append]
        cases houtcome : waits.headD .timeout with
        | bytes first rest =>
            refine ⟨(List.prefix_append_right_inj _).mpr hpre, ?_⟩
            rw [List.append_cancel_left_eq, hiff]
            exact ⟨fun h => ⟨⟨first, rest, rfl⟩, h⟩, And.right⟩
        | timeout =>
            refine ⟨by simp, fun h => ?_, fun h => by simp at h⟩
            rw [List.append_cancel_left_eq] at h
            exact absurd h (segments_replayLoop_ne_nil hq packets waits.tail)
        | closed =>
            refine ⟨by simp, fun h => ?_, fun h => by simp at h⟩
            rw [List.append_cancel_left_eq] at h
            exact absurd h (segments_replayLoop_ne_nil hq packets waits.tail)
      · obtain ⟨hpre, hiff⟩ := segments_replayLoop flags (q :: packets) waits htail
        rw [if_neg (fun h => hwait h.2), if_neg (fun h => hwait h.2)]
        simp only [segments_append]
        refine ⟨(List.prefix_append_right_inj _).mpr hpre, ?_⟩
        rw [List.append_cancel_left_eq, hiff]
        exact ⟨fun _ h => absurd h hwait, fun _ h => absurd h hwait⟩

/-- With no empty packet there is no empty write. -/
theorem segments_eq_of_ne_nil (flags : UInt8) : ∀ (packets : List Bytes)
    (waits : List WaitOutcome), (∀ p ∈ packets, p ≠ []) →
      segments (replayLoop flags packets waits).1 = (replayLoop flags packets waits).1
  | [], _, _ => rfl
  | p :: packets, waits, hne => by
      obtain ⟨hp, hrest⟩ := List.forall_mem_cons.mp hne
      have hwrites : segments (packetWrites flags p) = packetWrites flags p := by
        unfold packetWrites
        split
        · next h =>
            have hlen := List.length_drop (i := p.length / 2) (l := p)
            have hhead : p.take (p.length / 2) ≠ [] := by
              rw [← List.length_pos_iff, List.length_take]; omega
            have hlast : p.drop (p.length / 2) ≠ [] := by
              rw [← List.length_pos_iff, List.length_drop]; omega
            simp [segments, hhead, hlast]
        · simp [segments, hp]
      unfold replayLoop
      split <;>
        · rw [segments_append, hwrites, segments_eq_of_ne_nil flags packets _ hrest]

/-- Only the lone packet of an input without framing can be empty. -/
theorem ne_nil_of_mem_fuzzerPackets {flags : UInt8} {payload : Bytes}
    {packets : List Bytes} (h : fuzzerPackets (flags :: payload) = .ok packets) :
    packets = [payload] ∧ flags &&& 0x02 = 0
      ∨ flags &&& 0x02 ≠ 0 ∧ ∀ p ∈ packets, p ≠ [] := by
  by_cases hmulti : flags &&& 0x02 = 0
  · rw [fuzzerPackets, if_pos hmulti] at h
    exact .inl ⟨(Except.ok.inj h).symm, hmulti⟩
  · have hsizes := ((fuzzerPackets_eq_ok_iff hmulti).mp h).sizes
    exact .inr ⟨hmulti, fun p hp => List.ne_nil_of_length_pos (hsizes p hp).1⟩

/-- An input that is only a control byte without the framing bit: its one
packet is empty, and the replay tool calls `sendall` on no bytes. -/
def EmptyRequest (data : Bytes) : Prop := ∃ flags, data = [flags] ∧ flags &&& 0x02 = 0

/-- Writes and segments of the replay tool differ on empty requests only. -/
theorem replayWrites_eq_segments_iff {flags : UInt8} {payload : Bytes}
    {packets : List Bytes} (h : fuzzerPackets (flags :: payload) = .ok packets)
    (waits : List WaitOutcome) :
    segments (replayLoop flags packets waits).1 = (replayLoop flags packets waits).1
      ↔ ¬ EmptyRequest (flags :: payload) := by
  rcases ne_nil_of_mem_fuzzerPackets h with ⟨rfl, hflag⟩ | ⟨hflag, hne⟩
  · rcases eq_or_ne payload [] with rfl | hnil
    · refine ⟨fun heq => ?_, fun hreq => absurd ⟨flags, rfl, hflag⟩ hreq⟩
      simp [replayLoop, packetWrites, segments] at heq
    · refine ⟨fun _ => ?_, fun _ => segments_eq_of_ne_nil flags _ waits (by simpa using hnil)⟩
      rintro ⟨flags', hdata, -⟩
      exact hnil (List.cons.inj hdata).2
  · refine ⟨fun _ => ?_, fun _ => segments_eq_of_ne_nil flags _ waits hne⟩
    rintro ⟨flags', hdata, hflag'⟩
    rw [(List.cons.inj hdata).1] at hflag
    exact hflag hflag'

theorem segments_segments (writes : List Bytes) :
    segments (segments writes) = segments writes := by
  simp [segments]

theorem segments_harnessSegments (flags : UInt8) : ∀ (packets : List Bytes)
    (waits : List WaitOutcome),
      segments (harnessSegments flags packets waits) = harnessSegments flags packets waits
  | [], _ => rfl
  | p :: packets, waits => by
      rw [harnessSegments, segments_append, segments_segments]
      congr 1
      split
      · split
        · exact segments_harnessSegments flags packets waits.tail
        · rfl
      · exact segments_harnessSegments flags packets waits

/-- The harness sends nothing for an input it drops. -/
theorem harnessWrites_of_not_acceptsInput {data : Bytes} (h : acceptsInput data = false)
    (waits : List WaitOutcome) : harnessWrites data waits = [] := by
  rw [harnessWrites, fuzzServer, h]
  rfl

/-- **Replay and harness.** The same inputs are rejected before anything is
sent, and what the harness sends is a prefix of what the replay tool
sends. The two hand the socket the same segments exactly when every wait
between two packets of the input is answered with bytes; the `sendall`
and `send` calls are then the same too, except for an empty request, on
which the replay tool calls `sendall` with no bytes. -/
theorem replay_same_segments_iff (data : Bytes) (waits : List WaitOutcome) :
    (acceptsInput data = true
        ↔ ∃ packets, replayPackets .fuzzerInput data = .ok packets)
      ∧ harnessWrites data waits <+: segments (replayWrites .fuzzerInput data waits)
      ∧ (segments (replayWrites .fuzzerInput data waits) = harnessWrites data waits ↔
          ∀ packets, fuzzerPackets data = .ok packets →
            WaitsAnswered (data.headD 0) packets waits)
      ∧ (replayWrites .fuzzerInput data waits = harnessWrites data waits ↔
          (∀ packets, fuzzerPackets data = .ok packets →
            WaitsAnswered (data.headD 0) packets waits) ∧ ¬ EmptyRequest data) := by
  have hreject : acceptsInput data = true
      ↔ ∃ packets, replayPackets .fuzzerInput data = .ok packets := by
    rw [acceptsInput_iff, replayPackets]
    cases fuzzerPackets data <;> simp
  refine ⟨hreject, ?_⟩
  cases hpackets : fuzzerPackets data with
  | error e =>
      have hdrop : acceptsInput data = false := by
        rw [← Bool.not_eq_true, acceptsInput_iff, hpackets]
        simp
      have hreq : ¬ EmptyRequest data := by
        rintro ⟨flags, rfl, hflag⟩
        rw [fuzzerPackets, if_pos hflag] at hpackets
        cases hpackets
      rw [replayWrites, replayPackets, hpackets, harnessWrites_of_not_acceptsInput hdrop]
      simp [segments, hreq]
  | ok packets =>
      obtain ⟨flags, payload, rfl⟩ : ∃ flags payload, data = flags :: payload := by
        cases data with
        | nil => cases hpackets
        | cons flags payload => exact ⟨flags, payload, rfl⟩
      have htail : ∀ p ∈ packets.tail, p ≠ [] := by
        rcases ne_nil_of_mem_fuzzerPackets hpackets with ⟨rfl, -⟩ | ⟨-, hne⟩
        · simp
        · exact fun p hp => hne p (List.mem_of_mem_tail hp)
      obtain ⟨hpre, hiff⟩ := segments_replayLoop flags packets waits htail
      have hwrites := replayWrites_eq_segments_iff hpackets waits
      rw [harnessWrites_eq hpackets, replayWrites, replayPackets, hpackets]
      simp only [Except.ok.injEq, forall_eq', List.headD_cons]
      refine ⟨hpre, hiff, ?_⟩
      rw [← hiff, ← hwrites]
      constructor
      · intro h
        have hseg := segments_harnessSegments flags packets waits
        rw [← h] at hseg
        exact ⟨hseg.trans h, hseg⟩
      · rintro ⟨h, hseg⟩
        exact hseg.symm.trans h

/-- Two packets with the wait flag, and no response before the timeout: the
harness gives up after the first packet, the replay tool sends both. -/
theorem replay_continues_after_timeout :
    harnessWrites [0x06, 0x00, 0x01, 0x61, 0x00, 0x01, 0x62] [.timeout] = [[0x61]]
      ∧ segments (replayWrites .fuzzerInput
          [0x06, 0x00, 0x01, 0x61, 0x00, 0x01, 0x62] [.timeout]) = [[0x61], [0x62]] := by
  have hpackets : fuzzerPackets [0x06, 0x00, 0x01, 0x61, 0x00, 0x01, 0x62]
      = .ok [[0x61], [0x62]] :=
    (fuzzerPackets_eq_ok_iff (by decide)).mpr ⟨by decide, by decide, by decide⟩
  refine ⟨?_, ?_⟩
  · rw [harnessWrites_eq hpackets]
    decide
  · rw [replayWrites, replayPackets, hpackets]
    decide

end LighttpdFuzz
