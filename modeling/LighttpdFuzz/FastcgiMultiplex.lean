import LighttpdFuzz.FastcgiWire

/-!
# Multiplexed FastCGI requests

A request is sent as a BEGIN record, its variables in PARAMS records, and
its body in STDIN records; where the strings are cut is up to the server.
`requestRecords_upTo` follows one request through `requestStep` up to
its closing STDIN record: nothing is written, and what has been received
does not depend on the cutting.

Records of many requests share a connection. Requests that are open at
the same time have different ids, so the handler runs them as sessions
that do not share a key (`Multiplex.run_interleaved`): what is written is
what each request gets on a connection of its own, in the order of the
closing records (`fastcgi_multiplexing`).
-/

namespace LighttpdFuzz

open Connection Multiplex

/-! ## Requests and their records -/

/-- A request as the web server has it. -/
structure FcgiClientRequest where
  id : Nat
  /-- Whether the connection is to be kept. -/
  keep : Bool
  params : List (Bytes × Bytes)
  body : Bytes

/-- The mode that the variables of a request select. -/
def FcgiClientRequest.mode (request : FcgiClientRequest) (lib : PyLibrary) : Text :=
  selectMode lib (((decodedParams request.params).get requestUri).getD (Bytes.ascii "/"))
    (cgiHeaders lib (decodedParams request.params))

/-- The response to a request. -/
def FcgiClientRequest.plan (request : FcgiClientRequest) (lib : PyLibrary) : Plan :=
  responsePlan lib (request.mode lib) false request.body

/-- The records that are still to come: `params` is the rest of the
variables, or `none` once they are closed, and `body` the rest of the
body. Neither string is cut at fixed places. -/
inductive RemainingRecords (id : Nat) : Option Bytes → Bytes → List FcgiRecord → Prop
  | params {content rest body : Bytes} {records : List FcgiRecord} :
      content ≠ [] → RemainingRecords id (some rest) body records →
      RemainingRecords id (some (content ++ rest)) body (⟨4, id, content⟩ :: records)
  | paramsEnd {body : Bytes} {records : List FcgiRecord} :
      RemainingRecords id none body records →
      RemainingRecords id (some []) body (⟨4, id, []⟩ :: records)
  | stdin {params : Option Bytes} {content rest : Bytes} {records : List FcgiRecord} :
      content ≠ [] → RemainingRecords id params rest records →
      RemainingRecords id params (content ++ rest) (⟨5, id, content⟩ :: records)
  | stdinEnd : RemainingRecords id none [] [⟨5, id, []⟩]

/-- The records of a request within the limits. -/
inductive RequestRecords (maxRequest : Nat) (request : FcgiClientRequest) :
    List FcgiRecord → Prop
  | start {begin params : Bytes} {records : List FcgiRecord} :
      begin.length = 8 → (begin.getD 2 0 &&& 1 ≠ 0 ↔ request.keep = true) →
      EncodedParams request.params params → params.length ≤ maxRequest →
      request.body.length ≤ maxRequest →
      RemainingRecords request.id (some params) request.body records →
      RequestRecords maxRequest request (⟨1, request.id, begin⟩ :: records)

/-- The request keeps the connection, and its response fits a record and
does not close it. -/
structure Served (lib : PyLibrary) (request : FcgiClientRequest) : Prop where
  keep : request.keep = true
  fits : (request.plan lib).data.length ≤ 0xffff
  keepsOpen : (request.plan lib).closeEarly = false

/-- The record that a request is answered at. -/
def FcgiRecord.closing (record : FcgiRecord) : Bool :=
  decide (record.recordType = 5 ∧ record.content = [])

theorem remainingRecords_id {id : Nat} {params : Option Bytes} {body : Bytes}
    {records : List FcgiRecord} (h : RemainingRecords id params body records) :
    ∀ record ∈ records, record.requestId = id := by
  induction h with
  | params _ _ ih => exact List.forall_mem_cons.mpr ⟨rfl, ih⟩
  | paramsEnd _ ih => exact List.forall_mem_cons.mpr ⟨rfl, ih⟩
  | stdin _ _ ih => exact List.forall_mem_cons.mpr ⟨rfl, ih⟩
  | stdinEnd => exact List.forall_mem_singleton.mpr rfl

theorem requestRecords_id {maxRequest : Nat} {request : FcgiClientRequest}
    {records : List FcgiRecord} (h : RequestRecords maxRequest request records) :
    ∀ record ∈ records, record.requestId = request.id := by
  cases h with
  | start _ _ _ _ _ hrest => exact List.forall_mem_cons.mpr ⟨rfl, remainingRecords_id hrest⟩

/-! ## One request -/

section Alone

variable {lib : PyLibrary} {maxRequest : Nat} {request : FcgiClientRequest}

/-- What the handler has of a request when `paramsLeft` and `bodyLeft` are
still to come. -/
structure Received (lib : PyLibrary) (request : FcgiClientRequest) (params : Bytes)
    (paramsLeft : Option Bytes) (bodyLeft : Bytes) (state : FcgiRequest) : Prop where
  keep : state.keep = request.keep
  body : state.body ++ bodyLeft = request.body
  params : ∀ rest, paramsLeft = some rest → state.params ++ rest = params
  selected : paramsLeft = none → selectMode lib state.uri state.headers = request.mode lib

/-- A request up to its closing record: nothing happens but that it is
received. -/
structure UpToClosing (lib : PyLibrary) (maxRequest : Nat) (request : FcgiClientRequest)
    (state : Option FcgiRequest) (records front : List FcgiRecord) (final : FcgiRequest) :
    Prop where
  split : records = front ++ [⟨5, request.id, []⟩]
  quiet : ∀ record ∈ front, record.closing = false
  run : runAlone (requestStep lib maxRequest) state front
    = .ok (some final, front.map fun _ => .none)
  mode : selectMode lib final.uri final.headers = request.mode lib
  body : final.body = request.body
  keep : final.keep = request.keep

theorem UpToClosing.cons {state next : Option FcgiRequest} {record : FcgiRecord}
    {records front : List FcgiRecord} {final : FcgiRequest}
    (hstep : requestStep lib maxRequest state record = .ok (next, .none))
    (hopen : record.closing = false)
    (h : UpToClosing lib maxRequest request next records front final) :
    UpToClosing lib maxRequest request state (record :: records) (record :: front) final :=
  ⟨by rw [h.split, List.cons_append], List.forall_mem_cons.mpr ⟨hopen, h.quiet⟩,
    runAlone_step hstep h.run, h.mode, h.body, h.keep⟩

theorem remainingRecords_upTo {params : Bytes}
    (hencoded : EncodedParams request.params params) (hparams : params.length ≤ maxRequest)
    (hbody : request.body.length ≤ maxRequest)
    {paramsLeft : Option Bytes} {bodyLeft : Bytes} {records : List FcgiRecord}
    (h : RemainingRecords request.id paramsLeft bodyLeft records) :
    ∀ state : FcgiRequest, Received lib request params paramsLeft bodyLeft state →
      ∃ front final, UpToClosing lib maxRequest request (some state) records front final := by
  induction h with
  | @params content rest body records hne _ ih =>
      intro state hstate
      have hall := hstate.params _ rfl
      have hlen : ¬ state.params.length + content.length > maxRequest := by
        have htotal := congrArg List.length hall
        simp only [List.length_append] at htotal
        omega
      obtain ⟨front, final, hfront⟩ := ih { state with params := state.params ++ content }
        ⟨hstate.keep, hstate.body, by
          rintro rest' ⟨⟩
          rw [← hall, List.append_assoc], by rintro ⟨⟩⟩
      refine ⟨_, final, hfront.cons ?_ rfl⟩
      rw [requestStep_params hne, if_neg hlen]
  | @paramsEnd body records _ ih =>
      intro state hstate
      have hall : state.params = params := by
        rw [← hstate.params [] rfl, List.append_nil]
      obtain ⟨front, final, hfront⟩ := ih { state with
        uri := ((decodedParams request.params).get requestUri).getD (Bytes.ascii "/")
        headers := cgiHeaders lib (decodedParams request.params) }
        ⟨hstate.keep, hstate.body, by rintro _ ⟨⟩, fun _ => rfl⟩
      refine ⟨_, final, hfront.cons ?_ rfl⟩
      exact requestStep_paramsEnd (hall ▸ fcgiParams_encoded hencoded)
  | @stdin paramsLeft content rest records hne _ ih =>
      intro state hstate
      have hall := hstate.body
      have hlen : ¬ state.body.length + content.length > maxRequest := by
        have htotal := congrArg List.length hall
        simp only [List.length_append] at htotal
        omega
      obtain ⟨front, final, hfront⟩ := ih { state with body := state.body ++ content }
        ⟨hstate.keep, by rw [List.append_assoc, hall], hstate.params, hstate.selected⟩
      refine ⟨_, final, hfront.cons ?_ (by simp [FcgiRecord.closing, hne])⟩
      rw [requestStep_stdin hne, if_neg hlen]
  | stdinEnd =>
      intro state hstate
      exact ⟨[], state, rfl, List.forall_mem_nil _, rfl, hstate.selected rfl,
        by rw [← hstate.body, List.append_nil], hstate.keep⟩

/-- One request from its first record on, however it is cut. -/
theorem requestRecords_upTo {records : List FcgiRecord}
    (h : RequestRecords maxRequest request records) :
    ∃ front final, UpToClosing lib maxRequest request none records front final := by
  cases h with
  | @start begin params records hlen hkeep hencoded hparams hbody hrest =>
      obtain ⟨front, final, hfront⟩ := @remainingRecords_upTo lib maxRequest request params
        hencoded hparams hbody _ _ _ hrest ⟨[], [], .empty, Bytes.ascii "/", request.keep⟩
        ⟨rfl, rfl, fun rest h => Option.some.inj h.symm, nofun⟩
      refine ⟨_, final, hfront.cons ?_ (by simp [FcgiRecord.closing])⟩
      have hbit : decide (begin.getD 2 0 &&& 1 ≠ 0) = request.keep := by
        rw [Bool.eq_iff_iff, decide_eq_true_iff]
        exact hkeep
      rw [requestStep_begin hlen, hbit]

/-- What a record of the request makes the handler do, when `wire` is the
response. -/
def emitted (lib : PyLibrary) (request : FcgiClientRequest) (wire : Bytes) (record : FcgiRecord) :
    RecordEffect :=
  if record.closing then ⟨wire, [request.mode lib], false⟩ else .none

theorem UpToClosing.map_emitted {state : Option FcgiRequest} {records front : List FcgiRecord}
    {final : FcgiRequest} (h : UpToClosing lib maxRequest request state records front final)
    {wire : Bytes} : front.map (emitted lib request wire) = front.map fun _ => .none :=
  List.map_congr_left fun record hmem => by
    rw [emitted, if_neg (by rw [h.quiet record hmem]; decide)]

theorem emitted_open {wire : Bytes} {records : List FcgiRecord} :
    ∀ effect ∈ records.map (emitted lib request wire), effect.done = false := by
  intro effect heffect
  obtain ⟨record, -, rfl⟩ := List.mem_map.mp heffect
  unfold emitted
  split <;> rfl

theorem requestRecords_run {records : List FcgiRecord} {wire : Bytes}
    (hserved : Served lib request)
    (hwire : fcgiWire request.id (request.plan lib) = .ok wire)
    (h : RequestRecords maxRequest request records) :
    runAlone (requestStep lib maxRequest) none records
      = .ok (none, records.map (emitted lib request wire)) := by
  obtain ⟨front, final, hfront⟩ := @requestRecords_upTo lib maxRequest request records h
  have hclose : requestStep lib maxRequest (some final) ⟨5, request.id, []⟩
      = .ok (none, emitted lib request wire ⟨5, request.id, []⟩) := by
    have hplan : responsePlan lib (selectMode lib final.uri final.headers) false final.body
        = request.plan lib := by
      rw [hfront.mode, hfront.body]
      rfl
    rw [requestStep_stdinEnd (hplan.symm ▸ hwire), hplan, hserved.keepsOpen, hfront.keep,
      hserved.keep, hfront.mode]
    rfl
  rw [hfront.split, List.map_append, hfront.map_emitted]
  exact runAlone_append hfront.run (runAlone_step hclose rfl)

theorem fcgiRecord_ok {recordType : UInt8} {id : Nat} {content : Bytes}
    (h : content.length ≤ 0xffff) : ∃ wire, fcgiRecord recordType id content = .ok wire := by
  rw [fcgiRecord, if_neg (Nat.not_lt.mpr h)]
  exact ⟨_, rfl⟩

theorem fcgiWire_ok (hserved : Served lib request) :
    ∃ wire, fcgiWire request.id (request.plan lib) = .ok wire := by
  obtain ⟨wire, hwire⟩ := @fcgiRecord_ok 6 request.id _ hserved.fits
  rw [fcgiWire, hwire]
  simp only [hserved.keepsOpen]
  exact ⟨_, rfl⟩

end Alone

/-! ## Many requests on one connection -/

section Many

variable {ι : Type}

/-- The records of a stream with the requests they belong to. -/
def labelled (stream : List (ι × SentRecord)) : List (ι × FcgiRecord) :=
  stream.map fun e => (e.1, e.2.record)

/-- The stream interleaves the records of the requests; requests that are
open at the same time have different ids. -/
structure Interleaves [DecidableEq ι] (maxRequest : Nat) (requests : ι → FcgiClientRequest)
    (stream : List (ι × SentRecord)) : Prop where
  complete : ∀ i, RequestRecords maxRequest (requests i) (proj i (labelled stream))
  exclusive : Exclusive (fun i => (requests i).id) (labelled stream)

/-- The requests in the order of their closing records. -/
def closingOrder (stream : List (ι × SentRecord)) : List ι :=
  (stream.filter fun e => e.2.record.closing).map Prod.fst

variable {lib : PyLibrary} {maxRequest : Nat} {requests : ι → FcgiClientRequest}
  {stream : List (ι × SentRecord)}

theorem Interleaves.keys [DecidableEq ι] (h : Interleaves maxRequest requests stream) :
    (stream.map Prod.snd).map (fun sent => (sent.record.requestId, sent.record))
      = (labelled stream).map fun e => ((requests e.1).id, e.2) := by
  rw [labelled, List.map_map, List.map_map]
  refine List.map_congr_left fun e he => ?_
  have hmem : e.2.record ∈ proj e.1 (labelled stream) :=
    List.mem_map.mpr ⟨(e.1, e.2.record), List.mem_filter.mpr
      ⟨List.mem_map.mpr ⟨e, he, rfl⟩, decide_eq_true rfl⟩, rfl⟩
  simp only [Function.comp_apply, requestRecords_id (h.complete e.1) _ hmem]

theorem flatMap_emitted (wires : ι → Bytes) : ∀ stream : List (ι × SentRecord),
    ((labelled stream).map fun e => emitted lib (requests e.1) (wires e.1) e.2).flatMap
      RecordEffect.written = (closingOrder stream).flatMap wires
  | [] => rfl
  | e :: stream => by
      have ih := flatMap_emitted wires stream
      rw [labelled, closingOrder] at ih ⊢
      rw [List.map_cons, List.map_cons, List.flatMap_cons, ih, emitted]
      by_cases hclosing : e.2.record.closing
      · rw [if_pos hclosing, List.filter_cons, if_pos hclosing]
        rfl
      · rw [if_neg hclosing, List.filter_cons, if_neg hclosing]
        rfl

/-- All requests are answered, in the order of their closing records. -/
theorem Interleaves.run [DecidableEq ι] {wires : ι → Bytes}
    (h : Interleaves maxRequest requests stream)
    (hserved : ∀ i, Served lib (requests i))
    (hwires : ∀ i, fcgiWire (requests i).id ((requests i).plan lib) = .ok (wires i))
    (cuts accepts : List Nat) :
    ∃ c, handleFastcgi lib maxRequest (fresh (wireOf (stream.map Prod.snd)) cuts accepts)
        = (.error .eofError, c)
      ∧ c.written = (closingOrder stream).flatMap wires := by
  have hrun := run_interleaved h.exclusive fun i =>
    requestRecords_run (hserved i) (hwires i) (h.complete i)
  rw [← h.keys] at hrun
  obtain ⟨left, c, hloop, -, hincoming, hwritten, -⟩ := @fastcgiLoop_run lib maxRequest
    _ .empty _ _ hrun
    (by
      intro effect heffect
      obtain ⟨e, -, rfl⟩ := List.mem_map.mp heffect
      unfold emitted
      split <;> rfl)
    [] (fresh (wireOf (stream.map Prod.snd)) cuts accepts) (List.append_nil _).symm
  obtain ⟨c', hend, hwritten', -⟩ := @fastcgiLoop_end lib maxRequest left c hincoming
  refine ⟨c', hloop.trans hend, ?_⟩
  rw [hwritten', hwritten, flatMap_emitted wires stream]
  rfl

end Many

/-! ## A request alone on a connection -/

/-- A connection that carries a part of one request. -/
theorem fastcgiLoop_alone {lib : PyLibrary} {maxRequest id : Nat} {records : List SentRecord}
    {state : Option FcgiRequest} {effects : List RecordEffect}
    (hid : ∀ record ∈ records.map SentRecord.record, record.requestId = id)
    (hrun : runAlone (requestStep lib maxRequest) none (records.map SentRecord.record)
      = .ok (state, effects))
    (hopen : ∀ effect ∈ effects, effect.done = false) (rest : Bytes) (cuts accepts : List Nat) :
    ∃ (requests : FcgiRequests) (c : Connection Text),
      handleFastcgi lib maxRequest (fresh (wireOf records ++ rest) cuts accepts)
        = fastcgiLoop lib maxRequest requests c
      ∧ requests.get id = state ∧ c.incoming = rest
      ∧ c.written = effects.flatMap RecordEffect.written
      ∧ c.noted = effects.flatMap RecordEffect.modes := by
  have hkeys : records.map (fun sent => (sent.record.requestId, sent.record))
      = (records.map SentRecord.record).map fun record => (id, record) := by
    rw [List.map_map]
    refine List.map_congr_left fun sent hsent => ?_
    rw [hid _ (List.mem_map.mpr ⟨sent, hsent, rfl⟩)]
    rfl
  have hsingle : run (requestStep lib maxRequest) (AssocMap.empty : FcgiRequests).get
      (records.map fun sent => (sent.record.requestId, sent.record))
      = .ok (Function.update (AssocMap.empty : FcgiRequests).get id state, effects) := by
    rw [hkeys]
    exact run_single hrun
  obtain ⟨requests, c, hloop, hget, hincoming, hwritten, hnoted⟩ :=
    @fastcgiLoop_run lib maxRequest _ .empty _ _ hsingle hopen rest
      (fresh (wireOf records ++ rest) cuts accepts) rfl
  exact ⟨requests, c, hloop, by rw [hget, Function.update_self], hincoming, hwritten, hnoted⟩

theorem flatMap_emitted_alone {lib : PyLibrary} {maxRequest : Nat} {request : FcgiClientRequest}
    {state : Option FcgiRequest} {records front : List FcgiRecord} {final : FcgiRequest}
    (h : UpToClosing lib maxRequest request state records front final) (wire : Bytes) :
    (records.map (emitted lib request wire)).flatMap RecordEffect.written = wire := by
  rw [h.split, List.map_append, List.flatMap_append, h.map_emitted]
  have hfront : (front.map fun _ => RecordEffect.none).flatMap RecordEffect.written = [] := by
    rw [List.flatMap_eq_nil_iff]
    intro effect heffect
    obtain ⟨record, -, rfl⟩ := List.mem_map.mp heffect
    rfl
  rw [hfront]
  exact List.append_nil wire

theorem alone_run {lib : PyLibrary} {maxRequest : Nat} {request : FcgiClientRequest}
    {records : List SentRecord} {wire : Bytes} (hserved : Served lib request)
    (hwire : fcgiWire request.id (request.plan lib) = .ok wire)
    (h : RequestRecords maxRequest request (records.map SentRecord.record))
    (cuts accepts : List Nat) :
    (handleFastcgi lib maxRequest (fresh (wireOf records) cuts accepts)).2.written = wire := by
  obtain ⟨front, final, hfront⟩ := @requestRecords_upTo lib maxRequest request _ h
  obtain ⟨requests, c, hloop, -, hincoming, hwritten, -⟩ :=
    fastcgiLoop_alone (requestRecords_id h) (requestRecords_run hserved hwire h)
      emitted_open [] cuts accepts
  obtain ⟨c', hend, hwritten', -⟩ := @fastcgiLoop_end lib maxRequest requests c hincoming
  rw [List.append_nil] at hloop
  rw [hloop, hend, hwritten', hwritten, flatMap_emitted_alone hfront]

/-- However a request is cut, and whatever becomes of its response, its
handling calls `response_plan` once. -/
theorem handleFastcgi_noted {lib : PyLibrary} {maxRequest : Nat} {request : FcgiClientRequest}
    {records : List SentRecord}
    (h : RequestRecords maxRequest request (records.map SentRecord.record))
    (cuts accepts : List Nat) :
    (handleFastcgi lib maxRequest (fresh (wireOf records) cuts accepts)).2.noted
      = [request.mode lib] := by
  obtain ⟨front, final, hfront⟩ := @requestRecords_upTo lib maxRequest request _ h
  obtain ⟨sent, last, rfl, rfl, hlast⟩ := List.map_eq_append_iff.mp hfront.split
  obtain ⟨closing, rfl, hclosing⟩ := List.map_eq_singleton_iff.mp hlast
  have hid : ∀ record ∈ sent.map SentRecord.record, record.requestId = request.id := fun r hr =>
    requestRecords_id h r (by rw [List.map_append]; exact List.mem_append_left _ hr)
  have hquiet : ∀ effect ∈ (sent.map SentRecord.record).map fun _ => RecordEffect.none,
      effect.done = false := by
    intro effect heffect
    obtain ⟨record, -, rfl⟩ := List.mem_map.mp heffect
    rfl
  obtain ⟨requests, c, hloop, hget, hincoming, -, hnoted⟩ :=
    fastcgiLoop_alone hid hfront.run hquiet closing.bytes cuts accepts
  have hwire : wireOf (sent ++ [closing]) = wireOf sent ++ closing.bytes := by
    rw [wireOf, List.flatMap_append, List.flatMap_singleton]
    rfl
  have hnone : ((sent.map SentRecord.record).map fun _ => RecordEffect.none).flatMap
      RecordEffect.modes = [] := by
    rw [List.flatMap_eq_nil_iff]
    intro effect heffect
    obtain ⟨record, -, rfl⟩ := List.mem_map.mp heffect
    rfl
  rw [hwire, hloop, fastcgiLoop_closing hget (hincoming.trans (List.append_nil _).symm) hclosing,
    hnoted, hnone, hfront.mode]
  rfl

/-- Requests on one connection do not influence each other, and where
their strings are cut into records and the stream into blocks does not
matter: the handler writes what it writes to each request alone, in the
order of the closing records. -/
theorem fastcgi_multiplexing (lib : PyLibrary) (maxRequest : Nat) {ι : Type} [DecidableEq ι]
    (requests : ι → FcgiClientRequest) (hserved : ∀ i, Served lib (requests i))
    (stream : List (ι × SentRecord)) (hstream : Interleaves maxRequest requests stream)
    (cuts accepts : List Nat)
    (alone : ι → List SentRecord)
    (halone : ∀ i, RequestRecords maxRequest (requests i) ((alone i).map SentRecord.record))
    (aloneCuts aloneAccepts : ι → List Nat) :
    ∃ c, handleFastcgi lib maxRequest (fresh (wireOf (stream.map Prod.snd)) cuts accepts)
        = (.error .eofError, c)
      ∧ c.written = (closingOrder stream).flatMap fun i =>
        (handleFastcgi lib maxRequest
          (fresh (wireOf (alone i)) (aloneCuts i) (aloneAccepts i))).2.written := by
  choose wires hwires using fun i => fcgiWire_ok (hserved i)
  obtain ⟨c, hrun, hwritten⟩ := hstream.run hserved hwires cuts accepts
  refine ⟨c, hrun, ?_⟩
  rw [hwritten]
  congr
  funext i
  exact (alone_run (hserved i) (hwires i) (halone i) (aloneCuts i) (aloneAccepts i)).symm

/-! ## A run of two requests -/

/-- Python's library on URIs without a query. -/
def demoLibrary : PyLibrary where
  urlsplit t := some (t.takeWhile (· != '?'), (t.dropWhile (· != '?')).drop 1)
  parseQs _ := some .empty
  lower t := t.map lowerLatin1
  lower_latin1 _ _ := rfl

def demoSent (record : FcgiRecord)
    (h : 0 < record.requestId ∧ record.requestId < 0x10000 ∧ record.content.length < 0x10000) :
    SentRecord :=
  ⟨record, [7, 7], 0, h.1, h.2.1, h.2.2, by decide⟩

theorem demoSent_empty {type : UInt8} {id : Nat} (h : 0 < id ∧ id < 0x10000) :
    0 < id ∧ id < 0x10000 ∧ (⟨type, id, []⟩ : FcgiRecord).content.length < 0x10000 :=
  ⟨h.1, h.2, Nat.zero_lt_succ _⟩

def demoBegin : Bytes := [0, 1, 1, 0, 0, 0, 0, 0]

/-- One request names its mode, the other has a body. -/
def demoRequests : Bool → FcgiClientRequest
  | false => ⟨1, true, [(Bytes.ascii "REQUEST_URI", Bytes.ascii "/103")], []⟩
  | true => ⟨2, true, [], Bytes.ascii "ab"⟩

def demoParams : Bytes := [11, 4] ++ Bytes.ascii "REQUEST_URI" ++ Bytes.ascii "/103"

def demoStream : List (Bool × SentRecord) :=
  [(false, demoSent ⟨1, 1, demoBegin⟩ (by decide)),
    (true, demoSent ⟨1, 2, demoBegin⟩ (by decide)),
    (false, demoSent ⟨4, 1, demoParams⟩ (by decide)),
    (true, demoSent ⟨5, 2, Bytes.ascii "a"⟩ (by decide)),
    (false, demoSent ⟨4, 1, []⟩ (by decide)),
    (true, demoSent ⟨4, 2, []⟩ (by decide)),
    (true, demoSent ⟨5, 2, Bytes.ascii "b"⟩ (by decide)),
    (true, demoSent ⟨5, 2, []⟩ (by decide)),
    (false, demoSent ⟨5, 1, []⟩ (by decide))]

/-- The records of one of the requests. -/
def demoAlone (i : Bool) : List SentRecord :=
  (demoStream.filter fun e => decide (e.1 = i)).map Prod.snd

theorem demo_complete : ∀ i, RequestRecords maxRequest (demoRequests i)
    (proj i (labelled demoStream))
  | false => by
      have hencoded : EncodedParams (demoRequests false).params demoParams :=
        .cons (Or.inl ⟨by decide, rfl⟩) (Or.inl ⟨by decide, rfl⟩) .nil
      exact @RequestRecords.start _ _ demoBegin _ _ rfl (by decide) hencoded (by decide) (by decide)
        (@RemainingRecords.params _ demoParams [] _ _ (by decide) (.paramsEnd .stdinEnd))
  | true =>
      @RequestRecords.start _ _ demoBegin _ _ rfl (by decide) .nil (by decide) (by decide)
        (@RemainingRecords.stdin _ _ (Bytes.ascii "a") _ _ (by decide) (.paramsEnd
          (@RemainingRecords.stdin _ _ (Bytes.ascii "b") [] _ (by decide) .stdinEnd)))

theorem fastcgi_multiplexing_demo :
    ∃ c, handleFastcgi demoLibrary maxRequest
        (fresh (wireOf (demoStream.map Prod.snd)) [3] [1])
        = (.error .eofError, c)
      ∧ c.written = (closingOrder demoStream).flatMap fun i =>
        (handleFastcgi demoLibrary maxRequest
          (fresh (wireOf (demoAlone i)) [] [])).2.written :=
  fastcgi_multiplexing demoLibrary maxRequest demoRequests
    (fun i => by
      cases i with
      | false => exact ⟨by decide, by decide +kernel, by decide +kernel⟩
      | true => exact ⟨by decide, by decide +kernel, by decide +kernel⟩)
    demoStream
    ⟨demo_complete, exclusive_of_injective (by
      intro i j h
      cases i <;> cases j <;> first | rfl | cases h) _⟩
    [3] [1] demoAlone
    (fun i => by
      have h := demo_complete i
      cases i <;> exact h)
    (fun _ => []) (fun _ => [])

end LighttpdFuzz
