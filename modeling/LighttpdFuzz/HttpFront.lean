import LighttpdFuzz.BackendModes
import LighttpdFuzz.PyParse

/-!
# The HTTP front of the backend

`handle_http` reads blocks up to the empty line, parses the request line
and the headers, reads the body, and answers. What comes after the body
is the beginning of a tunnel; a response that upgrades echoes it.

`recvHeaders_eq` says that the head of the request does not depend on
the blocks, `parseHttpHeaders_joined` that the parser gives back the lines
the head was made of.
-/

namespace LighttpdFuzz

open Connection

def maxHeaders : Nat := 64 * 1024

def crlf : Bytes := [0x0d, 0x0a]

def headEnd : Bytes := [0x0d, 0x0a, 0x0d, 0x0a]

/-! ## The head of a request -/

/-- `_recv_headers(sock)`, after `data` has been received. -/
def recvHeaders (data : Bytes) : Front (Bytes × Bytes) :=
  if _hmax : data.length ≤ maxHeaders then do
    let block ← recv (min 4096 (maxHeaders + 1 - data.length))
    if _hblock : block = [] then throw .eofError
    else
      match Bytes.find headEnd (data ++ block) with
      | some marker =>
          return ((data ++ block).take (marker + 4), (data ++ block).drop (marker + 4))
      | none => recvHeaders (data ++ block)
  else throw (.valueError "headers too large")
termination_by maxHeaders + 1 - data.length
decreasing_by
  have hpos := List.length_pos_iff.mpr _hblock
  rw [List.length_append]
  omega

/-- The key of a header line: `key.decode("latin-1").strip().lower()`. -/
def httpHeaderName (lib : PyLibrary) (key : Bytes) : Text := lib.lower (decodeLatin1 key).strip

/-- The headers in the lines after the request line. -/
def httpHeaders (lib : PyLibrary) (lines : List Bytes) : AssocMap Text Bytes :=
  lines.foldl (fun headers line =>
    match Bytes.splitFirst [0x3a] line with
    | none => headers
    | some (key, value) => headers.set (httpHeaderName lib key) value.strip) .empty

/-- `_parse_http_headers(data)` -/
def parseHttpHeaders (lib : PyLibrary) (data : Bytes) :
    Except PyException (Bytes × AssocMap Text Bytes) :=
  let lines := Bytes.split crlf (data.take (data.length - 4))
  match Bytes.splitMax [0x20] 2 (lines.headD []) with
  | [method, uri, version] =>
      if method = [] ∨ uri = [] ∨ ¬ Bytes.ascii "HTTP/" <+: version then
        .error (.valueError "invalid request line")
      else .ok (uri, httpHeaders lib lines.tail)
  | _ => .error (.valueError "invalid request line")

/-! ## The handler -/

def contentLengthName : Text := "content-length".toList

/-- Echo what comes until the peer is done (or silent for too long) or
`remaining` bytes are through. -/
def echoTunnel (remaining : Nat) : Front Unit :=
  if _h : remaining = 0 then pure ()
  else do
    let block ← recv (min 4096 remaining)
    if _hblock : block = [] then pure ()
    else do
      sendData block false
      echoTunnel (remaining - block.length)
termination_by remaining
decreasing_by
  have hpos := List.length_pos_iff.mpr _hblock
  omega

/-- The body: what came with the head, and the rest of it. -/
def readBody (body : Bytes) (contentLength : Nat) : Front Bytes :=
  if body.length < contentLength then do
    let rest ← recvExact (contentLength - body.length)
    return body ++ rest
  else return body

/-- `handle_http(sock, max_request)` -/
def handleHttp (lib : PyLibrary) (maxRequest : Nat) : Front Bool := do
  let (headerData, extra) ← recvHeaders []
  match parseHttpHeaders lib headerData with
  | .error e => throw e
  | .ok (uri, headers) =>
      let contentLength :=
        (Bytes.toInt ((headers.get contentLengthName).getD (Bytes.ascii "0"))).getD 0
      if contentLength < 0 ∨ contentLength > maxRequest then
        throw (.valueError "invalid content length")
      else do
        let length := contentLength.toNat
        let _body ← readBody (extra.take length) length
        let mode := selectMode lib uri headers
        let tunnel := extra.drop length
        let plan ← callResponsePlan lib mode true tunnel
        sendData plan.data plan.inPieces
        if plan.upgrade then echoTunnel (maxRequest - tunnel.length) else pure ()
        return plan.closeEarly || plan.upgrade

/-! ## Reading the head -/

theorem marker_le {stream : Bytes} {marker : Nat}
    (h : Bytes.find headEnd stream = some marker) : marker + 4 ≤ stream.length := by
  have htake := Bytes.find_take (by decide) h stream.length
  rw [List.take_length, h] at htake
  by_contra hlt
  rw [if_neg (show ¬ marker + headEnd.length ≤ stream.length from hlt)] at htake
  cases htake

/-- The head goes to the first empty line, whatever the blocks are. -/
theorem recvHeaders_eq {stream : Bytes} {marker : Nat}
    (hfind : Bytes.find headEnd stream = some marker) (hmax : marker + 4 ≤ maxHeaders + 1) :
    ∀ (n : Nat) {data : Bytes} {c : Connection Text}, maxHeaders + 1 - data.length = n →
    data ++ c.incoming = stream → data.length < marker + 4 →
    ∃ extra rest cuts, recvHeaders data c
        = (.ok (stream.take (marker + 4), extra), { c with incoming := rest, cuts := cuts })
      ∧ extra ++ rest = stream.drop (marker + 4) := by
  intro n
  induction n using Nat.strongRecOn with
  | ind n ih =>
      intro data c hn hstream hdata
      have hlen := marker_le hfind
      have hsplit := congrArg List.length hstream
      rw [List.length_append] at hsplit
      obtain ⟨count, hpos, hle, hcount, hrecv⟩ :=
        @recv_spec Text (min 4096 (maxHeaders + 1 - data.length)) c (by omega)
          (List.ne_nil_of_length_pos (by omega))
      have hblock : c.incoming.take count ≠ [] := by
        rw [← List.length_pos_iff, List.length_take]
        omega
      have hsofar : data ++ c.incoming.take count = stream.take (data.length + count) := by
        rw [← hstream, List.take_length_add_append]
      have hdrop : c.incoming.drop count = stream.drop (data.length + count) := by
        rw [← hstream, List.drop_length_add_append]
      rw [recvHeaders, dif_pos (by omega), bind_ok hrecv, dif_neg hblock, hsofar,
        Bytes.find_take (by decide) hfind]
      by_cases hall : marker + headEnd.length ≤ data.length + count
      · rw [if_pos hall]
        have hall : marker + 4 ≤ data.length + count := hall
        refine ⟨(stream.take (data.length + count)).drop (marker + 4), c.incoming.drop count,
          c.cuts.tail, ?_, ?_⟩
        · simp only [pure_run, List.take_take, Nat.min_eq_left hall]
        · rw [hdrop]
          conv_rhs => rw [← List.take_append_drop (data.length + count) stream]
          rw [List.drop_append_of_le_length (by rw [List.length_take]; omega)]
      · rw [if_neg hall]
        have hall : ¬ marker + 4 ≤ data.length + count := hall
        have hlength : (stream.take (data.length + count)).length = data.length + count := by
          rw [List.length_take]
          omega
        obtain ⟨extra, rest, cuts, hrest, hextra⟩ :=
          ih (maxHeaders + 1 - (stream.take (data.length + count)).length) (by omega)
            (c := { c with incoming := c.incoming.drop count, cuts := c.cuts.tail }) rfl
            (by rw [hdrop, List.take_append_drop]) (by omega)
        exact ⟨extra, rest, cuts, hrest, hextra⟩

/-! ## Parsing the head -/

section Parse

variable {lib : PyLibrary}

def requestLineOf (method uri version : Bytes) : Bytes :=
  method ++ ([0x20] ++ (uri ++ ([0x20] ++ version)))

/-- The head that a request line and header lines make up. -/
def headOf (requestLine : Bytes) (lines : List Bytes) : Bytes :=
  (requestLine :: lines).flatMap (· ++ crlf) ++ crlf

theorem headOf_eq (requestLine : Bytes) (lines : List Bytes) :
    ∃ first last, requestLine :: lines = first ++ [last]
      ∧ headOf requestLine lines = first.flatMap (· ++ crlf) ++ last ++ headEnd := by
  have hne : requestLine :: lines ≠ [] := List.cons_ne_nil _ _
  refine ⟨(requestLine :: lines).dropLast, (requestLine :: lines).getLast hne,
    (List.dropLast_concat_getLast hne).symm, ?_⟩
  conv_lhs => rw [headOf, ← List.dropLast_concat_getLast hne]
  rw [List.flatMap_append, List.flatMap_singleton, List.append_assoc, List.append_assoc,
    List.append_assoc]
  rfl

theorem headEnd_find {rest : Bytes} : ∀ {lines : List Bytes} {requestLine : Bytes},
    0x0d ∉ requestLine → (∀ line ∈ lines, line ≠ [] ∧ 0x0d ∉ line) →
    Bytes.find headEnd (headOf requestLine lines ++ rest)
      = some ((headOf requestLine lines).length - 4)
  | [], requestLine, hline, _ => by
      have hhead : headOf requestLine [] = requestLine ++ headEnd := by
        rw [headOf, List.flatMap_singleton, List.append_assoc]
        rfl
      rw [hhead, List.append_assoc, List.length_append, headEnd, Bytes.find_append hline]
      rfl
  | line :: lines, requestLine, hline, hlines => by
      obtain ⟨⟨hne, hcr⟩, hlines⟩ := List.forall_mem_cons.mp hlines
      have ih := @headEnd_find rest _ _ hcr hlines
      have hhead : headOf requestLine (line :: lines)
          = requestLine ++ (crlf ++ headOf line lines) := by
        rw [headOf, List.flatMap_cons, List.append_assoc, List.append_assoc]
        rfl
      obtain ⟨b, line, rfl⟩ := List.exists_cons_of_ne_nil hne
      have hb : b ≠ 0x0d := fun h => hcr (h ▸ List.mem_cons_self)
      have hnext : ∃ tail, headOf (b :: line) lines = b :: tail := ⟨_, rfl⟩
      obtain ⟨tail, htail⟩ := hnext
      have hpass : Bytes.find headEnd (crlf ++ (headOf (b :: line) lines ++ rest))
          = (Bytes.find headEnd (headOf (b :: line) lines ++ rest)).map (· + 2) := by
        have hfirst : ¬ headEnd <+: 0x0d :: 0x0a :: b :: (tail ++ rest) := by
          simp [headEnd, List.cons_prefix_cons, Ne.symm hb]
        have hsecond : ¬ headEnd <+: 0x0a :: b :: (tail ++ rest) := by
          simp [headEnd, List.cons_prefix_cons]
        rw [htail, crlf, List.cons_append, List.cons_append, List.cons_append, List.nil_append,
          Bytes.find, if_neg hfirst, Bytes.find, if_neg hsecond, Option.map_map]
        rfl
      rw [hhead, List.append_assoc, List.append_assoc, headEnd, Bytes.find_skip hline, ← headEnd,
        hpass, ih]
      obtain ⟨first, last, -, hend⟩ := headOf_eq (b :: line) lines
      have hlen := congrArg List.length hend
      simp only [Option.map_some, List.length_append, crlf, headEnd, List.length_cons,
        List.length_nil, Option.some.injEq] at hlen ⊢
      omega

theorem parseHttpHeaders_joined {method uri version : Bytes} {lines : List Bytes}
    (hmethod : method ≠ []) (huri : uri ≠ []) (hversion : Bytes.ascii "HTTP/" <+: version)
    (hsp : 0x20 ∉ method ∧ 0x20 ∉ uri) (hcr : 0x0d ∉ method ∧ 0x0d ∉ uri ∧ 0x0d ∉ version)
    (hlines : ∀ line ∈ lines, 0x0d ∉ line) :
    parseHttpHeaders lib (headOf (requestLineOf method uri version) lines)
      = .ok (uri, httpHeaders lib lines) := by
  have hrequest : Bytes.splitMax [0x20] 2 (requestLineOf method uri version)
      = [method, uri, version] := by
    rw [requestLineOf, Bytes.splitMax_append hsp.1, Bytes.splitMax_append hsp.2]
    rfl
  have hline : 0x0d ∉ requestLineOf method uri version := by
    simp [requestLineOf, hcr]
  generalize requestLineOf method uri version = requestLine at hrequest hline ⊢
  obtain ⟨first, last, hparts, hhead⟩ := headOf_eq requestLine lines
  have hall : ∀ part ∈ first ++ [last], 0x0d ∉ part := by
    rw [← hparts]
    exact List.forall_mem_cons.mpr ⟨hline, hlines⟩
  have hcut : (headOf requestLine lines).take ((headOf requestLine lines).length - 4)
      = first.flatMap (· ++ crlf) ++ last := by
    rw [hhead, List.length_append]
    exact List.take_left' rfl
  have hsplit : Bytes.split crlf (first.flatMap (· ++ crlf) ++ last) = requestLine :: lines := by
    rw [hparts]
    exact Bytes.split_joined (hall last (by simp)) fun part h => hall part (by simp [h])
  unfold parseHttpHeaders
  simp only [hcut, hsplit, List.headD_cons, hrequest, List.tail_cons]
  rw [if_neg]
  rintro (h | h | h)
  · exact hmethod h
  · exact huri h
  · exact h hversion

end Parse

/-! ## The run of the handler -/

theorem echoTunnel_noted : ∀ (remaining : Nat) (c : Connection Text),
    (echoTunnel remaining c).2.noted = c.noted := by
  intro remaining
  induction remaining using Nat.strongRecOn with
  | ind remaining ih =>
      intro c
      unfold echoTunnel
      by_cases hzero : remaining = 0
      · rw [dif_pos hzero, pure_run]
      · obtain ⟨block, c₁, hrecv, hnoted⟩ : ∃ block c₁,
            recv (min 4096 remaining) c = (.ok block, c₁) ∧ c₁.noted = c.noted := ⟨_, _, rfl, rfl⟩
        rw [dif_neg hzero, bind_ok hrecv]
        by_cases hblock : block = []
        · rw [dif_pos hblock, pure_run, hnoted]
        · obtain ⟨accepts, hsend⟩ := sendData_eq block false c₁
          have hpos := List.length_pos_iff.mpr hblock
          rw [dif_neg hblock, bind_ok hsend, ih _ (by omega), hnoted]

theorem readBody_ok {extra : Bytes} {length : Nat} {c : Connection Text}
    (h : length ≤ extra.length + c.incoming.length) :
    ∃ body rest cuts, readBody (extra.take length) length c
      = (.ok body, { c with incoming := rest, cuts := cuts }) := by
  unfold readBody
  by_cases hshort : (extra.take length).length < length
  · rw [if_pos hshort]
    obtain ⟨cuts, hread⟩ := recvExact_eq (length - (extra.take length).length) (c := c) (by
      rw [List.length_take]
      omega)
    exact ⟨_, _, cuts, bind_ok hread⟩
  · rw [if_neg hshort]
    exact ⟨_, _, c.cuts, rfl⟩

/-- What comes after the call of `response_plan` notes nothing more. -/
theorem handleHttp_noted {lib : PyLibrary} {maxRequest : Nat} {uri : Bytes}
    {headers : AssocMap Text Bytes} {marker length : Nat} {c : Connection Text}
    (hfind : Bytes.find headEnd c.incoming = some marker) (hmax : marker + 4 ≤ maxHeaders + 1)
    (hparse : parseHttpHeaders lib (c.incoming.take (marker + 4)) = .ok (uri, headers))
    (hlength : (Bytes.toInt ((headers.get contentLengthName).getD (Bytes.ascii "0"))).getD 0
      = (length : Int))
    (hle : length ≤ maxRequest) (hbody : length ≤ (c.incoming.drop (marker + 4)).length) :
    (handleHttp lib maxRequest c).2.noted = c.noted ++ [selectMode lib uri headers] := by
  obtain ⟨extra, rest, cuts, hhead, hextra⟩ :=
    @recvHeaders_eq _ _ hfind hmax _ [] c rfl (List.nil_append _) (by
      rw [List.length_nil]
      omega)
  rw [handleHttp, bind_ok hhead]
  simp only [hparse, hlength]
  rw [if_neg (by omega), Int.toNat_natCast]
  rw [← hextra, List.length_append] at hbody
  obtain ⟨body, rest', cuts', hread⟩ :=
    @readBody_ok extra length { c with incoming := rest, cuts := cuts } hbody
  obtain ⟨accepts, hsend⟩ := sendData_eq
    (responsePlan lib (selectMode lib uri headers) true (extra.drop length)).data
    (responsePlan lib (selectMode lib uri headers) true (extra.drop length)).inPieces
    { c with
      incoming := rest', cuts := cuts', noted := c.noted ++ [selectMode lib uri headers] }
  rw [bind_ok hread, bind_ok (callResponsePlan_run _ _ _ _ _), bind_ok hsend]
  generalize responsePlan lib (selectMode lib uri headers) true (extra.drop length) = plan
  split
  · rw [bind_noted fun _ _ => rfl, echoTunnel_noted]
  · rfl

end LighttpdFuzz
