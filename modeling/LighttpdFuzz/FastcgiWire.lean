import LighttpdFuzz.Fastcgi

/-!
# What a web server sends to the FastCGI front

A server encodes the variables of a request as length-prefixed pairs and
sends records with any padding. The handler reads both back
(`fcgiParams_encoded`, `readRecord_sent`), so on a stream of records that
no `requestStep` rejects the loop computes `Multiplex.run requestStep` and
ends at the end of the stream (`fastcgiLoop_run`).
-/

namespace LighttpdFuzz

open Connection

/-! ## Encoded variables -/

/-- A spelling of a length: one byte, or four with the top bit set. -/
def IsFcgiLength (n : Nat) (data : Bytes) : Prop :=
  (n < 0x80 ∧ data = [UInt8.ofNat n])
    ∨ (n < 0x80000000 ∧ data = Bytes.bigDigits 4 (n + 0x80000000))

/-- The variables as one string: before each pair the two lengths. -/
inductive EncodedParams : List (Bytes × Bytes) → Bytes → Prop
  | nil : EncodedParams [] []
  | cons {name value nameLength valueLength data : Bytes} {params : List (Bytes × Bytes)} :
      IsFcgiLength name.length nameLength → IsFcgiLength value.length valueLength →
      EncodedParams params data →
      EncodedParams ((name, value) :: params) (nameLength ++ valueLength ++ name ++ value ++ data)

/-- The variables as the handler has them: a later one replaces an
earlier one of the same name. -/
def decodedParams (params : List (Bytes × Bytes)) : AssocMap Text Bytes :=
  .setAll (fun e => decodeLatin1 e.1) Prod.snd .empty params

theorem fcgiLength_encoded {n : Nat} {data : Bytes} (hn : n < 0x80000000)
    (h : fcgiLength n = .ok data) : IsFcgiLength n data := by
  unfold fcgiLength at h
  split at h
  · next hshort =>
      cases h
      exact Or.inl ⟨hshort, rfl⟩
  · have hor : n ||| 0x80000000 = n + 0x80000000 := by
      have := Nat.two_pow_add_eq_or_of_lt (i := 31) hn 1
      simp only [Nat.mul_one] at this
      rw [Nat.or_comm, ← this]
      omega
    rw [hor, Bytes.toBytesBig, if_pos (by omega)] at h
    cases h
    exact Or.inr ⟨hn, rfl⟩

theorem top_bit (b : UInt8) : b &&& 0x80 ≠ 0 ↔ 0x80 ≤ b.toNat := by
  have hall : ∀ n < 256, (UInt8.ofNat n &&& 0x80 ≠ 0 ↔ 0x80 ≤ n) := by decide +kernel
  have hb := hall b.toNat b.toNat_lt
  rwa [UInt8.ofNat_toNat] at hb

theorem takeLength_encoded {n : Nat} {data : Bytes} (h : IsFcgiLength n data) (rest : Bytes) :
    takeLength (data ++ rest) = .ok (n, rest) := by
  rcases h with ⟨hn, rfl⟩ | ⟨hn, rfl⟩
  · have htoNat : (UInt8.ofNat n).toNat = n := by
      rw [UInt8.toNat_ofNat']
      omega
    rw [List.singleton_append, takeLength, if_neg (by rw [top_bit, htoNat]; omega), htoNat]
  · have hback : Bytes.intFromBig (Bytes.bigDigits 4 (n + 0x80000000)) = n + 0x80000000 :=
      Bytes.intFromBig_bigDigits (by omega)
    have hmask : n + 0x80000000 &&& 0x7fffffff = n := by
      rw [Nat.and_two_pow_sub_one_eq_mod _ 31]
      omega
    generalize hdigits : Bytes.bigDigits 4 (n + 0x80000000) = digits at hback ⊢
    have hlen : digits.length = 4 := by rw [← hdigits, Bytes.length_bigDigits]
    cases digits with
    | nil => cases hlen
    | cons b tail =>
        have hb : b.toNat = (n + 0x80000000) / 256 / 256 / 256 % 256 := by
          have := congrArg (fun l => (l.headD 0).toNat) hdigits
          simpa [Bytes.bigDigits] using this.symm
        have hslice : Bytes.slice (b :: (tail ++ rest)) 0 4 = b :: tail := by
          rw [← List.cons_append, ← hlen]
          exact List.take_left
        rw [List.cons_append, takeLength, if_pos (by rw [top_bit, hb]; omega), if_neg (by
          simp only [List.length_cons, List.length_append] at hlen ⊢
          omega), hslice, hback, hmask, ← List.cons_append, List.drop_left' hlen]

theorem fcgiParamsLoop_encoded : ∀ {params : List (Bytes × Bytes)} {data : Bytes},
    EncodedParams params data → ∀ result : AssocMap Text Bytes,
    fcgiParamsLoop result data
      = .ok (.setAll (fun e => decodeLatin1 e.1) Prod.snd result params) := by
  intro params data h
  induction h with
  | nil =>
      intro result
      rw [fcgiParamsLoop, if_pos rfl]
      rfl
  | @cons name value nameLength valueLength data params hname hvalue _ ih =>
      intro result
      have hne : nameLength ++ valueLength ++ name ++ value ++ data ≠ [] := by
        rcases hname with ⟨_, rfl⟩ | ⟨_, rfl⟩ <;> simp [Bytes.bigDigits]
      have htakeName := takeLength_encoded hname (valueLength ++ (name ++ value ++ data))
      have htakeValue := takeLength_encoded hvalue (name ++ value ++ data)
      simp only [List.append_assoc] at hne htakeName htakeValue ⊢
      rw [fcgiParamsLoop, if_neg hne]
      split
      · next h => rw [htakeName] at h; cases h
      · next h =>
          rw [htakeName] at h
          cases h
          split
          · next h => rw [htakeValue] at h; cases h
          · next h =>
              rw [htakeValue] at h
              cases h
              rw [if_neg (by simp only [List.length_append]; omega), List.take_left,
                List.drop_left, List.take_left, ← List.append_assoc,
                List.drop_left' (by rw [List.length_append]), ih]
              rfl

/-- Encoded variables are read back. -/
theorem fcgiParams_encoded {params : List (Bytes × Bytes)} {data : Bytes}
    (h : EncodedParams params data) : fcgiParams data = .ok (decodedParams params) :=
  fcgiParamsLoop_encoded h .empty

/-! ## Sent records -/

/-- A record as it is sent, with its padding. -/
structure SentRecord where
  record : FcgiRecord
  padding : Bytes
  reserved : UInt8
  id_pos : 0 < record.requestId
  id_lt : record.requestId < 0x10000
  content_lt : record.content.length < 0x10000
  padding_lt : padding.length < 0x100

/-- The bytes of a sent record, of version 1. -/
def SentRecord.bytes (sent : SentRecord) : Bytes :=
  [1, sent.record.recordType] ++ Bytes.bigDigits 2 sent.record.requestId
    ++ Bytes.bigDigits 2 sent.record.content.length
    ++ [UInt8.ofNat sent.padding.length, sent.reserved]
    ++ sent.record.content ++ sent.padding

/-- The stream that the records make up. -/
def wireOf (stream : List SentRecord) : Bytes := stream.flatMap SentRecord.bytes

/-- Padding is not content, whatever the stream is divided into. -/
theorem readRecord_sent (sent : SentRecord) {rest : Bytes} {c : Connection Text}
    (hc : c.incoming = sent.bytes ++ rest) :
    ∃ cuts, readRecord c = (.ok sent.record, { c with incoming := rest, cuts := cuts }) := by
  let header : Bytes := [1, sent.record.recordType] ++ Bytes.bigDigits 2 sent.record.requestId
    ++ Bytes.bigDigits 2 sent.record.content.length
    ++ [UInt8.ofNat sent.padding.length, sent.reserved]
  have hsplit : c.incoming = header ++ (sent.record.content ++ (sent.padding ++ rest)) := by
    rw [hc, SentRecord.bytes]
    simp only [header, List.append_assoc]
  have hid : Bytes.intFromBig (header.slice 2 4) = sent.record.requestId :=
    @Bytes.intFromBig_bigDigits 2 _ sent.id_lt
  have hlength : Bytes.intFromBig (header.slice 4 6) = sent.record.content.length :=
    @Bytes.intFromBig_bigDigits 2 _ sent.content_lt
  have hpadding : (header.getD 6 0).toNat = sent.padding.length := by
    have hlt := sent.padding_lt
    change (UInt8.ofNat sent.padding.length).toNat = _
    rw [UInt8.toNat_ofNat']
    omega
  obtain ⟨cuts₁, hread₁⟩ := @recvExact_append Text 8 header _ (by simp [header]) c hsplit
  obtain ⟨cuts₂, hread₂⟩ := recvExact_append hlength.symm (c := { c with
    incoming := sent.record.content ++ (sent.padding ++ rest), cuts := cuts₁ }) rfl
  obtain ⟨cuts₃, hread₃⟩ := recvExact_append hpadding.symm (c := { c with
    incoming := sent.padding ++ rest, cuts := cuts₂ }) rfl
  refine ⟨cuts₃, ?_⟩
  rw [readRecord, bind_ok hread₁, if_neg]
  · rw [bind_ok hread₂, bind_ok hread₃, pure_run, hid]
    rfl
  · rw [hid]
    rintro (h | h)
    · exact h rfl
    · have := sent.id_pos
      omega

/-- At the end of the stream there is no record. -/
theorem readRecord_end {c : Connection Text} (hc : c.incoming = []) :
    ∃ cuts, readRecord c = (.error .eofError, { c with incoming := [], cuts := cuts }) := by
  obtain ⟨cuts, hread⟩ := recvExact_short 8 (c := c) (by rw [hc]; decide)
  exact ⟨cuts, by rw [readRecord, bind_error hread]⟩

section Loop

variable {lib : PyLibrary} {maxRequest : Nat}

theorem fastcgiLoop_error {requests : FcgiRequests} {c c' : Connection Text} {e : PyException}
    (hread : readRecord c = (.error e, c')) :
    fastcgiLoop lib maxRequest requests c = (.error e, c') := by
  unfold fastcgiLoop
  split
  · next heq =>
      rw [hread] at heq
      cases heq
      rfl
  · next heq =>
      rw [hread] at heq
      cases heq

/-- What the loop does with the outcome of a record. -/
def afterRecord (lib : PyLibrary) (maxRequest : Nat) (c : Connection Text) :
    Except PyException (FcgiRequests × Bool) → Except PyException Bool × Connection Text
  | .error e => (.error e, c)
  | .ok (_, true) => (.ok true, c)
  | .ok (next, false) => fastcgiLoop lib maxRequest next c

theorem fastcgiLoop_record {requests : FcgiRequests} {record : FcgiRecord}
    {c c₁ c₂ : Connection Text} {result : Except PyException (FcgiRequests × Bool)}
    (hread : readRecord c = (.ok record, c₁))
    (hhandle : handleRecord lib maxRequest requests record c₁ = (result, c₂)) :
    fastcgiLoop lib maxRequest requests c = afterRecord lib maxRequest c₂ result := by
  unfold fastcgiLoop
  split
  · next heq =>
      rw [hread] at heq
      cases heq
  · next heq =>
      rw [hread] at heq
      cases heq
      split
      all_goals
        next heq =>
          rw [hhandle] at heq
          cases heq
          rfl

/-- The handler on a stream that begins with records none of which is
refused. -/
theorem fastcgiLoop_run : ∀ {stream : List SentRecord} {requests : FcgiRequests}
    {table : Nat → Option FcgiRequest} {effects : List RecordEffect},
    Multiplex.run (requestStep lib maxRequest) requests.get
      (stream.map fun sent => (sent.record.requestId, sent.record)) = .ok (table, effects) →
    (∀ effect ∈ effects, effect.done = false) →
    ∀ {rest : Bytes} {c : Connection Text}, c.incoming = wireOf stream ++ rest →
    ∃ (requests' : FcgiRequests) (c' : Connection Text),
      fastcgiLoop lib maxRequest requests c = fastcgiLoop lib maxRequest requests' c'
      ∧ requests'.get = table ∧ c'.incoming = rest
      ∧ c'.written = c.written ++ effects.flatMap RecordEffect.written
      ∧ c'.noted = c.noted ++ effects.flatMap RecordEffect.modes
  | [], requests, table, effects, hrun, _, rest, c, hc => by
      cases hrun
      exact ⟨requests, c, rfl, rfl, hc, (List.append_nil _).symm, (List.append_nil _).symm⟩
  | sent :: stream, requests, table, effects, hrun, hopen, rest, c, hc => by
      rw [wireOf, List.flatMap_cons, List.append_assoc] at hc
      obtain ⟨cuts, hread⟩ := readRecord_sent sent hc
      obtain ⟨state, effect, effects', hstep, hrest, rfl⟩ := Multiplex.run_cons_ok hrun
      have hdone : effect.done = false := hopen effect (List.mem_cons_self)
      obtain ⟨next, accepts, hhandle, hget⟩ := handleRecord_ok hstep
        { c with incoming := stream.flatMap SentRecord.bytes ++ rest, cuts := cuts }
      rw [hdone] at hhandle
      rw [← hget] at hrest
      obtain ⟨requests', c', hloop, htable, hincoming, hwritten, hnoted⟩ :=
        @fastcgiLoop_run stream next _ _ hrest
          (fun effect h => hopen effect (List.mem_cons_of_mem _ h)) rest
          { c with
            incoming := stream.flatMap SentRecord.bytes ++ rest, cuts := cuts,
            written := c.written ++ effect.written, accepts := accepts,
            noted := c.noted ++ effect.modes } rfl
      refine ⟨requests', c', by rw [fastcgiLoop_record hread hhandle, afterRecord, hloop], htable,
        hincoming, ?_, ?_⟩
      · rw [hwritten, List.flatMap_cons, List.append_assoc]
      · rw [hnoted, List.flatMap_cons, List.append_assoc]

/-- The loop ends at the end of the stream. -/
theorem fastcgiLoop_end {requests : FcgiRequests} {c : Connection Text}
    (hc : c.incoming = []) :
    ∃ c', fastcgiLoop lib maxRequest requests c = (.error .eofError, c')
      ∧ c'.written = c.written ∧ c'.noted = c.noted := by
  obtain ⟨cuts, hread⟩ := readRecord_end hc
  exact ⟨_, fastcgiLoop_error hread, rfl, rfl⟩

/-- The closing record of a request is the last: its mode is noted. -/
theorem fastcgiLoop_closing {requests : FcgiRequests} {id : Nat} {state : FcgiRequest}
    {closing : SentRecord} {c : Connection Text} (hget : requests.get id = some state)
    (hc : c.incoming = closing.bytes ++ []) (hclosing : closing.record = ⟨5, id, []⟩) :
    (fastcgiLoop lib maxRequest requests c).2.noted
      = c.noted ++ [selectMode lib state.uri state.headers] := by
  obtain ⟨cuts, hread⟩ := readRecord_sent closing hc
  rw [hclosing] at hread
  have hnoted := @handleRecord_closing lib maxRequest _ _ _ hget
    { c with incoming := [], cuts := cuts }
  have hincoming := @handleRecord_incoming lib maxRequest requests ⟨5, id, []⟩
    { c with incoming := [], cuts := cuts }
  cases hhandle : handleRecord lib maxRequest requests ⟨5, id, []⟩
      { c with incoming := [], cuts := cuts } with
  | mk result c' =>
      rw [hhandle] at hnoted hincoming
      rcases result with e | ⟨next, done⟩
      · rw [fastcgiLoop_record hread hhandle, afterRecord]
        exact hnoted
      · cases done with
        | true =>
            rw [fastcgiLoop_record hread hhandle, afterRecord]
            exact hnoted
        | false =>
            obtain ⟨c'', hend, -, hnoted'⟩ := @fastcgiLoop_end lib maxRequest next c' hincoming
            rw [fastcgiLoop_record hread hhandle, afterRecord, hend]
            exact hnoted'.trans hnoted

end Loop

end LighttpdFuzz
