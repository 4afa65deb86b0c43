import LighttpdFuzz.PyBytes

/-!
# Stream connections

A connection carries the bytes the peer sends before it closes its side,
and collects what is written. How `recv` divides the stream and how much
one `send` accepts is up to the system: both follow a script, of which
only the progress guarantee (at least one byte while there is one) is
built in. What a program that reads exact amounts and writes whole
buffers does is independent of the scripts (`recvExact_eq`,
`sendPieces_eq`).

A handler is a program over a connection that returns a value or raises;
what it wrote before it raised stays written. It may also take notes of
decisions that the peer cannot see; nothing reads them.
-/

structure Connection (ν : Type) where
  /-- What the peer still sends before it closes its side. -/
  incoming : Bytes
  /-- The sizes of the blocks that the coming `recv` calls return. -/
  cuts : List Nat
  /-- How much the coming `send` calls accept. -/
  accepts : List Nat
  written : Bytes
  /-- The notes taken so far. -/
  noted : List ν

/-- A program that talks to a connection. -/
abbrev Handler (ν α : Type) := ExceptT PyException (StateM (Connection ν)) α

namespace Connection

variable {ν α β : Type}

/-- A connection whose peer sends `incoming`. -/
def fresh (incoming : Bytes) (cuts accepts : List Nat) : Connection ν :=
  ⟨incoming, cuts, accepts, [], []⟩

/-- `sock.recv(size)`: at least one byte, or nothing at the end. -/
def recv (size : Nat) : Handler ν Bytes := fun c =>
  let count := min size (max 1 (c.cuts.headD size))
  (.ok (c.incoming.take count),
    { c with incoming := c.incoming.drop count, cuts := c.cuts.tail })

/-- `sock.sendall(data)` -/
def sendall (data : Bytes) : Handler ν Unit := fun c =>
  (.ok (), { c with written := c.written ++ data })

/-- `sock.send(data)`: how much was accepted, at least one byte. -/
def send (data : Bytes) : Handler ν Nat := fun c =>
  let count := min data.length (max 1 (c.accepts.headD data.length))
  (.ok count, { c with written := c.written ++ data.take count, accepts := c.accepts.tail })

/-- Take a note. -/
def note (n : ν) : Handler ν Unit := fun c =>
  (.ok (), { c with noted := c.noted ++ [n] })

/-! ## Running handlers -/

theorem bind_ok {x : Handler ν α} {f : α → Handler ν β} {c c' : Connection ν} {a : α}
    (h : x c = (.ok a, c')) : (x >>= f) c = f a c' := by
  change (ExceptT.bindCont f (x c).1 : StateM (Connection ν) _) (x c).2 = _
  rw [h]
  rfl

theorem bind_error {x : Handler ν α} {f : α → Handler ν β} {c c' : Connection ν} {e : PyException}
    (h : x c = (.error e, c')) : (x >>= f) c = (.error e, c') := by
  change (ExceptT.bindCont f (x c).1 : StateM (Connection ν) _) (x c).2 = _
  rw [h]
  rfl

theorem bind_eq_ok {x : Handler ν α} {f : α → Handler ν β} {c c' : Connection ν} {b : β}
    (h : (x >>= f) c = (.ok b, c')) :
    ∃ a c₁, x c = (.ok a, c₁) ∧ f a c₁ = (.ok b, c') := by
  cases hx : x c with
  | mk result c₁ =>
      cases result with
      | error e =>
          rw [bind_error hx] at h
          cases h
      | ok a =>
          rw [bind_ok hx] at h
          exact ⟨a, c₁, rfl, h⟩

/-- A continuation that takes no notes. -/
theorem bind_noted {x : Handler ν α} {f : α → Handler ν β} {c : Connection ν}
    (hf : ∀ a c', (f a c').2.noted = c'.noted) : ((x >>= f) c).2.noted = (x c).2.noted := by
  cases hx : x c with
  | mk result c' =>
      cases result with
      | error e => rw [bind_error hx]
      | ok a => rw [bind_ok hx, hf]

@[simp] theorem pure_run (a : α) (c : Connection ν) : (pure a : Handler ν α) c = (.ok a, c) := rfl

@[simp] theorem throw_run (e : PyException) (c : Connection ν) :
    (throw e : Handler ν α) c = (.error e, c) := rfl

/-! ## Reading an exact amount -/

/-- Read until `size` bytes are there; the end of the stream raises
`EOFError`. -/
def recvExact : Nat → Handler ν Bytes
  | 0 => pure []
  | size + 1 => do
      let block ← recv (size + 1)
      if _h : block = [] then throw .eofError
      else do
        let rest ← recvExact (size + 1 - block.length)
        return block ++ rest
termination_by size => size
decreasing_by
  have hpos := List.length_pos_iff.mpr _h
  omega

/-- One block: at least one byte, and no more than asked for. -/
theorem recv_spec {size : Nat} {c : Connection ν} (hsize : 0 < size) (hc : c.incoming ≠ []) :
    ∃ count, 0 < count ∧ count ≤ size ∧ count ≤ c.incoming.length
      ∧ recv size c = (.ok (c.incoming.take count),
        { c with incoming := c.incoming.drop count, cuts := c.cuts.tail }) := by
  have hpos := List.length_pos_iff.mpr hc
  let count := min size (max 1 (c.cuts.headD size))
  by_cases hle : count ≤ c.incoming.length
  · exact ⟨count, by omega, Nat.min_le_left _ _, hle, rfl⟩
  · refine ⟨c.incoming.length, hpos, by omega, Nat.le_refl _, ?_⟩
    change (Except.ok (c.incoming.take count), ({ c with
      incoming := c.incoming.drop count, cuts := c.cuts.tail } : Connection ν)) = _
    rw [List.take_of_length_le (by omega), List.drop_of_length_le (by omega),
      List.take_length, List.drop_length]

/-- What is read depends on the stream alone, not on how it is divided. -/
theorem recvExact_eq : ∀ (size : Nat) {c : Connection ν}, size ≤ c.incoming.length →
    ∃ cuts, recvExact size c = (.ok (c.incoming.take size),
      { c with incoming := c.incoming.drop size, cuts := cuts }) := by
  intro size
  induction size using Nat.strongRecOn with
  | ind size ih =>
      intro c hlen
      cases size with
      | zero => exact ⟨c.cuts, by rw [recvExact]; simp⟩
      | succ size =>
          have hne : c.incoming ≠ [] := List.ne_nil_of_length_pos (by omega)
          obtain ⟨count, hpos, hle, hcount, hrecv⟩ := recv_spec (Nat.succ_pos size) hne
          have hblock : c.incoming.take count ≠ [] := by
            rw [← List.length_pos_iff, List.length_take]
            omega
          have htake : (c.incoming.take count).length = count := by
            rw [List.length_take]
            omega
          rw [recvExact, bind_ok hrecv, dif_neg hblock, htake]
          obtain ⟨cuts, hrest⟩ := ih (size + 1 - count) (by omega) (c := { c with
            incoming := c.incoming.drop count, cuts := c.cuts.tail })
            (by simp only [List.length_drop]; omega)
          refine ⟨cuts, ?_⟩
          rw [bind_ok hrest, pure_run, List.drop_drop, ← List.take_add,
            show count + (size + 1 - count) = size + 1 by omega]

/-- A stream that ends too early is read to its end. -/
theorem recvExact_short : ∀ (size : Nat) {c : Connection ν}, c.incoming.length < size →
    ∃ cuts, recvExact size c = (.error .eofError, { c with incoming := [], cuts := cuts }) := by
  intro size
  induction size using Nat.strongRecOn with
  | ind size ih =>
      intro c hlen
      cases size with
      | zero => omega
      | succ size =>
          by_cases hnil : c.incoming = []
          · have hrecv : recv (size + 1) c = (.ok [],
                { c with incoming := [], cuts := c.cuts.tail }) := by
              simp [recv, hnil]
            refine ⟨c.cuts.tail, ?_⟩
            rw [recvExact, bind_ok hrecv, dif_pos rfl, throw_run]
          · obtain ⟨count, hpos, hle, hcount, hrecv⟩ := recv_spec (Nat.succ_pos size) hnil
            have hblock : c.incoming.take count ≠ [] := by
              rw [← List.length_pos_iff, List.length_take]
              omega
            have htake : (c.incoming.take count).length = count := by
              rw [List.length_take]
              omega
            obtain ⟨cuts, hrest⟩ := ih (size + 1 - count) (by omega) (c := { c with
              incoming := c.incoming.drop count, cuts := c.cuts.tail })
              (by simp only [List.length_drop]; omega)
            refine ⟨cuts, ?_⟩
            rw [recvExact, bind_ok hrecv, dif_neg hblock, htake, bind_error hrest]

theorem recvExact_ok {size : Nat} {c c' : Connection ν} {data : Bytes}
    (h : recvExact size c = (.ok data, c')) :
    data.length = size ∧ c.incoming = data ++ c'.incoming ∧ c'.written = c.written := by
  by_cases hlen : size ≤ c.incoming.length
  · obtain ⟨cuts, heq⟩ := recvExact_eq size hlen
    rw [heq] at h
    cases h
    exact ⟨List.length_take_of_le hlen, (List.take_append_drop _ _).symm, rfl⟩
  · obtain ⟨cuts, heq⟩ := recvExact_short size (Nat.lt_of_not_le hlen)
    rw [heq] at h
    cases h

/-- Reading the front of a stream. -/
theorem recvExact_append {size : Nat} {data rest : Bytes} (hsize : data.length = size)
    {c : Connection ν} (hc : c.incoming = data ++ rest) :
    ∃ cuts, recvExact size c = (.ok data, { c with incoming := rest, cuts := cuts }) := by
  subst hsize
  obtain ⟨cuts, heq⟩ := recvExact_eq data.length (c := c) (by rw [hc, List.length_append]; omega)
  rw [hc, List.take_left, List.drop_left] at heq
  exact ⟨cuts, heq⟩

theorem recvExact_one {b : UInt8} {rest : Bytes} {c : Connection ν}
    (hc : c.incoming = b :: rest) :
    ∃ cuts, recvExact 1 c = (.ok [b], { c with incoming := rest, cuts := cuts }) :=
  @recvExact_append ν 1 [b] rest rfl c hc

/-! ## Writing in pieces -/

/-- Write `data` in pieces of at most `piece` bytes, each by `send` calls
that may accept less. -/
def sendPieces (piece : Nat) : Bytes → Handler ν Unit
  | [] => pure ()
  | b :: view => do
      let sent ← send ((b :: view).take piece)
      if _h : sent = 0 then throw (.connectionError "short socket write")
      else sendPieces piece ((b :: view).drop sent)
termination_by view => view.length
decreasing_by
  simp only [List.length_drop, List.length_cons]
  omega

/-- Whatever each call accepts, the data goes out once and in order. -/
theorem sendPieces_eq {piece : Nat} (hpiece : 0 < piece) : ∀ (n : Nat) {data : Bytes},
    data.length = n → ∀ c : Connection ν, ∃ accepts, sendPieces piece data c
      = (.ok (), { c with written := c.written ++ data, accepts := accepts }) := by
  intro n
  induction n using Nat.strongRecOn with
  | ind n ih =>
      intro data hn c
      cases data with
      | nil => exact ⟨c.accepts, by rw [sendPieces]; simp⟩
      | cons b view =>
          let part := (b :: view).take piece
          let count := min part.length (max 1 (c.accepts.headD part.length))
          have hpart : 0 < part.length := by
            simp only [part, List.length_take, List.length_cons]
            omega
          have hcount : 0 < count ∧ count ≤ part.length := by omega
          have hsend : send part c = (.ok count, { c with
            written := c.written ++ part.take count, accepts := c.accepts.tail }) := rfl
          have hle : part.length ≤ piece := by
            simp only [part, List.length_take]
            omega
          obtain ⟨accepts, hrest⟩ := ih ((b :: view).drop count).length
            (by rw [← hn, List.length_drop, List.length_cons]; omega) rfl
            { c with written := c.written ++ part.take count, accepts := c.accepts.tail }
          refine ⟨accepts, ?_⟩
          rw [sendPieces, bind_ok hsend, dif_neg (by omega), hrest, List.append_assoc]
          have hjoin : part.take count ++ (b :: view).drop count = b :: view := by
            rw [List.take_take, Nat.min_eq_left (by omega), List.take_append_drop]
          rw [hjoin]

end Connection
