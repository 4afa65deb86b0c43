import LighttpdFuzz.HttpDivision

/-!
# The limit on the head of an HTTP request

`_recv_headers` asks for one byte more than `_MAX_HEADERS`, so that it can
tell a head that is too long from one that is not complete yet. It looks
for the empty line before it looks at the length. So the extra byte may
complete the empty line, and a head of `_MAX_HEADERS + 1` bytes is returned:
`recvHeaders_outcome` has the limit as it is, `header_limit` says that this
length is all that is wrong with it.

The amount that is read never exceeds the budget (`recvHeaders_budget`),
whatever the blocks are.
-/

namespace LighttpdFuzz

open Connection

/-! ## The budget -/

/-- No more than `_MAX_HEADERS + 1` bytes are received in all, and those
that are not received stay in the stream. -/
theorem recvHeaders_budget : ∀ (n : Nat) {data : Bytes} {c : Connection Text},
    maxHeaders + 1 - data.length = n → data.length ≤ maxHeaders + 1 →
    ∃ count, data.length + count ≤ maxHeaders + 1
      ∧ (recvHeaders data c).2.incoming = c.incoming.drop count := by
  intro n
  induction n using Nat.strongRecOn with
  | ind n ih =>
      intro data c hn hdata
      unfold recvHeaders
      by_cases hroom : data.length ≤ maxHeaders
      · rw [dif_pos hroom]
        rcases eq_or_ne c.incoming [] with hend | hend
        · have hrecv : recv (min 4096 (maxHeaders + 1 - data.length)) c = (.ok [],
              { c with incoming := [], cuts := c.cuts.tail }) := by
            simp [recv, hend]
          rw [bind_ok hrecv, dif_pos rfl, throw_run, hend]
          exact ⟨0, hdata, rfl⟩
        · obtain ⟨count, hpos, hle, hcount, hrecv⟩ :=
            @recv_spec Text (min 4096 (maxHeaders + 1 - data.length)) c (by omega) hend
          have hlength : (c.incoming.take count).length = count := List.length_take_of_le hcount
          have hblock : c.incoming.take count ≠ [] := by
            rw [← List.length_pos_iff, hlength]
            exact hpos
          rw [bind_ok hrecv, dif_neg hblock]
          cases Bytes.find headEnd (data ++ c.incoming.take count) with
          | some marker => exact ⟨count, by omega, rfl⟩
          | none =>
              have hsofar : (data ++ c.incoming.take count).length = data.length + count := by
                rw [List.length_append, hlength]
              obtain ⟨count', hbudget, hrest⟩ :=
                @ih (maxHeaders + 1 - (data ++ c.incoming.take count).length) (by omega)
                  (data ++ c.incoming.take count)
                  { c with incoming := c.incoming.drop count, cuts := c.cuts.tail } rfl (by omega)
              refine ⟨count + count', by omega, ?_⟩
              exact hrest.trans List.drop_drop
      · rw [dif_neg hroom]
        exact ⟨0, hdata, rfl⟩

/-! ## The limit -/

/-- The head of a stream, if it ends within `limit` bytes. -/
def headWithin (limit : Nat) (stream : Bytes) : Option Bytes :=
  match Bytes.find headEnd stream with
  | none => none
  | some marker => if marker + 4 ≤ limit then some (stream.take (marker + 4)) else none

/-- How the head of a stream is read under a limit: it is returned with
what was received behind it, or an exception says that it did not come. -/
structure HeadRead (limit : Nat) (stream : Bytes)
    (run : Except PyException (Bytes × Bytes) × Connection Text) : Prop where
  returns : (∃ result, run.1 = .ok result) ↔ ∃ head, headWithin limit stream = some head
  result : ∀ head extra, run.1 = .ok (head, extra) →
    headWithin limit stream = some head ∧ head ++ extra ++ run.2.incoming = stream
  raises : ∀ e, run.1 = .error e →
    e = if stream.length ≤ maxHeaders then .eofError else .valueError "headers too large"
  budget : ∃ received, received ++ run.2.incoming = stream
    ∧ received.length ≤ maxHeaders + 1

theorem headWithin_eq_some {limit : Nat} {stream head : Bytes} : headWithin limit stream = some head
    ↔ ∃ marker, Bytes.find headEnd stream = some marker ∧ marker + 4 ≤ limit
      ∧ stream.take (marker + 4) = head := by
  unfold headWithin
  cases Bytes.find headEnd stream with
  | none => exact iff_of_false nofun (by rintro ⟨_, hfind, -⟩; cases hfind)
  | some marker =>
      dsimp only
      constructor
      · intro h
        split at h
        · next hle => exact ⟨marker, rfl, hle, Option.some.inj h⟩
        · cases h
      · rintro ⟨marker', hfind, hle, rfl⟩
        obtain rfl := Option.some.inj hfind
        rw [if_pos hle]

/-- The limit that the loop keeps is one byte too long. -/
theorem recvHeaders_outcome (stream : Bytes) (cuts accepts : List Nat) :
    HeadRead (maxHeaders + 1) stream (recvHeaders [] (fresh stream cuts accepts)) := by
  obtain ⟨count, hbudget, hincoming⟩ :=
    @recvHeaders_budget _ [] (fresh stream cuts accepts) rfl (Nat.zero_le _)
  have hreceived : ∃ received, received ++ (recvHeaders [] (fresh stream cuts accepts)).2.incoming
      = stream ∧ received.length ≤ maxHeaders + 1 := by
    refine ⟨stream.take count, ?_, ?_⟩
    · rw [hincoming]
      exact List.take_append_drop count stream
    · exact (List.length_take_le count stream).trans (by simpa using hbudget)
  cases hfind : Bytes.find headEnd (stream.take (maxHeaders + 1)) with
  | none =>
      obtain ⟨c', hrun, -⟩ :=
        @recvHeaders_none stream hfind _ [] (fresh stream cuts accepts) rfl (List.nil_append _)
          (Nat.zero_le _)
      have hno : ∀ head, headWithin (maxHeaders + 1) stream ≠ some head := by
        intro head hhead
        obtain ⟨marker, hmarker, hle, -⟩ := headWithin_eq_some.mp hhead
        have htake := Bytes.find_take (by decide) hmarker (maxHeaders + 1)
        rw [hfind, if_pos (show marker + headEnd.length ≤ maxHeaders + 1 from hle)] at htake
        cases htake
      rw [hrun] at hreceived ⊢
      refine ⟨iff_of_false ?_ ?_, ?_, ?_, hreceived⟩
      · rintro ⟨result, h⟩
        cases h
      · rintro ⟨head, h⟩
        exact hno head h
      · intro head extra h
        cases h
      · intro e h
        exact (Except.error.inj h).symm
  | some marker =>
      obtain ⟨hmarker, hle⟩ := Bytes.find_of_take (by decide) hfind
      obtain ⟨extra, rest, cuts', hrun, hextra⟩ :=
        @recvHeaders_eq _ _ hmarker hle _ [] (fresh stream cuts accepts) rfl (List.nil_append _)
          (Nat.succ_pos _)
      have hhead : headWithin (maxHeaders + 1) stream = some (stream.take (marker + 4)) :=
        headWithin_eq_some.mpr ⟨marker, hmarker, hle, rfl⟩
      rw [hrun] at hreceived ⊢
      refine ⟨iff_of_true ⟨_, rfl⟩ ⟨_, hhead⟩, ?_, ?_, hreceived⟩
      · intro head extra' h
        obtain ⟨rfl, rfl⟩ := Prod.mk.inj (Except.ok.inj h)
        refine ⟨hhead, ?_⟩
        rw [List.append_assoc]
        exact (congrArg (stream.take (marker + 4) ++ ·) hextra).trans
          (List.take_append_drop _ stream)
      · intro e h
        cases h

theorem headWithin_succ {limit : Nat} {stream : Bytes}
    (h : ∀ marker, Bytes.find headEnd stream = some marker → marker + 4 ≠ limit + 1) :
    headWithin (limit + 1) stream = headWithin limit stream := by
  unfold headWithin
  cases hfind : Bytes.find headEnd stream with
  | none => rfl
  | some marker =>
      have hne := h marker hfind
      have hiff : marker + 4 ≤ limit + 1 ↔ marker + 4 ≤ limit := by omega
      simp only [hiff]

/-- A head of one byte more is returned all the same. -/
theorem not_headRead_of_find {stream : Bytes} {marker : Nat}
    (hfind : Bytes.find headEnd stream = some marker) (hmarker : marker + 4 = maxHeaders + 1)
    (cuts accepts : List Nat) :
    ¬ HeadRead maxHeaders stream (recvHeaders [] (fresh stream cuts accepts)) := by
  intro hread
  have hlonger : ∃ head, headWithin (maxHeaders + 1) stream = some head :=
    ⟨_, headWithin_eq_some.mpr ⟨marker, hfind, hmarker.le, rfl⟩⟩
  obtain ⟨head, hhead⟩ :=
    hread.returns.mp ((recvHeaders_outcome stream cuts accepts).returns.mpr hlonger)
  obtain ⟨marker', hfind', hle, -⟩ := headWithin_eq_some.mp hhead
  obtain rfl := Option.some.inj (hfind.symm.trans hfind')
  omega

/-- The limit is `_MAX_HEADERS`, unless the head is one byte longer. -/
theorem header_limit (stream : Bytes) (cuts accepts : List Nat) :
    HeadRead maxHeaders stream (recvHeaders [] (fresh stream cuts accepts))
      ↔ ∀ marker, Bytes.find headEnd stream = some marker → marker + 4 ≠ maxHeaders + 1 := by
  constructor
  · intro hread marker hfind hmarker
    exact not_headRead_of_find hfind hmarker cuts accepts hread
  · intro h
    obtain ⟨hreturns, hresult, hraises, hbudget⟩ := recvHeaders_outcome stream cuts accepts
    rw [headWithin_succ h] at hreturns hresult
    exact ⟨hreturns, hresult, hraises, hbudget⟩

/-- A head whose empty line ends with the byte behind the limit. -/
theorem head_one_byte_too_long :
    ¬ HeadRead maxHeaders (List.replicate 65533 0x61 ++ headEnd)
      (recvHeaders [] (fresh (List.replicate 65533 0x61 ++ headEnd) [] [])) := by
  have hno : (0x0d : UInt8) ∉ List.replicate 65533 (0x61 : UInt8) :=
    fun hmem => absurd (List.eq_of_mem_replicate hmem) (by decide)
  have hfind := @Bytes.find_append 0x0d [0x0a, 0x0d, 0x0a] _ hno []
  rw [List.append_nil, List.length_replicate] at hfind
  exact not_headRead_of_find hfind rfl [] []

end LighttpdFuzz
