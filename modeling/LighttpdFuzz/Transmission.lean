import Mathlib.Data.List.Nodup
import LighttpdFuzz.MultipacketGrammar

/-!
# What the transmitter sends

`sendMultipacketData` reads the packet lengths again without any bounds
check. Its safety rests on what the validator established with a
different loop: from every offset the send loop reaches, the rest of the
buffer is a sequence of packets.

The argument is compositional. `Transmits size k k' r indices` says of a
call, from kernel `k` to kernel `k'` with result `r`, that everything it
did was safe and that the buffer indices the socket accepted are, in
order, a prefix of `indices`, all of them when `r` is `0`. Calls in
sequence concatenate their index lists (`Transmits.trans`), so each
function's lemma is assembled from those of its callees.
-/

namespace LighttpdFuzz

open Bytes

/-- The buffer indices accepted by the socket, in order. -/
def acceptedIndices (log : List CEvent) : List Nat :=
  log.flatMap fun
    | .accepted start len => List.range' start len
    | _ => []

/-- The buffer indices of the packets' bytes, framed from `offset` on. -/
def payloadIndices (offset : Nat) : List Bytes → List Nat
  | [] => []
  | p :: packets =>
      List.range' (offset + 2) p.length ++ payloadIndices (offset + 2 + p.length) packets

/-- The buffer indices of the packets' length prefixes. -/
def lengthIndices (offset : Nat) : List Bytes → List Nat
  | [] => []
  | p :: packets =>
      [offset, offset + 1] ++ lengthIndices (offset + 2 + p.length) packets

@[simp] theorem acceptedIndices_append (xs ys : List CEvent) :
    acceptedIndices (xs ++ ys) = acceptedIndices xs ++ acceptedIndices ys := by
  simp [acceptedIndices]

@[simp] theorem acceptedIndices_nil : acceptedIndices [] = [] := rfl

@[simp] theorem acceptedIndices_send (start len : Nat) (log : List CEvent) :
    acceptedIndices (.send start len :: log) = acceptedIndices log := rfl

@[simp] theorem acceptedIndices_accepted (start len : Nat) (log : List CEvent) :
    acceptedIndices (.accepted start len :: log)
      = List.range' start len ++ acceptedIndices log := rfl

/-! ## The validator stays inside the buffer -/

theorem fuzzValidMultipacketLoop_safe {data : Bytes} {size offset packetCount : Nat} :
    ∀ e ∈ (fuzzValidMultipacketLoop data size offset packetCount).2, e.Safe size := by
  fun_induction fuzzValidMultipacketLoop data size offset packetCount with
  | case1 offset packetCount hlt hshort => simp [CEvent.Safe]; omega
  | case2 offset packetCount hlt hlen packetSize head hzero =>
      simp [head, CEvent.Safe]; omega
  | case3 offset packetCount hlt hlen packetSize head hpos hlong =>
      simp [head, CEvent.Safe]; omega
  | case4 offset packetCount hlt hlen packetSize head hpos hfits round hmany =>
      simp [round, head, CEvent.Safe]; omega
  | case5 offset packetCount hlt hlen packetSize head hpos hfits round hmany rest ih =>
      have hround : ∀ e ∈ round, e.Safe size := by
        simp [round, head, CEvent.Safe]; omega
      intro e he
      exact (List.mem_append.mp he).elim (hround e) (ih e)
  | case6 offset packetCount hend => simp

/-! ## Sequencing calls -/

/-- A call on a buffer of `size` bytes does only safe things, and the
socket accepts a prefix of `indices`; all of them if the call succeeds. -/
structure Transmits (size : Nat) (k k' : Kernel) (result : Int)
    (indices : List Nat) : Prop where
  result_cases : result = 0 ∨ result = -1
  record : ∃ events, k'.log = k.log ++ events ∧ (∀ e ∈ events, e.Safe size)
    ∧ acceptedIndices events <+: indices
    ∧ (result = 0 → acceptedIndices events = indices)

/-- A step that only notes safe events, none of them an acceptance. -/
theorem Transmits.note {size : Nat} {k : Kernel} {events : List CEvent}
    (hsafe : ∀ e ∈ events, e.Safe size) (hnone : acceptedIndices events = []) :
    Transmits size k (k.note events) 0 [] :=
  ⟨.inl rfl, events, rfl, hsafe, hnone ▸ List.prefix_rfl, fun _ => hnone⟩

/-- A successful call followed by another. -/
theorem Transmits.trans {size : Nat} {k k₁ k₂ : Kernel} {result : Int}
    {I J : List Nat} (h₁ : Transmits size k k₁ 0 I) (h₂ : Transmits size k₁ k₂ result J) :
    Transmits size k k₂ result (I ++ J) := by
  obtain ⟨-, ev₁, hlog₁, hsafe₁, -, hall₁⟩ := h₁
  obtain ⟨hres, ev₂, hlog₂, hsafe₂, hpre₂, hall₂⟩ := h₂
  refine ⟨hres, ev₁ ++ ev₂, ?_, ?_, ?_, ?_⟩
  · rw [hlog₂, hlog₁, List.append_assoc]
  · intro e he
    exact (List.mem_append.mp he).elim (hsafe₁ e) (hsafe₂ e)
  · rw [acceptedIndices_append, hall₁ rfl]
    exact (List.prefix_append_right_inj I).mpr hpre₂
  · intro h
    rw [acceptedIndices_append, hall₁ rfl, hall₂ h]

/-- A call that failed leaves a prefix, whatever was to follow it. -/
theorem Transmits.failed {size : Nat} {k k₁ : Kernel} {I : List Nat}
    (h : Transmits size k k₁ (-1) I) (J : List Nat) :
    Transmits size k k₁ (-1) (I ++ J) := by
  obtain ⟨-, events, hlog, hsafe, hpre, -⟩ := h
  exact ⟨.inr rfl, events, hlog, hsafe, hpre.trans (List.prefix_append I J),
    fun h => by cases h⟩

/-- A run given up after a successful call leaves a prefix too. -/
theorem Transmits.abandon {size : Nat} {k k₁ : Kernel} {I : List Nat}
    (h : Transmits size k k₁ 0 I) (J : List Nat) :
    Transmits size k k₁ (-1) (I ++ J) := by
  obtain ⟨-, events, hlog, hsafe, hpre, -⟩ := h
  exact Transmits.failed ⟨.inr rfl, events, hlog, hsafe, hpre, fun h => by cases h⟩ J

/-- The record is all that `Transmits` looks at. -/
theorem Transmits.congr {size : Nat} {k k₁ k₂ : Kernel} {result : Int}
    {I : List Nat} (h : Transmits size k k₁ result I) (hlog : k₂.log = k₁.log) :
    Transmits size k k₂ result I := by
  obtain ⟨hres, events, hlog₁, hrest⟩ := h
  exact ⟨hres, events, hlog.trans hlog₁, hrest⟩

/-! ## The send functions -/

/-- The partial-write loop: by recursion on the results of `send`. What
is still to be accepted is the range from `start + sent` on. -/
theorem sendAllLoop_transmits {total start size : Nat} (hin : start + size ≤ total)
    {polls : List PollResult} {recvs : List RecvResult} :
    ∀ (sends : List SendResult) {sent : Nat} (log : List CEvent), sent ≤ size →
      ∀ sends₀, Transmits total ⟨sends₀, polls, recvs, log⟩
        ⟨(sendAllLoop start size sends sent log).2.1, polls, recvs,
          (sendAllLoop start size sends sent log).2.2⟩
        (sendAllLoop start size sends sent log).1
        (List.range' (start + sent) (size - sent)) := by
  intro sends
  induction sends with
  | nil =>
      intro sent log hsent sends₀
      unfold sendAllLoop
      split
      · exact ⟨.inl rfl, _, rfl, by simp [CEvent.Safe]; omega,
          by simp, by simp⟩
      · next hdone =>
          rw [show size - sent = 0 by omega]
          exact ⟨.inl rfl, [], by simp, by simp, by simp, by simp⟩
  | cons result sends ih =>
      intro sent log hsent sends₀
      unfold sendAllLoop
      split
      · next hlt =>
          -- the call itself, before its result: the range asked for is in bounds
          have hasked : ∀ e ∈ [CEvent.send (start + sent) (size - sent)],
              e.Safe total := by
            simp [CEvent.Safe]; omega
          cases result with
          | count n =>
              simp only
              split
              · next hpos =>
                  have hle : min n (size - sent) ≤ size - sent := Nat.min_le_right ..
                  obtain ⟨hres, ev, hlog, hsafe, hpre, hall⟩ :=
                    @ih (sent + min n (size - sent))
                      (log ++ [.send (start + sent) (size - sent),
                        .accepted (start + sent) (min n (size - sent))]) (by omega) sends₀
                  have hsplit : List.range' (start + sent) (size - sent)
                      = List.range' (start + sent) (min n (size - sent))
                        ++ List.range' (start + (sent + min n (size - sent)))
                            (size - (sent + min n (size - sent))) := by
                    rw [← Nat.add_assoc, List.range'_append_1]
                    congr 1; omega
                  refine ⟨hres, .send (start + sent) (size - sent)
                      :: .accepted (start + sent) (min n (size - sent)) :: ev, ?_, ?_, ?_, ?_⟩
                  · rw [hlog, List.append_assoc]; rfl
                  · simp only [List.forall_mem_cons]
                    exact ⟨by simp [CEvent.Safe]; omega, by simp [CEvent.Safe]; omega, hsafe⟩
                  · rw [hsplit, acceptedIndices_send, acceptedIndices_accepted]
                    exact (List.prefix_append_right_inj _).mpr hpre
                  · intro h
                    rw [hsplit, acceptedIndices_send, acceptedIndices_accepted, hall h]
              · exact ⟨.inr rfl, _, rfl, hasked, by simp,
                  fun h => by cases h⟩
          | eintr =>
              obtain ⟨hres, ev, hlog, hsafe, hpre, hall⟩ :=
                @ih sent (log ++ [.send (start + sent) (size - sent)]) hsent sends₀
              refine ⟨hres, .send (start + sent) (size - sent) :: ev, ?_, ?_, hpre, hall⟩
              · rw [hlog, List.append_assoc]; rfl
              · exact List.forall_mem_cons.mpr ⟨hasked _ (by simp), hsafe⟩
          | error =>
              exact ⟨.inr rfl, _, rfl, hasked, by simp,
                fun h => by cases h⟩
      · next hdone =>
          rw [show size - sent = 0 by omega]
          exact ⟨.inl rfl, [], by simp, by simp, by simp, by simp⟩

theorem sendAll_transmits {total start size : Nat} (hin : start + size ≤ total)
    (k : Kernel) :
    Transmits total k (sendAll start size k).2 (sendAll start size k).1
      (List.range' start size) := by
  have h := @sendAllLoop_transmits total start size hin k.polls k.recvs k.sends 0 k.log
    (Nat.zero_le size) k.sends
  rw [Nat.add_zero, Nat.sub_zero] at h
  exact h

theorem sendPacket_transmits {total start size : Nat} (hin : start + size ≤ total)
    (fragmented : Bool) (k : Kernel) :
    Transmits total k (sendPacket start size fragmented k).2
      (sendPacket start size fragmented k).1 (List.range' start size) := by
  unfold sendPacket
  split
  · exact sendAll_transmits hin k
  · next hsplit =>
      have hhalves : List.range' start size = List.range' start (size / 2)
          ++ List.range' (start + size / 2) (size - size / 2) := by
        rw [List.range'_append_1]
        congr 1; omega
      have hlow : start + size / 2 ≤ total := by omega
      have hfirst := sendAll_transmits hlow k
      rw [hhalves]
      simp only
      split
      · next hfail =>
          rw [hfail] at hfirst
          exact hfirst.failed _
      · next hok =>
          have hzero := hfirst.result_cases.resolve_right hok
          rw [hzero] at hfirst
          exact hfirst.trans (sendAll_transmits (by omega) _)

theorem readSomeResponse_log (k : Kernel) : (readSomeResponse k).2.log = k.log := by
  unfold readSomeResponse
  split
  · split
    · split <;> rfl
    · rfl
  · rfl

/-! ## The send loop follows the packets -/

/-- While packets remain, the length at `offset` is that of the first of
them, and the rest follow right behind its bytes. -/
theorem packet_at_offset {data : Bytes} {offset : Nat} {packets : List Bytes}
    (hlt : offset < data.length)
    (h : packetFraming.readAll (data.drop offset) = some packets) :
    ∃ p rest, packets = p :: rest ∧ packetSizeAt data offset = p.length
      ∧ offset + 2 + p.length ≤ data.length
      ∧ data.slice (offset + 2) (offset + 2 + p.length) = p
      ∧ packetFraming.readAll (data.drop (offset + 2 + p.length)) = some rest := by
  have hlen : ¬ data.length - offset < 2 := fun hshort => by
    rw [readAll_drop_none hlt (readPacket_drop_short hshort)] at h; cases h
  have hgood : ¬ (intFromBig (data.slice offset (offset + 2)) = 0
      ∨ intFromBig (data.slice offset (offset + 2)) > data.length - (offset + 2)) :=
    fun hbad => by
      rw [readAll_drop_none hlt (readPacket_drop_bad hlen hbad)] at h; cases h
  obtain ⟨rest, hrest, rfl⟩ := (readAll_drop_good hlen hgood).mp h
  have hsize := packetSizeAt_eq (show offset + 1 < data.length by omega)
  have hp : (data.slice (offset + 2)
      (offset + 2 + intFromBig (data.slice offset (offset + 2)))).length
      = intFromBig (data.slice offset (offset + 2)) := by
    rw [length_slice data (by omega)]; omega
  exact ⟨_, rest, rfl, hsize.trans hp.symm, by omega, by rw [hp], by rw [hp]; exact hrest⟩

/-- One round of the send loop, up to the result of its `sendPacket`. -/
theorem sendRound_transmits {data p : Bytes} {offset : Nat} (fragmented : Bool)
    (k : Kernel) (hin : offset + 2 + p.length ≤ data.length) :
    Transmits data.length k
      (sendPacket (offset + 2) p.length fragmented
        (k.note [.load offset, .load (offset + 1), .setOffset (offset + 2)])).2
      (sendPacket (offset + 2) p.length fragmented
        (k.note [.load offset, .load (offset + 1), .setOffset (offset + 2)])).1
      (List.range' (offset + 2) p.length) := by
  have hhead : Transmits data.length k
      (k.note [.load offset, .load (offset + 1), .setOffset (offset + 2)]) 0 [] := by
    refine .note ?_ rfl
    simp [CEvent.Safe]; omega
  exact hhead.trans (sendPacket_transmits hin fragmented _)

/-- A packet that went out whole, with `offset` moved past it. -/
theorem Transmits.moved {size o : Nat} {k k₁ : Kernel} {result : Int} {I : List Nat}
    (h : Transmits size k k₁ result I) (hok : ¬ result = -1) (ho : o ≤ size) :
    Transmits size k (k₁.note [.setOffset o]) 0 I := by
  have hzero := h.result_cases.resolve_right hok
  rw [hzero] at h
  have hnote : Transmits size k₁ (k₁.note [.setOffset o]) 0 [] :=
    .note (by simpa [CEvent.Safe] using ho) rfl
  have := h.trans hnote
  rwa [List.append_nil] at this

/-- From an offset where packets begin, `sendMultipacketData` transmits
the bytes of these packets. The invariant is carried by the induction:
after each packet the rest of the buffer is again a sequence of packets. -/
theorem sendMultipacketLoop_transmits {data : Bytes} {waitForResponse fragmented : Bool}
    {offset : Nat} {k : Kernel} : ∀ {packets : List Bytes},
    packetFraming.readAll (data.drop offset) = some packets →
    Transmits data.length k
      (sendMultipacketLoop data data.length waitForResponse fragmented offset k).2
      (sendMultipacketLoop data data.length waitForResponse fragmented offset k).1
      (payloadIndices offset packets) := by
  fun_induction sendMultipacketLoop data data.length waitForResponse fragmented offset k
  case case1 offset k hlt packetSize sent hfail =>
    intro packets h
    obtain ⟨p, rest, rfl, hsize, hin, -, -⟩ := packet_at_offset hlt h
    have hround := sendRound_transmits fragmented k hin
    rw [← hsize, hfail] at hround
    rw [payloadIndices, ← hsize]
    exact hround.failed _
  case case2 offset k hlt packetSize sent hok moved hmore waited hwait =>
    intro packets h
    obtain ⟨p, rest, rfl, hsize, hin, -, -⟩ := packet_at_offset hlt h
    have hround := sendRound_transmits fragmented k hin
    rw [← hsize] at hround hin
    rw [payloadIndices, ← hsize]
    exact ((hround.moved hok hin).congr (readSomeResponse_log moved)).abandon _
  case case3 offset k hlt packetSize sent hok moved hmore waited _ ih =>
    intro packets h
    obtain ⟨p, rest, rfl, hsize, hin, -, hrest⟩ := packet_at_offset hlt h
    have hround := sendRound_transmits fragmented k hin
    rw [← hsize] at hround hin hrest
    rw [payloadIndices, ← hsize]
    exact ((hround.moved hok hin).congr (readSomeResponse_log moved)).trans (ih hrest)
  case case4 offset k hlt packetSize sent hok moved hmore ih =>
    intro packets h
    obtain ⟨p, rest, rfl, hsize, hin, -, hrest⟩ := packet_at_offset hlt h
    have hround := sendRound_transmits fragmented k hin
    rw [← hsize] at hround hin hrest
    rw [payloadIndices, ← hsize]
    exact (hround.moved hok hin).trans (ih hrest)
  case case5 offset k hend =>
    intro packets h
    rw [List.drop_eq_nil_of_le (by omega), Framing.readAll_nil] at h
    obtain rfl := Option.some.inj h
    exact ⟨.inl rfl, [], by simp, by simp, by simp [payloadIndices],
      by simp [payloadIndices]⟩

/-! ## Indices and bytes -/

theorem map_byteAt_range' {data : Bytes} {start len : Nat}
    (h : start + len ≤ data.length) :
    (List.range' start len).map (byteAt data) = data.slice start (start + len) := by
  rw [slice_eq_take_drop]
  refine List.ext_getElem (by simp; omega) (fun i hi _ => ?_)
  rw [List.length_map, List.length_range'] at hi
  simp [byteAt, List.getElem?_eq_getElem (show start + i < data.length by omega)]

/-- Read at their indices, the packets' bytes are the packets. -/
theorem map_byteAt_payloadIndices {data : Bytes} : ∀ {packets : List Bytes} {offset : Nat},
    packetFraming.readAll (data.drop offset) = some packets →
      (payloadIndices offset packets).map (byteAt data) = packets.flatten
  | [], _, _ => rfl
  | p :: packets, offset, h => by
      have hlt : offset < data.length := by
        by_contra hend
        rw [readAll_drop_end hend] at h; cases h
      obtain ⟨q, rest, hcons, -, hin, hslice, hrest⟩ := packet_at_offset hlt h
      obtain ⟨rfl, rfl⟩ := List.cons.inj hcons
      rw [payloadIndices, List.map_append, map_byteAt_range' hin, hslice,
        map_byteAt_payloadIndices hrest, List.flatten_cons]

theorem le_of_mem_payloadIndices : ∀ {packets : List Bytes} {offset i : Nat},
    i ∈ payloadIndices offset packets → offset + 2 ≤ i
  | p :: packets, offset, i, h => by
      rcases List.mem_append.mp h with h | h
      · rw [List.mem_range'_1] at h; omega
      · have := le_of_mem_payloadIndices h; omega

theorem le_of_mem_lengthIndices : ∀ {packets : List Bytes} {offset i : Nat},
    i ∈ lengthIndices offset packets → offset ≤ i
  | p :: packets, offset, i, h => by
      rcases List.mem_append.mp h with h | h
      · simp only [List.mem_cons, List.not_mem_nil, or_false] at h; omega
      · have := le_of_mem_lengthIndices h; omega

/-- The packets' bytes are each listed once. -/
theorem nodup_payloadIndices : ∀ (packets : List Bytes) (offset : Nat),
    (payloadIndices offset packets).Nodup
  | [], _ => List.nodup_nil
  | p :: packets, offset => by
      refine List.Nodup.append List.nodup_range' (nodup_payloadIndices packets _) ?_
      intro i hi hrest
      rw [List.mem_range'_1] at hi
      have := le_of_mem_payloadIndices hrest
      omega

/-- No byte of a packet is a byte of a length prefix. -/
theorem notMem_lengthIndices : ∀ {packets : List Bytes} {offset i : Nat},
    i ∈ payloadIndices offset packets → i ∉ lengthIndices offset packets
  | p :: packets, offset, i, h, hlength => by
      rcases List.mem_append.mp h with h | h
      · rw [List.mem_range'_1] at h
        rcases List.mem_append.mp hlength with hl | hl
        · simp only [List.mem_cons, List.not_mem_nil, or_false] at hl; omega
        · have := le_of_mem_lengthIndices hl; omega
      · rcases List.mem_append.mp hlength with hl | hl
        · have := le_of_mem_payloadIndices h
          simp only [List.mem_cons, List.not_mem_nil, or_false] at hl; omega
        · exact notMem_lengthIndices h hl

/-- **The validator makes the transmitter safe and lossless.** Whatever
its input, the validator only loads bytes below `size` and computes no
wrapping subtraction. On an accepted input, whatever the kernel answers,
the transmitter is safe too, and the socket accepts, in order, a prefix
of the decoded packets' bytes: each at most once, none of a length
prefix, and all of them when the transmitter returns `0`. -/
theorem validated_transmission (data : Bytes) :
    (∀ size, ∀ e ∈ (fuzzValidMultipacketData data size).2, e.Safe size)
      ∧ ((fuzzValidMultipacketData data data.length).1 ≠ 0 →
        ∃ packets, EncodesPayload fuzzMultipacketFlag data packets
          ∧ ∀ (waitForResponse fragmented : Bool) (sends : List SendResult)
              (polls : List PollResult) (recvs : List RecvResult)
              (result : Int) (k : Kernel),
            sendMultipacketData data data.length waitForResponse fragmented
                ⟨sends, polls, recvs, []⟩ = (result, k) →
              (∀ e ∈ k.log, e.Safe data.length)
                ∧ (acceptedIndices k.log).map (byteAt data) <+: packets.flatten
                ∧ (acceptedIndices k.log).Nodup
                ∧ (∀ i ∈ acceptedIndices k.log, i ∉ lengthIndices 0 packets)
                ∧ (result = 0 →
                    acceptedIndices k.log = payloadIndices 0 packets
                      ∧ (acceptedIndices k.log).map (byteAt data) = packets.flatten)) := by
  refine ⟨fun size => fuzzValidMultipacketLoop_safe, fun hvalid => ?_⟩
  obtain ⟨packets, hpackets⟩ :=
    (fuzzValidMultipacketData_iff fuzzMultipacketFlag data).mp hvalid
  have hread := (encodesPayload_iff.mp hpackets).1
  have hbytes := @map_byteAt_payloadIndices data packets 0 hread
  refine ⟨packets, hpackets, ?_⟩
  intro waitForResponse fragmented sends polls recvs result k hrun
  have htransmits := @sendMultipacketLoop_transmits data waitForResponse fragmented 0
    ⟨sends, polls, recvs, []⟩ packets hread
  rw [show sendMultipacketLoop data data.length waitForResponse fragmented 0
    ⟨sends, polls, recvs, []⟩ = (result, k) from hrun] at htransmits
  obtain ⟨-, events, hlog, hsafe, hpre, hall⟩ := htransmits
  have hevents : k.log = events := hlog
  rw [hevents]
  refine ⟨hsafe, ?_, (nodup_payloadIndices packets 0).sublist hpre.sublist, ?_, ?_⟩
  · rw [← hbytes]
    exact hpre.map (byteAt data)
  · intro i hi
    exact notMem_lengthIndices (hpre.subset hi)
  · intro hzero
    exact ⟨hall hzero, by rw [hall hzero, hbytes]⟩

end LighttpdFuzz
