import LighttpdFuzz.Harness

/-!
# One grammar for the multipacket format

The encoder, the two validators (C and Python) and the decoder agree:
each of the three readers accepts a payload exactly when it is a sequence
of 1 to 64 packets of the grammar `packetFraming`, the decoder returns
that sequence, and the encoder is its inverse (`multipacket_grammar`).
-/

namespace LighttpdFuzz

open Bytes

/-! ## The C validator against the grammar -/

theorem shiftLeft_or_toNat (hi lo : UInt8) :
    hi.toNat <<< 8 ||| lo.toNat = hi.toNat * 256 + lo.toNat := by
  have hlo : lo.toNat < 2 ^ 8 := lo.toNat_lt
  rw [Nat.shiftLeft_eq, Nat.mul_comm, ← Nat.two_pow_add_eq_or_of_lt hlo]

/-- Inside the buffer, the length the C code computes is the one Python
reads from the slice. -/
theorem packetSizeAt_eq {data : Bytes} {offset : Nat}
    (h : offset + 1 < data.length) :
    packetSizeAt data offset = intFromBig (data.slice offset (offset + 2)) := by
  have hpair : (data.drop offset).take 2
      = [byteAt data offset, byteAt data (offset + 1)] := by
    rw [List.drop_eq_getElem_cons (show offset < data.length by omega),
      List.drop_eq_getElem_cons h, byteAt, byteAt,
      List.getD_eq_getElem?_getD, List.getD_eq_getElem?_getD, List.getElem?_eq_getElem h,
      List.getElem?_eq_getElem (show offset < data.length by omega)]
    rfl
  rw [slice_eq_take_drop, hpair, intFromBig_pair, packetSizeAt, shiftLeft_or_toNat]

/-- From `offset` on, with at most 64 packets counted, the C validator
accepts exactly when the rest is a sequence of packets that keeps the
total between 1 and 64. -/
theorem fuzzValidMultipacketLoop_iff {data : Bytes} {offset packetCount : Nat}
    (hcount : packetCount ≤ 64) :
    (fuzzValidMultipacketLoop data data.length offset packetCount).1 ≠ 0 ↔
      ∃ packets, packetFraming.readAll (data.drop offset) = some packets
        ∧ 1 ≤ packetCount + packets.length ∧ packetCount + packets.length ≤ 64 := by
  fun_induction fuzzValidMultipacketLoop data data.length offset packetCount with
  | case1 offset packetCount hlt hshort =>
      rw [readAll_drop_none hlt (readPacket_drop_short hshort)]
      simp
  | case2 offset packetCount hlt hlen packetSize head hzero =>
      have hsize := packetSizeAt_eq (show offset + 1 < data.length by omega)
      rw [readAll_drop_none hlt (readPacket_drop_bad hlen (by omega))]
      simp
  | case3 offset packetCount hlt hlen packetSize head hpos hlong =>
      have hsize := packetSizeAt_eq (show offset + 1 < data.length by omega)
      rw [readAll_drop_none hlt (readPacket_drop_bad hlen (by omega))]
      simp
  | case4 offset packetCount hlt hlen packetSize head hpos hfits round hmany =>
      have hsize := packetSizeAt_eq (show offset + 1 < data.length by omega)
      simp only [readAll_drop_good hlen (by omega)]
      unfold fuzzMaxPacketCount at hmany
      constructor
      · intro h; exact absurd rfl h
      · rintro ⟨packets, ⟨rest, -, rfl⟩, -, hle⟩
        rw [List.length_cons] at hle
        omega
  | case5 offset packetCount hlt hlen packetSize head hpos hfits round hmany rest ih =>
      have hsize : packetSize = _ :=
        packetSizeAt_eq (show offset + 1 < data.length by omega)
      unfold fuzzMaxPacketCount at hmany
      have hgood := @readAll_drop_good data offset hlen (by omega)
      rw [← hsize] at hgood
      rw [ih (by omega)]
      simp only [hgood]
      constructor
      · rintro ⟨packets, hpackets, hge, hle⟩
        exact ⟨_, ⟨packets, hpackets, rfl⟩, by rw [List.length_cons]; omega,
          by rw [List.length_cons]; omega⟩
      · rintro ⟨all, ⟨packets, hpackets, rfl⟩, hge, hle⟩
        rw [List.length_cons] at hge hle
        exact ⟨packets, hpackets, by omega, by omega⟩
  | case6 offset packetCount hend =>
      rw [readAll_drop_end hend]
      simp only [Option.some.injEq, exists_eq_left', List.length_nil]
      split <;> simp <;> omega

/-! ## The payloads of the format -/

/-- `packets` is a list of 1 to 64 packets of 1 to 65535 bytes, encoded by
`multipacket` behind the control byte `f` as the payload `d`. -/
structure EncodesPayload (f : UInt8) (d : Bytes) (packets : List Bytes) : Prop where
  count : 1 ≤ packets.length ∧ packets.length ≤ 64
  sizes : ∀ p ∈ packets, 1 ≤ p.length ∧ p.length ≤ 65535
  encoded : multipacket f packets = .ok (f :: d)

theorem encodesPayload_iff {f : UInt8} {d : Bytes} {packets : List Bytes} :
    EncodesPayload f d packets ↔
      packetFraming.readAll d = some packets
        ∧ 1 ≤ packets.length ∧ packets.length ≤ 64 := by
  rw [Framing.readAll_eq_some_iff, spellsAll_iff]
  constructor
  · rintro ⟨hcount, hsizes, hencoded⟩
    obtain ⟨-, hframed⟩ := multipacket_eq_ok_iff.mp hencoded
    exact ⟨⟨hsizes, (List.cons.inj hframed).2⟩, hcount⟩
  · rintro ⟨⟨hsizes, rfl⟩, hcount⟩
    exact ⟨hcount, hsizes, multipacket_eq_ok_iff.mpr ⟨fun p hp => (hsizes p hp).2, rfl⟩⟩

theorem fuzzValidMultipacketData_iff (f : UInt8) (d : Bytes) :
    (fuzzValidMultipacketData d d.length).1 ≠ 0 ↔ ∃ ps, EncodesPayload f d ps := by
  simp only [encodesPayload_iff, fuzzValidMultipacketData]
  have h := @fuzzValidMultipacketLoop_iff d 0 0 (Nat.zero_le 64)
  simpa only [List.drop_zero, Nat.zero_add] using h

theorem validMultipacket_iff (f : UInt8) (d : Bytes) :
    validMultipacket d = true ↔ ∃ ps, EncodesPayload f d ps := by
  simp only [encodesPayload_iff, validMultipacket]
  have h := @validMultipacketLoop_iff d 0 0 (Nat.zero_le 64)
  simpa only [List.drop_zero, Nat.zero_add] using h

/-- With the multipacket bit set, the decoder returns exactly the packets
that encode the payload. -/
theorem fuzzerPackets_eq_ok_iff {f : UInt8} (hf : f &&& 0x02 ≠ 0)
    {d : Bytes} {packets : List Bytes} :
    fuzzerPackets (f :: d) = .ok packets ↔ EncodesPayload f d packets := by
  have hloop : ∀ result, fuzzerPacketsLoop (f :: d) 1 [] = .ok result ↔
      packetFraming.readAll d = some result ∧ result.length ≤ 64 := by
    intro result
    rw [fuzzerPacketsLoop_eq_ok_iff (by simp)]
    simp
  rw [encodesPayload_iff, fuzzerPackets, if_neg hf]
  cases hr : fuzzerPacketsLoop (f :: d) 1 [] with
  | error e =>
      simp only [reduceCtorEq, false_iff]
      rintro ⟨hread, -, hle⟩
      rw [(hloop packets).mpr ⟨hread, hle⟩] at hr
      cases hr
  | ok result =>
      obtain ⟨hread, hle⟩ := (hloop result).mp hr
      rw [hread, Option.some.injEq]
      cases result with
      | nil =>
          simp only [reduceCtorEq, false_iff]
          rintro ⟨rfl, hpos, -⟩
          simp at hpos
      | cons p result =>
          simp only [Except.ok.injEq]
          constructor
          · rintro rfl; exact ⟨rfl, by simp, hle⟩
          · exact And.left

/-- The length of an empty packet is the zero every reader refuses. -/
theorem readPacket_frame_nil (t : Bytes) : readPacket (framePacket [] ++ t) = none := by
  show readPacket (0 :: 0 :: t) = none
  simp [readPacket, intFromBig]

/-- A payload with an empty packet in it is no sequence of packets. -/
theorem ne_nil_of_readAll_frames : ∀ {packets result : List Bytes},
    (∀ p ∈ packets, p.length ≤ 65535) →
      packetFraming.readAll (packets.flatMap framePacket) = some result →
      result = packets ∧ ∀ p ∈ packets, p ≠ []
  | [], result, _, h => by
      rw [List.flatMap_nil, Framing.readAll_nil] at h
      exact ⟨(Option.some.inj h).symm, by simp⟩
  | p :: packets, result, hlen, h => by
      obtain ⟨hp, hrest⟩ := List.forall_mem_cons.mp hlen
      rw [List.flatMap_cons] at h
      rcases eq_or_ne p [] with rfl | hnil
      · have hne : framePacket [] ++ packets.flatMap framePacket ≠ [] :=
          List.append_ne_nil_of_left_ne_nil (by decide) _
        rw [Framing.readAll_of_read_none hne
          ((packetFraming_read _).trans (readPacket_frame_nil _))] at h
        cases h
      · have hspells : packetFraming.Spells (framePacket p) p :=
          ⟨⟨List.length_pos_of_ne_nil hnil, hp⟩, rfl⟩
        rw [Framing.readAll_append hspells, Option.map_eq_some_iff] at h
        obtain ⟨tail, htail, rfl⟩ := h
        obtain ⟨rfl, hne⟩ := ne_nil_of_readAll_frames hrest htail
        exact ⟨rfl, List.forall_mem_cons.mpr ⟨hnil, hne⟩⟩

/-- An encoded list is a payload of the format exactly when it has 1 to 64
packets and none is empty. -/
theorem encodesPayload_frames_iff {f : UInt8} {packets : List Bytes}
    (hlen : ∀ p ∈ packets, p.length ≤ 65535) :
    (∃ qs, EncodesPayload f (packets.flatMap framePacket) qs) ↔
      (1 ≤ packets.length ∧ packets.length ≤ 64) ∧ ∀ p ∈ packets, p ≠ [] := by
  constructor
  · rintro ⟨qs, hqs⟩
    obtain ⟨hread, hcount⟩ := encodesPayload_iff.mp hqs
    obtain ⟨rfl, hne⟩ := ne_nil_of_readAll_frames hlen hread
    exact ⟨hcount, hne⟩
  · rintro ⟨hcount, hne⟩
    exact ⟨packets, hcount,
      fun p hp => ⟨List.length_pos_of_ne_nil (hne p hp), hlen p hp⟩,
      multipacket_eq_ok_iff.mpr ⟨hlen, rfl⟩⟩

/-- **One grammar.** On every payload, the C validator, the Python
validator and the decoder accept in the same cases, namely the encodings
of 1 to 64 nonempty packets; the encoding is unique among all lists
`multipacket` encodes as this payload, and it is what the decoder
returns. Conversely each of the three accepts an encoding exactly when it
has 1 to 64 packets and none is empty. -/
theorem multipacket_grammar (f : UInt8) (hf : f &&& 0x02 ≠ 0) :
    (∀ d : Bytes,
      ((fuzzValidMultipacketData d d.length).1 ≠ 0 ↔ ∃ ps, EncodesPayload f d ps)
        ∧ (validMultipacket d = true ↔ ∃ ps, EncodesPayload f d ps)
        ∧ ((∃ ps, fuzzerPackets (f :: d) = .ok ps) ↔ ∃ ps, EncodesPayload f d ps)
        ∧ ∀ ps, EncodesPayload f d ps →
            fuzzerPackets (f :: d) = .ok ps
              ∧ ∀ qs, multipacket f qs = .ok (f :: d) → qs = ps)
      ∧ ∀ ps : List Bytes, (∀ p ∈ ps, p.length ≤ 65535) →
          ∃ d, multipacket f ps = .ok (f :: d)
            ∧ ((fuzzValidMultipacketData d d.length).1 ≠ 0 ↔
                (1 ≤ ps.length ∧ ps.length ≤ 64) ∧ ∀ p ∈ ps, p ≠ [])
            ∧ (validMultipacket d = true ↔
                (1 ≤ ps.length ∧ ps.length ≤ 64) ∧ ∀ p ∈ ps, p ≠ [])
            ∧ ((∃ qs, fuzzerPackets (f :: d) = .ok qs) ↔
                (1 ≤ ps.length ∧ ps.length ≤ 64) ∧ ∀ p ∈ ps, p ≠ []) := by
  have hdecode : ∀ d, (∃ ps, fuzzerPackets (f :: d) = .ok ps) ↔
      ∃ ps, EncodesPayload f d ps := by
    intro d
    simp only [fuzzerPackets_eq_ok_iff hf]
  refine ⟨fun d => ⟨fuzzValidMultipacketData_iff f d, validMultipacket_iff f d,
    hdecode d, ?_⟩, ?_⟩
  · intro ps hps
    refine ⟨(fuzzerPackets_eq_ok_iff hf).mpr hps, fun qs hqs => ?_⟩
    obtain ⟨hlen, hframed⟩ := multipacket_eq_ok_iff.mp hqs
    have hread := (encodesPayload_iff.mp hps).1
    rw [(List.cons.inj hframed).2] at hread
    exact (ne_nil_of_readAll_frames hlen hread).1.symm
  · intro ps hlen
    have hframes := encodesPayload_frames_iff (f := f) hlen
    exact ⟨_, multipacket_eq_ok_iff.mpr ⟨hlen, rfl⟩,
      (fuzzValidMultipacketData_iff f _).trans hframes,
      (validMultipacket_iff f _).trans hframes, (hdecode _).trans hframes⟩

/-- Two packets behind control byte `0x02` are decoded. -/
theorem multipacket_grammar_two_packets :
    fuzzerPackets [0x02, 0x00, 0x01, 0x78, 0x00, 0x02, 0x79, 0x7A] = .ok [[0x78], [0x79, 0x7A]] :=
  (((multipacket_grammar 0x02 (by decide)).1 [0x00, 0x01, 0x78, 0x00, 0x02, 0x79, 0x7A]).2.2.2
    [[0x78], [0x79, 0x7A]] ⟨by decide, by decide, by decide⟩).1

end LighttpdFuzz
