import LighttpdFuzz.MultipacketGrammar
import LighttpdFuzz.Transmission

/-!
# Corpus units

`normalize` of the corpus tool rewrites a unit so that the harness does
not drop it: a control byte above `0x07`, or framing that is not valid,
makes the whole unit the payload of a new control byte 0. The harness
then sends what it would have sent, or the unit itself as one packet
(`normalize_executable`).

What the harness sends is read off its loop over the payload
(`harnessSends`); a run of the loop hands exactly these ranges to
`sendPacket` (`sendMultipacketLoop_eq`).
-/

namespace LighttpdFuzz

open Bytes

/-- `normalize(data)` -/
def normalize (data : Bytes) : Bytes :=
  match data with
  | [] => []
  | flags :: payload =>
      if flags ≤ 0x07 then
        if flags &&& 0x02 ≠ 0 ∧ validMultipacket payload = false then 0x00 :: flags :: payload
        else (flags &&& 0x07) :: payload
      else 0x00 :: flags :: payload

/-! ## What the harness sends -/

/-- The ranges that the loop of `sendMultipacketData` hands to
`sendPacket`, entered at `offset`. -/
def packetRanges (data : Bytes) (size offset : Nat) : List (Nat × Nat) :=
  if offset < size then
    (offset + 2, packetSizeAt data offset)
      :: packetRanges data size (offset + 2 + packetSizeAt data offset)
  else []
termination_by size - offset

/-- The control byte and the packets of an input that `fuzzServer` does
not drop. -/
def harnessSends (data : Bytes) : UInt8 × List Bytes :=
  let flags := data.headD 0
  let payload : Bytes := data.drop 1
  if flags &&& fuzzMultipacketFlag != 0 then
    (flags, (packetRanges payload payload.length 0).map fun range =>
      payload.slice range.1 (range.1 + range.2))
  else (flags, [payload])

/-- Send packets one by one, with a wait between two of them. -/
def sendRanges (waitForResponse fragmented : Bool) :
    List (Nat × Nat) → Kernel → Int × Kernel
  | [], k => (0, k)
  | (start, packetSize) :: ranges, k =>
      let sent := sendPacket start packetSize fragmented
        (k.note [.load (start - 2), .load (start - 1), .setOffset start])
      if sent.1 = -1 then (-1, sent.2)
      else
        let moved := sent.2.note [.setOffset (start + packetSize)]
        if ranges ≠ [] ∧ waitForResponse then
          let waited := readSomeResponse moved
          if waited.1 = -1 then (-1, waited.2)
          else sendRanges waitForResponse fragmented ranges waited.2
        else sendRanges waitForResponse fragmented ranges moved

theorem packetRanges_ne_nil {data : Bytes} {size offset : Nat} :
    packetRanges data size offset ≠ [] ↔ offset < size := by
  unfold packetRanges
  by_cases h : offset < size
  · rw [if_pos h]
    exact ⟨fun _ => h, fun _ => nofun⟩
  · rw [if_neg h]
    exact ⟨fun hne => absurd rfl hne, fun hlt => absurd hlt h⟩

/-- The loop sends the packets in its ranges. -/
theorem sendMultipacketLoop_eq (data : Bytes) (size : Nat) (waitForResponse fragmented : Bool)
    (offset : Nat) (k : Kernel) :
    sendMultipacketLoop data size waitForResponse fragmented offset k
      = sendRanges waitForResponse fragmented (packetRanges data size offset) k := by
  fun_induction sendMultipacketLoop data size waitForResponse fragmented offset k with
  | case1 offset k hlt packetSize sent hfail =>
      rw [packetRanges, if_pos hlt, sendRanges]
      exact (if_pos hfail).symm
  | case2 offset k hlt packetSize sent hok moved hmore waited hwait =>
      rw [packetRanges, if_pos hlt, sendRanges]
      have hmore' : packetRanges data size (offset + 2 + packetSize) ≠ [] ∧ waitForResponse :=
        ⟨packetRanges_ne_nil.mpr hmore.1, hmore.2⟩
      exact (((if_neg hok).trans (if_pos hmore')).trans (if_pos hwait)).symm
  | case3 offset k hlt packetSize sent hok moved hmore waited hwait ih =>
      rw [packetRanges, if_pos hlt, sendRanges, ih]
      have hmore' : packetRanges data size (offset + 2 + packetSize) ≠ [] ∧ waitForResponse :=
        ⟨packetRanges_ne_nil.mpr hmore.1, hmore.2⟩
      exact (((if_neg hok).trans (if_pos hmore')).trans (if_neg hwait)).symm
  | case4 offset k hlt packetSize sent hok moved hmore ih =>
      rw [packetRanges, if_pos hlt, sendRanges, ih]
      have hmore' : ¬ (packetRanges data size (offset + 2 + packetSize) ≠ [] ∧ waitForResponse) :=
        fun h => hmore ⟨packetRanges_ne_nil.mp h.1, h.2⟩
      exact ((if_neg hok).trans (if_neg hmore')).symm
  | case5 offset k hend =>
      rw [packetRanges, if_neg hend, sendRanges]

/-- In a valid payload the ranges are those of the packets of the
grammar. -/
theorem packetRanges_slices {data : Bytes} {offset : Nat} {packets : List Bytes}
    (h : packetFraming.readAll (data.drop offset) = some packets) :
    (packetRanges data data.length offset).map
      (fun range => slice data range.1 (range.1 + range.2)) = packets := by
  induction packets generalizing offset with
  | nil =>
      unfold packetRanges
      by_cases hlt : offset < data.length
      · obtain ⟨p, rest, hcons, -⟩ := packet_at_offset hlt h
        cases hcons
      · rw [if_neg hlt, List.map_nil]
  | cons p packets ih =>
      have hlt : offset < data.length := by
        by_contra hend
        rw [readAll_drop_end hend] at h
        cases h
      obtain ⟨p', rest, hcons, hsize, -, hslice, hrest⟩ := packet_at_offset hlt h
      obtain ⟨rfl, rfl⟩ := List.cons.inj hcons
      rw [packetRanges, if_pos hlt, hsize, List.map_cons, hslice, ih hrest]

/-- The harness sends what the corpus tool has framed. -/
theorem harnessSends_of_encodes {f : UInt8} (hf : f &&& fuzzMultipacketFlag ≠ 0) {d : Bytes}
    {packets : List Bytes} (h : EncodesPayload f d packets) :
    harnessSends (f :: d) = (f, packets) := by
  have hread : packetFraming.readAll (d.drop 0) = some packets := (encodesPayload_iff.mp h).1
  have hpackets := packetRanges_slices hread
  unfold harnessSends
  rw [List.headD_cons, List.drop_one, List.tail_cons, if_pos (bne_iff_ne.mpr hf), hpackets]

/-! ## Rewriting a unit -/

/-- The harness runs the unit as it is. -/
def Executable (data : Bytes) : Prop := data.headD 0 ≤ 0x07 ∧ acceptsInput data = true

/-- The two validators agree. -/
theorem fuzzValid_iff_validMultipacket (payload : Bytes) :
    (fuzzValidMultipacketData payload payload.length).1 ≠ 0 ↔ validMultipacket payload = true :=
  (fuzzValidMultipacketData_iff 0 payload).trans (validMultipacket_iff 0 payload).symm

theorem acceptsInput_cons (flags : UInt8) (payload : Bytes) :
    acceptsInput (flags :: payload) = true ↔
      (flags &&& 0x02 ≠ 0 → validMultipacket payload = true) := by
  have hvalid := fuzzValid_iff_validMultipacket payload
  unfold acceptsInput
  rw [Bool.not_eq_true', Bool.and_eq_false_iff, bne_eq_false_iff_eq, beq_eq_false_iff_ne, hvalid]
  exact ⟨fun h hne => h.resolve_left hne, fun h => or_iff_not_imp_left.mpr h⟩

theorem and_seven_of_le {flags : UInt8} (hle : flags ≤ 0x07) : flags &&& 0x07 = flags := by
  have hle' : flags.toNat ≤ 7 := hle
  have hmod : (flags &&& 0x07).toNat = flags.toNat % 2 ^ 3 :=
    (UInt8.toNat_and flags 0x07).trans (Nat.and_two_pow_sub_one_eq_mod flags.toNat 3)
  exact UInt8.toNat_inj.mp (hmod.trans (Nat.mod_eq_of_lt (by omega)))

theorem normalize_cons (flags : UInt8) (payload : Bytes) :
    normalize (flags :: payload) =
      if flags ≤ 0x07 then
        if flags &&& 0x02 ≠ 0 ∧ validMultipacket payload = false then 0x00 :: flags :: payload
        else (flags &&& 0x07) :: payload
      else 0x00 :: flags :: payload :=
  rfl

/-- A unit that the harness runs is not touched. -/
theorem normalize_of_executable {d : Bytes} (h : Executable d) : normalize d = d := by
  cases d with
  | nil => rfl
  | cons flags payload =>
      obtain ⟨hle, haccepts⟩ := h
      rw [List.headD_cons] at hle
      have hframed : ¬ (flags &&& 0x02 ≠ 0 ∧ validMultipacket payload = false) := by
        rintro ⟨hbit, hbad⟩
        rw [(acceptsInput_cons flags payload).mp haccepts hbit] at hbad
        cases hbad
      rw [normalize_cons, if_pos hle, if_neg hframed, and_seven_of_le hle]

/-- Any other unit becomes the payload of a control byte. -/
theorem normalize_of_not_executable {d : Bytes} (hd : d ≠ []) (h : ¬ Executable d) :
    normalize d = 0x00 :: d := by
  cases d with
  | nil => exact absurd rfl hd
  | cons flags payload =>
      rw [normalize_cons]
      by_cases hle : flags ≤ 0x07
      · have hframed : flags &&& 0x02 ≠ 0 ∧ validMultipacket payload = false := by
          have hrejects : acceptsInput (flags :: payload) ≠ true := fun ha => h ⟨hle, ha⟩
          rw [Ne, acceptsInput_cons, Classical.not_imp, Bool.not_eq_true] at hrejects
          exact hrejects
        rw [if_pos hle, if_pos hframed]
      · rw [if_neg hle]

theorem executable_zero_cons (d : Bytes) : Executable (0x00 :: d) := by
  refine ⟨?_, (acceptsInput_cons 0x00 d).mpr fun hbit => ?_⟩
  · rw [List.headD_cons]
    decide
  · exact absurd (by decide) hbit

theorem normalize_executable_of_ne_nil {d : Bytes} (hd : d ≠ []) : Executable (normalize d) := by
  by_cases h : Executable d
  · rw [normalize_of_executable h]
    exact h
  · rw [normalize_of_not_executable hd h]
    exact executable_zero_cons d

theorem normalize_idempotent (d : Bytes) : normalize (normalize d) = normalize d := by
  rcases eq_or_ne d [] with rfl | hd
  · rfl
  · exact normalize_of_executable (normalize_executable_of_ne_nil hd)

/-- `normalize` keeps a unit or puts one zero byte in front of it. -/
theorem normalize_cases (d : Bytes) : normalize d = d ∨ normalize d = 0x00 :: d := by
  rcases eq_or_ne d [] with rfl | hd
  · exact .inl rfl
  · by_cases h : Executable d
    · exact .inl (normalize_of_executable h)
    · exact .inr (normalize_of_not_executable hd h)

theorem zero_and_multipacketFlag : ((0x00 : UInt8) &&& fuzzMultipacketFlag != 0) = false := by
  decide

/-- Behind a zero control byte a unit is one packet. -/
theorem harnessSends_zero_cons (d : Bytes) : harnessSends (0x00 :: d) = (0x00, [d]) := by
  unfold harnessSends
  simp only [List.headD_cons, List.drop_one, List.tail_cons]
  rw [zero_and_multipacketFlag]
  rfl

theorem fuzzServer_zero_cons (d : Bytes) (k : Kernel) :
    fuzzServer true (0x00 :: d) k =
      let sent := sendPacket 0 d.length false k
      if sent.1 = 0 then (readSomeResponse sent.2).2 else sent.2 := by
  have hfragment : ((0x00 : UInt8) &&& fuzzFragmentSendFlag != 0) = false := by decide
  unfold fuzzServer
  simp only [(executable_zero_cons d).2, List.headD_cons, List.drop_one, List.tail_cons]
  rw [zero_and_multipacketFlag, hfragment]
  rfl

/-- With the multipacket flag the harness goes through the ranges. -/
theorem fuzzServer_multipacket {flags : UInt8} {payload : Bytes}
    (hflag : flags &&& fuzzMultipacketFlag ≠ 0) (haccepts : acceptsInput (flags :: payload) = true)
    (k : Kernel) :
    fuzzServer true (flags :: payload) k =
      let sent := sendRanges (flags &&& fuzzWaitForResponseFlag != 0)
        (flags &&& fuzzFragmentSendFlag != 0) (packetRanges payload payload.length 0) k
      if sent.1 = 0 then (readSomeResponse sent.2).2 else sent.2 := by
  have hflag' : (flags &&& fuzzMultipacketFlag != 0) = true := bne_iff_ne.mpr hflag
  unfold fuzzServer sendMultipacketData
  simp only [haccepts, List.headD_cons, List.drop_one, List.tail_cons, hflag',
    sendMultipacketLoop_eq]
  rfl

/-- **Normalised units are executable and keep their content.** Applying
`normalize` again changes nothing. A nonempty unit gets a control byte of
at most `0x07` and is not dropped by the harness, which sends the packets
that the payload encodes. If the harness ran the unit as it was, it still
does the same; otherwise it sends the whole unit as one packet. -/
theorem normalize_executable (d : Bytes) :
    normalize (normalize d) = normalize d
      ∧ (d ≠ [] → ∃ flags payload, normalize d = flags :: payload
          ∧ flags ≤ 0x07
          ∧ acceptsInput (normalize d) = true
          ∧ (flags &&& fuzzMultipacketFlag ≠ 0 →
              (fuzzValidMultipacketData payload payload.length).1 ≠ 0)
          ∧ (flags &&& fuzzMultipacketFlag ≠ 0 → ∃ packets, EncodesPayload flags payload packets
              ∧ harnessSends (normalize d) = (flags, packets)
              ∧ ∀ k, fuzzServer true (normalize d) k =
                  let sent := sendRanges (flags &&& fuzzWaitForResponseFlag != 0)
                    (flags &&& fuzzFragmentSendFlag != 0)
                    (packetRanges payload payload.length 0) k
                  if sent.1 = 0 then (readSomeResponse sent.2).2 else sent.2)
          ∧ (d.headD 0 ≤ 0x07 ∧ acceptsInput d = true →
              harnessSends (normalize d) = harnessSends d
                ∧ ∀ connected k, fuzzServer connected (normalize d) k = fuzzServer connected d k)
          ∧ (¬ (d.headD 0 ≤ 0x07 ∧ acceptsInput d = true) →
              harnessSends (normalize d) = (0x00, [d])
                ∧ ∀ k, fuzzServer true (normalize d) k =
                    let sent := sendPacket 0 d.length false k
                    if sent.1 = 0 then (readSomeResponse sent.2).2 else sent.2)) := by
  refine ⟨normalize_idempotent d, fun hd => ?_⟩
  have hexecutable := normalize_executable_of_ne_nil hd
  have hne : normalize d ≠ [] := by
    rcases normalize_cases d with h | h
    · rw [h]
      exact hd
    · rw [h]
      nofun
  obtain ⟨flags, payload, hcons⟩ := List.exists_cons_of_ne_nil hne
  have haccepts := hexecutable.2
  rw [hcons] at haccepts
  have hframed : flags &&& fuzzMultipacketFlag ≠ 0 →
      (fuzzValidMultipacketData payload payload.length).1 ≠ 0 := by
    intro hbit
    rw [fuzzValid_iff_validMultipacket]
    exact (acceptsInput_cons flags payload).mp haccepts hbit
  refine ⟨flags, payload, hcons, ?_, hexecutable.2, hframed, fun hbit => ?_, ?_, ?_⟩
  · have hle := hexecutable.1
    rwa [hcons] at hle
  · obtain ⟨packets, hencodes⟩ := (fuzzValidMultipacketData_iff flags payload).mp (hframed hbit)
    rw [hcons]
    exact ⟨packets, hencodes, harnessSends_of_encodes hbit hencodes,
      fuzzServer_multipacket hbit haccepts⟩
  · intro h
    rw [normalize_of_executable h]
    exact ⟨rfl, fun _ _ => rfl⟩
  · intro h
    rw [normalize_of_not_executable hd h]
    exact ⟨harnessSends_zero_cons d, fuzzServer_zero_cons d⟩

end LighttpdFuzz
