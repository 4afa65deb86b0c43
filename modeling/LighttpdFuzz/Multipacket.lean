import LighttpdFuzz.PyBytes
import LighttpdFuzz.SelfDelimiting

/-!
# The multipacket input format: the Python side

A fuzzer input is a control byte followed by a payload. With bit `0x02`
of the control byte set, the payload is a sequence of packets, each
preceded by its length in two big-endian bytes. The corpus tool writes
this format (`multipacket`) and checks it (`validMultipacket`), and the
replay tool decodes it (`fuzzerPackets`).

Each tool has a loop of its own over the payload. All of them are
measured against one grammar, `packetFraming`: a packet is spelled by its
length and its bytes, and has 1 to 65535 bytes. The loops differ in how
they compare lengths and in where they count; the lemmas at the end of
each section say that one round of the loop is one item of the grammar.
-/

namespace LighttpdFuzz

open Bytes

/-- `FUZZ_FRAGMENT_SEND_FLAG`. -/
def fuzzFragmentSendFlag : UInt8 := 0x01

/-- `FUZZ_MULTIPACKET_FLAG`. -/
def fuzzMultipacketFlag : UInt8 := 0x02

/-- `FUZZ_WAIT_FOR_RESPONSE_FLAG`. -/
def fuzzWaitForResponseFlag : UInt8 := 0x04

/-- `FUZZ_MAX_PACKET_COUNT`. -/
def fuzzMaxPacketCount : Nat := 64

/-! ## The programs -/

/-- The loop of `multipacket`. -/
def multipacketLoop (result : Bytes) : List Bytes → Except PyException Bytes
  | [] => .ok result
  | packet :: packets => do
      let length ← toBytesBig 2 packet.length
      multipacketLoop (result ++ length ++ packet) packets

/-- `multipacket(flags, packets)`: frame packets behind a control byte. -/
def multipacket (flags : UInt8) (packets : List Bytes) : Except PyException Bytes :=
  multipacketLoop [flags] packets

/-- The loop of `valid_multipacket`, entered at `offset`. -/
def validMultipacketLoop (data : Bytes) (offset packetCount : Nat) : Bool :=
  if offset < data.length then
    if data.length - offset < 2 then false
    else
      let size := intFromBig (data.slice offset (offset + 2))
      if size = 0 ∨ size > data.length - (offset + 2) then false
      else if packetCount + 1 > 64 then false
      else validMultipacketLoop data (offset + 2 + size) (packetCount + 1)
  else decide (packetCount > 0)
termination_by data.length - offset

/-- `valid_multipacket(data)`. -/
def validMultipacket (data : Bytes) : Bool := validMultipacketLoop data 0 0

/-- The loop of `fuzzer_packets`, entered at `offset`. -/
def fuzzerPacketsLoop (data : Bytes) (offset : Nat) (packets : List Bytes) :
    Except PyException (List Bytes) :=
  if offset < data.length then
    if data.length - offset < 2 then .error (.valueError "truncated packet length")
    else
      let length := intFromBig (data.slice offset (offset + 2))
      let stop := offset + 2 + length
      if length = 0 ∨ stop > data.length then
        .error (.valueError "invalid packet length")
      else if (packets ++ [data.slice (offset + 2) stop]).length > 64 then
        .error (.valueError "too many packets")
      else fuzzerPacketsLoop data stop (packets ++ [data.slice (offset + 2) stop])
  else .ok packets
termination_by data.length - offset

/-- `fuzzer_packets(data)`: the packets of a fuzzer input. -/
def fuzzerPackets (data : Bytes) : Except PyException (List Bytes) :=
  match data with
  | [] => .error (.valueError "empty fuzzer input")
  | control :: payload =>
      if control &&& 0x02 = 0 then .ok [payload]
      else
        match fuzzerPacketsLoop (control :: payload) 1 [] with
        | .error error => .error error
        | .ok [] => .error (.valueError "fuzzer input has no packets")
        | .ok packets => .ok packets

/-! ## The grammar -/

/-- One framed packet: its length and its bytes. -/
def framePacket (packet : Bytes) : Bytes := bigDigits 2 packet.length ++ packet

/-- Read one framed packet off the front. -/
def readPacket (l : Bytes) : Option (Bytes × Bytes) :=
  if l.length < 2 then none
  else
    let size := intFromBig (l.take 2)
    if size = 0 ∨ size > l.length - 2 then none
    else some ((l.drop 2).take size, l.drop (2 + size))

theorem readPacket_framePacket {packet : Bytes} (hpos : 1 ≤ packet.length)
    (hle : packet.length ≤ 65535) (t : Bytes) :
    readPacket (framePacket packet ++ t) = some (packet, t) := by
  have htake : (framePacket packet ++ t).take 2 = bigDigits 2 packet.length := by
    rw [framePacket, List.append_assoc, List.take_left' (length_bigDigits ..)]
  have hdrop : (framePacket packet ++ t).drop 2 = packet ++ t := by
    rw [framePacket, List.append_assoc, List.drop_left' (length_bigDigits ..)]
  have hsize : intFromBig (bigDigits 2 packet.length) = packet.length :=
    intFromBig_bigDigits (by omega)
  have hlen : (framePacket packet ++ t).length = 2 + packet.length + t.length := by
    simp only [framePacket, List.length_append, length_bigDigits]
  rw [readPacket, if_neg (by omega), htake, hsize]
  simp only
  rw [if_neg (by omega), ← List.drop_drop, hdrop, List.take_left, List.drop_left]

theorem framePacket_of_readPacket {l packet t : Bytes}
    (h : readPacket l = some (packet, t)) :
    (1 ≤ packet.length ∧ packet.length ≤ 65535) ∧ l = framePacket packet ++ t := by
  unfold readPacket at h
  split at h
  · cases h
  · next hlen =>
      simp only at h
      split at h
      · cases h
      · next hsize =>
          obtain ⟨rfl, rfl⟩ := Prod.mk.injEq .. |>.mp (Option.some.inj h)
          have hlt := intFromBig_lt (l.take 2)
          have h2 : (l.take 2).length = 2 := by rw [List.length_take]; omega
          have hpl : ((l.drop 2).take (intFromBig (l.take 2))).length
              = intFromBig (l.take 2) := by
            rw [List.length_take, List.length_drop]; omega
          rw [h2] at hlt
          refine ⟨by omega, ?_⟩
          have hdig : bigDigits 2 (intFromBig (l.take 2)) = l.take 2 := by
            have := bigDigits_intFromBig (l.take 2)
            rwa [h2] at this
          rw [framePacket, hpl, hdig, List.append_assoc, ← List.drop_drop,
            List.take_append_drop, List.take_append_drop]

/-- The packet grammar: 1 to 65535 bytes behind their length. -/
def packetFraming : Framing Bytes UInt8 where
  Spells w packet :=
    (1 ≤ packet.length ∧ packet.length ≤ 65535) ∧ w = framePacket packet
  read := readPacket
  read_append := by
    rintro w packet ⟨⟨hpos, hle⟩, rfl⟩ t
    exact readPacket_framePacket hpos hle t
  spells_of_read h := by
    obtain ⟨hlen, hl⟩ := framePacket_of_readPacket h
    exact ⟨_, ⟨hlen, rfl⟩, hl⟩
  ne_nil := by
    rintro w packet ⟨⟨hpos, -⟩, rfl⟩ hnil
    have : (framePacket packet).length = 0 := by rw [hnil]; rfl
    simp [framePacket] at this

theorem packetFraming_read (l : Bytes) : packetFraming.read l = readPacket l := rfl

theorem spellsAll_iff {l : Bytes} {packets : List Bytes} :
    packetFraming.SpellsAll l packets ↔
      (∀ p ∈ packets, 1 ≤ p.length ∧ p.length ≤ 65535)
        ∧ l = packets.flatMap framePacket := by
  constructor
  · intro h
    induction h with
    | nil => exact ⟨by simp, rfl⟩
    | cons hw _ ih =>
        obtain ⟨hlen, rfl⟩ := hw
        obtain ⟨hall, rfl⟩ := ih
        exact ⟨List.forall_mem_cons.mpr ⟨hlen, hall⟩, rfl⟩
  · rintro ⟨hall, rfl⟩
    induction packets with
    | nil => exact .nil
    | cons p packets ih =>
        obtain ⟨hp, hrest⟩ := List.forall_mem_cons.mp hall
        exact .cons ⟨hp, rfl⟩ (ih hrest)

/-! ## One round of a loop is one item

The loops read at an offset; these are the three ways a round can go. -/

theorem readPacket_drop_short {data : Bytes} {offset : Nat}
    (h : data.length - offset < 2) : readPacket (data.drop offset) = none := by
  rw [readPacket, if_pos (by rw [List.length_drop]; exact h)]

theorem readPacket_drop_bad {data : Bytes} {offset : Nat}
    (hlen : ¬ data.length - offset < 2)
    (h : intFromBig (data.slice offset (offset + 2)) = 0
      ∨ intFromBig (data.slice offset (offset + 2)) > data.length - (offset + 2)) :
    readPacket (data.drop offset) = none := by
  rw [slice_eq_take_drop] at h
  rw [readPacket, if_neg (by rw [List.length_drop]; exact hlen)]
  simp only
  rw [if_pos (by rw [List.length_drop]; omega)]

theorem readPacket_drop_good {data : Bytes} {offset : Nat}
    (hlen : ¬ data.length - offset < 2)
    (h : ¬ (intFromBig (data.slice offset (offset + 2)) = 0
      ∨ intFromBig (data.slice offset (offset + 2)) > data.length - (offset + 2))) :
    readPacket (data.drop offset)
      = some (data.slice (offset + 2)
            (offset + 2 + intFromBig (data.slice offset (offset + 2))),
          data.drop (offset + 2 + intFromBig (data.slice offset (offset + 2)))) := by
  rw [slice_eq_take_drop data offset 2] at h ⊢
  rw [slice_eq_take_drop, readPacket, if_neg (by rw [List.length_drop]; exact hlen)]
  simp only
  rw [if_neg (by rw [List.length_drop]; omega), List.drop_drop, List.drop_drop,
    Nat.add_assoc]

/-- A payload with no complete item at `offset` has no items from there. -/
theorem readAll_drop_none {data : Bytes} {offset : Nat} (hlt : offset < data.length)
    (h : readPacket (data.drop offset) = none) :
    packetFraming.readAll (data.drop offset) = none := by
  refine Framing.readAll_of_read_none (fun hnil => ?_) h
  have := congrArg List.length hnil
  rw [List.length_drop, List.length_nil] at this
  omega

theorem readAll_drop_end {data : Bytes} {offset : Nat} (h : ¬ offset < data.length) :
    packetFraming.readAll (data.drop offset) = some [] := by
  rw [List.drop_eq_nil_of_le (by omega)]
  exact Framing.readAll_nil

/-- A complete item at `offset` is the first of the items from there. -/
theorem readAll_drop_good {data : Bytes} {offset : Nat}
    (hlen : ¬ data.length - offset < 2)
    (h : ¬ (intFromBig (data.slice offset (offset + 2)) = 0
      ∨ intFromBig (data.slice offset (offset + 2)) > data.length - (offset + 2)))
    {packets : List Bytes} :
    packetFraming.readAll (data.drop offset) = some packets ↔
      ∃ rest, packetFraming.readAll
          (data.drop (offset + 2 + intFromBig (data.slice offset (offset + 2))))
            = some rest
        ∧ data.slice (offset + 2)
            (offset + 2 + intFromBig (data.slice offset (offset + 2))) :: rest
            = packets := by
  have hread : packetFraming.read (data.drop offset) = _ := readPacket_drop_good hlen h
  rw [Framing.readAll_of_read hread, Option.map_eq_some_iff]

/-! ## The loops against the grammar -/

theorem multipacketLoop_eq_ok_iff {packets : List Bytes} {result framed : Bytes} :
    multipacketLoop result packets = .ok framed ↔
      (∀ p ∈ packets, p.length ≤ 65535)
        ∧ framed = result ++ packets.flatMap framePacket := by
  induction packets generalizing result with
  | nil => simp [multipacketLoop, eq_comm]
  | cons p packets ih =>
      rw [List.forall_mem_cons, multipacketLoop, toBytesBig]
      by_cases hp : p.length ≤ 65535
      · rw [if_pos (by omega)]
        show multipacketLoop (result ++ bigDigits 2 p.length ++ p) packets = _ ↔ _
        rw [ih]
        simp [hp, framePacket]
      · rw [if_neg (by omega)]
        show Except.error _ = Except.ok framed ↔ _
        simp [hp]

/-- What `multipacket` produces: the frames, when every length fits. -/
theorem multipacket_eq_ok_iff {flags : UInt8} {packets : List Bytes} {framed : Bytes} :
    multipacket flags packets = .ok framed ↔
      (∀ p ∈ packets, p.length ≤ 65535)
        ∧ framed = flags :: packets.flatMap framePacket :=
  multipacketLoop_eq_ok_iff

/-- From `offset` on, with at most 64 packets counted, `valid_multipacket`
accepts exactly when the rest is a sequence of packets that keeps the
total between 1 and 64. -/
theorem validMultipacketLoop_iff {data : Bytes} {offset packetCount : Nat}
    (hcount : packetCount ≤ 64) :
    validMultipacketLoop data offset packetCount = true ↔
      ∃ packets, packetFraming.readAll (data.drop offset) = some packets
        ∧ 1 ≤ packetCount + packets.length ∧ packetCount + packets.length ≤ 64 := by
  fun_induction validMultipacketLoop data offset packetCount with
  | case1 offset packetCount hlt hshort =>
      rw [readAll_drop_none hlt (readPacket_drop_short hshort)]
      simp
  | case2 offset packetCount hlt hlen size hsize =>
      rw [readAll_drop_none hlt (readPacket_drop_bad hlen hsize)]
      simp
  | case3 offset packetCount hlt hlen size hsize hmany =>
      simp only [readAll_drop_good hlen hsize]
      constructor
      · intro h; cases h
      · rintro ⟨packets, ⟨rest, -, rfl⟩, -, hle⟩
        rw [List.length_cons] at hle
        omega
  | case4 offset packetCount hlt hlen size hsize hmany ih =>
      rw [ih (by omega)]
      simp only [readAll_drop_good hlen hsize]
      constructor
      · rintro ⟨rest, hrest, hpos, hle⟩
        exact ⟨_, ⟨rest, hrest, rfl⟩, by rw [List.length_cons]; omega,
          by rw [List.length_cons]; omega⟩
      · rintro ⟨packets, ⟨rest, hrest, rfl⟩, hpos, hle⟩
        rw [List.length_cons] at hpos hle
        exact ⟨rest, hrest, by omega, by omega⟩
  | case5 offset packetCount hend =>
      rw [readAll_drop_end hend]
      simp only [decide_eq_true_eq, Option.some.injEq, exists_eq_left', List.length_nil]
      omega

/-- From `offset` on, with at most 64 packets collected, `fuzzer_packets`
collects exactly the remaining packets of the grammar, as long as they do
not exceed 64 in total. -/
theorem fuzzerPacketsLoop_eq_ok_iff {data : Bytes} {offset : Nat}
    {packets result : List Bytes} (hcount : packets.length ≤ 64) :
    fuzzerPacketsLoop data offset packets = .ok result ↔
      ∃ rest, packetFraming.readAll (data.drop offset) = some rest
        ∧ result = packets ++ rest ∧ packets.length + rest.length ≤ 64 := by
  fun_induction fuzzerPacketsLoop data offset packets with
  | case1 offset packets hlt hshort =>
      rw [readAll_drop_none hlt (readPacket_drop_short hshort)]
      simp
  | case2 offset packets hlt hlen length stop hsize =>
      have hbad : length = 0 ∨ length > data.length - (offset + 2) := by omega
      rw [readAll_drop_none hlt (readPacket_drop_bad hlen hbad)]
      simp
  | case3 offset packets hlt hlen length stop hsize hmany =>
      have hgood : ¬ (length = 0 ∨ length > data.length - (offset + 2)) := by omega
      simp only [readAll_drop_good hlen hgood]
      rw [List.length_append, List.length_singleton] at hmany
      constructor
      · intro h; cases h
      · rintro ⟨all, ⟨rest, -, rfl⟩, -, hle⟩
        rw [List.length_cons] at hle
        omega
  | case4 offset packets hlt hlen length stop hsize hmany ih =>
      have hgood : ¬ (length = 0 ∨ length > data.length - (offset + 2)) := by omega
      simp only [readAll_drop_good hlen hgood]
      rw [ih (by omega)]
      constructor
      · rintro ⟨rest, hrest, rfl, hle⟩
        refine ⟨_, ⟨rest, hrest, rfl⟩, ?_, ?_⟩
        · rw [List.append_assoc, List.singleton_append]
        · rw [List.length_append, List.length_singleton] at hle
          rw [List.length_cons]; omega
      · rintro ⟨all, ⟨rest, hrest, rfl⟩, rfl, hle⟩
        rw [List.length_cons] at hle
        refine ⟨rest, hrest, ?_, ?_⟩
        · rw [List.append_assoc, List.singleton_append]
        · rw [List.length_append, List.length_singleton]; omega
  | case5 offset packets hend =>
      rw [readAll_drop_end hend]
      simp only [Except.ok.injEq, Option.some.injEq, exists_eq_left', List.append_nil,
        List.length_nil, Nat.add_zero, eq_comm (a := packets)]
      exact ⟨fun h => ⟨h, hcount⟩, And.left⟩

end LighttpdFuzz
