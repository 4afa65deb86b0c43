import LighttpdFuzz.Hpack

/-!
# The HTTP/2 seeds

The corpus tool writes the HTTP/2 seeds with an encoder of its own: numbers
with a prefix (`hpackInteger`), strings and literals on top of them, header
blocks, and frames (`h2Frame`). The tests read the frames back with
`h2Frames`, which is written independently.

Each part of the encoder is shown to be read by the corresponding part of
the HPACK decoder, so a block is a list of representations and its decoding
the list of its fields.
-/

namespace LighttpdFuzz

open Hpack

/-! ## Integers -/

/-- The loop of `hpack_integer`, with its last `append`. -/
def hpackIntegerLoop (result : Bytes) (value : Nat) : Except PyException Bytes :=
  if 128 ≤ value then do
    let result ← result.appendValue ((value &&& 0x7F) ||| 0x80)
    hpackIntegerLoop result (value >>> 7)
  else result.appendValue value
termination_by value
decreasing_by
  rw [Nat.shiftRight_eq_div_pow]
  omega

/-- `hpack_integer(value, prefix_bits, first_byte)` -/
def hpackInteger (value prefixBits firstByte : Nat) : Except PyException Bytes := do
  let prefixMax := (1 <<< prefixBits) - 1
  if value < prefixMax then Bytes.ofValues [firstByte ||| value]
  else
    let result ← Bytes.appendValue [] (firstByte ||| prefixMax)
    hpackIntegerLoop result (value - prefixMax)

theorem appendValue_ok {data : Bytes} {value : Nat} (h : value < 256) :
    data.appendValue value = .ok (data ++ [UInt8.ofNat value]) := if_pos h

theorem toNat_ofNat {n : Nat} (h : n < 256) : (UInt8.ofNat n).toNat = n := by
  rw [UInt8.toNat_ofNat']
  exact Nat.mod_eq_of_lt h

theorem digit_eq (value : Nat) : (value &&& 0x7F) ||| 0x80 = value % 128 + 128 := by
  rw [Nat.and_two_pow_sub_one_eq_mod value 7, Nat.or_comm,
    ← Nat.two_pow_add_eq_or_of_lt (i := 7) (Nat.mod_lt value (by decide)) 1]
  omega

/-- The loop ends, and what it appends is read back. -/
theorem hpackIntegerLoop_ok (result : Bytes) (value : Nat) :
    ∃ digits, hpackIntegerLoop result value = .ok (result ++ digits)
      ∧ ∀ shift start, Reads (decodeDigits shift start) digits (start + value * 2 ^ shift) := by
  fun_induction hpackIntegerLoop result value with
  | case1 result value hlong ih =>
      have hbyte : value % 128 + 128 < 256 := by omega
      obtain ⟨digits, hloop, hreads⟩ := ih (result ++ [UInt8.ofNat (value % 128 + 128)])
      refine ⟨UInt8.ofNat (value % 128 + 128) :: digits, ?_, fun shift start => ?_⟩
      · rw [digit_eq, appendValue_ok hbyte]
        exact hloop.trans (by rw [List.append_assoc, List.singleton_append])
      · have hsplit : start + value * 2 ^ shift
            = start + value % 128 * 2 ^ shift + value / 128 * 2 ^ (shift + 7) := by
          have hvalue : value * 2 ^ shift
              = 128 * (value / 128) * 2 ^ shift + value % 128 * 2 ^ shift := by
            rw [← Nat.add_mul, Nat.div_add_mod]
          have hmove : 128 * (value / 128) * 2 ^ shift = value / 128 * 2 ^ (shift + 7) := by
            rw [Nat.pow_add, Nat.mul_comm 128, Nat.mul_assoc, Nat.mul_comm 128]
          omega
        have hnat := toNat_ofNat hbyte
        rw [hsplit]
        refine reads_continued (by omega) ?_
        have hmod : (value % 128 + 128) % 128 = value % 128 := by omega
        rw [hnat, hmod]
        have hrest := hreads (shift + 7) (start + value % 128 * 2 ^ shift)
        rwa [Nat.shiftRight_eq_div_pow] at hrest
  | case2 result value hshort =>
      have hnat := toNat_ofNat (show value < 256 by omega)
      refine ⟨[UInt8.ofNat value], appendValue_ok (by omega), fun shift start => ?_⟩
      have hreads := @reads_digit shift start (UInt8.ofNat value) (by omega)
      rwa [hnat] at hreads

/-- A number below the prefix is added to a byte that leaves the prefix free. -/
theorem or_low_bits {bits firstByte n : Nat} (hlow : firstByte % 2 ^ bits = 0) (hn : n < 2 ^ bits) :
    firstByte ||| n = firstByte + n := by
  have hfirst := Nat.div_add_mod firstByte (2 ^ bits)
  rw [hlow, Nat.add_zero] at hfirst
  rw [← hfirst, Nat.two_pow_add_eq_or_of_lt hn]

/-- The byte with the prefix. -/
theorem prefix_byte {bits firstByte n : Nat} (hbits : bits ≤ 8) (hfirst : firstByte < 256)
    (hlow : firstByte % 2 ^ bits = 0) (hn : n < 2 ^ bits) :
    firstByte ||| n < 256 ∧ (firstByte ||| n) % 2 ^ bits = n
      ∧ (firstByte ||| n) / 2 ^ bits = firstByte / 2 ^ bits := by
  refine ⟨?_, ?_, ?_⟩
  · have hle : 2 ^ bits ≤ 2 ^ 8 := Nat.pow_le_pow_right (by decide) hbits
    exact @Nat.or_lt_two_pow firstByte n 8 hfirst (by omega)
  · rw [or_low_bits hlow hn, Nat.add_mod, hlow, Nat.zero_add, Nat.mod_mod, Nat.mod_eq_of_lt hn]
  · obtain ⟨high, rfl⟩ := Nat.dvd_of_mod_eq_zero hlow
    have hpos : 0 < 2 ^ bits := Nat.two_pow_pos bits
    rw [or_low_bits hlow hn, Nat.mul_add_div hpos, Nat.mul_div_cancel_left _ hpos,
      Nat.div_eq_of_lt hn, Nat.add_zero]

theorem hpackInteger_ok {bits firstByte : Nat} (hbits : bits ≤ 8) (hfirst : firstByte < 256)
    (hlow : firstByte % 2 ^ bits = 0) (value : Nat) :
    ∃ b digits, hpackInteger value bits firstByte = .ok (b :: digits)
      ∧ b.toNat / 2 ^ bits = firstByte / 2 ^ bits
      ∧ Reads (decodeInteger bits) (b :: digits) value := by
  have hpos : 0 < 2 ^ bits := Nat.two_pow_pos bits
  rw [hpackInteger, Nat.one_shiftLeft]
  by_cases hshort : value < 2 ^ bits - 1
  · obtain ⟨hlt, hmod, hdiv⟩ := prefix_byte (n := value) hbits hfirst hlow (by omega)
    have hnat := toNat_ofNat hlt
    refine ⟨UInt8.ofNat (firstByte ||| value), [], ?_, by rw [hnat, hdiv], ?_⟩
    · rw [if_pos hshort, Bytes.ofValues, List.all_cons, decide_eq_true hlt]
      rfl
    · have hreads := @reads_short bits (UInt8.ofNat (firstByte ||| value)) (by rwa [hnat, hmod])
      rwa [hnat, hmod] at hreads
  · obtain ⟨hlt, hmod, hdiv⟩ := prefix_byte (n := 2 ^ bits - 1) hbits hfirst hlow (by omega)
    have hnat := toNat_ofNat hlt
    obtain ⟨digits, hloop, hreads⟩ :=
      hpackIntegerLoop_ok [UInt8.ofNat (firstByte ||| (2 ^ bits - 1))] (value - (2 ^ bits - 1))
    refine ⟨_, digits, ?_, by rw [hnat, hdiv], reads_long (by rw [hnat, hmod]) ?_⟩
    · rw [if_neg hshort, appendValue_ok hlt]
      exact hloop
    · have hreads := hreads 0 (2 ^ bits - 1)
      rwa [Nat.pow_zero, Nat.mul_one, Nat.add_sub_of_le (by omega)] at hreads

/-- Numbers are written in bytes, the prefix leaves the high bits of the
first byte alone, decoding gives the number and whatever stands behind it,
and no number is written as the beginning of another. -/
theorem hpack_integer {bits firstByte : Nat} (hbits : bits ≤ 8) (hfirst : firstByte < 256)
    (hlow : firstByte % 2 ^ bits = 0) (value : Nat) :
    ∃ b digits, hpackInteger value bits firstByte = .ok (b :: digits)
      ∧ b.toNat / 2 ^ bits = firstByte / 2 ^ bits
      ∧ (∀ t, decodeInteger bits (b :: digits ++ t) = some (value, t))
      ∧ ∀ value' firstByte' data, firstByte' < 256 → firstByte' % 2 ^ bits = 0 →
        hpackInteger value' bits firstByte' = .ok data → b :: digits <+: data →
        value = value' ∧ firstByte = firstByte' := by
  obtain ⟨b, digits, hok, hdiv, hreads⟩ := hpackInteger_ok hbits hfirst hlow value
  refine ⟨b, digits, hok, hdiv, hreads, ?_⟩
  intro value' firstByte' data hfirst' hlow' hok' hprefix
  obtain ⟨b', digits', hok', hdiv', hreads'⟩ : ∃ b' digits', data = b' :: digits'
      ∧ b'.toNat / 2 ^ bits = firstByte' / 2 ^ bits
      ∧ Reads (decodeInteger bits) (b' :: digits') value' := by
    obtain ⟨b', digits', hok'', h⟩ := hpackInteger_ok hbits hfirst' hlow' value'
    exact ⟨b', digits', Except.ok.inj (hok'.symm.trans hok''), h⟩
  subst hok'
  obtain ⟨rfl, hsame⟩ := hreads.eq_of_isPrefix hreads' hprefix
  obtain ⟨rfl, -⟩ := List.cons.inj hsame
  refine ⟨rfl, ?_⟩
  rw [← Nat.div_add_mod firstByte (2 ^ bits), ← Nat.div_add_mod firstByte' (2 ^ bits), hlow,
    hlow', ← hdiv, hdiv']

theorem hpack_integer_five_bits :
    ∃ b digits, hpackInteger 1337 5 0x20 = .ok (b :: digits)
      ∧ b.toNat / 2 ^ 5 = 0x20 / 2 ^ 5
      ∧ (∀ t, decodeInteger 5 (b :: digits ++ t) = some (1337, t))
      ∧ ∀ value' firstByte' data, firstByte' < 256 → firstByte' % 2 ^ 5 = 0 →
        hpackInteger value' 5 firstByte' = .ok data → b :: digits <+: data →
        1337 = value' ∧ 0x20 = firstByte' :=
  hpack_integer (by decide) (by decide) (by decide) 1337

/-! ## Header blocks -/

/-- `hpack_raw_string(value)` -/
def hpackRawString (value : Bytes) : Except PyException Bytes := do
  let length ← hpackInteger value.length 7 0
  return length ++ value

/-- `hpack_literal(index, value)` -/
def hpackLiteral (index : Nat) (value : Bytes) : Except PyException Bytes := do
  let name ← hpackInteger index 4 0
  let string ← hpackRawString value
  return name ++ string

/-- `hpack_literal_name(name, value)` -/
def hpackLiteralName (name value : Bytes) : Except PyException Bytes := do
  let nameString ← hpackRawString name
  let valueString ← hpackRawString value
  return [0x00] ++ nameString ++ valueString

/-- `method_field` of `h2_request_headers`. -/
def h2MethodField (method : Bytes) : Except PyException Bytes :=
  if method = Bytes.ascii "GET" then .ok [0x82] else hpackLiteral 2 method

/-- The block of `h2_request_headers`. -/
def h2RequestBlock (method path : Bytes) (headers : List Field) : Except PyException Bytes := do
  let methodField ← h2MethodField method
  let pathField ← hpackLiteral 4 path
  let authority ← hpackLiteral 1 (Bytes.ascii "localhost")
  let fields ← headers.mapM fun (name, value) => hpackLiteralName name value
  return methodField ++ [0x86] ++ pathField ++ authority ++ fields.flatten

/-- The block of `h2_extended_connect_headers`. -/
def h2ExtendedConnectBlock (path : Bytes) : Except PyException Bytes := do
  let method ← hpackLiteral 2 (Bytes.ascii "CONNECT")
  let pathField ← hpackLiteral 4 path
  let authority ← hpackLiteral 1 (Bytes.ascii "localhost")
  let protocol ← hpackLiteralName (Bytes.ascii ":protocol") (Bytes.ascii "websocket")
  let version ← hpackLiteralName (Bytes.ascii "sec-websocket-version") (Bytes.ascii "13")
  let origin ← hpackLiteralName (Bytes.ascii "origin") (Bytes.ascii "http://localhost")
  return method ++ [0x86] ++ pathField ++ authority ++ protocol ++ version ++ origin

theorem hpackRawString_ok (value : Bytes) :
    ∃ w, hpackRawString value = .ok w ∧ ∀ huffman, Reads (decodeString huffman) w value := by
  obtain ⟨b, digits, hok, hdiv, hreads⟩ :=
    hpackInteger_ok (by decide : 7 ≤ 8) (by decide : 0 < 256) rfl value.length
  have hb : b.toNat < 128 := by omega
  refine ⟨b :: digits ++ value, ?_, fun huffman => reads_raw huffman hb hreads⟩
  rw [hpackRawString, hok]
  rfl

/-- A literal whose name is in the static table. -/
theorem hpackLiteral_ok {index : Nat} {name empty : Bytes}
    (h : staticTable[index]? = some (name, empty)) (value : Bytes) :
    ∃ w, hpackLiteral (index + 1) value = .ok w ∧ Represents w (name, value) := by
  obtain ⟨b, digits, hok, hdiv, hreads⟩ :=
    hpackInteger_ok (by decide : 4 ≤ 8) (by decide : 0 < 256) rfl (index + 1)
  obtain ⟨w, hvalue, hreadsValue⟩ := hpackRawString_ok value
  refine ⟨b :: (digits ++ w), ?_, represents_literal (by omega) fun huffman table => ?_⟩
  · rw [hpackLiteral, hok, hvalue]
    rfl
  · exact reads_indexed_name hreads h (hreadsValue huffman)

theorem hpackLiteralName_ok (name value : Bytes) :
    ∃ w, hpackLiteralName name value = .ok w ∧ Represents w (name, value) := by
  obtain ⟨w₁, hname, hreadsName⟩ := hpackRawString_ok name
  obtain ⟨w₂, hvalue, hreadsValue⟩ := hpackRawString_ok value
  refine ⟨0x00 :: (w₁ ++ w₂), ?_, represents_literal (by decide) fun huffman table => ?_⟩
  · rw [hpackLiteralName, hname, hvalue]
    rfl
  · have hzero : Reads (decodeInteger 4) [0x00] 0 := reads_short (b := 0x00) (by decide)
    exact reads_literal_name hzero (hreadsName huffman) (hreadsValue huffman)

theorem mapM_hpackLiteralName : ∀ headers : List Field,
    ∃ words, (headers.mapM fun (name, value) => hpackLiteralName name value) = .ok words
      ∧ List.Forall₂ Represents words headers
  | [] => ⟨[], rfl, .nil⟩
  | (name, value) :: headers => by
      obtain ⟨w, hok, hw⟩ := hpackLiteralName_ok name value
      obtain ⟨words, hwords, hall⟩ := mapM_hpackLiteralName headers
      refine ⟨w :: words, ?_, .cons hw hall⟩
      rw [List.mapM_cons, hwords]
      dsimp only
      rw [hok]
      rfl

/-- An entry of the static table, by its index alone. -/
theorem represents_static {b : UInt8} {index : Nat} {field : Field}
    (hb : b.toNat = 128 + (index + 1)) (hindex : index + 1 < 127)
    (h : staticTable[index]? = some field) : Represents [b] field := by
  have hmod : b.toNat % 2 ^ 7 = index + 1 := by omega
  have hreads := @reads_short 7 b (by omega)
  rw [hmod] at hreads
  exact represents_indexed (by omega) hreads h

/-- `data` is read as exactly these fields, whatever the dynamic table, which
is left as it was, and whatever the Huffman code. -/
def DecodesAs (data : Bytes) (fields : List Field) : Prop :=
  ∀ huffman table, decodeBlock huffman true table data = some (fields, table)

theorem h2MethodField_ok (method : Bytes) :
    ∃ w, h2MethodField method = .ok w ∧ Represents w (Bytes.ascii ":method", method) := by
  unfold h2MethodField
  split
  · next hget =>
      subst hget
      exact ⟨_, rfl, @represents_static _ 1 _ (by decide) (by decide) rfl⟩
  · exact @hpackLiteral_ok 1 _ _ rfl method

theorem represents_scheme : Represents [0x86] (Bytes.ascii ":scheme", Bytes.ascii "http") :=
  @represents_static _ 5 _ (by decide) (by decide) rfl

/-- The fields that every request begins with. -/
def requestFields (method path : Bytes) : List Field :=
  [(Bytes.ascii ":method", method), (Bytes.ascii ":scheme", Bytes.ascii "http"),
   (Bytes.ascii ":path", path), (Bytes.ascii ":authority", Bytes.ascii "localhost")]

theorem h2RequestBlock_ok (method path : Bytes) (headers : List Field) :
    ∃ block, h2RequestBlock method path headers = .ok block
      ∧ DecodesAs block (requestFields method path ++ headers) := by
  obtain ⟨methodField, hmethod, hrMethod⟩ := h2MethodField_ok method
  obtain ⟨pathField, hpath, hrPath⟩ := @hpackLiteral_ok 3 _ _ rfl path
  obtain ⟨host, hhost, hrHost⟩ := @hpackLiteral_ok 0 _ _ rfl (Bytes.ascii "localhost")
  obtain ⟨words, hwords, hrWords⟩ := mapM_hpackLiteralName headers
  have hall := List.Forall₂.cons hrMethod
    (.cons represents_scheme (.cons hrPath (.cons hrHost hrWords)))
  refine ⟨methodField ++ [0x86] ++ pathField ++ host ++ words.flatten, ?_, fun huffman table => ?_⟩
  · rw [h2RequestBlock, hmethod, hpath, hhost, hwords]
    rfl
  · have hblock : decodeBlock huffman true table _
        = some (requestFields method path ++ headers, table) :=
      decodeBlock_represents huffman hall true table
    simpa only [List.flatten_cons, List.append_assoc] using hblock

/-- The fields of `h2_extended_connect_headers`. -/
def extendedConnectFields (path : Bytes) : List Field :=
  requestFields (Bytes.ascii "CONNECT") path
    ++ [(Bytes.ascii ":protocol", Bytes.ascii "websocket"),
      (Bytes.ascii "sec-websocket-version", Bytes.ascii "13"),
      (Bytes.ascii "origin", Bytes.ascii "http://localhost")]

theorem h2ExtendedConnectBlock_ok (path : Bytes) :
    ∃ block, h2ExtendedConnectBlock path = .ok block
      ∧ DecodesAs block (extendedConnectFields path) := by
  obtain ⟨method, hmethod, hrMethod⟩ := @hpackLiteral_ok 1 _ _ rfl (Bytes.ascii "CONNECT")
  obtain ⟨pathField, hpath, hrPath⟩ := @hpackLiteral_ok 3 _ _ rfl path
  obtain ⟨host, hhost, hrHost⟩ := @hpackLiteral_ok 0 _ _ rfl (Bytes.ascii "localhost")
  obtain ⟨protocol, hprotocol, hrProtocol⟩ :=
    hpackLiteralName_ok (Bytes.ascii ":protocol") (Bytes.ascii "websocket")
  obtain ⟨version, hversion, hrVersion⟩ :=
    hpackLiteralName_ok (Bytes.ascii "sec-websocket-version") (Bytes.ascii "13")
  obtain ⟨origin, horigin, hrOrigin⟩ :=
    hpackLiteralName_ok (Bytes.ascii "origin") (Bytes.ascii "http://localhost")
  have hall := List.Forall₂.cons hrMethod (.cons represents_scheme (.cons hrPath (.cons hrHost
    (.cons hrProtocol (.cons hrVersion (.cons hrOrigin .nil))))))
  refine ⟨method ++ [0x86] ++ pathField ++ host ++ protocol ++ version ++ origin, ?_,
    fun huffman table => ?_⟩
  · rw [h2ExtendedConnectBlock, hmethod, hpath, hhost, hprotocol, hversion, horigin]
    rfl
  · have hblock : decodeBlock huffman true table _ = some (extendedConnectFields path, table) :=
      decodeBlock_represents huffman hall true table
    simpa only [List.flatten_cons, List.flatten_nil, List.append_nil, List.append_assoc]
      using hblock

/-! ## Frames -/

/-- `H2_CONNECTION_PREFACE` -/
def h2ConnectionPreface : Bytes :=
  Bytes.ascii "PRI * HTTP/2.0" ++ [13, 10, 13, 10] ++ Bytes.ascii "SM" ++ [13, 10, 13, 10]

/-- `h2_frame(frame_type, flags, stream_id, payload)` -/
def h2Frame (frameType flags streamId : Nat) (payload : Bytes) : Except PyException Bytes :=
  if payload.length > 0xFFFFFF then .error (.valueError "HTTP/2 frame payload is too large")
  else do
    let length ← Bytes.toBytesBig 3 payload.length
    let kind ← Bytes.ofValues [frameType, flags]
    let stream ← Bytes.toBytesBig 4 (streamId &&& 0x7FFFFFFF)
    return length ++ kind ++ stream ++ payload

/-- `h2_request_headers(method, path, end_stream, headers, stream_id)` -/
def h2RequestHeaders (method path : Bytes) (endStream : Bool) (headers : List Field)
    (streamId : Nat) : Except PyException Bytes := do
  let block ← h2RequestBlock method path headers
  let flags := 0x04 ||| (if endStream then 0x01 else 0)
  h2Frame 0x01 flags streamId block

/-- `h2_extended_connect_headers(path, stream_id)` -/
def h2ExtendedConnectHeaders (path : Bytes) (streamId : Nat) : Except PyException Bytes := do
  let block ← h2ExtendedConnectBlock path
  h2Frame 0x01 0x04 streamId block

/-- A frame as the tests read it. -/
structure H2Frame where
  frameType : Nat
  flags : Nat
  streamId : Nat
  payload : Bytes
  deriving DecidableEq

/-- `AssertionError`, with its text. -/
structure AssertionError where
  message : String

/-- The loop of `h2_frames`, entered at `offset`. -/
def h2FramesLoop (data : Bytes) (offset : Nat) (frames : List H2Frame) :
    Except AssertionError (List H2Frame) :=
  if offset < data.length then
    if data.length - offset < 9 then .error ⟨"truncated HTTP/2 frame header"⟩
    else
      let length := Bytes.intFromBig (data.slice offset (offset + 3))
      let frameType := (data.getD (offset + 3) 0).toNat
      let flags := (data.getD (offset + 4) 0).toNat
      let streamId := Bytes.intFromBig (data.slice (offset + 5) (offset + 9))
      let stop := offset + 9 + length
      if stop > data.length then .error ⟨"truncated HTTP/2 frame payload"⟩
      else
        h2FramesLoop data stop
          (frames ++ [⟨frameType, flags, streamId, data.slice (offset + 9) stop⟩])
  else .ok frames
termination_by data.length - offset

/-- `h2_frames(data)` of the tests. -/
def h2Frames (data : Bytes) : Except AssertionError (List H2Frame) :=
  if h2ConnectionPreface <+: data then h2FramesLoop data h2ConnectionPreface.length []
  else .error ⟨"missing HTTP/2 connection preface"⟩

/-- The frames of a list, joined. -/
def h2FrameAll : List H2Frame → Except PyException Bytes
  | [] => .ok []
  | frame :: frames => do
      let data ← h2Frame frame.frameType frame.flags frame.streamId frame.payload
      let rest ← h2FrameAll frames
      return data ++ rest

/-- The values fit in their fields. -/
structure H2Frame.Fits (frame : H2Frame) : Prop where
  frameType : frame.frameType < 256
  flags : frame.flags < 256
  streamId : frame.streamId < 2 ^ 31
  payload : frame.payload.length ≤ 0xFFFFFF

/-- The nine bytes in front of the payload. -/
def H2Frame.header (frame : H2Frame) : Bytes :=
  Bytes.bigDigits 3 frame.payload.length
    ++ [UInt8.ofNat frame.frameType, UInt8.ofNat frame.flags] ++ Bytes.bigDigits 4 frame.streamId

theorem h2Frame_ok {frame : H2Frame} (h : frame.Fits) :
    h2Frame frame.frameType frame.flags frame.streamId frame.payload
      = .ok (frame.header ++ frame.payload) := by
  obtain ⟨htype, hflags, hstream, hpayload⟩ := h
  have hmask : frame.streamId &&& 0x7FFFFFFF = frame.streamId := by
    rw [Nat.and_two_pow_sub_one_eq_mod _ 31, Nat.mod_eq_of_lt hstream]
  have hlength : Bytes.toBytesBig 3 frame.payload.length = .ok _ :=
    if_pos (show frame.payload.length < 256 ^ 3 by omega)
  have hid : Bytes.toBytesBig 4 frame.streamId = .ok _ :=
    if_pos (show frame.streamId < 256 ^ 4 by omega)
  have hkind : Bytes.ofValues [frame.frameType, frame.flags]
      = .ok [UInt8.ofNat frame.frameType, UInt8.ofNat frame.flags] := by
    refine if_pos ?_
    rw [List.all_cons, List.all_cons, decide_eq_true htype, decide_eq_true hflags]
    rfl
  rw [h2Frame, if_neg (Nat.not_lt.mpr hpayload), hlength, hkind, hmask, hid]
  rfl

theorem length_header (frame : H2Frame) : frame.header.length = 9 := by
  simp [H2Frame.header]

/-- The loop in front of a frame appends it and goes on behind it. -/
theorem h2FramesLoop_frame {frame : H2Frame} (h : frame.Fits) {data before after : Bytes}
    (hdata : data = before ++ frame.header ++ frame.payload ++ after) (frames : List H2Frame) :
    h2FramesLoop data before.length frames
      = h2FramesLoop data (before ++ frame.header ++ frame.payload).length
        (frames ++ [frame]) := by
  obtain ⟨htype, hflags, hstream, hpayload⟩ := h
  have hlen : data.length = before.length + 9 + frame.payload.length + after.length := by
    rw [hdata, List.length_append, List.length_append, List.length_append, length_header]
  have hlength : data.slice before.length (before.length + 3)
      = Bytes.bigDigits 3 frame.payload.length := by
    refine @Bytes.slice_middle data before _ ([UInt8.ofNat frame.frameType,
      UInt8.ofNat frame.flags] ++ Bytes.bigDigits 4 frame.streamId ++ frame.payload ++ after) _ _
      ?_ rfl (by rw [Bytes.length_bigDigits])
    simp only [hdata, H2Frame.header, List.append_assoc]
  have hkind : data.getD (before.length + 3) 0 = UInt8.ofNat frame.frameType := by
    refine @Bytes.getD_middle data (before ++ Bytes.bigDigits 3 frame.payload.length)
      (UInt8.ofNat frame.flags :: (Bytes.bigDigits 4 frame.streamId ++ frame.payload ++ after))
      _ _ ?_ (by rw [List.length_append, Bytes.length_bigDigits])
    simp [hdata, H2Frame.header]
  have hflag : data.getD (before.length + 4) 0 = UInt8.ofNat frame.flags := by
    refine @Bytes.getD_middle data (before ++ Bytes.bigDigits 3 frame.payload.length
      ++ [UInt8.ofNat frame.frameType]) (Bytes.bigDigits 4 frame.streamId ++ frame.payload ++ after)
      _ _ ?_ (by simp [Bytes.length_bigDigits])
    simp [hdata, H2Frame.header]
  have hid : data.slice (before.length + 5) (before.length + 9)
      = Bytes.bigDigits 4 frame.streamId := by
    refine @Bytes.slice_middle data (before ++ Bytes.bigDigits 3 frame.payload.length
      ++ [UInt8.ofNat frame.frameType, UInt8.ofNat frame.flags]) _ (frame.payload ++ after) _ _
      ?_ (by simp [Bytes.length_bigDigits]) (by rw [Bytes.length_bigDigits])
    simp only [hdata, H2Frame.header, List.append_assoc]
  have hbody : data.slice (before.length + 9) (before.length + 9 + frame.payload.length)
      = frame.payload :=
    Bytes.slice_middle hdata (by rw [List.length_append, length_header]) rfl
  rw [h2FramesLoop, if_pos (by omega), if_neg (by omega), hlength, hkind, hflag, hid,
    toNat_ofNat htype, toNat_ofNat hflags, Bytes.intFromBig_bigDigits (by omega),
    Bytes.intFromBig_bigDigits (by omega), if_neg (by omega), hbody, List.length_append,
    List.length_append, length_header]

/-- By induction over the list: the loop reads the frames back and ends
where they end. -/
theorem h2FramesLoop_all : ∀ {frames : List H2Frame}, (∀ frame ∈ frames, frame.Fits) →
    ∃ data, h2FrameAll frames = .ok data ∧ ∀ (before : Bytes) (read : List H2Frame),
      h2FramesLoop (before ++ data) before.length read = .ok (read ++ frames)
  | [], _ => by
      refine ⟨[], rfl, fun before read => ?_⟩
      rw [List.append_nil, List.append_nil, h2FramesLoop, if_neg (Nat.lt_irrefl _)]
  | frame :: frames, h => by
      obtain ⟨hframe, hframes⟩ := List.forall_mem_cons.mp h
      obtain ⟨rest, hrest, hloop⟩ := h2FramesLoop_all hframes
      refine ⟨frame.header ++ frame.payload ++ rest, ?_, fun before read => ?_⟩
      · rw [h2FrameAll, h2Frame_ok hframe, hrest]
        rfl
      · rw [← List.append_assoc, ← List.append_assoc, h2FramesLoop_frame hframe rfl,
          hloop, List.append_assoc, List.singleton_append]

theorem h2Frames_ok {frames : List H2Frame} (h : ∀ frame ∈ frames, frame.Fits) :
    ∃ data, h2FrameAll frames = .ok data ∧ h2Frames (h2ConnectionPreface ++ data) = .ok frames := by
  obtain ⟨data, hdata, hloop⟩ := h2FramesLoop_all h
  refine ⟨data, hdata, ?_⟩
  rw [h2Frames, if_pos (List.prefix_append _ _)]
  exact hloop h2ConnectionPreface []

/-- The payloads of the HEADERS and CONTINUATION frames, joined. -/
def headerFragments (frames : List H2Frame) : Bytes :=
  (frames.filter fun frame => frame.frameType = 0x01 ∨ frame.frameType = 0x09).flatMap
    H2Frame.payload

theorem headerFragments_append (frames frames' : List H2Frame) :
    headerFragments (frames ++ frames') = headerFragments frames ++ headerFragments frames' := by
  rw [headerFragments, List.filter_append, List.flatMap_append]
  rfl

/-- Reading gives back the frames that were written, and a header block that
was cut into a HEADERS and a CONTINUATION frame is the join of what they
carry, whatever other frames stand before and behind them. -/
theorem h2_framing :
    (∀ frames : List H2Frame, (∀ frame ∈ frames, frame.Fits) →
      ∃ data, h2FrameAll frames = .ok data ∧ h2Frames (h2ConnectionPreface ++ data) = .ok frames)
    ∧ ∀ (block : Bytes) (cut streamId flags flags' : Nat) (before after : List H2Frame),
      (∀ frame ∈ before ++ [⟨0x01, flags, streamId, block.take cut⟩,
        ⟨0x09, flags', streamId, block.drop cut⟩] ++ after, frame.Fits) →
      headerFragments before = [] → headerFragments after = [] →
      ∃ data frames, h2FrameAll (before ++ [⟨0x01, flags, streamId, block.take cut⟩,
        ⟨0x09, flags', streamId, block.drop cut⟩] ++ after) = .ok data
        ∧ h2Frames (h2ConnectionPreface ++ data) = .ok frames ∧ headerFragments frames = block := by
  refine ⟨fun frames => h2Frames_ok, ?_⟩
  intro block cut streamId flags flags' before after hfits hbefore hafter
  obtain ⟨data, hdata, hread⟩ := h2Frames_ok hfits
  refine ⟨data, _, hdata, hread, ?_⟩
  have hcut : headerFragments [⟨0x01, flags, streamId, block.take cut⟩,
      ⟨0x09, flags', streamId, block.drop cut⟩] = block.take cut ++ (block.drop cut ++ []) := rfl
  rw [headerFragments_append, headerFragments_append, hbefore, hafter, hcut, List.append_nil,
    List.append_nil, List.nil_append, List.take_append_drop]

/-- A block cut into a HEADERS and a CONTINUATION frame, between a SETTINGS
and a DATA frame. -/
theorem h2_framing_continuation : ∃ data frames,
    h2FrameAll [⟨0x04, 0x00, 0, []⟩, ⟨0x01, 0x00, 1, [0x82, 0x86]⟩, ⟨0x09, 0x04, 1, [0x84]⟩,
      ⟨0x00, 0x01, 1, Bytes.ascii "body"⟩] = .ok data
    ∧ h2Frames (h2ConnectionPreface ++ data) = .ok frames
    ∧ headerFragments frames = [0x82, 0x86, 0x84] := by
  refine h2_framing.2 [0x82, 0x86, 0x84] 2 1 0x00 0x04 [⟨0x04, 0x00, 0, []⟩]
    [⟨0x00, 0x01, 1, Bytes.ascii "body"⟩] (fun frame hmem => ?_) rfl rfl
  simp only [List.cons_append, List.nil_append, List.mem_cons, List.not_mem_nil, or_false] at hmem
  rcases hmem with rfl | rfl | rfl | rfl
  all_goals exact ⟨by decide, by decide, by decide, by decide⟩

/-! ## Requests -/

/-- `data` is one HEADERS frame with these flags around a block that is read
as these fields. -/
def IsRequest (data : Bytes) (flags streamId : Nat) (fields : List Field) : Prop :=
  ∃ block, h2Frames (h2ConnectionPreface ++ data) = .ok [⟨0x01, flags, streamId, block⟩]
    ∧ DecodesAs block fields

/-- The frame around a block: a request if the block is not too large. -/
theorem h2Frame_request {flags streamId : Nat} {block : Bytes} {fields : List Field}
    (hflags : flags < 256) (hstream : streamId < 2 ^ 31) (hblock : block.length ≤ 0xFFFFFF)
    (hdecodes : DecodesAs block fields) :
    ∃ data, h2Frame 0x01 flags streamId block = .ok data
      ∧ IsRequest data flags streamId fields := by
  have hfits : H2Frame.Fits ⟨0x01, flags, streamId, block⟩ :=
    ⟨(by decide : 0x01 < 256), hflags, hstream, hblock⟩
  obtain ⟨data, hdata, hread⟩ := h2Frames_ok (List.forall_mem_singleton.mpr hfits)
  rw [h2FrameAll, h2FrameAll, h2Frame_ok hfits] at hdata
  refine ⟨data, ?_, block, hread, hdecodes⟩
  rw [h2Frame_ok hfits, ← Except.ok.inj hdata, List.append_nil]

/-- Both builders make the frame of a block that is read as the request they
are for, and refuse only a block that is too large. -/
theorem h2_header_blocks {streamId : Nat} (hstream : streamId < 2 ^ 31) :
    (∀ (method path : Bytes) (headers : List Field) (endStream : Bool), ∃ block,
      h2RequestBlock method path headers = .ok block
      ∧ (block.length ≤ 0xFFFFFF → ∃ data,
        h2RequestHeaders method path endStream headers streamId = .ok data
        ∧ IsRequest data (if endStream then 0x05 else 0x04) streamId
          (requestFields method path ++ headers))
      ∧ (0xFFFFFF < block.length → ∃ message,
        h2RequestHeaders method path endStream headers streamId = .error (.valueError message)))
    ∧ ∀ path : Bytes, ∃ block,
      h2ExtendedConnectBlock path = .ok block
      ∧ (block.length ≤ 0xFFFFFF → ∃ data,
        h2ExtendedConnectHeaders path streamId = .ok data
        ∧ IsRequest data 0x04 streamId (extendedConnectFields path))
      ∧ (0xFFFFFF < block.length → ∃ message,
        h2ExtendedConnectHeaders path streamId = .error (.valueError message)) := by
  constructor
  · intro method path headers endStream
    obtain ⟨block, hblock, hdecodes⟩ := h2RequestBlock_ok method path headers
    have hframe : h2RequestHeaders method path endStream headers streamId
        = h2Frame 0x01 (if endStream then 0x05 else 0x04) streamId block := by
      rw [h2RequestHeaders, hblock]
      cases endStream <;> rfl
    refine ⟨block, hblock, fun hle => ?_, fun hlt => ?_⟩
    · rw [hframe]
      exact h2Frame_request (by split <;> decide) hstream hle hdecodes
    · exact ⟨_, hframe.trans (if_pos hlt)⟩
  · intro path
    obtain ⟨block, hblock, hdecodes⟩ := h2ExtendedConnectBlock_ok path
    have hframe : h2ExtendedConnectHeaders path streamId = h2Frame 0x01 0x04 streamId block := by
      rw [h2ExtendedConnectHeaders, hblock]
      rfl
    refine ⟨block, hblock, fun hle => ?_, fun hlt => ?_⟩
    · rw [hframe]
      exact h2Frame_request (by decide) hstream hle hdecodes
    · exact ⟨_, hframe.trans (if_pos hlt)⟩

/-- The length of a long value takes three bytes. -/
theorem hpackRawString_long :
    hpackRawString (List.replicate 300 0x61) =
      .ok ([0x7F, 0xAD, 0x01] ++ List.replicate 300 0x61) := by
  have hlast : hpackIntegerLoop [0x7F, 0xAD] 1 = .ok [0x7F, 0xAD, 0x01] := by
    rw [hpackIntegerLoop]
    rfl
  have hloop : hpackIntegerLoop [0x7F] 173 = .ok [0x7F, 0xAD, 0x01] := by
    rw [hpackIntegerLoop]
    exact hlast
  have hlength : hpackInteger 300 7 0 = .ok [0x7F, 0xAD, 0x01] := hloop
  rw [hpackRawString, List.length_replicate, hlength]
  rfl

/-- A request with another method and with a header of 300 bytes. -/
theorem h2_header_blocks_long_header :
    ∃ data, h2RequestHeaders (Bytes.ascii "PUT") (Bytes.ascii "/") true
        [(Bytes.ascii "x-long", List.replicate 300 0x61)] 3 = .ok data
      ∧ IsRequest data 0x05 3 (requestFields (Bytes.ascii "PUT") (Bytes.ascii "/")
        ++ [(Bytes.ascii "x-long", List.replicate 300 0x61)]) := by
  obtain ⟨block, hblock, hrequest, -⟩ := (h2_header_blocks (by decide : 3 < 2 ^ 31)).1
    (Bytes.ascii "PUT") (Bytes.ascii "/") [(Bytes.ascii "x-long", List.replicate 300 0x61)] true
  have hname : hpackLiteralName (Bytes.ascii "x-long") (List.replicate 300 0x61)
      = .ok ([0x00, 0x06] ++ Bytes.ascii "x-long" ++ ([0x7F, 0xAD, 0x01]
        ++ List.replicate 300 0x61)) := by
    rw [hpackLiteralName, hpackRawString_long]
    rfl
  have hput : h2RequestBlock (Bytes.ascii "PUT") (Bytes.ascii "/")
      [(Bytes.ascii "x-long", List.replicate 300 0x61)] = .ok ([0x02, 0x03] ++ Bytes.ascii "PUT"
        ++ [0x86, 0x04, 0x01, 0x2F, 0x01, 0x09] ++ Bytes.ascii "localhost"
        ++ [[0x00, 0x06] ++ Bytes.ascii "x-long" ++ ([0x7F, 0xAD, 0x01]
          ++ List.replicate 300 0x61)].flatten) := by
    rw [h2RequestBlock, List.mapM_cons, List.mapM_nil]
    dsimp only
    rw [hname]
    rfl
  obtain rfl := Except.ok.inj (hblock.symm.trans hput)
  refine hrequest ?_
  simp only [List.flatten_cons, List.flatten_nil, List.length_append, List.length_replicate]
  decide

end LighttpdFuzz
