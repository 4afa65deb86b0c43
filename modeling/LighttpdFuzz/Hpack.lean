import LighttpdFuzz.PyBytes
import LighttpdFuzz.SelfDelimiting

/-!
# HPACK

The decoder of HTTP/2 header blocks. A block is a list of representations:
a field of the tables given by its index, a field with a literal value and a
literal or indexed name, or a new size for the dynamic table. Numbers are
written with a prefix of some bits of their first byte, strings behind their
length. The Huffman code of strings is a parameter.

Everything but the dynamic table is self-delimiting, so what is proved of a
part is that the reader takes it off the front and leaves the rest (`Reads`);
`decodeBlock_represents` reads a list of representations as a block.
-/

namespace Hpack

/-! ## Integers -/

/-- The bytes behind the prefix: seven bits each, the lowest first, the top
bit set on all but the last. The number so far is `value`, and the next byte
counts `2 ^ shift`. -/
def decodeDigits : Nat → Nat → Bytes → Option (Nat × Bytes)
  | _, _, [] => none
  | shift, value, b :: data =>
      let value := value + b.toNat % 128 * 2 ^ shift
      if 128 ≤ b.toNat then decodeDigits (shift + 7) value data else some (value, data)

/-- A number with a prefix of `bits` bits. -/
def decodeInteger (bits : Nat) : Bytes → Option (Nat × Bytes)
  | [] => none
  | b :: data =>
      let value := b.toNat % 2 ^ bits
      if value < 2 ^ bits - 1 then some (value, data) else decodeDigits 0 value data

theorem reads_digit {shift value : Nat} {b : UInt8} (hb : b.toNat < 128) :
    Reads (decodeDigits shift value) [b] (value + b.toNat * 2 ^ shift) := by
  intro t
  rw [List.singleton_append, decodeDigits, Nat.mod_eq_of_lt hb]
  exact if_neg (by omega)

theorem reads_continued {shift value result : Nat} {b : UInt8} {data : Bytes} (hb : 128 ≤ b.toNat)
    (h : Reads (decodeDigits (shift + 7) (value + b.toNat % 128 * 2 ^ shift)) data result) :
    Reads (decodeDigits shift value) (b :: data) result := by
  intro t
  rw [List.cons_append, decodeDigits]
  exact (if_pos hb).trans (h t)

theorem reads_short {bits : Nat} {b : UInt8} (hb : b.toNat % 2 ^ bits < 2 ^ bits - 1) :
    Reads (decodeInteger bits) [b] (b.toNat % 2 ^ bits) := fun _ => if_pos hb

theorem reads_long {bits result : Nat} {b : UInt8} {data : Bytes}
    (hb : b.toNat % 2 ^ bits = 2 ^ bits - 1)
    (h : Reads (decodeDigits 0 (2 ^ bits - 1)) data result) :
    Reads (decodeInteger bits) (b :: data) result := by
  intro t
  rw [List.cons_append, decodeInteger]
  rw [hb, if_neg (Nat.lt_irrefl _)]
  exact h t

theorem decodeDigits_length : ∀ {shift value result : Nat} {data rest : Bytes},
    decodeDigits shift value data = some (result, rest) → rest.length < data.length
  | shift, value, result, b :: data, rest, h => by
      unfold decodeDigits at h
      rw [List.length_cons]
      split at h
      · have := decodeDigits_length h
        omega
      · cases h
        exact Nat.lt_succ_self _

theorem decodeInteger_length {bits result : Nat} {data rest : Bytes}
    (h : decodeInteger bits data = some (result, rest)) : rest.length < data.length := by
  cases data with
  | nil => cases h
  | cons b data =>
      rw [decodeInteger] at h
      rw [List.length_cons]
      split at h
      · cases h
        exact Nat.lt_succ_self _
      · exact Nat.lt_succ_of_lt (decodeDigits_length h)

/-! ## Strings -/

variable (huffman : Bytes → Option Bytes)

/-- A string behind its length. The top bit of the first byte says that the
string is in the Huffman code. -/
def decodeString (data : Bytes) : Option (Bytes × Bytes) :=
  (decodeInteger 7 data).bind fun (length, rest) =>
    if rest.length < length then none
    else if 128 ≤ (data.headD 0).toNat then
      (huffman (rest.take length)).map fun value => (value, rest.drop length)
    else some (rest.take length, rest.drop length)

theorem reads_raw {b : UInt8} {digits value : Bytes} (hb : b.toNat < 128)
    (h : Reads (decodeInteger 7) (b :: digits) value.length) :
    Reads (decodeString huffman) (b :: digits ++ value) value := by
  intro t
  have htop : ¬ 128 ≤ ((b :: digits ++ (value ++ t)).headD 0).toNat := Nat.not_le.mpr hb
  rw [decodeString, List.append_assoc, h, Option.bind_some]
  dsimp only
  rw [if_neg (by rw [List.length_append]; omega), if_neg htop, List.take_left, List.drop_left]

variable {huffman} in
theorem decodeString_length {data value rest : Bytes}
    (h : decodeString huffman data = some (value, rest)) : rest.length < data.length := by
  obtain ⟨⟨length, data'⟩, hlength, h⟩ := Option.bind_eq_some_iff.mp h
  refine Nat.lt_of_le_of_lt ?_ (decodeInteger_length hlength)
  have hdrop : (data'.drop length).length ≤ data'.length := by
    rw [List.length_drop]
    exact Nat.sub_le _ _
  dsimp only at h
  split_ifs at h
  · obtain ⟨_, _, h⟩ := Option.map_eq_some_iff.mp h
    cases h
    exact hdrop
  · cases h
    exact hdrop

/-! ## Tables -/

/-- A header field: name and value. -/
abbrev Field := Bytes × Bytes

def staticTable : List Field :=
  [(":authority", ""), (":method", "GET"), (":method", "POST"), (":path", "/"),
   (":path", "/index.html"), (":scheme", "http"), (":scheme", "https"), (":status", "200"),
   (":status", "204"), (":status", "206"), (":status", "304"), (":status", "400"),
   (":status", "404"), (":status", "500"), ("accept-charset", ""),
   ("accept-encoding", "gzip, deflate"), ("accept-language", ""), ("accept-ranges", ""),
   ("accept", ""), ("access-control-allow-origin", ""), ("age", ""), ("allow", ""),
   ("authorization", ""), ("cache-control", ""), ("content-disposition", ""),
   ("content-encoding", ""), ("content-language", ""), ("content-length", ""),
   ("content-location", ""), ("content-range", ""), ("content-type", ""), ("cookie", ""),
   ("date", ""), ("etag", ""), ("expect", ""), ("expires", ""), ("from", ""), ("host", ""),
   ("if-match", ""), ("if-modified-since", ""), ("if-none-match", ""), ("if-range", ""),
   ("if-unmodified-since", ""), ("last-modified", ""), ("link", ""), ("location", ""),
   ("max-forwards", ""), ("proxy-authenticate", ""), ("proxy-authorization", ""), ("range", ""),
   ("referer", ""), ("refresh", ""), ("retry-after", ""), ("server", ""), ("set-cookie", ""),
   ("strict-transport-security", ""), ("transfer-encoding", ""), ("user-agent", ""), ("vary", ""),
   ("via", ""), ("www-authenticate", "")].map
    fun (name, value) => (Bytes.ascii name, Bytes.ascii value)

/-- What a field counts in the table. -/
def fieldSize (field : Field) : Nat := field.1.length + field.2.length + 32

def tableSize : List Field → Nat
  | [] => 0
  | field :: fields => fieldSize field + tableSize fields

/-- The first fields, as many as fit in the size. -/
def fit : Nat → List Field → List Field
  | _, [] => []
  | size, field :: fields =>
      if fieldSize field ≤ size then field :: fit (size - fieldSize field) fields else []

theorem tableSize_fit : ∀ (size : Nat) (fields : List Field), tableSize (fit size fields) ≤ size
  | _, [] => Nat.zero_le _
  | size, field :: fields => by
      unfold fit
      split
      · have := tableSize_fit (size - fieldSize field) fields
        unfold tableSize
        omega
      · exact Nat.zero_le _

/-- The dynamic table, the newest field first. Its size is at most a maximum
that the encoder sets, and the maximum at most a limit that it does not. -/
structure DynamicTable where
  limit : Nat
  maxSize : Nat
  fields : List Field
  maxSize_le : maxSize ≤ limit
  fits : tableSize fields ≤ maxSize

namespace DynamicTable

/-- The table of a new connection. -/
def empty (limit : Nat) : DynamicTable where
  limit := limit
  maxSize := limit
  fields := []
  maxSize_le := Nat.le_refl limit
  fits := Nat.zero_le limit

/-- A new field drives out the oldest ones, and all if it is too large. -/
def add (table : DynamicTable) (field : Field) : DynamicTable :=
  { table with
    fields := fit table.maxSize (field :: table.fields)
    fits := tableSize_fit _ _ }

def resize (table : DynamicTable) (size : Nat) : Option DynamicTable :=
  if h : size ≤ table.limit then
    some { table with
      maxSize := size
      fields := fit size table.fields
      maxSize_le := h
      fits := tableSize_fit _ _ }
  else none

/-- The field of an index: the static table and behind it the dynamic one. -/
def lookup (table : DynamicTable) : Nat → Option Field
  | 0 => none
  | index + 1 => (staticTable ++ table.fields)[index]?

theorem lookup_static (table : DynamicTable) {index : Nat} {field : Field}
    (h : staticTable[index]? = some field) : table.lookup (index + 1) = some field := by
  obtain ⟨hlt, -⟩ := List.getElem?_eq_some_iff.mp h
  rw [lookup, List.getElem?_append_left hlt, h]

end DynamicTable

/-! ## Representations -/

/-- A field with a literal value; its name is literal too if the index is 0. -/
def decodeLiteral (table : DynamicTable) (bits : Nat) (data : Bytes) : Option (Field × Bytes) :=
  (decodeInteger bits data).bind fun (index, data) =>
    (if index = 0 then decodeString huffman data
      else (table.lookup index).map fun field => (field.1, data)).bind fun (name, data) =>
        (decodeString huffman data).map fun (value, data) => ((name, value), data)

/-- One representation: the field that it stands for, if it does for one,
and the table behind it. -/
def decodeRepresentation (table : DynamicTable) (data : Bytes) :
    Option ((Option Field × DynamicTable) × Bytes) :=
  let first := (data.headD 0).toNat
  if 128 ≤ first then
    (decodeInteger 7 data).bind fun (index, data) =>
      (table.lookup index).map fun field => ((some field, table), data)
  else if 64 ≤ first then
    (decodeLiteral huffman table 6 data).map fun (field, data) =>
      ((some field, table.add field), data)
  else if 32 ≤ first then
    (decodeInteger 5 data).bind fun (size, data) =>
      (table.resize size).map fun table => ((none, table), data)
  else
    (decodeLiteral huffman table 4 data).map fun (field, data) => ((some field, table), data)

variable {huffman}

theorem decodeLiteral_length {table : DynamicTable} {bits : Nat} {data rest : Bytes} {field : Field}
    (h : decodeLiteral huffman table bits data = some (field, rest)) :
    rest.length < data.length := by
  obtain ⟨⟨index, data₁⟩, hindex, h⟩ := Option.bind_eq_some_iff.mp h
  obtain ⟨⟨name, data₂⟩, hname, h⟩ := Option.bind_eq_some_iff.mp h
  obtain ⟨⟨value, data₃⟩, hvalue, h⟩ := Option.map_eq_some_iff.mp h
  cases h
  have hle : data₂.length ≤ data₁.length := by
    split_ifs at hname
    · exact Nat.le_of_lt (decodeString_length hname)
    · obtain ⟨_, _, hname⟩ := Option.map_eq_some_iff.mp hname
      cases hname
      exact Nat.le_refl _
  have := decodeInteger_length hindex
  have := decodeString_length hvalue
  omega

theorem decodeRepresentation_length {table : DynamicTable} {data rest : Bytes}
    {result : Option Field × DynamicTable}
    (h : decodeRepresentation huffman table data = some (result, rest)) :
    rest.length < data.length := by
  rw [decodeRepresentation] at h
  split_ifs at h
  · obtain ⟨⟨index, data'⟩, hindex, h⟩ := Option.bind_eq_some_iff.mp h
    obtain ⟨_, _, h⟩ := Option.map_eq_some_iff.mp h
    cases h
    exact decodeInteger_length hindex
  · obtain ⟨⟨field, data'⟩, hliteral, h⟩ := Option.map_eq_some_iff.mp h
    cases h
    exact decodeLiteral_length hliteral
  · obtain ⟨⟨size, data'⟩, hsize, h⟩ := Option.bind_eq_some_iff.mp h
    obtain ⟨_, _, h⟩ := Option.map_eq_some_iff.mp h
    cases h
    exact decodeInteger_length hsize
  · obtain ⟨⟨field, data'⟩, hliteral, h⟩ := Option.map_eq_some_iff.mp h
    cases h
    exact decodeLiteral_length hliteral

/-! ## Blocks -/

variable (huffman) in
/-- A block: its fields and the table behind it. The size of the table may
change at the opening only. -/
def decodeBlock (opening : Bool) (table : DynamicTable) (data : Bytes) :
    Option (List Field × DynamicTable) :=
  if data.isEmpty then some ([], table)
  else
    match h : decodeRepresentation huffman table data with
    | none => none
    | some ((none, table), rest) =>
        have := decodeRepresentation_length h
        if opening then decodeBlock true table rest else none
    | some ((some field, table), rest) =>
        have := decodeRepresentation_length h
        (decodeBlock false table rest).map fun (fields, table) => (field :: fields, table)
termination_by data.length

theorem decodeBlock_cons {opening : Bool} {table table' : DynamicTable} {w : Bytes} {field : Field}
    (h : Reads (decodeRepresentation huffman table) w (some field, table')) (data : Bytes) :
    decodeBlock huffman opening table (w ++ data)
      = (decodeBlock huffman false table' data).map
          fun (fields, table) => (field :: fields, table) := by
  have hne : (w ++ data).isEmpty = false := by
    cases hempty : w ++ data with
    | nil =>
        have hlt := decodeRepresentation_length (h data)
        rw [hempty] at hlt
        exact absurd hlt (Nat.not_lt_zero _)
    | cons => rfl
  rw [decodeBlock, hne, if_neg Bool.false_ne_true]
  split
  · next hnone => cases hnone.symm.trans (h data)
  · next hresized => cases hresized.symm.trans (h data)
  · next hfield =>
      cases hfield.symm.trans (h data)
      rfl

/-- The representation of a field without Huffman code that leaves the table
alone. -/
def Represents (w : Bytes) (field : Field) : Prop :=
  ∀ huffman table, Reads (decodeRepresentation huffman table) w (some field, table)

variable (huffman) in
/-- A list of such representations is read as the list of the fields, under
every table, and the table is left as it was. -/
theorem decodeBlock_represents {words : List Bytes} {fields : List Field}
    (h : List.Forall₂ Represents words fields) :
    ∀ (opening : Bool) (table : DynamicTable),
      decodeBlock huffman opening table words.flatten = some (fields, table) := by
  induction h with
  | nil =>
      intro opening table
      unfold decodeBlock
      rfl
  | cons hword _ ih =>
      intro opening table
      rw [List.flatten_cons, decodeBlock_cons (hword huffman table), ih]
      rfl

theorem represents_indexed {b : UInt8} {digits : Bytes} {index : Nat} {field : Field}
    (hb : 128 ≤ b.toNat) (hindex : Reads (decodeInteger 7) (b :: digits) (index + 1))
    (h : staticTable[index]? = some field) : Represents (b :: digits) field := by
  intro huffman table t
  unfold decodeRepresentation
  dsimp only
  rw [if_pos (show 128 ≤ ((b :: digits ++ t).headD 0).toNat from hb), hindex, Option.bind_some]
  dsimp only
  rw [table.lookup_static h]
  rfl

/-- Without indexing, under a prefix of four bits. -/
theorem represents_literal {b : UInt8} {digits : Bytes} {field : Field} (hb : b.toNat < 32)
    (h : ∀ huffman table, Reads (decodeLiteral huffman table 4) (b :: digits) field) :
    Represents (b :: digits) field := by
  intro huffman table t
  have hhead : ((b :: digits ++ t).headD 0).toNat < 32 := hb
  unfold decodeRepresentation
  dsimp only
  rw [if_neg (by omega), if_neg (by omega), if_neg (by omega), h]
  rfl

theorem reads_indexed_name {w w' name empty value : Bytes} {index : Nat} {table : DynamicTable}
    (hindex : Reads (decodeInteger 4) w (index + 1))
    (h : staticTable[index]? = some (name, empty))
    (hvalue : Reads (decodeString huffman) w' value) :
    Reads (decodeLiteral huffman table 4) (w ++ w') (name, value) := by
  intro t
  rw [decodeLiteral, List.append_assoc, hindex, Option.bind_some]
  dsimp only
  rw [if_neg (Nat.succ_ne_zero _), table.lookup_static h, Option.map_some, Option.bind_some]
  dsimp only
  rw [hvalue]
  rfl

theorem reads_literal_name {w w₁ w₂ name value : Bytes} {table : DynamicTable}
    (hindex : Reads (decodeInteger 4) w 0) (hname : Reads (decodeString huffman) w₁ name)
    (hvalue : Reads (decodeString huffman) w₂ value) :
    Reads (decodeLiteral huffman table 4) (w ++ w₁ ++ w₂) (name, value) := by
  intro t
  rw [decodeLiteral, List.append_assoc, List.append_assoc, hindex, Option.bind_some]
  dsimp only
  rw [if_pos rfl, hname, Option.bind_some]
  dsimp only
  rw [hvalue]
  rfl

end Hpack
