import Mathlib.Algebra.Group.Nat.Defs
import Mathlib.Data.List.Induction

/-!
# Python byte strings

The few operations on `bytes` that the modelled programs use: slices,
big-endian integers of a fixed width in both directions, and the
exceptions these operations and their callers raise. Nothing here
belongs to one program.
-/

/-- A byte string. -/
abbrev Bytes := List UInt8

/-- The exceptions the modelled code raises, with their texts where the
source gives one. -/
inductive PyException where
  | valueError (message : String)
  | overflowError (message : String)
  | eofError
  | connectionError (message : String)
  deriving DecidableEq, Repr

namespace Bytes

/-- The bytes of an ASCII literal, `b"..."`. -/
def ascii (s : String) : Bytes :=
  s.toList.map (fun c => UInt8.ofNat c.toNat)

/-- `data[start:stop]` for `0 ≤ start ≤ stop`; indices past the end are
cut off, as in Python. -/
def slice (data : Bytes) (start stop : Nat) : Bytes :=
  (data.drop start).take (stop - start)

/-- `int.from_bytes(data, "big")`. -/
def intFromBig (data : Bytes) : Nat :=
  data.foldl (fun acc b => acc * 256 + b.toNat) 0

/-- The `width` low base-256 digits of `n`, most significant first. -/
def bigDigits : Nat → Nat → Bytes
  | 0, _ => []
  | width + 1, n => bigDigits width (n / 256) ++ [UInt8.ofNat (n % 256)]

/-- `n.to_bytes(width, "big")`. -/
def toBytesBig (width n : Nat) : Except PyException Bytes :=
  if n < 256 ^ width then .ok (bigDigits width n)
  else .error (.overflowError "int too big to convert")

/-- `bytes(values)` -/
def ofValues (values : List Nat) : Except PyException Bytes :=
  if values.all (· < 256) then .ok (values.map UInt8.ofNat)
  else .error (.valueError "bytes must be in range(0, 256)")

/-- `data.append(value)` of a `bytearray`. -/
def appendValue (data : Bytes) (value : Nat) : Except PyException Bytes :=
  if value < 256 then .ok (data ++ [UInt8.ofNat value])
  else .error (.valueError "byte must be in range(0, 256)")

/-! ## Slices -/

theorem slice_eq_take_drop (data : Bytes) (start len : Nat) :
    data.slice start (start + len) = (data.drop start).take len := by
  rw [slice, Nat.add_sub_cancel_left]

/-- The slice between what stands before it and what stands behind it. -/
theorem slice_middle {data before part after : Bytes} {start stop : Nat}
    (h : data = before ++ part ++ after) (hstart : start = before.length)
    (hstop : stop = start + part.length) : data.slice start stop = part := by
  rw [hstop, slice_eq_take_drop, h, hstart, List.append_assoc, List.drop_left, List.take_left]

/-- `data[index]` between what stands before it and what stands behind it. -/
theorem getD_middle {data before after : Bytes} {b : UInt8} {index : Nat}
    (h : data = before ++ b :: after) (hindex : index = before.length) : data.getD index 0 = b := by
  rw [h, hindex, List.getD_eq_getElem?_getD, List.getElem?_append_right (Nat.le_refl _),
    Nat.sub_self]
  rfl

theorem length_slice (data : Bytes) {start stop : Nat} (h : stop ≤ data.length) :
    (data.slice start stop).length = stop - start := by
  simp only [slice, List.length_take, List.length_drop]
  omega

/-- A prefix of a slice is a slice. -/
theorem slice_take {data p : Bytes} {start : Nat}
    (h : data.slice start (start + p.length) = p) {i : Nat} (hi : i ≤ p.length) :
    data.slice start (start + i) = p.take i := by
  calc data.slice start (start + i)
      = (data.slice start (start + p.length)).take i := by
        rw [slice_eq_take_drop, slice_eq_take_drop, List.take_take, Nat.min_eq_left hi]
    _ = p.take i := by rw [h]

/-- A suffix of a slice is a slice. -/
theorem slice_drop {data p : Bytes} {start : Nat}
    (h : data.slice start (start + p.length) = p) (i : Nat) :
    data.slice (start + i) (start + p.length) = p.drop i := by
  calc data.slice (start + i) (start + p.length)
      = (data.slice start (start + p.length)).drop i := by
        rw [slice, slice_eq_take_drop, List.drop_take, List.drop_drop,
          Nat.add_sub_add_left]
    _ = p.drop i := by rw [h]

/-! ## Big-endian integers -/

@[simp] theorem length_bigDigits : ∀ (width n : Nat), (bigDigits width n).length = width
  | 0, _ => rfl
  | width + 1, n => by simp [bigDigits, length_bigDigits width]

theorem intFromBig_append_single (data : Bytes) (b : UInt8) :
    intFromBig (data ++ [b]) = intFromBig data * 256 + b.toNat := by
  simp [intFromBig]

/-- Reading back the digits of a number that fits the width. -/
theorem intFromBig_bigDigits : ∀ {width n : Nat}, n < 256 ^ width →
    intFromBig (bigDigits width n) = n
  | 0, n, h => by
      have hn : n = 0 := by simpa using h
      subst hn; rfl
  | width + 1, n, h => by
      have hdiv : n / 256 < 256 ^ width := by
        rw [Nat.pow_succ] at h
        exact Nat.div_lt_of_lt_mul (by omega)
      rw [bigDigits, intFromBig_append_single, intFromBig_bigDigits hdiv,
        UInt8.toNat_ofNat']
      omega

theorem intFromBig_lt (data : Bytes) : intFromBig data < 256 ^ data.length := by
  induction data using List.reverseRecOn with
  | nil => simp [intFromBig]
  | append_singleton data b ih =>
      have hb := b.toNat_lt
      rw [intFromBig_append_single, List.length_append, List.length_singleton,
        Nat.pow_succ]
      omega

/-- The digits of a read number are the bytes it was read from: the
encoding of a given width has one spelling for each number. -/
theorem bigDigits_intFromBig (data : Bytes) :
    bigDigits data.length (intFromBig data) = data := by
  induction data using List.reverseRecOn with
  | nil => rfl
  | append_singleton data b ih =>
      have hb := b.toNat_lt
      have hdiv : (intFromBig data * 256 + b.toNat) / 256 = intFromBig data := by omega
      have hmod : (intFromBig data * 256 + b.toNat) % 256 = b.toNat := by omega
      rw [intFromBig_append_single, List.length_append, List.length_singleton,
        bigDigits, hdiv, hmod, ih, UInt8.ofNat_toNat]

theorem intFromBig_pair (hi lo : UInt8) :
    intFromBig [hi, lo] = hi.toNat * 256 + lo.toNat := by
  simp [intFromBig]

end Bytes
