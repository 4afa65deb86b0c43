import LighttpdFuzz.ScgiRoundTrip

/-!
# The name-value pairs of FastCGI

`_fcgi_params` reads two lengths, each of one or four bytes, and then the
name and the value. A length that is read is one of the two spellings of a
number (`takeLength_ok`); whatever is cut off, in a length or in a field, is
refused in the same way (`takeLength_error`). One turn of the loop takes one
pair off the front, so the loop accepts exactly the encodings of lists of
pairs (`fcgiParamsLoop_cases`).
-/

namespace LighttpdFuzz

/-! ## Encoding -/

/-- `fcgi_name_value(name, value)` of the tests. -/
def fcgiNameValue (name value : Bytes) : Except PyException Bytes := do
  let nameLength ← fcgiLength name.length
  let valueLength ← fcgiLength value.length
  return nameLength ++ valueLength ++ name ++ value

/-- The encodings of all pairs, joined. -/
def fcgiNameValues : List (Bytes × Bytes) → Except PyException Bytes
  | [] => .ok []
  | (name, value) :: params => do
      let pair ← fcgiNameValue name value
      let rest ← fcgiNameValues params
      return pair ++ rest

theorem fcgiLength_ok {n : Nat} (hn : n < 0x80000000) :
    ∃ data, fcgiLength n = .ok data ∧ IsFcgiLength n data := by
  by_cases hshort : n < 128
  · have h : fcgiLength n = .ok [UInt8.ofNat n] := if_pos hshort
    exact ⟨_, h, fcgiLength_encoded hn h⟩
  · have hlt : n ||| 0x80000000 < 256 ^ 4 :=
      @Nat.or_lt_two_pow n 0x80000000 32 (by omega) (by decide)
    have h : fcgiLength n = .ok (Bytes.bigDigits 4 (n ||| 0x80000000)) := by
      rw [fcgiLength, if_neg hshort, Bytes.toBytesBig, if_pos hlt]
    exact ⟨_, h, fcgiLength_encoded hn h⟩

theorem fcgiNameValues_ok : ∀ {params : List (Bytes × Bytes)},
    (∀ e ∈ params, e.1.length < 0x80000000 ∧ e.2.length < 0x80000000) →
    ∃ data, fcgiNameValues params = .ok data ∧ EncodedParams params data
  | [], _ => ⟨[], rfl, .nil⟩
  | (name, value) :: params, h => by
      obtain ⟨⟨hname, hvalue⟩, hrest⟩ := List.forall_mem_cons.mp h
      obtain ⟨nameLength, hname, hencName⟩ := fcgiLength_ok hname
      obtain ⟨valueLength, hvalue, hencValue⟩ := fcgiLength_ok hvalue
      obtain ⟨data, hdata, hencoded⟩ := fcgiNameValues_ok hrest
      refine ⟨_, ?_, .cons hencName hencValue hencoded⟩
      rw [fcgiNameValues, fcgiNameValue, hname, hvalue, hdata]
      rfl

/-! ## Decoding -/

/-- Four bytes with the top bit set. -/
theorem isFcgiLength_long {b : UInt8} {tail : Bytes} (htop : b &&& 0x80 ≠ 0)
    (hlen : (b :: tail).length = 4) :
    IsFcgiLength (Bytes.intFromBig (b :: tail) &&& 0x7fffffff) (b :: tail) := by
  have hlt := Bytes.intFromBig_lt (b :: tail)
  have hback := Bytes.bigDigits_intFromBig (b :: tail)
  rw [hlen] at hlt hback
  have htop : 0x80000000 ≤ Bytes.intFromBig (b :: tail) := by
    obtain ⟨b₁, b₂, b₃, rfl⟩ := List.length_eq_three.mp (Nat.succ.inj hlen)
    rw [top_bit] at htop
    simp only [Bytes.intFromBig, List.foldl_cons, List.foldl_nil]
    omega
  have hmask : Bytes.intFromBig (b :: tail) &&& 0x7fffffff
      = Bytes.intFromBig (b :: tail) - 0x80000000 := by
    rw [Nat.and_two_pow_sub_one_eq_mod _ 31]
    omega
  refine .inr ⟨by omega, ?_⟩
  rw [hmask, Nat.sub_add_cancel htop, hback]

theorem takeLength_ok {data rest : Bytes} {n : Nat} (h : takeLength data = .ok (n, rest)) :
    ∃ spelling, IsFcgiLength n spelling ∧ data = spelling ++ rest := by
  cases data with
  | nil => cases h
  | cons b tail =>
      rw [takeLength] at h
      split at h
      · next htop =>
          split at h
          · cases h
          · next hlen =>
              cases h
              have htake : ((b :: tail).take 4).length = 4 := List.length_take_of_le (by omega)
              refine ⟨(b :: tail).take 4, ?_, (List.take_append_drop 4 _).symm⟩
              exact isFcgiLength_long htop htake
      · next htop =>
          cases h
          rw [top_bit, Nat.not_le] at htop
          exact ⟨[b], .inl ⟨htop, by rw [UInt8.ofNat_toNat]⟩, rfl⟩

theorem takeLength_error {data : Bytes} {e : PyException} (h : takeLength data = .error e) :
    e = truncatedParams := by
  unfold takeLength at h
  split at h
  · exact (Except.error.inj h).symm
  · split at h
    · split at h
      · exact (Except.error.inj h).symm
      · cases h
    · cases h

/-- The loop takes the encoding of a list of pairs, or refuses the rest as
truncated. -/
theorem fcgiParamsLoop_cases (result : AssocMap Text Bytes) (data : Bytes) :
    (∃ params, EncodedParams params data)
      ∨ fcgiParamsLoop result data = .error truncatedParams := by
  fun_induction fcgiParamsLoop result data with
  | case1 result => exact .inl ⟨[], .nil⟩
  | case2 result data hne e herror => exact .inr (by rw [takeLength_error herror])
  | case3 result data hne nameLength data₁ hname e herror =>
      exact .inr (by rw [takeLength_error herror])
  | case4 => exact .inr rfl
  | case5 result data hne nameLength data₁ hname valueLength data₂ hvalue hfits name value ih =>
      refine ih.imp_left ?_
      rintro ⟨params, hencoded⟩
      obtain ⟨nameSpelling, hnameSpelling, rfl⟩ := takeLength_ok hname
      obtain ⟨valueSpelling, hvalueSpelling, rfl⟩ := takeLength_ok hvalue
      have hname : (data₂.take nameLength).length = nameLength :=
        List.length_take_of_le (by omega)
      have hvalue : ((data₂.drop nameLength).take valueLength).length = valueLength := by
        rw [List.length_take, List.length_drop]
        omega
      have hdata : data₂ = data₂.take nameLength ++ (data₂.drop nameLength).take valueLength
          ++ data₂.drop (nameLength + valueLength) := by
        rw [List.append_assoc, ← List.drop_drop, List.take_append_drop, List.take_append_drop]
      refine ⟨(data₂.take nameLength, (data₂.drop nameLength).take valueLength) :: params, ?_⟩
      have henc := EncodedParams.cons (hname.symm ▸ hnameSpelling) (hvalue.symm ▸ hvalueSpelling)
        hencoded
      rw [List.append_assoc, List.append_assoc, List.append_assoc, ← List.append_assoc
        (data₂.take nameLength), ← hdata] at henc
      exact henc

/-- The pairs of a list, as the map has them. -/
structure DecodesTo (params : List (Bytes × Bytes)) (result : AssocMap Text Bytes) : Prop where
  /-- The last value of a name wins. -/
  last : ∀ name, result.get (decodeLatin1 name) = lastValue name params
  only : ∀ key, (∀ e ∈ params, decodeLatin1 e.1 ≠ key) → result.get key = none

theorem decodesTo (params : List (Bytes × Bytes)) : DecodesTo params (decodedParams params) :=
  ⟨headers_lastValue params, fun _ => AssocMap.get_setAll_none⟩

/-- Decoding undoes encoding, and every byte string either is an encoding
and is decoded, or is refused as truncated. -/
theorem fcgi_params :
    (∀ params : List (Bytes × Bytes),
      (∀ e ∈ params, e.1.length < 0x80000000 ∧ e.2.length < 0x80000000) →
      ∃ data result, fcgiNameValues params = .ok data ∧ fcgiParams data = .ok result
        ∧ DecodesTo params result)
      ∧ ∀ data : Bytes,
        (∃ params result, EncodedParams params data ∧ fcgiParams data = .ok result
          ∧ DecodesTo params result)
        ∨ (∀ params, ¬ EncodedParams params data)
          ∧ ∃ message, fcgiParams data = .error (.valueError message) := by
  constructor
  · intro params h
    obtain ⟨data, hdata, hencoded⟩ := fcgiNameValues_ok h
    exact ⟨data, _, hdata, fcgiParams_encoded hencoded, decodesTo params⟩
  · intro data
    by_cases hencoded : ∃ params, EncodedParams params data
    · obtain ⟨params, hencoded⟩ := hencoded
      exact .inl ⟨params, _, hencoded, fcgiParams_encoded hencoded, decodesTo params⟩
    · have hrefused := (fcgiParamsLoop_cases .empty data).resolve_left hencoded
      exact .inr ⟨fun params h => hencoded ⟨params, h⟩, _, hrefused⟩

end LighttpdFuzz
