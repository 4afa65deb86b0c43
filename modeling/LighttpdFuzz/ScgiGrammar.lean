import LighttpdFuzz.FastcgiParams

/-!
# What the parser of SCGI headers accepts

`_parse_scgi_headers` splits at the NUL bytes and drops the empty field
behind the last one. That field is the only trace of the last terminator,
and it is not required: with a last field that is not empty the parser goes
by the number of fields alone. So it reads a value that is not terminated
(`parseScgiHeaders_unterminated`), and is exact on all other strings
(`scgi_headers`).
-/

namespace LighttpdFuzz

/-! ## Fields -/

/-- Every string is a list of terminated fields and an open one. -/
theorem exists_fields : ∀ data : Bytes, ∃ (fields : List Bytes) (last : Bytes),
    (∀ field ∈ fields, 0 ∉ field) ∧ 0 ∉ last ∧ data = fields.flatMap (· ++ [0]) ++ last
  | [] => ⟨[], [], List.forall_mem_nil _, List.not_mem_nil, rfl⟩
  | b :: data => by
      obtain ⟨fields, last, hfields, hlast, rfl⟩ := exists_fields data
      rcases eq_or_ne b 0 with rfl | hb
      · exact ⟨[] :: fields, last, List.forall_mem_cons.mpr ⟨List.not_mem_nil, hfields⟩, hlast, rfl⟩
      cases fields with
      | nil =>
          refine ⟨[], b :: last, List.forall_mem_nil _, ?_, rfl⟩
          exact List.not_mem_cons_of_ne_of_not_mem hb.symm hlast
      | cons field fields =>
          obtain ⟨hfield, hfields⟩ := List.forall_mem_cons.mp hfields
          refine ⟨(b :: field) :: fields, last, List.forall_mem_cons.mpr ⟨?_, hfields⟩, hlast, rfl⟩
          exact List.not_mem_cons_of_ne_of_not_mem hb.symm hfield

theorem count_terminated : ∀ {fields : List Bytes}, (∀ field ∈ fields, 0 ∉ field) →
    (fields.flatMap (· ++ [0])).count 0 = fields.length
  | [], _ => rfl
  | field :: fields, h => by
      obtain ⟨hfield, hfields⟩ := List.forall_mem_cons.mp h
      rw [List.flatMap_cons, List.count_append, List.count_append,
        List.count_eq_zero_of_not_mem hfield, count_terminated hfields,
        List.count_singleton_self, List.length_cons]
      omega

theorem getLast?_terminated {fields : List Bytes} (h : fields ≠ []) :
    (fields.flatMap (· ++ [0])).getLast? = some 0 := by
  obtain ⟨init, field, rfl⟩ := (List.eq_nil_or_concat fields).resolve_left h
  rw [List.concat_eq_append, List.flatMap_append, List.flatMap_singleton, ← List.append_assoc,
    List.getLast?_concat]

/-- An even number of fields makes pairs. -/
theorem exists_pairs : ∀ {fields : List Bytes}, fields.length % 2 = 0 →
    ∃ params : List (Bytes × Bytes), fields = params.flatMap fun e => [e.1, e.2]
  | [], _ => ⟨[], rfl⟩
  | [_], h => by cases h
  | name :: value :: fields, h => by
      rw [List.length_cons, List.length_cons] at h
      obtain ⟨params, rfl⟩ := @exists_pairs fields (by omega)
      exact ⟨(name, value) :: params, rfl⟩

/-! ## The parser -/

/-- What the block of one or more pairs is: names and values without NUL,
each followed by one. -/
def IsScgiBlock (params : List (Bytes × Bytes)) (data : Bytes) : Prop :=
  params ≠ [] ∧ (∀ e ∈ params, 0 ∉ e.1 ∧ 0 ∉ e.2) ∧ data = scgiBlock params

/-- The parser is right about a string: it gives back the pairs of a block
and refuses anything else. -/
def ParsedExactly (data : Bytes) : Prop :=
  (∃ params result, IsScgiBlock params data ∧ parseScgiHeaders data = .ok result
    ∧ DecodesTo params result)
  ∨ (∀ params, ¬ IsScgiBlock params data)
    ∧ ∃ message, parseScgiHeaders data = .error (.valueError message)

/-- A block has a terminator for each name and one for each value. -/
theorem count_isScgiBlock {params : List (Bytes × Bytes)} {data : Bytes}
    (h : IsScgiBlock params data) : data.count 0 % 2 = 0 := by
  obtain ⟨-, hfree, rfl⟩ := h
  rw [scgiBlock_eq_flatMap, count_terminated (forall_pairFields.mpr hfree), length_pairFields]
  omega

/-- A block ends with a terminator. -/
theorem getLast?_isScgiBlock {params : List (Bytes × Bytes)} {data : Bytes}
    (h : IsScgiBlock params data) : data.getLast? = some 0 := by
  obtain ⟨hne, -, rfl⟩ := h
  rw [scgiBlock_eq_flatMap]
  refine getLast?_terminated fun hnil => hne ?_
  have hlen := length_pairFields params
  rw [hnil, List.length_nil] at hlen
  exact List.length_eq_zero_iff.mp (by omega)

/-- Terminated fields are accepted if they make pairs. -/
theorem parsedExactly_terminated {fields : List Bytes} (hne : fields ≠ [])
    (hfields : ∀ field ∈ fields, 0 ∉ field) : ParsedExactly (fields.flatMap (· ++ [0])) := by
  by_cases heven : fields.length % 2 = 0
  · obtain ⟨params, rfl⟩ := exists_pairs heven
    have hfree := forall_pairFields.mp hfields
    have hparams : params ≠ [] := by
      rintro rfl
      exact hne rfl
    refine .inl ⟨params, _, ⟨hparams, hfree, (scgiBlock_eq_flatMap params).symm⟩, ?_,
      decodesTo params⟩
    rw [← scgiBlock_eq_flatMap]
    exact parseScgiHeaders_joined hfree
  · refine .inr ⟨?_, "invalid SCGI headers", ?_⟩
    · intro params hblock
      have hcount := count_isScgiBlock hblock
      rw [count_terminated hfields] at hcount
      exact heven hcount
    · unfold parseScgiHeaders
      simp only [split_terminated hfields, List.getLast?_concat, List.dropLast_concat, if_true]
      rw [if_pos heven]

/-- Behind the terminated fields, an open one: the string is no block, and
is accepted if the open field makes the number even. -/
theorem parseScgiHeaders_unterminated {fields : List Bytes} {last : Bytes} (hlast : last ≠ [])
    (hfree : 0 ∉ last) (hfields : ∀ field ∈ fields, 0 ∉ field) :
    (∀ params, ¬ IsScgiBlock params (fields.flatMap (· ++ [0]) ++ last))
      ∧ parseScgiHeaders (fields.flatMap (· ++ [0]) ++ last)
        = if fields.length % 2 = 0 then .error (.valueError "invalid SCGI headers")
          else .ok (.setAll (fun e => decodeLatin1 e.1) Prod.snd .empty
            (fieldPairs (fields ++ [last]))) := by
  constructor
  · intro params hblock
    have hend := getLast?_isScgiBlock hblock
    rw [List.getLast?_append_of_ne_nil _ hlast] at hend
    exact hfree (List.mem_of_getLast? hend)
  · have hsplit := @Bytes.split_joined 0 [] last hfree fields hfields
    unfold parseScgiHeaders
    simp only [hsplit, List.getLast?_concat, Option.some.injEq, if_neg hlast, List.length_append,
      List.length_singleton]
    split_ifs <;> first | rfl | omega

/-- The parser is right about a string that is not empty exactly if its
last value is terminated or it has an even number of terminators. -/
theorem scgi_headers {data : Bytes} (hne : data ≠ []) :
    ParsedExactly data ↔ data.getLast? = some 0 ∨ data.count 0 % 2 = 0 := by
  obtain ⟨fields, last, hfields, hfree, rfl⟩ := exists_fields data
  rcases eq_or_ne last [] with rfl | hlast
  · rw [List.append_nil] at hne ⊢
    have hfieldsNe : fields ≠ [] := by
      rintro rfl
      exact hne rfl
    exact iff_of_true (parsedExactly_terminated hfieldsNe hfields)
      (.inl (getLast?_terminated hfieldsNe))
  · obtain ⟨hnone, hparse⟩ := parseScgiHeaders_unterminated hlast hfree hfields
    have hend : (fields.flatMap (· ++ [0]) ++ last).getLast? ≠ some 0 := by
      rw [List.getLast?_append_of_ne_nil _ hlast]
      exact fun hend => hfree (List.mem_of_getLast? hend)
    rw [or_iff_right hend, List.count_append, count_terminated hfields,
      List.count_eq_zero_of_not_mem hfree, Nat.add_zero]
    constructor
    · rintro (⟨params, -, hblock, -⟩ | ⟨-, message, hrefused⟩)
      · exact absurd hblock (hnone params)
      · rw [hparse] at hrefused
        split_ifs at hrefused with heven
        exact heven
    · intro heven
      exact .inr ⟨hnone, _, hparse.trans (if_pos heven)⟩

theorem scgi_headers_pair :
    ([97, 0, 98, 0] : Bytes) ≠ [] ∧ (ParsedExactly [97, 0, 98, 0]
      ↔ ([97, 0, 98, 0] : Bytes).getLast? = some 0 ∨ ([97, 0, 98, 0] : Bytes).count 0 % 2 = 0) :=
  ⟨by decide, scgi_headers (by decide)⟩

/-- The value of `a\0b` is not terminated, and it is accepted. -/
theorem unterminated_value :
    ¬ ParsedExactly [97, 0, 98]
      ∧ parseScgiHeaders [97, 0, 98] = .ok (.setAll (fun e => decodeLatin1 e.1) Prod.snd .empty
        [([97], [98])]) := by
  obtain ⟨hnone, hparse⟩ := @parseScgiHeaders_unterminated [[97]] [98] (by decide) (by decide)
    (by decide)
  refine ⟨?_, hparse⟩
  rintro (⟨params, -, hblock, -⟩ | ⟨-, message, hrefused⟩)
  · exact hnone params hblock
  · cases hparse.symm.trans hrefused

end LighttpdFuzz
