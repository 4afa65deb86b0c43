import LighttpdFuzz.Fastcgi
import LighttpdFuzz.HttpFront

/-!
# The SCGI front of the backend

`handle_scgi` reads a netstring of NUL-terminated names and values, then
the body, and answers. `parseScgiHeaders_joined` says that the parser gives
back the names and values of the netstring.
-/

namespace LighttpdFuzz

open Connection

/-! ## The netstring -/

/-- The digits before the colon, after `digits` have been read. -/
def scgiDigits (digits : Bytes) : Front Bytes :=
  if _hlen : digits.length < 10 then do
    let char ← recvExact 1
    if char = [0x3a] then return digits
    else
      if _hdigit : ¬ (char ≠ [] ∧ char.all Bytes.isDigit) then
        throw (.valueError "invalid SCGI netstring")
      else scgiDigits (digits ++ char)
  else throw (.valueError "SCGI length is too long")
termination_by 10 - digits.length
decreasing_by
  have hpos := List.length_pos_iff.mpr (not_not.mp _hdigit).1
  rw [List.length_append]
  omega

/-- The fields two by two. -/
def fieldPairs : List Bytes → List (Bytes × Bytes)
  | name :: value :: rest => (name, value) :: fieldPairs rest
  | _ => []

/-- `_parse_scgi_headers(data)` -/
def parseScgiHeaders (data : Bytes) : Except PyException (AssocMap Text Bytes) :=
  let fields := Bytes.split [0] data
  let fields := if fields.getLast? = some [] then fields.dropLast else fields
  if fields.length % 2 ≠ 0 then .error (.valueError "invalid SCGI headers")
  else
    .ok (.setAll (fun e => decodeLatin1 e.1) Prod.snd .empty (fieldPairs fields))

/-! ## The handler -/

def contentLengthVariable : Text := "CONTENT_LENGTH".toList

/-- `handle_scgi(sock, max_request)` -/
def handleScgi (lib : PyLibrary) (maxRequest : Nat) : Front Bool := do
  let digits ← scgiDigits []
  if digits = [] then throw (.valueError "missing SCGI length")
  else
    match Bytes.toInt digits with
    | none => throw (.valueError "invalid literal for int()")
    | some headerLength =>
        if headerLength ≤ 0 ∨ headerLength > maxHeaders then
          throw (.valueError "invalid SCGI header length")
        else do
          let block ← recvExact headerLength.toNat
          match parseScgiHeaders block with
          | .error e => throw e
          | .ok headers => do
              let comma ← recvExact 1
              if comma ≠ [0x2c] then throw (.valueError "invalid SCGI netstring terminator")
              else
                match Bytes.toInt ((headers.get contentLengthVariable).getD (Bytes.ascii "0")) with
                | none => throw (.valueError "invalid SCGI content length")
                | some contentLength =>
                    if contentLength < 0 ∨ contentLength > maxRequest then
                      throw (.valueError "invalid SCGI content length")
                    else do
                      let body ← recvExact contentLength.toNat
                      let mode := selectMode lib
                        ((headers.get requestUri).getD (Bytes.ascii "/"))
                        (cgiHeaders lib headers)
                      let plan ← callResponsePlan lib mode false body
                      sendData plan.data plan.inPieces
                      return true

/-! ## Reading the netstring -/

theorem scgiDigits_eq : ∀ {more digits : Bytes}, (∀ b ∈ more, Bytes.isDigit b = true) →
    digits.length + more.length < 10 → ∀ {rest : Bytes} {c : Connection Text},
    c.incoming = more ++ (0x3a :: rest) →
    ∃ cuts, scgiDigits digits c
      = (.ok (digits ++ more), { c with incoming := rest, cuts := cuts })
  | [], digits, _, hlen, rest, c, hc => by
      obtain ⟨cuts, hread⟩ := recvExact_one hc
      refine ⟨cuts, ?_⟩
      rw [scgiDigits, dif_pos (by simpa using hlen), bind_ok hread, if_pos rfl, pure_run,
        List.append_nil]
  | b :: more, digits, hmore, hlen, rest, c, hc => by
      have hc : c.incoming = b :: (more ++ (0x3a :: rest)) := hc
      obtain ⟨hb, hmore⟩ := List.forall_mem_cons.mp hmore
      rw [List.length_cons] at hlen
      obtain ⟨cuts, hread⟩ := recvExact_one hc
      obtain ⟨cuts', hrest⟩ := @scgiDigits_eq more (digits ++ [b]) hmore
        (by rw [List.length_append, List.length_singleton]; omega) rest
        { c with incoming := more ++ (0x3a :: rest), cuts := cuts } rfl
      have hcolon : [b] ≠ [0x3a] := by
        rintro h
        obtain rfl := List.singleton_inj.mp h
        cases hb
      refine ⟨cuts', ?_⟩
      rw [scgiDigits, dif_pos (by omega), bind_ok hread, if_neg hcolon,
        dif_neg (by simp [hb]), hrest, List.append_assoc, List.singleton_append]

/-- The block of a list of names and values. -/
def scgiBlock (params : List (Bytes × Bytes)) : Bytes :=
  params.flatMap fun e => e.1 ++ [0] ++ e.2 ++ [0]

theorem fieldPairs_flatMap : ∀ params : List (Bytes × Bytes),
    fieldPairs (params.flatMap fun e => [e.1, e.2]) = params
  | [] => rfl
  | e :: params => by
      rw [List.flatMap_cons]
      change (e.1, e.2) :: fieldPairs (params.flatMap fun e => [e.1, e.2]) = _
      rw [fieldPairs_flatMap params]

theorem length_pairFields : ∀ params : List (Bytes × Bytes),
    (params.flatMap fun e => [e.1, e.2]).length = 2 * params.length
  | [] => rfl
  | e :: params => by
      rw [List.flatMap_cons, List.length_append, length_pairFields params, List.length_cons]
      rw [List.length_cons, List.length_nil, List.length_cons]
      omega

theorem forall_pairFields {p : Bytes → Prop} {params : List (Bytes × Bytes)} :
    (∀ field ∈ params.flatMap fun e => [e.1, e.2], p field) ↔ ∀ e ∈ params, p e.1 ∧ p e.2 := by
  rw [List.forall_mem_flatMap]
  refine forall₂_congr fun e _ => ?_
  rw [List.forall_mem_cons, List.forall_mem_singleton]

/-- A block is the names and values in turn, each terminated. -/
theorem scgiBlock_eq_flatMap (params : List (Bytes × Bytes)) :
    scgiBlock params = (params.flatMap fun e => [e.1, e.2]).flatMap (· ++ [0]) := by
  rw [scgiBlock, List.flatMap_assoc]
  congr 1
  funext e
  simp

/-- Terminated fields are split with an empty field behind them. -/
theorem split_terminated {fields : List Bytes} (h : ∀ field ∈ fields, 0 ∉ field) :
    Bytes.split [0] (fields.flatMap (· ++ [0])) = fields ++ [[]] := by
  have hsplit := @Bytes.split_joined 0 [] [] List.not_mem_nil fields h
  rwa [List.append_nil] at hsplit

theorem parseScgiHeaders_joined {params : List (Bytes × Bytes)}
    (h : ∀ e ∈ params, 0 ∉ e.1 ∧ 0 ∉ e.2) :
    parseScgiHeaders (scgiBlock params)
      = .ok (.setAll (fun e => decodeLatin1 e.1) Prod.snd .empty params) := by
  rw [parseScgiHeaders, scgiBlock_eq_flatMap]
  simp only [split_terminated (forall_pairFields.mpr h), List.getLast?_concat,
    List.dropLast_concat, if_true]
  rw [if_neg (by rw [length_pairFields]; omega), fieldPairs_flatMap]

/-- A whole request is answered; what comes after it stays unread. -/
theorem handleScgi_run {lib : PyLibrary} {maxRequest : Nat} {digits block body rest : Bytes}
    {headers : AssocMap Text Bytes} {c : Connection Text}
    (hc : c.incoming = digits ++ (0x3a :: (block ++ (0x2c :: (body ++ rest)))))
    (hdigits : ∀ b ∈ digits, Bytes.isDigit b = true) (hne : digits ≠ [])
    (hlen : digits.length < 10) (hvalue : Bytes.toInt digits = some (block.length : Int))
    (hblock : block ≠ []) (hmax : block.length ≤ maxHeaders)
    (hparse : parseScgiHeaders block = .ok headers)
    (hlength : Bytes.toInt ((headers.get contentLengthVariable).getD (Bytes.ascii "0"))
      = some (body.length : Int)) (hbody : body.length ≤ maxRequest)
    {mode : Text} (hmode : selectMode lib ((headers.get requestUri).getD (Bytes.ascii "/"))
      (cgiHeaders lib headers) = mode) :
    ∃ cuts accepts, handleScgi lib maxRequest c = (.ok true, { c with
      incoming := rest, cuts := cuts, accepts := accepts,
      written := c.written ++ (responsePlan lib mode false body).data,
      noted := c.noted ++ [mode] }) := by
  have hpos := List.length_pos_iff.mpr hblock
  obtain ⟨cuts₁, hread₁⟩ := @scgiDigits_eq digits [] hdigits (by simpa using hlen) _ c hc
  obtain ⟨cuts₂, hread₂⟩ := recvExact_append (Eq.refl block.length)
    (c := { c with incoming := block ++ (0x2c :: (body ++ rest)), cuts := cuts₁ }) rfl
  obtain ⟨cuts₃, hread₃⟩ := recvExact_one
    (c := { c with incoming := 0x2c :: (body ++ rest), cuts := cuts₂ }) rfl
  obtain ⟨cuts₄, hread₄⟩ := recvExact_append (Eq.refl body.length)
    (c := { c with incoming := body ++ rest, cuts := cuts₃ }) rfl
  obtain ⟨accepts, hsend⟩ := sendData_eq (responsePlan lib mode false body).data
    (responsePlan lib mode false body).inPieces
    { c with incoming := rest, cuts := cuts₄, noted := c.noted ++ [mode] }
  refine ⟨cuts₄, accepts, ?_⟩
  rw [handleScgi, bind_ok hread₁, List.nil_append, if_neg hne]
  simp only [hvalue]
  rw [if_neg (by omega), Int.toNat_natCast, bind_ok hread₂]
  simp only [hparse]
  rw [bind_ok hread₃, if_neg (not_not.mpr rfl)]
  simp only [hlength]
  rw [if_neg (by omega), Int.toNat_natCast, bind_ok hread₄, hmode,
    bind_ok (callResponsePlan_run _ _ _ _ _), bind_ok hsend, pure_run]

end LighttpdFuzz
