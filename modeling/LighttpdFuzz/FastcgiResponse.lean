import LighttpdFuzz.FastcgiMultiplex
import LighttpdFuzz.SelfDelimiting

/-!
# The records of a FastCGI response

A web server reads a response as records, each of which announces the
length of its content and its padding. `recordFraming` is this format; it
can be read in one way only. A response is right (`Answers`) when the
STDOUT records carry the planned bytes and the two closing records follow
unless the mode breaks off.

`_fcgi_respond` puts the whole response into one STDOUT record. All modes
but one have responses of a fixed small size; `upgrade` sends the body
back behind 79 bytes of headers. What `handle_fastcgi` admits as a body is
limited by `max_request` alone (`admits_iff`), so that a long body can be
admitted that no response can carry.
-/

namespace LighttpdFuzz

open Connection Multiplex

/-! ## Reading records -/

/-- One record off the front, as a web server reads it; version 1 only. -/
def takeRecord : Bytes → Option (FcgiRecord × Bytes)
  | version :: recordType :: id₁ :: id₀ :: length₁ :: length₀ :: padding :: _ :: data =>
      if version = 1 ∧ Bytes.intFromBig [length₁, length₀] + padding.toNat ≤ data.length then
        some (⟨recordType, Bytes.intFromBig [id₁, id₀],
            data.take (Bytes.intFromBig [length₁, length₀])⟩,
          data.drop (Bytes.intFromBig [length₁, length₀] + padding.toNat))
      else none
  | _ => none

/-- The spellings of a record; padding and the last byte of the header
are up to the sender. -/
inductive SpellsRecord : Bytes → FcgiRecord → Prop
  | mk {recordType : UInt8} {id : Nat} {content padding : Bytes} {reserved : UInt8} :
      id < 0x10000 → content.length < 0x10000 → padding.length < 0x100 →
      SpellsRecord ([1, recordType] ++ Bytes.bigDigits 2 id
        ++ Bytes.bigDigits 2 content.length ++ [UInt8.ofNat padding.length, reserved]
        ++ (content ++ padding)) ⟨recordType, id, content⟩

/-- Two big-endian digits. -/
theorem bigDigits_two {n : Nat} (h : n < 0x10000) :
    ∃ hi lo, Bytes.bigDigits 2 n = [hi, lo] ∧ Bytes.intFromBig [hi, lo] = n := by
  refine ⟨_, _, rfl, ?_⟩
  exact @Bytes.intFromBig_bigDigits 2 n h

theorem intFromBig_two_lt (hi lo : UInt8) : Bytes.intFromBig [hi, lo] < 0x10000 := by
  have h := Bytes.intFromBig_lt [hi, lo]
  simpa using h

theorem takeRecord_spelled {w : Bytes} {record : FcgiRecord} (h : SpellsRecord w record)
    (t : Bytes) : takeRecord (w ++ t) = some (record, t) := by
  cases h with
  | @mk recordType id content padding reserved hid hcontent hpadding =>
      obtain ⟨id₁, id₀, hidDigits, hidBack⟩ := bigDigits_two hid
      obtain ⟨length₁, length₀, hlenDigits, hlenBack⟩ := bigDigits_two hcontent
      have hpad : (UInt8.ofNat padding.length).toNat = padding.length := by
        rw [UInt8.toNat_ofNat']
        omega
      have hwire : [1, recordType] ++ Bytes.bigDigits 2 id ++ Bytes.bigDigits 2 content.length
            ++ [UInt8.ofNat padding.length, reserved] ++ (content ++ padding) ++ t
          = 1 :: recordType :: id₁ :: id₀ :: length₁ :: length₀
            :: UInt8.ofNat padding.length :: reserved :: (content ++ (padding ++ t)) := by
        rw [hidDigits, hlenDigits, ← List.append_assoc]
        simp
      rw [hwire, takeRecord, hlenBack, hidBack, hpad, if_pos]
      · rw [List.take_left, ← List.append_assoc, ← List.length_append, List.drop_left]
      · refine ⟨rfl, ?_⟩
        simp only [List.length_append]
        omega

theorem spelled_of_takeRecord {l t : Bytes} {record : FcgiRecord}
    (h : takeRecord l = some (record, t)) : ∃ w, SpellsRecord w record ∧ l = w ++ t := by
  unfold takeRecord at h
  split at h
  · next version recordType id₁ id₀ length₁ length₀ padding reserved data =>
      split at h
      · next hok =>
          obtain ⟨rfl, hlen⟩ := hok
          cases h
          have hid : Bytes.bigDigits 2 (Bytes.intFromBig [id₁, id₀]) = [id₁, id₀] :=
            Bytes.bigDigits_intFromBig [id₁, id₀]
          have hidLt := intFromBig_two_lt id₁ id₀
          have hlength : Bytes.bigDigits 2 (Bytes.intFromBig [length₁, length₀])
              = [length₁, length₀] := Bytes.bigDigits_intFromBig [length₁, length₀]
          have hlengthLt := intFromBig_two_lt length₁ length₀
          generalize Bytes.intFromBig [id₁, id₀] = id at hid hidLt ⊢
          generalize Bytes.intFromBig [length₁, length₀] = length at hlength hlengthLt hlen ⊢
          have hcontent : (data.take length).length = length := by
            rw [List.length_take]
            omega
          have hpadding : ((data.drop length).take padding.toNat).length = padding.toNat := by
            rw [List.length_take, List.length_drop]
            omega
          have hrest : data = data.take length ++ (data.drop length).take padding.toNat
              ++ data.drop (length + padding.toNat) := by
            rw [← List.take_add, List.take_append_drop]
          refine ⟨_, @SpellsRecord.mk recordType id (data.take length)
            ((data.drop length).take padding.toNat) reserved hidLt (by omega)
            (by rw [hpadding]; exact padding.toNat_lt), ?_⟩
          rw [hcontent, hpadding, hid, hlength, UInt8.ofNat_toNat, List.append_assoc, ← hrest]
          rfl
      · cases h
  · cases h

/-- The format of FastCGI streams. -/
def recordFraming : Framing FcgiRecord UInt8 where
  Spells := SpellsRecord
  read := takeRecord
  read_append := takeRecord_spelled
  spells_of_read := spelled_of_takeRecord
  ne_nil h := by
    cases h
    simp

/-! ## What the handler admits -/

/-- The STDIN records that bring the parts of a body. -/
def stdinRecords (id : Nat) (parts : List Bytes) : List FcgiRecord :=
  parts.map fun part => ⟨5, id, part⟩

/-- `handle_fastcgi` takes the body in: some request has it after some
number of STDIN records. -/
def Admits (lib : PyLibrary) (maxRequest id : Nat) (body : Bytes) : Prop :=
  ∃ (start : FcgiRequest) (parts : List Bytes) (effects : List RecordEffect), start.body = []
    ∧ (∀ part ∈ parts, part ≠ [] ∧ part.length < 0x10000)
    ∧ runAlone (requestStep lib maxRequest) (some start) (stdinRecords id parts)
      = .ok (some { start with body := body }, effects)

section Admit

variable {lib : PyLibrary} {maxRequest id : Nat}

/-- However a body is divided, it is its length that counts. -/
theorem runAlone_stdin : ∀ {parts : List Bytes} {start : FcgiRequest},
    (∀ part ∈ parts, part ≠ []) → start.body.length + parts.flatten.length ≤ maxRequest →
    runAlone (requestStep lib maxRequest) (some start) (stdinRecords id parts)
      = .ok (some { start with body := start.body ++ parts.flatten },
        parts.map fun _ => .none)
  | [], start, _, _ => by
      rw [List.flatten_nil, List.append_nil]
      rfl
  | part :: parts, start, hparts, hlen => by
      obtain ⟨hpart, hparts⟩ := List.forall_mem_cons.mp hparts
      rw [List.flatten_cons, List.length_append] at hlen
      have hstep := @requestStep_stdin lib maxRequest start id part hpart
      rw [if_neg (by omega)] at hstep
      have hrest := @runAlone_stdin parts { start with body := start.body ++ part } hparts
        (by rw [List.length_append]; omega)
      rw [List.append_assoc] at hrest
      exact runAlone_step hstep hrest

/-- A body that has been taken in is within the limit. -/
theorem runAlone_stdin_le : ∀ {parts : List Bytes} {start last : FcgiRequest}
    {effects : List RecordEffect}, (∀ part ∈ parts, part ≠ []) →
    runAlone (requestStep lib maxRequest) (some start) (stdinRecords id parts)
      = .ok (some last, effects) →
    start.body.length ≤ maxRequest → last.body.length ≤ maxRequest
  | [], start, last, effects, _, hrun, hle => by
      cases hrun
      exact hle
  | part :: parts, start, last, effects, hparts, hrun, _ => by
      obtain ⟨hpart, hparts⟩ := List.forall_mem_cons.mp hparts
      obtain ⟨next, out, outs, hstep, hrest, -⟩ := runAlone_cons hrun
      rw [requestStep_stdin hpart] at hstep
      split_ifs at hstep with hlen
      cases hstep
      exact runAlone_stdin_le hparts hrest (by rw [List.length_append]; omega)

/-- Every length up to the limit is admitted, and no other. -/
theorem admits_iff {body : Bytes} : Admits lib maxRequest id body ↔ body.length ≤ maxRequest := by
  constructor
  · rintro ⟨start, parts, effects, hstart, hparts, hrun⟩
    exact runAlone_stdin_le (fun part h => (hparts part h).1) hrun
      (by rw [hstart]; exact Nat.zero_le _)
  · intro hlen
    -- byte by byte
    let parts := body.map fun b => [b]
    have hflat : parts.flatten = body := by
      rw [← List.flatMap_def]
      exact List.flatMap_singleton' body
    have hparts : ∀ part ∈ parts, part ≠ [] ∧ part.length < 0x10000 := by
      intro part hpart
      obtain ⟨b, -, rfl⟩ := List.mem_map.mp hpart
      exact ⟨List.cons_ne_nil _ _, by simp⟩
    have hrun := @runAlone_stdin lib maxRequest id parts ⟨[], [], .empty, [], true⟩
      (fun part h => (hparts part h).1) (by rw [hflat]; simpa using hlen)
    rw [hflat] at hrun
    exact ⟨_, parts, _, rfl, hparts, hrun⟩

end Admit

/-! ## Sizes of responses -/

theorem plan_fits {m : BackendMode} (hm : m ≠ .upgrade) (echo : Bytes) :
    (m.plan false echo).data.length ≤ 0xffff := by
  rw [plan_echo hm]
  cases m with
  | upgrade => exact absurd rfl hm
  | _ => decide +kernel

theorem plan_upgrade_length (echo : Bytes) :
    (BackendMode.upgrade.plan false echo).data.length = 79 + min maxRequest echo.length := by
  rw [BackendMode.plan, List.length_append, List.length_take]
  congr 1

/-- The header block and 65456 more bytes make a record. -/
theorem responsePlan_fits_iff (lib : PyLibrary) (mode : Text) (body : Bytes) :
    (responsePlan lib mode false body).data.length ≤ 0xffff
      ↔ (canonicalMode lib mode = BackendMode.upgrade.name → body.length ≤ 65456) := by
  obtain ⟨m, hname, hplan⟩ := responsePlan_mode lib mode
  rw [hname, hplan]
  rcases eq_or_ne m .upgrade with rfl | hm
  · rw [plan_upgrade_length, maxRequest]
    constructor
    · intro h _
      omega
    · intro h
      have := h rfl
      omega
  · have hne : m.name ≠ BackendMode.upgrade.name := by
      cases m with
      | upgrade => exact absurd rfl hm
      | _ => decide
    exact ⟨fun _ h => absurd h hne, fun _ => plan_fits hm body⟩

/-! ## Answers -/

/-- The records answer request `id` with the plan: STDOUT records carry
its bytes, and unless the mode breaks off an empty one and END_REQUEST
follow. -/
def Answers (id : Nat) (plan : Plan) (records : List FcgiRecord) : Prop :=
  ∃ (contents : List Bytes) (requestEnd : Bytes), (∀ content ∈ contents, content ≠ [])
    ∧ contents.flatten = plan.data ∧ requestEnd.length = 8
    ∧ records = contents.map (fun content => ⟨6, id, content⟩)
      ++ if plan.closeEarly then [] else [⟨6, id, []⟩, ⟨3, id, requestEnd⟩]

/-- `_fcgi_respond` returns, and what it writes is a stream of records
that answers the request. -/
def WellAnswered (lib : PyLibrary) (id : Nat) (mode : Text) (body : Bytes) (keep : Bool) : Prop :=
  ∀ c : Connection Text, ∃ close c' wire records,
    fcgiRespond lib id mode body keep c = (.ok close, c') ∧ c'.written = c.written ++ wire
      ∧ recordFraming.readAll wire = some records
      ∧ Answers id (responsePlan lib mode false body) records

section Respond

variable {lib : PyLibrary} {id : Nat} {mode : Text} {body : Bytes} {keep : Bool}

theorem fcgiRecord_spelled {recordType : UInt8} {content : Bytes} (hid : id < 0x10000)
    (h : content.length ≤ 0xffff) :
    ∃ w, fcgiRecord recordType id content = .ok w
      ∧ SpellsRecord w ⟨recordType, id, content⟩ := by
  refine ⟨_, if_neg (Nat.not_lt.mpr h), ?_⟩
  have hmk := @SpellsRecord.mk recordType id content [] 0 hid (by omega) (by decide)
  rw [List.append_nil] at hmk
  exact hmk

/-- A response that fits a record. -/
theorem fcgiWire_answers {plan : Plan} (hid : id < 0x10000) (hne : plan.data ≠ [])
    (hfits : plan.data.length ≤ 0xffff) :
    ∃ wire records, fcgiWire id plan = .ok wire ∧ recordFraming.readAll wire = some records
      ∧ Answers id plan records := by
  obtain ⟨w, hw, hspells⟩ := @fcgiRecord_spelled id 6 plan.data hid hfits
  obtain ⟨w₁, hw₁, hspells₁⟩ := @fcgiRecord_spelled id 6 [] hid (Nat.zero_le _)
  obtain ⟨w₂, hw₂, hspells₂⟩ := @fcgiRecord_spelled id 3 (List.replicate 8 0) hid (by decide)
  have hcontents : ∀ content ∈ [plan.data], content ≠ [] := by
    intro content hcontent
    rw [List.mem_singleton.mp hcontent]
    exact hne
  have hanswers := fun records h => (⟨[plan.data], List.replicate 8 0, hcontents,
    by simp, rfl, h⟩ : Answers id plan records)
  cases hearly : plan.closeEarly with
  | true =>
      refine ⟨w, [⟨6, id, plan.data⟩], ?_, ?_, hanswers _ (by rw [hearly]; rfl)⟩
      · rw [fcgiWire, hw]
        simp only [hearly]
        rfl
      · exact Framing.readAll_eq_some_iff.mpr (by
          have h := Framing.SpellsAll.cons (F := recordFraming) hspells .nil
          rwa [List.append_nil] at h)
  | false =>
      refine ⟨w ++ w₁ ++ w₂, [⟨6, id, plan.data⟩, ⟨6, id, []⟩, ⟨3, id, List.replicate 8 0⟩],
        ?_, ?_, hanswers _ (by rw [hearly]; rfl)⟩
      · rw [fcgiWire, hw]
        simp only [hearly]
        rw [hw₁, hw₂]
        rfl
      · refine Framing.readAll_eq_some_iff.mpr ?_
        have h := Framing.SpellsAll.cons (F := recordFraming) hspells
          (.cons hspells₁ (.cons hspells₂ .nil))
        rwa [List.append_nil, ← List.append_assoc] at h

theorem fcgiWire_too_large {plan : Plan} (h : ¬ plan.data.length ≤ 0xffff) :
    fcgiWire id plan = .error (.valueError "FastCGI record too large") := by
  rw [fcgiWire, fcgiRecord, if_pos (Nat.lt_of_not_le h)]
  rfl

/-- A response is right exactly if it fits a record. -/
theorem wellAnswered_iff_fits (hid : id < 0x10000) :
    WellAnswered lib id mode body keep
      ↔ (responsePlan lib mode false body).data.length ≤ 0xffff := by
  constructor
  · intro h
    by_contra hlarge
    obtain ⟨close, c', wire, records, hrespond, -⟩ := h (fresh [] [] [])
    rw [fcgiRespond_error (fcgiWire_too_large hlarge)] at hrespond
    cases hrespond
  · intro hfits c
    have hne : (responsePlan lib mode false body).data ≠ [] := by
      obtain ⟨m, -, hplan⟩ := responsePlan_mode lib mode
      rw [hplan]
      exact plan_ne_nil m false body
    obtain ⟨wire, records, hwire, hread, hanswers⟩ := @fcgiWire_answers id _ hid hne hfits
    obtain ⟨accepts, hrespond⟩ := @fcgiRespond_ok lib id mode body wire keep hwire c
    exact ⟨_, _, wire, records, hrespond, rfl, hread, hanswers⟩

end Respond

/-- Bodies are admitted up to `max_request`; a response to an admitted
body is right unless the mode is `upgrade` and the body leaves no room for
the headers in a record. -/
theorem fcgi_responses (lib : PyLibrary) (maxRequest id : Nat) (mode : Text) (body : Bytes)
    (keep : Bool) (hid : 0 < id ∧ id < 0x10000) :
    (Admits lib maxRequest id body ↔ body.length ≤ maxRequest)
      ∧ (WellAnswered lib id mode body keep
        ↔ (canonicalMode lib mode = BackendMode.upgrade.name → body.length ≤ 65456)) :=
  ⟨admits_iff, (wellAnswered_iff_fits hid.2).trans (responsePlan_fits_iff lib mode body)⟩

theorem fcgi_responses_upgrade :
    (Admits demoLibrary maxRequest 0xffff [0x61] ↔ [(0x61 : UInt8)].length ≤ maxRequest)
      ∧ (WellAnswered demoLibrary 0xffff BackendMode.upgrade.name [0x61] false
        ↔ (canonicalMode demoLibrary BackendMode.upgrade.name = BackendMode.upgrade.name
          → [(0x61 : UInt8)].length ≤ 65456)) :=
  fcgi_responses demoLibrary maxRequest 0xffff BackendMode.upgrade.name [0x61] false (by decide)

/-- A body that is admitted and cannot be answered. -/
theorem upgrade_echo_too_large :
    Admits demoLibrary maxRequest 1 (List.replicate 65457 0x61)
      ∧ ¬ WellAnswered demoLibrary 1 BackendMode.upgrade.name (List.replicate 65457 0x61) true := by
  refine ⟨admits_iff.mpr (by rw [List.length_replicate]; decide), ?_⟩
  rw [wellAnswered_iff_fits (by decide), responsePlan_fits_iff, List.length_replicate]
  intro h
  have hmode : canonicalMode demoLibrary BackendMode.upgrade.name = BackendMode.upgrade.name := by
    decide +kernel
  exact absurd (h hmode) (by decide)

end LighttpdFuzz
