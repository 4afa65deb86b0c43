import LighttpdFuzz.FastcgiMultiplex
import LighttpdFuzz.ScgiFront

/-!
# One request through three fronts

A request for a URI, possibly with a mode header, can reach the backend by
HTTP, FastCGI or SCGI. The parsers differ: HTTP strips the bytes of a
value and lowers the name of a header, the CGI fronts rename variables.
What `select_mode` gets is the same up to the stripping, which
`_mode_value` does again on the text (`canonicalMode_strip`), so the
three handlers call `response_plan` with one mode (`fronts_agree`).
-/

namespace LighttpdFuzz

open Connection

/-- What a client asks for. -/
structure RequestTarget where
  uri : Bytes
  /-- The value of `X-Backend-Mode`, if the request has one. -/
  mode : Option Bytes
  body : Bytes
  uri_ne : uri ≠ []
  uri_bytes : ∀ b ∈ uri, b ≠ 0x20 ∧ b ≠ 0x0d ∧ b ≠ 0x0a ∧ b ≠ 0
  mode_bytes : ∀ value, mode = some value → ∀ b ∈ value, b ≠ 0x0d ∧ b ≠ 0x0a ∧ b ≠ 0

/-- The mode that the target selects. -/
def RequestTarget.selected (target : RequestTarget) (lib : PyLibrary) : Text :=
  match target.mode with
  | some value => canonicalMode lib (decodeLatin1 value)
  | none => selectMode lib target.uri .empty

section Select

variable {lib : PyLibrary} {target : RequestTarget}

theorem selectMode_of_some {uri value : Bytes} {headers : AssocMap Text Bytes}
    (h : headers.get modeHeader = some value) :
    selectMode lib uri headers = canonicalMode lib (decodeLatin1 value) := by
  rw [selectMode, h]

theorem selectMode_of_none {uri : Bytes} {headers : AssocMap Text Bytes}
    (h : headers.get modeHeader = none) :
    selectMode lib uri headers = selectMode lib uri .empty := by
  rw [selectMode, selectMode, h, AssocMap.get_empty]

theorem selected_mem : target.selected lib ∈ modeNames := by
  unfold RequestTarget.selected
  split
  · exact canonicalMode_mem _
  · exact selectMode_mem _ _

/-! ## Stripping twice -/

theorem isSpace_decode : ∀ b : UInt8, Bytes.isSpace b = true →
    Text.isSpace (Char.ofNat b.toNat) = true := by
  have hall : ∀ n < 256, Bytes.isSpace (UInt8.ofNat n) = true →
      Text.isSpace (Char.ofNat n) = true := by decide +kernel
  intro b hb
  exact hall b.toNat b.toNat_lt (by rwa [UInt8.ofNat_toNat])

/-- White space of a byte string is white space of its text. -/
theorem strip_decode (value : Bytes) :
    (decodeLatin1 value.strip).strip = (decodeLatin1 value).strip := by
  obtain ⟨a, b, hsplit, ha, hb⟩ := stripBy_split Bytes.isSpace value
  have hpad : ∀ pad : Bytes, (∀ x ∈ pad, Bytes.isSpace x = true) →
      ∀ c ∈ decodeLatin1 pad, Text.isSpace c = true := by
    intro pad hpad c hc
    obtain ⟨x, hx, rfl⟩ := List.mem_map.mp hc
    exact isSpace_decode x (hpad x hx)
  have htext : decodeLatin1 value
      = decodeLatin1 a ++ decodeLatin1 value.strip ++ decodeLatin1 b := by
    conv_lhs => rw [hsplit]
    rw [decodeLatin1, List.map_append, List.map_append]
    rfl
  rw [htext]
  exact (stripBy_pads (hpad a ha) (hpad b hb)).symm

theorem canonicalMode_strip (value : Bytes) :
    canonicalMode lib (decodeLatin1 value.strip) = canonicalMode lib (decodeLatin1 value) := by
  have hvalue : modeValue lib (decodeLatin1 value.strip) = modeValue lib (decodeLatin1 value) := by
    rw [modeValue, modeValue, strip_decode]
  rw [canonicalMode, canonicalMode, hvalue]

end Select

/-! ## The target as CGI variables -/

def requestUriName : Bytes := Bytes.ascii "REQUEST_URI"

def modeVariable : Bytes := Bytes.ascii "HTTP_X_BACKEND_MODE"

/-- The variables carry the target; the further ones map neither to the
URI nor to the mode header. -/
structure CgiEncodes (lib : PyLibrary) (target : RequestTarget) (params : List (Bytes × Bytes)) :
    Prop where
  uri_mem : (requestUriName, target.uri) ∈ params
  uri_only : ∀ e ∈ params, decodeLatin1 e.1 = requestUri → e.2 = target.uri
  mode_mem : ∀ value, target.mode = some value → (modeVariable, value) ∈ params
  mode_only : ∀ e ∈ params, httpPrefix <+: decodeLatin1 e.1 →
    cgiHeaderName lib (decodeLatin1 e.1) = modeHeader → target.mode = some e.2

section Cgi

variable {lib : PyLibrary} {target : RequestTarget} {params : List (Bytes × Bytes)}

theorem modeVariable_name : httpPrefix <+: decodeLatin1 modeVariable
    ∧ cgiHeaderName lib (decodeLatin1 modeVariable) = modeHeader := by
  refine ⟨by decide +kernel, ?_⟩
  rw [cgiHeaderName, lib.lower_latin1 _ (isLatin1_of_all (by decide +kernel))]
  decide +kernel

theorem CgiEncodes.get_uri (h : CgiEncodes lib target params) :
    (decodedParams params).get requestUri = some target.uri :=
  AssocMap.get_setAll_eq
    ⟨_, h.uri_mem, (by decide +kernel : decodeLatin1 requestUriName = requestUri)⟩ h.uri_only

theorem CgiEncodes.get_mode (h : CgiEncodes lib target params) :
    (cgiHeaders lib (decodedParams params)).get modeHeader = target.mode := by
  have honly : ∀ e ∈ (decodedParams params).entries.filter
      (fun e => decide (httpPrefix <+: e.1)), cgiHeaderName lib e.1 = modeHeader →
      target.mode = some e.2 := by
    intro e he hname
    obtain ⟨hentry, hstarts⟩ := List.mem_filter.mp he
    have hget := AssocMap.get_eq_some_iff.mpr hentry
    rcases AssocMap.get_setAll hget with ⟨x, hx, hkey, hvalue⟩ | hempty
    · rw [← hkey] at hname hstarts
      rw [← hvalue]
      exact h.mode_only x hx (of_decide_eq_true hstarts) hname
    · cases hempty
  cases hmode : target.mode with
  | none =>
      refine AssocMap.get_setAll_none fun e he hname => ?_
      have hsome := honly e he hname
      rw [hmode] at hsome
      cases hsome
  | some value =>
      obtain ⟨hstarts, hname⟩ := @modeVariable_name lib
      have hget : (decodedParams params).get (decodeLatin1 modeVariable) = some value := by
        refine AssocMap.get_setAll_eq ⟨_, h.mode_mem value hmode, rfl⟩ fun e he hkey => ?_
        have hsome := h.mode_only e he (hkey ▸ hstarts) (hkey ▸ hname)
        rw [hmode] at hsome
        exact (Option.some.inj hsome).symm
      refine AssocMap.get_setAll_eq ⟨(decodeLatin1 modeVariable, value), ?_, hname⟩ ?_
      · exact List.mem_filter.mpr ⟨AssocMap.get_eq_some_iff.mp hget, decide_eq_true hstarts⟩
      · intro e he hkey
        have hsome := honly e he hkey
        rw [hmode] at hsome
        exact (Option.some.inj hsome).symm

/-- The CGI fronts select the mode of the target. -/
theorem CgiEncodes.selected (h : CgiEncodes lib target params) :
    selectMode lib (((decodedParams params).get requestUri).getD (Bytes.ascii "/"))
      (cgiHeaders lib (decodedParams params)) = target.selected lib := by
  rw [h.get_uri, Option.getD_some, RequestTarget.selected]
  cases hmode : target.mode with
  | none => exact selectMode_of_none (h.get_mode.trans hmode)
  | some value => exact selectMode_of_some (h.get_mode.trans hmode)

end Cgi

/-- A request by SCGI. -/
structure ScgiMessage where
  digits : Bytes
  params : List (Bytes × Bytes)
  /-- What the connection carries after the request. -/
  rest : Bytes

/-- The message encodes the target within the limits of the handler. -/
structure ScgiMessage.Encodes (message : ScgiMessage) (lib : PyLibrary) (maxRequest : Nat)
    (target : RequestTarget) : Prop where
  carries : CgiEncodes lib target message.params
  bytes : ∀ e ∈ message.params, 0 ∉ e.1 ∧ 0 ∉ e.2
  length_is : ∀ e ∈ message.params, decodeLatin1 e.1 = contentLengthVariable →
    Bytes.toInt e.2 = some (target.body.length : Int)
  no_length : (∀ e ∈ message.params, decodeLatin1 e.1 ≠ contentLengthVariable) → target.body = []
  isDigit : ∀ b ∈ message.digits, Bytes.isDigit b = true
  digits_ne : message.digits ≠ []
  digits_lt : message.digits.length < 10
  digits_value : Bytes.toInt message.digits = some ((scgiBlock message.params).length : Int)
  block_le : (scgiBlock message.params).length ≤ maxHeaders
  body_le : target.body.length ≤ maxRequest

def ScgiMessage.bytes (message : ScgiMessage) (target : RequestTarget) : Bytes :=
  message.digits ++ (0x3a :: (scgiBlock message.params ++ (0x2c :: (target.body ++ message.rest))))

theorem ScgiMessage.Encodes.noted {message : ScgiMessage} {lib : PyLibrary} {maxRequest : Nat}
    {target : RequestTarget} (h : message.Encodes lib maxRequest target)
    (cuts accepts : List Nat) :
    (handleScgi lib maxRequest (fresh (message.bytes target) cuts accepts)).2.noted
      = [target.selected lib] := by
  have hblock : scgiBlock message.params ≠ [] := by
    intro hnil
    have hempty := List.flatMap_eq_nil_iff.mp hnil _ h.carries.uri_mem
    simp at hempty
  have hlength : Bytes.toInt (((decodedParams message.params).get contentLengthVariable).getD
      (Bytes.ascii "0")) = some (target.body.length : Int) := by
    refine AssocMap.getD_setAll (p := fun value =>
      Bytes.toInt value = some (target.body.length : Int)) h.length_is fun hnone => ?_
    rw [h.no_length hnone]
    decide
  obtain ⟨cuts', accepts', hrun⟩ := handleScgi_run (c := fresh (message.bytes target) cuts accepts)
    rfl h.isDigit h.digits_ne h.digits_lt h.digits_value hblock h.block_le
    (parseScgiHeaders_joined h.bytes) hlength h.body_le h.carries.selected
  rw [hrun]
  rfl

/-! ## The target as an HTTP request -/

/-- A header line; the value may have blanks around it. -/
structure HttpField where
  name : Bytes
  before : Bytes
  value : Bytes
  after : Bytes

def HttpField.line (field : HttpField) : Bytes :=
  field.name ++ ([0x3a] ++ (field.before ++ field.value ++ field.after))

structure HttpField.WellFormed (field : HttpField) : Prop where
  name_bytes : ∀ b ∈ field.name, b ≠ 0x3a ∧ b ≠ 0x0d ∧ b ≠ 0x0a
  value_bytes : ∀ b ∈ field.value, b ≠ 0x0d ∧ b ≠ 0x0a
  blanks : ∀ b ∈ field.before ++ field.after, b = 0x20 ∨ b = 0x09

/-- A request by HTTP. -/
structure HttpMessage where
  method : Bytes
  version : Bytes
  fields : List HttpField
  /-- What the connection carries after the request. -/
  rest : Bytes

def modeField : Bytes := Bytes.ascii "X-Backend-Mode"

def HttpMessage.head (message : HttpMessage) (target : RequestTarget) : Bytes :=
  headOf (requestLineOf message.method target.uri message.version)
    (message.fields.map HttpField.line)

def HttpMessage.bytes (message : HttpMessage) (target : RequestTarget) : Bytes :=
  message.head target ++ (target.body ++ message.rest)

/-- The message encodes the target within the limits of the handler; the
further headers do not map to the mode header. -/
structure HttpMessage.Encodes (message : HttpMessage) (lib : PyLibrary) (maxRequest : Nat)
    (target : RequestTarget) : Prop where
  method_ne : message.method ≠ []
  method_bytes : ∀ b ∈ message.method, b ≠ 0x20 ∧ b ≠ 0x0d ∧ b ≠ 0x0a
  version_http : Bytes.ascii "HTTP/" <+: message.version
  version_bytes : ∀ b ∈ message.version, b ≠ 0x0d ∧ b ≠ 0x0a
  fields : ∀ field ∈ message.fields, field.WellFormed
  mode_mem : ∀ value, target.mode = some value →
    ∃ field ∈ message.fields, field.name = modeField ∧ field.value = value
  mode_only : ∀ field ∈ message.fields, httpHeaderName lib field.name = modeHeader →
    target.mode = some field.value
  length_is : ∀ field ∈ message.fields, httpHeaderName lib field.name = contentLengthName →
    Bytes.toInt field.value = some (target.body.length : Int)
  no_length : (∀ field ∈ message.fields, httpHeaderName lib field.name ≠ contentLengthName) →
    target.body = []
  head_le : (message.head target).length ≤ maxHeaders + 1
  body_le : target.body.length ≤ maxRequest

section Http

variable {lib : PyLibrary} {maxRequest : Nat} {target : RequestTarget}

theorem modeField_name : httpHeaderName lib modeField = modeHeader := by
  rw [httpHeaderName, lib.lower_latin1 _ (isLatin1_of_all (by decide +kernel))]
  decide +kernel

/-- A header line is taken apart at its colon, and the blanks go. -/
theorem HttpField.WellFormed.split {field : HttpField} (h : field.WellFormed) :
    Bytes.splitFirst [0x3a] field.line
        = some (field.name, field.before ++ field.value ++ field.after)
      ∧ Bytes.strip (field.before ++ field.value ++ field.after) = field.value.strip := by
  have hcolon : 0x3a ∉ field.name := fun hmem => (h.name_bytes _ hmem).1 rfl
  have hblank : ∀ b, b = 0x20 ∨ b = 0x09 → Bytes.isSpace b = true := by
    rintro b (rfl | rfl) <;> decide
  refine ⟨Bytes.splitFirst_append hcolon _, stripBy_pads ?_ ?_⟩
  · exact fun b hb => hblank b (h.blanks b (List.mem_append_left _ hb))
  · exact fun b hb => hblank b (h.blanks b (List.mem_append_right _ hb))

theorem httpHeaders_fields {fields : List HttpField} (h : ∀ field ∈ fields, field.WellFormed) :
    httpHeaders lib (fields.map HttpField.line)
      = .setAll (fun field => httpHeaderName lib field.name) (fun field => field.value.strip)
        .empty fields := by
  rw [httpHeaders, AssocMap.setAll, List.foldl_map]
  refine List.foldl_ext _ _ _ fun headers field hfield => ?_
  obtain ⟨hsplit, hstrip⟩ := (h field hfield).split
  simp only [hsplit, hstrip]

theorem HttpField.WellFormed.line_ok {field : HttpField} (h : field.WellFormed) :
    field.line ≠ [] ∧ 0x0d ∉ field.line := by
  refine ⟨by simp [HttpField.line], fun hmem => ?_⟩
  unfold HttpField.line at hmem
  simp only [List.mem_append, List.mem_singleton] at hmem
  rcases hmem with hname | hcolon | (hbefore | hvalue) | hafter
  · exact (h.name_bytes _ hname).2.1 rfl
  · cases hcolon
  · rcases h.blanks _ (List.mem_append_left _ hbefore) with hb | hb <;> cases hb
  · exact (h.value_bytes _ hvalue).1 rfl
  · rcases h.blanks _ (List.mem_append_right _ hafter) with hb | hb <;> cases hb

variable {message : HttpMessage}

/-- The HTTP front selects the mode of the target. -/
theorem HttpMessage.Encodes.selected (h : message.Encodes lib maxRequest target) :
    selectMode lib target.uri (httpHeaders lib (message.fields.map HttpField.line))
      = target.selected lib := by
  rw [httpHeaders_fields h.fields, RequestTarget.selected]
  cases hmode : target.mode with
  | none =>
      refine selectMode_of_none (AssocMap.get_setAll_none fun field hfield hname => ?_)
      have hsome := h.mode_only field hfield hname
      rw [hmode] at hsome
      cases hsome
  | some value =>
      obtain ⟨field, hfield, hname, -⟩ := h.mode_mem value hmode
      have hget : (AssocMap.setAll (fun field => httpHeaderName lib field.name)
          (fun field => field.value.strip) .empty message.fields).get modeHeader
          = some value.strip := by
        refine AssocMap.get_setAll_eq ⟨field, hfield, hname ▸ modeField_name⟩ ?_
        intro other hother hkey
        have hsome := h.mode_only other hother hkey
        rw [hmode] at hsome
        rw [Option.some.inj hsome]
      exact (selectMode_of_some hget).trans (canonicalMode_strip value)

theorem HttpMessage.Encodes.length (h : message.Encodes lib maxRequest target) :
    (Bytes.toInt (((httpHeaders lib (message.fields.map HttpField.line)).get
      contentLengthName).getD (Bytes.ascii "0"))).getD 0 = (target.body.length : Int) := by
  rw [httpHeaders_fields h.fields]
  refine AssocMap.getD_setAll (p := fun value =>
    (Bytes.toInt value).getD 0 = (target.body.length : Int)) ?_ fun hnone => ?_
  · intro field hfield hname
    rw [Bytes.toInt_strip, h.length_is field hfield hname]
    rfl
  · rw [h.no_length hnone]
    decide

theorem HttpMessage.Encodes.noted (h : message.Encodes lib maxRequest target)
    (cuts accepts : List Nat) :
    (handleHttp lib maxRequest (fresh (message.bytes target) cuts accepts)).2.noted
      = [target.selected lib] := by
  have hlines : ∀ line ∈ message.fields.map HttpField.line, line ≠ [] ∧ 0x0d ∉ line := by
    intro line hline
    obtain ⟨field, hfield, rfl⟩ := List.mem_map.mp hline
    exact (h.fields field hfield).line_ok
  have huri : 0x20 ∉ target.uri ∧ 0x0d ∉ target.uri :=
    ⟨fun hmem => (target.uri_bytes _ hmem).1 rfl, fun hmem => (target.uri_bytes _ hmem).2.1 rfl⟩
  have hmethod : 0x20 ∉ message.method ∧ 0x0d ∉ message.method :=
    ⟨fun hmem => (h.method_bytes _ hmem).1 rfl, fun hmem => (h.method_bytes _ hmem).2.1 rfl⟩
  have hversion : 0x0d ∉ message.version := fun hmem => (h.version_bytes _ hmem).1 rfl
  have hrequest : 0x0d ∉ requestLineOf message.method target.uri message.version := by
    simp [requestLineOf, huri.2, hmethod.2, hversion]
  have hfind := @headEnd_find (target.body ++ message.rest) _ _ hrequest hlines
  have hparse := @parseHttpHeaders_joined lib _ _ _ _ h.method_ne target.uri_ne h.version_http
    ⟨hmethod.1, huri.1⟩ ⟨hmethod.2, huri.2, hversion⟩ fun line hline => (hlines line hline).2
  have hlen : (message.head target).length - 4 + 4 = (message.head target).length := by
    obtain ⟨first, last, -, hhead⟩ := headOf_eq
      (requestLineOf message.method target.uri message.version)
      (message.fields.map HttpField.line)
    have hfour : 4 ≤ (message.head target).length := by
      rw [HttpMessage.head, hhead, List.length_append]
      exact Nat.le_add_left _ _
    omega
  have htake : (message.bytes target).take ((message.head target).length - 4 + 4)
      = message.head target := by
    rw [hlen]
    exact List.take_left
  have hdrop : (message.bytes target).drop ((message.head target).length - 4 + 4)
      = target.body ++ message.rest := by
    rw [hlen]
    exact List.drop_left
  have hnoted := @handleHttp_noted lib maxRequest target.uri
    (httpHeaders lib (message.fields.map HttpField.line)) ((message.head target).length - 4)
    target.body.length (fresh (message.bytes target) cuts accepts) hfind
    (hlen ▸ h.head_le) (by
      change parseHttpHeaders lib ((message.bytes target).take _) = _
      rw [htake]
      exact hparse) h.length h.body_le (by
      change _ ≤ ((message.bytes target).drop _).length
      rw [hdrop, List.length_append]
      exact Nat.le_add_right _ _)
  rw [hnoted, h.selected]
  rfl

end Http

/-- The three fronts call `response_plan` with the same mode, one of
`MODE_NAMES`. -/
theorem fronts_agree (lib : PyLibrary) (maxRequest : Nat) (target : RequestTarget)
    (http : HttpMessage) (hhttp : http.Encodes lib maxRequest target)
    (fcgi : FcgiClientRequest) (hfcgi : CgiEncodes lib target fcgi.params)
    (records : List SentRecord)
    (hrecords : RequestRecords maxRequest fcgi (records.map SentRecord.record))
    (scgi : ScgiMessage) (hscgi : scgi.Encodes lib maxRequest target)
    (cuts accepts : Fin 3 → List Nat) :
    ∃ mode ∈ modeNames,
      (handleHttp lib maxRequest (fresh (http.bytes target) (cuts 0) (accepts 0))).2.noted = [mode]
      ∧ (handleFastcgi lib maxRequest (fresh (wireOf records) (cuts 1) (accepts 1))).2.noted
        = [mode]
      ∧ (handleScgi lib maxRequest (fresh (scgi.bytes target) (cuts 2) (accepts 2))).2.noted
        = [mode] := by
  refine ⟨target.selected lib, selected_mem, hhttp.noted _ _, ?_, hscgi.noted _ _⟩
  rw [handleFastcgi_noted hrecords]
  exact congrArg (fun mode => [mode]) hfcgi.selected

/-! ## One request -/

def demoValue : Bytes := Bytes.ascii "\tShort_Writes"

def demoTarget : RequestTarget where
  uri := Bytes.ascii "/a?mode=103"
  mode := some demoValue
  body := Bytes.ascii "hi"
  uri_ne := by decide +kernel
  uri_bytes := by decide +kernel
  mode_bytes := by
    rintro value ⟨⟩
    decide +kernel

def demoHttp : HttpMessage where
  method := Bytes.ascii "POST"
  version := Bytes.ascii "HTTP/1.1"
  fields := [⟨Bytes.ascii "Content-Length", [0x20], Bytes.ascii "2", []⟩,
    ⟨modeField, [0x20], demoValue, [0x09]⟩]
  rest := []

def demoFcgi : FcgiClientRequest :=
  ⟨1, false, [(requestUriName, demoTarget.uri), (modeVariable, demoValue)], []⟩

def demoFcgiParams : Bytes :=
  [11, 11] ++ requestUriName ++ demoTarget.uri ++ ([19, 13] ++ modeVariable ++ demoValue ++ [])

def demoFcgiRecords : List SentRecord :=
  [demoSent ⟨1, 1, [0, 1, 0, 0, 0, 0, 0, 0]⟩ (by decide +kernel),
    demoSent ⟨4, 1, demoFcgiParams⟩ (by decide +kernel),
    demoSent ⟨4, 1, []⟩ (demoSent_empty ⟨by decide, by decide⟩),
    demoSent ⟨5, 1, []⟩ (demoSent_empty ⟨by decide, by decide⟩)]

def demoScgi : ScgiMessage where
  digits := Bytes.ascii "75"
  params := [(Bytes.ascii "CONTENT_LENGTH", Bytes.ascii "2"),
    (requestUriName, demoTarget.uri), (modeVariable, demoValue)]
  rest := []

theorem fronts_agree_demo :
    ∃ mode ∈ modeNames,
      (handleHttp demoLibrary maxRequest (fresh (demoHttp.bytes demoTarget) [] [])).2.noted
        = [mode]
      ∧ (handleFastcgi demoLibrary maxRequest (fresh (wireOf demoFcgiRecords) [] [])).2.noted
        = [mode]
      ∧ (handleScgi demoLibrary maxRequest (fresh (demoScgi.bytes demoTarget) [] [])).2.noted
        = [mode] := by
  have hcgi : CgiEncodes demoLibrary demoTarget demoFcgi.params := {
    uri_mem := by decide +kernel
    uri_only := by decide +kernel
    mode_mem := by
      rintro value ⟨⟩
      decide
    mode_only := by decide +kernel }
  have hencoded : EncodedParams demoFcgi.params demoFcgiParams :=
    .cons (Or.inl ⟨by decide +kernel, rfl⟩) (Or.inl ⟨by decide +kernel, rfl⟩)
      (.cons (Or.inl ⟨by decide +kernel, rfl⟩) (Or.inl ⟨by decide +kernel, rfl⟩) .nil)
  refine fronts_agree demoLibrary maxRequest demoTarget demoHttp ?_ demoFcgi hcgi
    demoFcgiRecords ?_ demoScgi ?_ (fun _ => []) (fun _ => [])
  · exact {
      method_ne := by decide +kernel
      method_bytes := by decide +kernel
      version_http := by decide +kernel
      version_bytes := by decide +kernel
      fields := List.forall_mem_cons.mpr ⟨⟨by decide +kernel, by decide +kernel, by decide +kernel⟩,
        List.forall_mem_singleton.mpr ⟨by decide +kernel, by decide +kernel, by decide +kernel⟩⟩
      mode_mem := by
        rintro value ⟨⟩
        exact ⟨_, List.mem_cons_of_mem _ List.mem_cons_self, rfl, rfl⟩
      mode_only := by decide +kernel
      length_is := by decide +kernel
      no_length := fun h => absurd rfl (h _ List.mem_cons_self)
      head_le := by decide +kernel
      body_le := by decide +kernel }
  · exact @RequestRecords.start _ _ [0, 1, 0, 0, 0, 0, 0, 0] _ _ rfl (by decide +kernel) hencoded
      (by decide +kernel) (by decide +kernel)
      (@RemainingRecords.params _ demoFcgiParams [] _ _ (by decide +kernel) (.paramsEnd .stdinEnd))
  · exact {
      carries := {
        uri_mem := by decide +kernel
        uri_only := by decide +kernel
        mode_mem := by
          rintro value ⟨⟩
          decide
        mode_only := by decide +kernel }
      bytes := by decide +kernel
      length_is := by decide +kernel
      no_length := fun h => absurd rfl (h _ List.mem_cons_self)
      isDigit := by decide +kernel
      digits_ne := by decide +kernel
      digits_lt := by decide +kernel
      digits_value := by decide +kernel
      block_le := by decide +kernel
      body_le := by decide +kernel }

end LighttpdFuzz
