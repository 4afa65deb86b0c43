import LighttpdFuzz.AwkText
import LighttpdFuzz.ConfigDiscovery

/-!
# The ports that a campaign needs

`run.sh` reads the kernel's table of sockets before it starts anything, and
refuses if one listens on a port of a selected configuration or of the
backend responder. It compares the numerals of the ports with awk, which
takes `1E00` for a number.

So where awk can read the tables, a check that passes is to be believed,
and a refusal is to be believed as long as no port of the configurations
reads as a number, up to configuration 79. Where it cannot, as on a kernel
without IPv6, awk fails and every port passes for a free one
(`port_checks`).
-/

namespace LighttpdFuzz

/-! ## The table -/

/-- What the kernel tells about a socket. -/
structure Socket where
  slot : Nat
  address : Text
  port : Nat
  remote : Text
  state : Nat
  rest : Text
  port_lt : port < 65536
  address_plain : ∀ c ∈ address, AwkText.isBlank c = false ∧ c ≠ ':'
  remote_ne : remote ≠ []
  remote_plain : ∀ c ∈ remote, AwkText.isBlank c = false

def listenState : Nat := 10

/-- A line of `/proc/net/tcp` or `/proc/net/tcp6`. -/
def Socket.row (s : Socket) : Text :=
  let slot := Text.ofNat s.slot
  List.replicate (4 - slot.length) ' ' ++ ((slot ++ [':']) ++ ' ' ::
    ((s.address ++ ':' :: AwkText.hex 4 s.port) ++ ' ' ::
      (s.remote ++ ' ' :: (AwkText.hex 2 s.state ++ ' ' :: s.rest))))

def tcpHeader : Text :=
  ("  sl  local_address rem_address   st tx_queue rx_queue tr tm->when retrnsmt" ++
    "   uid  timeout inode").toList

def tcp6Header : Text :=
  ("  sl  local_address                         remote_address                        st" ++
    " tx_queue rx_queue tr tm->when retrnsmt   uid  timeout inode").toList

/-- The lines of `/proc/net/tcp` and `/proc/net/tcp6` for awk, which ends
with a failure if there is no such file. -/
def procNet : Option (List Socket) → Option (List Socket) → Option (List Text)
  | some tcp, some tcp6 =>
      some (tcpHeader :: tcp.map Socket.row ++ tcp6Header :: tcp6.map Socket.row)
  | _, _ => none

/-! ## The checks -/

/-- `found` at the end of the awk program of both checks. -/
def findsPort (port : Text) (lines : List Text) : Bool :=
  lines.any fun line =>
    let columns := AwkText.fields line
    columns[3]? == some "0A".toList
      && AwkText.same (AwkText.secondPart ':' (columns[1]?.getD [])) port

/-- Whether awk exits with 0. -/
def portTaken (port : Text) (table : Option (List Text)) : Bool := table.any (findsPort port)

/-- What a check comes to, given the occupied ports. -/
def reportPorts (message : Text) (occupied : List Text) : Except Text Unit :=
  if 0 < occupied.length then .error (message ++ Text.join [' '] occupied) else .ok ()

/-- `$port (config $config_id)` -/
def portOfConfig (config : Nat) : Text :=
  Text.ofNat (portBase + config) ++ " (config ".toList ++ Text.ofNat config ++ [')']

def selectedMessage : Text := "Cannot start; TCP ports already in use: ".toList

def backendMessage : Text := "Cannot start backend; TCP ports already in use: ".toList

def checkSelectedPorts (selected : List Nat) (table : Option (List Text)) : Except Text Unit :=
  let occupied := selected.filter fun config =>
    portTaken (AwkText.hex 4 (portBase + config)) table
  reportPorts selectedMessage (occupied.map portOfConfig)

def backendPorts : List Nat := [6501, 6502, 6503]

def checkBackendPorts (table : Option (List Text)) : Except Text Unit :=
  let occupied := backendPorts.filter fun port => portTaken (AwkText.hex 4 port) table
  reportPorts backendMessage (occupied.map Text.ofNat)

/-! ## What they find -/

def Socket.listensOn (s : Socket) (port : Nat) : Bool := s.state = listenState ∧ s.port = port

theorem fields_row (s : Socket) :
    AwkText.fields s.row = (Text.ofNat s.slot ++ [':']) ::
      (s.address ++ ':' :: AwkText.hex 4 s.port) :: s.remote :: AwkText.hex 2 s.state ::
        AwkText.fields s.rest := by
  have hslot : ∀ c ∈ Text.ofNat s.slot ++ [':'], AwkText.isBlank c = false := by
    intro c hc
    rcases List.mem_append.mp hc with hc | hc
    · have hdigit := Text.isDigit_ofNat hc
      unfold AwkText.isBlank
      rw [Bool.or_eq_false_iff]
      constructor <;> refine decide_eq_false ?_ <;> rintro rfl <;> exact absurd hdigit (by decide)
    · rw [List.mem_singleton.mp hc]
      rfl
  have haddress : ∀ c ∈ s.address ++ ':' :: AwkText.hex 4 s.port, AwkText.isBlank c = false := by
    intro c hc
    rcases List.mem_append.mp hc with hc | hc
    · exact (s.address_plain c hc).1
    · rcases List.mem_cons.mp hc with rfl | hc
      · rfl
      · exact (AwkText.hex_plain hc).1
  have hstate : ∀ c ∈ AwkText.hex 2 s.state, AwkText.isBlank c = false :=
    fun c hc => (AwkText.hex_plain hc).1
  unfold Socket.row
  rw [AwkText.fields_blanks, AwkText.fields_word (by simp) hslot,
    AwkText.fields_word (by simp) haddress, AwkText.fields_word s.remote_ne s.remote_plain,
    AwkText.fields_word (AwkText.hex_ne_nil _ _) hstate]

theorem findsPort_cons (port line : Text) (table : List Text) :
    findsPort port (line :: table) = (findsPort port [line] || findsPort port table) := by
  unfold findsPort
  rw [List.any_cons, List.any_cons, List.any_nil, Bool.or_false]

theorem findsPort_append (port : Text) (table table' : List Text) :
    findsPort port (table ++ table') = (findsPort port table || findsPort port table') := by
  unfold findsPort
  rw [List.any_append]

theorem findsPort_rows (port : Text) (sockets : List Socket) :
    findsPort port (sockets.map Socket.row) = sockets.any fun s =>
      s.state == listenState && AwkText.same (AwkText.hex 4 s.port) port := by
  unfold findsPort
  rw [List.any_map]
  congr 1
  funext s
  have hstate : (AwkText.hex 2 s.state == "0A".toList) = (s.state == listenState) := by
    have hlisten : "0A".toList = AwkText.hex 2 listenState := by decide
    rw [hlisten, Bool.eq_iff_iff, beq_iff_eq, beq_iff_eq]
    exact ⟨AwkText.hex_injective, fun h => by rw [h]⟩
  have hport : AwkText.secondPart ':' (s.address ++ ':' :: AwkText.hex 4 s.port) =
      AwkText.hex 4 s.port :=
    AwkText.secondPart_append (fun hc => (s.address_plain ':' hc).2 rfl)
      fun hc => (AwkText.hex_plain hc).2 rfl
  simp only [Function.comp_apply, fields_row, List.getElem?_cons_succ, List.getElem?_cons_zero,
    Option.getD_some, Option.some_beq_some, hstate, hport]

theorem fields_tcpHeader : (AwkText.fields tcpHeader)[3]? = some "st".toList := by rfl

set_option maxRecDepth 1000 in
theorem fields_tcp6Header : (AwkText.fields tcp6Header)[3]? = some "st".toList := by rfl

/-- The headers name no state and do not count. -/
theorem portTaken_procNet (port : Text) (tcp tcp6 : List Socket) :
    portTaken port (procNet (some tcp) (some tcp6)) = (tcp ++ tcp6).any fun s =>
      s.state == listenState && AwkText.same (AwkText.hex 4 s.port) port := by
  have htcp : findsPort port [tcpHeader] = false := by
    simp [findsPort, fields_tcpHeader]
  have htcp6 : findsPort port [tcp6Header] = false := by
    simp [findsPort, fields_tcp6Header]
  rw [procNet, portTaken, Option.any_some, findsPort_append, findsPort_cons,
    findsPort_cons port tcp6Header, htcp, htcp6, findsPort_rows, findsPort_rows, List.any_append,
    Bool.false_or, Bool.false_or]

/-! ## Which ports are told apart -/

/-- The ports of configurations up to 79 are `1D..`, which is no number. -/
theorem number_portOfConfig : ∀ config < 80,
    AwkText.number (AwkText.hex 4 (portBase + config)) = none := by
  decide

theorem same_portOfConfig {config port : Nat} (hconfig : config < 80) :
    AwkText.same (AwkText.hex 4 port) (AwkText.hex 4 (portBase + config)) =
      decide (port = portBase + config) := by
  rw [AwkText.same_of_not_number (number_portOfConfig config hconfig), decide_eq_decide]
  exact ⟨AwkText.hex_injective, fun h => by rw [h]⟩

/-- The ports of the backend are `1965`, `1966` and `1967`: numbers that no
other numeral of four characters looks like. -/
theorem same_backendPort {port backendPort : Nat} (hport : port < 65536)
    (hbackend : backendPort ∈ backendPorts) :
    AwkText.same (AwkText.hex 4 port) (AwkText.hex 4 backendPort) =
      decide (port = backendPort) := by
  have hnumeral : ∀ p ∈ backendPorts, ∃ n, AwkText.number (AwkText.hex 4 p) = some n
      ∧ 100 ≤ n ∧ ¬ 10 ∣ n := by
    decide
  obtain ⟨n, hnumber, hlarge, hten⟩ := hnumeral backendPort hbackend
  have hbackendPort : backendPort < 65536 := by
    have hlt : ∀ p ∈ backendPorts, p < 65536 := by decide
    exact hlt backendPort hbackend
  have hlength := @AwkText.length_hex 4 _ (by decide) hport
  have hlength' := @AwkText.length_hex 4 _ (by decide) hbackendPort
  rw [Bool.eq_iff_iff, decide_eq_true_iff]
  constructor
  · intro h
    unfold AwkText.same at h
    rw [hnumber] at h
    split at h
    · next m n' hm hn =>
        obtain rfl := Option.some.inj hn
        obtain rfl := eq_of_beq h
        obtain ⟨hdigits, hvalue⟩ := AwkText.number_eq_some hm hlength.le hlarge hten
        obtain ⟨hdigits', hvalue'⟩ := AwkText.number_eq_some hnumber hlength'.le hlarge hten
        exact AwkText.hex_injective (Text.ofDigitChars_injective (hlength.trans hlength'.symm)
          hdigits hdigits' (hvalue.trans hvalue'.symm))
    · exact AwkText.hex_injective (of_decide_eq_true h)
  · rintro rfl
    exact AwkText.same_self _

/-! ## The checks -/

/-- What a check says if it sees the sockets themselves. -/
def listenedOn (sockets : List Socket) (port : Nat) : Bool := sockets.any (·.listensOn port)

/-- What awk cannot read has no port in it. -/
theorem procNet_none {tcp tcp6 : Option (List Socket)} (h : tcp = none ∨ tcp6 = none) :
    procNet tcp tcp6 = none := by
  rcases h with rfl | rfl
  · rfl
  · cases tcp <;> rfl

/-- Where awk can read both tables, a check that passes is right; up to
configuration 79, and for the backend always, a refusal is right too, and
names the ports in use. Where it cannot, both checks pass. -/
theorem port_checks (tcp tcp6 : List Socket) (selected : List Nat) :
    (checkSelectedPorts selected (procNet (some tcp) (some tcp6)) = .ok () →
      ∀ config ∈ selected, listenedOn (tcp ++ tcp6) (portBase + config) = false) ∧
    ((∀ config ∈ selected, config < 80) →
      checkSelectedPorts selected (procNet (some tcp) (some tcp6)) = reportPorts selectedMessage
        ((selected.filter fun config =>
          listenedOn (tcp ++ tcp6) (portBase + config)).map portOfConfig)) ∧
    checkBackendPorts (procNet (some tcp) (some tcp6)) = reportPorts backendMessage
      ((backendPorts.filter (listenedOn (tcp ++ tcp6))).map Text.ofNat) ∧
    ∀ table table6, table = none ∨ table6 = none →
      checkSelectedPorts selected (procNet table table6) = .ok ()
        ∧ checkBackendPorts (procNet table table6) = .ok () := by
  refine ⟨fun hok config hconfig => ?_, fun hsmall => ?_, ?_, fun table table6 hnone => ?_⟩
  · unfold checkSelectedPorts reportPorts at hok
    dsimp only at hok
    split at hok
    · cases hok
    · next hnone =>
        rw [List.length_map, Nat.not_lt, Nat.le_zero, List.length_eq_zero_iff,
          List.filter_eq_nil_iff] at hnone
        have hfree := hnone config hconfig
        rw [portTaken_procNet, Bool.not_eq_true, List.any_eq_false] at hfree
        unfold listenedOn
        rw [List.any_eq_false]
        intro s hs hlistens
        obtain ⟨hstate, hport⟩ := of_decide_eq_true hlistens
        refine hfree s hs ?_
        rw [hstate, hport, AwkText.same_self]
        rfl
  · unfold checkSelectedPorts
    dsimp only
    congr 2
    refine List.filter_congr fun config hconfig => ?_
    rw [portTaken_procNet]
    unfold listenedOn Socket.listensOn
    congr 1
    funext s
    rw [same_portOfConfig (hsmall config hconfig), Bool.decide_and]
    rfl
  · unfold checkBackendPorts
    dsimp only
    congr 2
    refine List.filter_congr fun port hport => ?_
    rw [portTaken_procNet]
    unfold listenedOn Socket.listensOn
    congr 1
    funext s
    rw [same_backendPort s.port_lt hport, Bool.decide_and]
    rfl
  · have hfree : ∀ port, portTaken port none = false := fun _ => rfl
    rw [procNet_none hnone]
    unfold checkSelectedPorts checkBackendPorts
    simp only [hfree, List.filter_false]
    exact ⟨rfl, rfl⟩

def loopbackSocket (port state : Nat) (hport : port < 65536) : Socket where
  slot := 0
  address := AwkText.hex 8 0x0100007F
  port := port
  remote := AwkText.hex 8 0 ++ ':' :: AwkText.hex 4 0
  state := state
  rest := "00000000:00000000 00:00000000 00000000  1000".toList
  port_lt := hport
  address_plain _ hc := AwkText.hex_plain hc
  remote_ne := by simp
  remote_plain c hc := by
    rcases List.mem_append.mp hc with hc | hc
    · exact (AwkText.hex_plain hc).1
    · rcases List.mem_cons.mp hc with rfl | hc
      · rfl
      · exact (AwkText.hex_plain hc).1

/-- One socket listens on the port of configuration 1, the port of
configuration 2 is that of a connection. Without a table for IPv6 both
pass. -/
theorem port_checks_demo :
    checkSelectedPorts [1, 2] (procNet
        (some [loopbackSocket 7601 10 (by decide), loopbackSocket 7602 1 (by decide)]) (some [])) =
      .error "Cannot start; TCP ports already in use: 7601 (config 1)".toList
    ∧ listenedOn [loopbackSocket 7601 10 (by decide)] (portBase + 2) = false
    ∧ checkSelectedPorts [1] (procNet (some [loopbackSocket 7601 10 (by decide)]) none) = .ok () :=
  ⟨((port_checks [loopbackSocket 7601 10 (by decide), loopbackSocket 7602 1 (by decide)] []
      [1, 2]).2.1 (by decide)).trans (by rfl),
    (port_checks [loopbackSocket 7601 10 (by decide)] [] [2]).1
      ((port_checks [loopbackSocket 7601 10 (by decide)] [] [2]).2.1 (by decide)) 2
      (List.mem_singleton_self 2),
    ((port_checks [] [] [1]).2.2.2 _ none (.inr rfl)).1⟩

-- Port 7680 is `1E00`, the number 1; so is the `0001` of another port.
example : AwkText.same (AwkText.hex 4 1) (AwkText.hex 4 (portBase + 80)) = true := by decide

end LighttpdFuzz
