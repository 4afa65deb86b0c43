import LighttpdFuzz.Multipacket

/-!
# The fuzzer harness

The C side of the input format: `fuzzer.c`'s bounds-checking validator
and the transmitter that re-parses validated input without any check.

A run of the C code is recorded as a list of `CEvent`s: every byte of the
input it loads, every `size_t` subtraction, every value `offset` takes,
every range it hands to `send`, and every range the socket accepted.
Loads are total in the model and subtraction is that of `Nat`; whether a
run stayed inside the buffer, and whether a subtraction would have
wrapped, is read off the record (`CEvent.Safe`).

The answers of the kernel are a script (`Kernel`): finite lists of
results for `send`, `poll` and `recv`, each call taking the next one. A
call beyond the end of its list gets the benign answer (`send` takes all
that was asked, a wait times out), so that every run ends; what a run did
before that point stays at the front of its record.
-/

namespace LighttpdFuzz

open Bytes

/-- One observable action of the C code. -/
inductive CEvent where
  /-- `data[i]` is read. -/
  | load (i : Nat)
  /-- `a - b` is computed in `size_t`. -/
  | sizeSub (a b : Nat)
  /-- `offset` takes the value `o`. -/
  | setOffset (o : Nat)
  /-- `send` is called on the `len` bytes from `start` on. -/
  | send (start len : Nat)
  /-- The socket accepted the `len` bytes from `start` on. -/
  | accepted (start len : Nat)
  deriving DecidableEq, Repr

/-- The action is one the C language gives a meaning to, on a buffer of
`size` bytes, and `offset` has not left the buffer. -/
def CEvent.Safe (size : Nat) : CEvent → Prop
  | .load i => i < size
  | .sizeSub a b => b ≤ a
  | .setOffset o => o ≤ size
  | .send start len => start + len ≤ size
  | .accepted start len => start + len ≤ size

/-- `data[i]`. -/
def byteAt (data : Bytes) (i : Nat) : UInt8 := data.getD i 0

/-- `((size_t)data[offset] << 8) | data[offset + 1]`. -/
def packetSizeAt (data : Bytes) (offset : Nat) : Nat :=
  (byteAt data offset).toNat <<< 8 ||| (byteAt data (offset + 1)).toNat

/-! ## The validator -/

/-- The loop of `fuzzValidMultipacketData`, entered at `offset`. -/
def fuzzValidMultipacketLoop (data : Bytes) (size offset packetCount : Nat) :
    Int × List CEvent :=
  if offset < size then
    if size - offset < 2 then (0, [.sizeSub size offset])
    else
      let packetSize := packetSizeAt data offset
      let head : List CEvent := [.sizeSub size offset, .load offset,
        .load (offset + 1), .setOffset (offset + 2)]
      if packetSize = 0 then (0, head)
      else if packetSize > size - (offset + 2) then
        (0, head ++ [.sizeSub size (offset + 2)])
      else
        let round : List CEvent := head ++ [.sizeSub size (offset + 2),
          .setOffset (offset + 2 + packetSize)]
        if packetCount + 1 > fuzzMaxPacketCount then (0, round)
        else
          let rest := fuzzValidMultipacketLoop data size (offset + 2 + packetSize)
            (packetCount + 1)
          (rest.1, round ++ rest.2)
  else (if packetCount > 0 then 1 else 0, [])
termination_by size - offset

/-- `fuzzValidMultipacketData(data, size)`: its result and its record. -/
def fuzzValidMultipacketData (data : Bytes) (size : Nat) : Int × List CEvent :=
  fuzzValidMultipacketLoop data size 0 0

/-! ## System calls -/

/-- A result of `send`: a count, which the kernel keeps within what was
asked, or `-1` with `EINTR` or another error. -/
inductive SendResult where
  | count (n : Nat)
  | eintr
  | error
  deriving DecidableEq, Repr

/-- A result of `poll` on the one socket. -/
inductive PollResult where
  | eintr
  | error
  | timeout
  | ready (pollin pollhup : Bool)
  deriving DecidableEq, Repr

/-- A result of `recv`: a count, `0` when the peer has closed its side. -/
inductive RecvResult where
  | eintr
  | error
  | count (n : Nat)
  deriving DecidableEq, Repr

/-- The answers still to come, and the record so far. -/
structure Kernel where
  sends : List SendResult
  polls : List PollResult
  recvs : List RecvResult
  log : List CEvent
  deriving Repr

def Kernel.note (k : Kernel) (events : List CEvent) : Kernel :=
  { k with log := k.log ++ events }

/-! ## The transmitter -/

/-- The loop of `sendAll` on the `size` bytes from `start` on, with `sent`
of them already sent. Every iteration takes one result of `send`. -/
def sendAllLoop (start size : Nat) (sends : List SendResult) (sent : Nat)
    (log : List CEvent) : Int × List SendResult × List CEvent :=
  if sent < size then
    match sends with
    | [] =>
        (0, [], log ++ [.send (start + sent) (size - sent),
          .accepted (start + sent) (size - sent)])
    | .count n :: rest =>
        if min n (size - sent) > 0 then
          sendAllLoop start size rest (sent + min n (size - sent))
            (log ++ [.send (start + sent) (size - sent),
              .accepted (start + sent) (min n (size - sent))])
        else (-1, rest, log ++ [.send (start + sent) (size - sent)])
    | .eintr :: rest =>
        sendAllLoop start size rest sent (log ++ [.send (start + sent) (size - sent)])
    | .error :: rest => (-1, rest, log ++ [.send (start + sent) (size - sent)])
  else (0, sends, log)

/-- `sendAll(sockfd, data + start, size)`. -/
def sendAll (start size : Nat) (k : Kernel) : Int × Kernel :=
  match sendAllLoop start size k.sends 0 k.log with
  | (result, sends, log) => (result, { k with sends := sends, log := log })

/-- `sendPacket(sockfd, data + start, size, fragmented)`. -/
def sendPacket (start size : Nat) (fragmented : Bool) (k : Kernel) : Int × Kernel :=
  if !fragmented ∨ size < 2 then sendAll start size k
  else
    let split := size / 2
    let first := sendAll start split k
    if first.1 = -1 then (-1, first.2)
    else sendAll (start + split) (size - split) first.2

/-- The `poll` loop of `readSomeResponse`: retried on `EINTR`. -/
def pollLoop : List PollResult → PollResult × List PollResult
  | [] => (.timeout, [])
  | .eintr :: polls => pollLoop polls
  | result :: polls => (result, polls)

/-- The `recv` loop of `readSomeResponse`: retried on `EINTR`. -/
def recvLoop : List RecvResult → RecvResult × List RecvResult
  | [] => (.count 0, [])
  | .eintr :: recvs => recvLoop recvs
  | result :: recvs => (result, recvs)

/-- `readSomeResponse(sockfd, timeout_ms)`. -/
def readSomeResponse (k : Kernel) : Int × Kernel :=
  match pollLoop k.polls with
  | (.ready pollin pollhup, polls) =>
      if pollin || pollhup then
        match recvLoop k.recvs with
        | (.count n, recvs) =>
            (if n > 0 then 0 else -1, { k with polls := polls, recvs := recvs })
        | (_, recvs) => (-1, { k with polls := polls, recvs := recvs })
      else (-1, { k with polls := polls })
  | (_, polls) => (-1, { k with polls := polls })

/-- The loop of `sendMultipacketData`, entered at `offset`. -/
def sendMultipacketLoop (data : Bytes) (size : Nat) (waitForResponse fragmented : Bool)
    (offset : Nat) (k : Kernel) : Int × Kernel :=
  if offset < size then
    let packetSize := packetSizeAt data offset
    let sent := sendPacket (offset + 2) packetSize fragmented
      (k.note [.load offset, .load (offset + 1), .setOffset (offset + 2)])
    if sent.1 = -1 then (-1, sent.2)
    else
      let moved := sent.2.note [.setOffset (offset + 2 + packetSize)]
      if offset + 2 + packetSize < size ∧ waitForResponse then
        let waited := readSomeResponse moved
        if waited.1 = -1 then (-1, waited.2)
        else
          sendMultipacketLoop data size waitForResponse fragmented
            (offset + 2 + packetSize) waited.2
      else
        sendMultipacketLoop data size waitForResponse fragmented
          (offset + 2 + packetSize) moved
  else (0, k)
termination_by size - offset

/-- `sendMultipacketData(sockfd, data, size, wait_for_response, fragmented)`. -/
def sendMultipacketData (data : Bytes) (size : Nat) (waitForResponse fragmented : Bool)
    (k : Kernel) : Int × Kernel :=
  sendMultipacketLoop data size waitForResponse fragmented 0 k

/-- The checks of `fuzzServer` before it connects: an empty input and bad
framing are dropped. -/
def acceptsInput (data : Bytes) : Bool :=
  match data with
  | [] => false
  | flags :: payload =>
      !(flags &&& fuzzMultipacketFlag != 0
        && (fuzzValidMultipacketData payload payload.length).1 == 0)

/-- `fuzzServer(data, size)`: what it does to the kernel. `connected` is
whether `connectTarget` succeeded. Indices in the record are those of the
payload, `data + 1`. -/
def fuzzServer (connected : Bool) (data : Bytes) (k : Kernel) : Kernel :=
  if !acceptsInput data || !connected then k
  else
    let flags := data.headD 0
    let payload := data.drop 1
    let fragmented := flags &&& fuzzFragmentSendFlag != 0
    let sent :=
      if flags &&& fuzzMultipacketFlag != 0 then
        sendMultipacketData payload payload.length
          (flags &&& fuzzWaitForResponseFlag != 0) fragmented k
      else sendPacket 0 payload.length fragmented k
    if sent.1 = 0 then (readSomeResponse sent.2).2 else sent.2

end LighttpdFuzz
