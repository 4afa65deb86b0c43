import LighttpdFuzz.Custody
import LighttpdFuzz.Transition
import Mathlib.Data.Finset.Basic
import Mathlib.Logic.Function.Basic

/-!
# The threads of a backend server

`BackendServer`: the acceptor hands clients to workers through a bounded
queue, and `stop` ends both. Each thread makes its steps one at a time and
the threads are interleaved in any order; what happens under a lock is one
step. `stop` is called once, after `start`.

What a handler does with its client is left open: it returns or raises at
any moment, and then the client is closed.
-/

namespace LighttpdFuzz.Backend

/-- A client socket. -/
abbrev Client := Nat

/-- Where `_accept` is. -/
inductive AcceptorPhase where
  /-- At the test of `_stopping`. -/
  | checking
  /-- In `listener.accept`. -/
  | accepting
  | holding (client : Client)
  | finished
  deriving DecidableEq, Repr

/-- Where `_worker` is. -/
inductive WorkerPhase where
  /-- At the test of `_stopping`. -/
  | checking
  /-- In `_queue.get`. -/
  | getting
  /-- The client is not in `_active` yet. -/
  | got (client : Client)
  | handling (client : Client)
  /-- The client is closed, and still in `_active`. -/
  | handled (client : Client)
  /-- Before `task_done`. -/
  | discarded
  | finished
  deriving DecidableEq, Repr

/-- Where `stop` is. -/
inductive StopPhase where
  | idle
  /-- `_stopping` is set. -/
  | stopping
  | listenerClosed
  /-- At `get_nowait`. -/
  | draining
  | drained (client : Client)
  /-- Before `task_done`. -/
  | closedOne
  | joining
  | returned
  /-- `task_done` has raised. -/
  | raised
  deriving DecidableEq, Repr

/-- A server with `n` workers. -/
structure Server (n : Nat) where
  acceptor : AcceptorPhase
  workers : Fin n → WorkerPhase
  stop : StopPhase
  /-- `_stopping` -/
  stopping : Bool
  /-- Whether the listener is open. -/
  listening : Bool
  queue : List Client
  unfinishedTasks : Nat
  active : Finset Client
  /-- Every client there has been. -/
  accepted : Finset Client
  closed : Finset Client

variable {n : Nat}

namespace Server

/-- After `start`. -/
def started (n : Nat) : Server n where
  acceptor := .checking
  workers := fun _ => .checking
  stop := .idle
  stopping := false
  listening := true
  queue := []
  unfinishedTasks := 0
  active := ∅
  accepted := ∅
  closed := ∅

def Initial (s : Server n) : Prop := s = started n

/-- `Queue.full`; a bound of 0 is no bound. -/
def Full (s : Server n) (maxsize : Nat) : Prop := 0 < maxsize ∧ maxsize ≤ s.queue.length

def setWorker (s : Server n) (i : Fin n) (phase : WorkerPhase) : Server n :=
  { s with workers := Function.update s.workers i phase }

def close (s : Server n) (client : Client) : Server n :=
  { s with closed := insert client s.closed }

end Server

inductive Action where
  /-- The acceptor puts a client into the queue. -/
  | put (client : Client)
  | other
  deriving DecidableEq, Repr

open Server in
inductive Step (maxsize : Nat) (s : Server n) : Action → Server n → Prop
  /-- `while not self._stopping.is_set()` -/
  | acceptorChecks {phase : AcceptorPhase} :
      s.acceptor = .checking →
      phase = (if s.stopping then .finished else .accepting) →
      Step maxsize s .other { s with acceptor := phase }
  | accept {client : Client} :
      s.acceptor = .accepting → s.listening = true → client ∉ s.accepted →
      Step maxsize s .other
        { s with acceptor := .holding client, accepted := insert client s.accepted }
  | acceptTimesOut :
      s.acceptor = .accepting → Step maxsize s .other { s with acceptor := .checking }
  /-- `OSError` -/
  | acceptFails :
      s.acceptor = .accepting → Step maxsize s .other { s with acceptor := .finished }
  | put {client : Client} :
      s.acceptor = .holding client → ¬ s.Full maxsize →
      Step maxsize s (.put client)
        { s with
          acceptor := .checking
          queue := s.queue ++ [client]
          unfinishedTasks := s.unfinishedTasks + 1 }
  | full {client : Client} :
      s.acceptor = .holding client → s.Full maxsize →
      Step maxsize s .other ({ s with acceptor := .checking }.close client)
  | workerChecks {i : Fin n} {phase : WorkerPhase} :
      s.workers i = .checking → phase = (if s.stopping then .finished else .getting) →
      Step maxsize s .other (s.setWorker i phase)
  | get {i : Fin n} {client : Client} {rest : List Client} :
      s.workers i = .getting → s.queue = client :: rest →
      Step maxsize s .other ({ s with queue := rest }.setWorker i (.got client))
  | getTimesOut {i : Fin n} :
      s.workers i = .getting → s.queue = [] → Step maxsize s .other (s.setWorker i .checking)
  | activate {i : Fin n} {client : Client} :
      s.workers i = .got client →
      Step maxsize s .other
        ({ s with active := insert client s.active }.setWorker i (.handling client))
  /-- The handler has returned or raised, and `with client` closes. -/
  | handled {i : Fin n} {client : Client} :
      s.workers i = .handling client →
      Step maxsize s .other ((s.close client).setWorker i (.handled client))
  | discard {i : Fin n} {client : Client} :
      s.workers i = .handled client →
      Step maxsize s .other
        ({ s with active := s.active.erase client }.setWorker i .discarded)
  | taskDone {i : Fin n} {phase : WorkerPhase} :
      s.workers i = .discarded →
      -- without an unfinished task `task_done` raises
      phase = (if s.unfinishedTasks = 0 then .finished else .checking) →
      Step maxsize s .other
        ({ s with unfinishedTasks := s.unfinishedTasks - 1 }.setWorker i phase)
  | stopSets :
      s.stop = .idle → Step maxsize s .other { s with stop := .stopping, stopping := true }
  | stopClosesListener :
      s.stop = .stopping →
      Step maxsize s .other { s with stop := .listenerClosed, listening := false }
  | stopClosesActive :
      s.stop = .listenerClosed →
      Step maxsize s .other { s with stop := .draining, closed := s.closed ∪ s.active }
  | drain {client : Client} {rest : List Client} :
      s.stop = .draining → s.queue = client :: rest →
      Step maxsize s .other { s with stop := .drained client, queue := rest }
  | drainCloses {client : Client} :
      s.stop = .drained client →
      Step maxsize s .other ({ s with stop := .closedOne }.close client)
  | drainTaskDone {phase : StopPhase} :
      s.stop = .closedOne → phase = (if s.unfinishedTasks = 0 then .raised else .draining) →
      Step maxsize s .other
        { s with stop := phase, unfinishedTasks := s.unfinishedTasks - 1 }
  | drainEmpty :
      s.stop = .draining → s.queue = [] →
      Step maxsize s .other { s with stop := .joining }
  /-- Each `join` ends with its thread or after its timeout. -/
  | stopReturns :
      s.stop = .joining → Step maxsize s .other { s with stop := .returned }

/-- A server with `n` workers and a queue of at most `maxsize` clients. -/
def server (n maxsize : Nat) : TransitionSystem (Server n) Action where
  init := Server.Initial
  step := Step maxsize

/-! ## Who holds a client -/

inductive Holder (n : Nat) where
  | acceptor | queue | worker (i : Fin n) | stop
  deriving DecidableEq, Repr

def WorkerPhase.Holds (client : Client) : WorkerPhase → Prop
  | .got client' | .handling client' => client' = client
  | .checking | .getting | .handled _ | .discarded | .finished => False

namespace Server

/-- Whether `holder` has the client and is to pass it on or to close it. -/
def Holds (s : Server n) : Holder n → Client → Prop
  | .acceptor, client => s.acceptor = .holding client
  | .queue, client => client ∈ s.queue
  | .worker i, client => (s.workers i).Holds client
  | .stop, client => s.stop = .drained client

/-- Accepted and not closed. -/
def Open (s : Server n) (client : Client) : Prop := client ∈ s.accepted ∧ client ∉ s.closed

/-- `stop` has returned and the other threads are at their end. -/
def Finished (s : Server n) : Prop :=
  s.stop = .returned ∧ s.acceptor = .finished ∧ ∀ i, s.workers i = .finished

/-- No client is left. -/
def Settled (s : Server n) : Prop :=
  s.queue = [] ∧ s.active = ∅ ∧ ∀ client ∈ s.accepted, client ∈ s.closed

/-- `stop` has found the queue empty. -/
def Drained (s : Server n) : Prop := s.stop = .joining ∨ s.stop = .returned

end Server

/-- A client that is put into the queue after `stop` has found it empty is
put there while a worker waits in `_queue.get`. -/
def Awaited : Server n × Action → Prop
  | (s, .put _) => s.Drained → ∃ i, s.workers i = .getting
  | (_, .other) => True

end LighttpdFuzz.Backend
