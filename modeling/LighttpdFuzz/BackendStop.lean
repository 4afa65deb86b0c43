import LighttpdFuzz.BackendServer

/-!
# What stopping a backend server loses

Before `stop` every client that is accepted and not closed is with the
acceptor, in the queue or with one worker. After `stop` and the end of all
threads a client can be left in the queue: one that the acceptor still held
when `stop` found the queue empty, and that it put there afterwards.
`stop_settles_iff` says exactly when this does not happen: whenever the
acceptor is that late, some worker is still waiting in `_queue.get`, and
then that worker or another one takes the client.

Each step gives one client to another holder, closes one, or leaves all
clients where they are (`Effect`); the invariants follow from that.
-/

namespace LighttpdFuzz.Backend

open Custody

variable {n maxsize : Nat} {s s' : Server n} {action : Action}

/-! ## What a step does to the clients -/

/-- A client has another holder, or one is closed, or none is moved. -/
inductive Effect (s s' : Server n) : Prop
  | keeps : (∀ holder c, s'.Holds holder c ↔ s.Holds holder c) → s'.accepted = s.accepted →
      s.closed ⊆ s'.closed → Effect s s'
  | gives {c : Client} {holder : Holder n} : Moves s.Holds s'.Holds c (some holder) →
      s'.accepted = insert c s.accepted → s'.closed = s.closed → Effect s s'
  | closes {c : Client} : Moves s.Holds s'.Holds c none → s'.accepted = s.accepted →
      s'.closed = insert c s.closed → Effect s s'

/-- Where the clients are. -/
structure Placed (s : Server n) : Prop where
  sole : Sole s.Holds
  held : ∀ c, s.Open c → ∃ holder, s.Holds holder c
  accepted : ∀ holder c, s.Holds holder c → c ∈ s.accepted
  nodup : s.queue.Nodup

theorem Effect.sole (h : Effect s s') (hsole : Sole s.Holds) : Sole s'.Holds := by
  cases h with
  | keeps hkeeps =>
      intro holder holder' c hc hc'
      exact hsole holder holder' c ((hkeeps _ _).mp hc) ((hkeeps _ _).mp hc')
  | gives hmoves => exact hsole.moves hmoves
  | closes hmoves => exact hsole.moves hmoves

theorem Effect.held (h : Effect s s') (hheld : ∀ c, s.Open c → ∃ holder, s.Holds holder c) :
    ∀ c, s'.Open c → ∃ holder, s'.Holds holder c := by
  rintro x ⟨haccepted, hclosed⟩
  cases h with
  | keeps hkeeps ha hc =>
      obtain ⟨holder, hx⟩ := hheld x ⟨ha ▸ haccepted, fun hmem => hclosed (hc hmem)⟩
      exact ⟨holder, (hkeeps _ _).mpr hx⟩
  | @gives c holder hmoves ha hc =>
      by_cases hx : x = c
      · exact hx ▸ hmoves.held_self
      · rw [ha] at haccepted
        rw [hc] at hclosed
        exact hmoves.held hx (hheld x ⟨Finset.mem_of_mem_insert_of_ne haccepted hx, hclosed⟩)
  | @closes c hmoves ha hc =>
      rw [hc, Finset.mem_insert, not_or] at hclosed
      exact hmoves.held hclosed.1 (hheld x ⟨ha ▸ haccepted, hclosed.2⟩)

theorem Effect.accepted (h : Effect s s')
    (hacc : ∀ holder c, s.Holds holder c → c ∈ s.accepted) :
    ∀ holder c, s'.Holds holder c → c ∈ s'.accepted := by
  intro holder x hx
  cases h with
  | keeps hkeeps ha => exact ha ▸ hacc holder x ((hkeeps _ _).mp hx)
  | gives hmoves ha =>
      rw [ha, Finset.mem_insert]
      rcases (hmoves holder x).mp hx with ⟨rfl, -⟩ | ⟨-, hold⟩
      · exact .inl rfl
      · exact .inr (hacc holder x hold)
  | closes hmoves ha =>
      rcases (hmoves holder x).mp hx with ⟨-, hnone⟩ | ⟨-, hold⟩
      · cases hnone
      · exact ha ▸ hacc holder x hold

/-- A change of the phase of one worker. -/
theorem holds_setWorker (s : Server n) (i : Fin n) (phase : WorkerPhase) (holder : Holder n)
    (c : Client) : (s.setWorker i phase).Holds holder c ↔
      if holder = .worker i then phase.Holds c else s.Holds holder c := by
  cases holder with
  | worker j =>
      change (Function.update s.workers i phase j).Holds c ↔ _
      rcases eq_or_ne j i with rfl | hj
      · rw [Function.update_self, if_pos rfl]
      · rw [Function.update_of_ne hj, if_neg (fun h => hj (Holder.worker.inj h))]
        rfl
  | acceptor => exact Iff.rfl
  | queue => exact Iff.rfl
  | stop => exact Iff.rfl

/-- The new phase holds the same clients. -/
theorem holds_setWorker_of_same {i : Fin n} {phase : WorkerPhase}
    (hsame : ∀ c, phase.Holds c ↔ (s.workers i).Holds c) (holder : Holder n) (c : Client) :
    (s.setWorker i phase).Holds holder c ↔ s.Holds holder c := by
  rw [holds_setWorker]
  rcases eq_or_ne holder (.worker i) with rfl | h
  · rw [if_pos rfl]
    exact hsame c
  · rw [if_neg h]

/-- The acceptor and `stop` change their phase, and not what they hold. -/
theorem holds_of_phases (hacceptor : ∀ c, s'.acceptor = .holding c ↔ s.acceptor = .holding c)
    (hqueue : s'.queue = s.queue) (hworkers : s'.workers = s.workers)
    (hstop : ∀ c, s'.stop = .drained c ↔ s.stop = .drained c) (holder : Holder n) (c : Client) :
    s'.Holds holder c ↔ s.Holds holder c := by
  cases holder with
  | acceptor => exact hacceptor c
  | queue =>
      change c ∈ s'.queue ↔ c ∈ s.queue
      rw [hqueue]
  | worker i =>
      change (s'.workers i).Holds c ↔ (s.workers i).Holds c
      rw [hworkers]
  | stop => exact hstop c

/-- The head of a queue without repetitions is not in the rest. -/
theorem mem_rest {queue rest : List Client} {client : Client} (hnodup : queue.Nodup)
    (hqueue : queue = client :: rest) (x : Client) : x ∈ rest ↔ x ≠ client ∧ x ∈ queue := by
  subst hqueue
  rw [List.mem_cons]
  refine ⟨fun hx => ⟨?_, .inr hx⟩, fun hx => hx.2.resolve_left hx.1⟩
  rintro rfl
  exact (List.nodup_cons.mp hnodup).1 hx

theorem Step.effect (h : Step maxsize s action s') (hs : Placed s) : Effect s s' := by
  cases h with
  | @acceptorChecks phase hphase hnext =>
      refine .keeps (holds_of_phases (fun c => ?_) rfl rfl fun _ => Iff.rfl) rfl subset_rfl
      rw [hphase, hnext]
      cases s.stopping <;> exact ⟨nofun, nofun⟩
  | @accept client hphase _ hnew =>
      refine @Effect.gives _ _ _ client .acceptor (moves_of_new ?_ ?_ ?_) rfl rfl
      · exact fun holder hc => hnew (hs.accepted holder client hc)
      · intro x
        change AcceptorPhase.holding client = .holding x ↔ x = client ∨ s.acceptor = .holding x
        rw [hphase, AcceptorPhase.holding.injEq]
        exact ⟨fun h => .inl h.symm, fun h => (h.resolve_right nofun).symm⟩
      · intro holder hne x
        cases holder with
        | acceptor => exact absurd rfl hne
        | _ => exact Iff.rfl
  | acceptTimesOut hphase | acceptFails hphase =>
      refine .keeps (holds_of_phases (fun c => ?_) rfl rfl fun _ => Iff.rfl) rfl subset_rfl
      rw [hphase]
      exact ⟨nofun, nofun⟩
  | @put client hphase =>
      refine @Effect.gives _ _ _ client .queue
        (hs.sole.moves_of_held (show s.Holds .acceptor client from hphase) ?_ ?_ ?_) ?_ rfl
      · intro x
        change AcceptorPhase.checking = .holding x ↔ x ≠ client ∧ s.acceptor = .holding x
        rw [hphase, AcceptorPhase.holding.injEq]
        exact ⟨nofun, fun h => absurd h.2.symm h.1⟩
      · rintro holder heq
        cases heq
        refine ⟨nofun, fun x => ?_⟩
        change x ∈ s.queue ++ [client] ↔ x = client ∨ x ∈ s.queue
        rw [List.mem_append, List.mem_singleton, or_comm]
      · intro holder hne hne' x
        cases holder with
        | acceptor => exact absurd rfl hne
        | queue => exact absurd rfl hne'
        | _ => exact Iff.rfl
      · exact (Finset.insert_eq_of_mem (hs.accepted .acceptor client hphase)).symm
  | @full client hphase =>
      refine .closes (c := client)
        (hs.sole.moves_of_held (show s.Holds .acceptor client from hphase) ?_ nofun ?_)
        rfl rfl
      · intro x
        change AcceptorPhase.checking = .holding x ↔ x ≠ client ∧ s.acceptor = .holding x
        rw [hphase, AcceptorPhase.holding.injEq]
        exact ⟨nofun, fun h => absurd h.2.symm h.1⟩
      · intro holder hne _ x
        cases holder with
        | acceptor => exact absurd rfl hne
        | _ => exact Iff.rfl
  | @workerChecks i phase hphase hnext =>
      refine .keeps (holds_setWorker_of_same fun c => ?_) rfl subset_rfl
      rw [hphase, hnext]
      cases s.stopping <;> exact Iff.rfl
  | @get i client rest hphase hqueue =>
      have hclient : s.Holds .queue client := by
        change client ∈ s.queue
        rw [hqueue]
        exact List.mem_cons_self
      refine @Effect.gives _ _ _ client (.worker i)
        (hs.sole.moves_of_held (show s.Holds .queue client from hclient) ?_ ?_ ?_) ?_ rfl
      · intro x
        rw [holds_setWorker, if_neg nofun]
        exact mem_rest hs.nodup hqueue x
      · rintro holder heq
        cases heq
        refine ⟨nofun, fun x => ?_⟩
        rw [holds_setWorker, if_pos rfl]
        change client = x ↔ x = client ∨ (s.workers i).Holds x
        rw [hphase]
        exact ⟨fun h => .inl h.symm, fun h => (h.resolve_right id).symm⟩
      · intro holder hne hne' x
        rw [holds_setWorker, if_neg (fun h => hne' (congrArg some h.symm))]
        cases holder with
        | queue => exact absurd rfl hne
        | _ => exact Iff.rfl
      · exact (Finset.insert_eq_of_mem (hs.accepted .queue client hclient)).symm
  | getTimesOut hphase =>
      refine .keeps (holds_setWorker_of_same fun c => ?_) rfl subset_rfl
      rw [hphase]
      exact Iff.rfl
  | activate hphase =>
      refine .keeps (holds_setWorker_of_same (s := { s with active := _ }) fun c => ?_) rfl
        subset_rfl
      rw [hphase]
      exact Iff.rfl
  | @handled i client hphase =>
      have hclient : s.Holds (.worker i) client := by
        change (s.workers i).Holds client
        rw [hphase]
        rfl
      refine .closes (c := client)
        (hs.sole.moves_of_held (show s.Holds (.worker i) client from hclient) ?_ nofun ?_)
        rfl rfl
      · intro x
        rw [holds_setWorker, if_pos rfl]
        change False ↔ x ≠ client ∧ (s.workers i).Holds x
        rw [hphase]
        exact ⟨False.elim, fun h => absurd h.2.symm h.1⟩
      · intro holder hne _ x
        rw [holds_setWorker, if_neg hne]
        cases holder <;> exact Iff.rfl
  | discard hphase =>
      refine .keeps (holds_setWorker_of_same (s := { s with active := _ }) fun c => ?_) rfl
        subset_rfl
      rw [hphase]
      exact Iff.rfl
  | @taskDone i phase hphase hnext =>
      refine .keeps (holds_setWorker_of_same (s := { s with unfinishedTasks := _ }) fun c => ?_)
        rfl subset_rfl
      rw [hphase, hnext]
      by_cases h : s.unfinishedTasks = 0
      · rw [if_pos h]
        exact Iff.rfl
      · rw [if_neg h]
        exact Iff.rfl
  | stopSets hphase | stopClosesListener hphase | drainEmpty hphase | stopReturns hphase =>
      refine .keeps (holds_of_phases (fun _ => Iff.rfl) rfl rfl fun c => ?_) rfl subset_rfl
      rw [hphase]
      exact ⟨nofun, nofun⟩
  | stopClosesActive hphase =>
      refine .keeps (holds_of_phases (fun _ => Iff.rfl) rfl rfl fun c => ?_) rfl
        Finset.subset_union_left
      rw [hphase]
      exact ⟨nofun, nofun⟩
  | @drain client rest hphase hqueue =>
      have hclient : s.Holds .queue client := by
        change client ∈ s.queue
        rw [hqueue]
        exact List.mem_cons_self
      refine @Effect.gives _ _ _ client .stop
        (hs.sole.moves_of_held (show s.Holds .queue client from hclient) ?_ ?_ ?_) ?_ rfl
      · exact mem_rest hs.nodup hqueue
      · rintro holder heq
        cases heq
        refine ⟨nofun, fun x => ?_⟩
        change StopPhase.drained client = .drained x ↔ x = client ∨ s.stop = .drained x
        rw [hphase, StopPhase.drained.injEq]
        exact ⟨fun h => .inl h.symm, fun h => (h.resolve_right nofun).symm⟩
      · intro holder hne hne' x
        cases holder with
        | queue => exact absurd rfl hne
        | stop => exact absurd rfl hne'
        | _ => exact Iff.rfl
      · exact (Finset.insert_eq_of_mem (hs.accepted .queue client hclient)).symm
  | @drainCloses client hphase =>
      refine .closes (c := client)
        (hs.sole.moves_of_held (show s.Holds .stop client from hphase) ?_ nofun ?_) rfl rfl
      · intro x
        change StopPhase.closedOne = .drained x ↔ x ≠ client ∧ s.stop = .drained x
        rw [hphase, StopPhase.drained.injEq]
        exact ⟨nofun, fun h => absurd h.2.symm h.1⟩
      · intro holder hne _ x
        cases holder with
        | stop => exact absurd rfl hne
        | _ => exact Iff.rfl
  | @drainTaskDone phase hphase hnext =>
      refine .keeps (holds_of_phases (fun _ => Iff.rfl) rfl rfl fun c => ?_) rfl subset_rfl
      rw [hphase, hnext]
      by_cases h : s.unfinishedTasks = 0
      · rw [if_pos h]
        exact ⟨nofun, nofun⟩
      · rw [if_neg h]
        exact ⟨nofun, nofun⟩

theorem Step.nodup (h : Step maxsize s action s') (hs : Placed s) : s'.queue.Nodup := by
  cases h with
  | @put client hphase =>
      refine List.nodup_append.mpr ⟨hs.nodup, List.nodup_singleton _, ?_⟩
      rintro c hc c' hc' rfl
      rw [List.mem_singleton.mp hc'] at hc
      cases hs.sole .queue .acceptor client hc hphase
  | get _ hqueue => exact (List.nodup_cons.mp (hqueue ▸ hs.nodup)).2
  | drain _ hqueue => exact (List.nodup_cons.mp (hqueue ▸ hs.nodup)).2
  | _ => exact hs.nodup

theorem Step.placed (h : Step maxsize s action s') (hs : Placed s) : Placed s' :=
  have heffect := h.effect hs
  { sole := heffect.sole hs.sole
    held := heffect.held hs.held
    accepted := heffect.accepted hs.accepted
    nodup := h.nodup hs }

theorem Initial.placed (h : s.Initial) : Placed s := by
  subst h
  have hnone : ∀ holder c, ¬ (Server.started n).Holds holder c := by
    intro holder c hc
    cases holder <;> cases hc
  exact {
    sole := fun holder _ c hc => absurd hc (hnone holder c)
    held := fun c hc => absurd hc.1 (Finset.notMem_empty c)
    accepted := fun holder c hc => absurd hc (hnone holder c)
    nodup := List.nodup_nil }

theorem placed_of_reachable (h : (server n maxsize).Reachable s) : Placed s := by
  refine h.invariant ?_ ?_
  · exact fun _ => Initial.placed
  · exact fun _ _ _ hs hstep => Step.placed hstep hs

/-! ## `_active` -/

/-- The client that a worker has put into `_active`. -/
def WorkerPhase.activeClient : WorkerPhase → Option Client
  | .handling client | .handled client => some client
  | .checking | .getting | .got _ | .discarded | .finished => none

/-- Each client in `_active` is there for some worker. -/
def ActiveOwned (s : Server n) : Prop :=
  ∀ c ∈ s.active, ∃ i, (s.workers i).activeClient = some c

/-- A worker changes its phase, and the clients in `_active` with it. -/
theorem ActiveOwned.setWorker (hs : ActiveOwned s) {i : Fin n} {phase : WorkerPhase}
    (hworkers : s'.workers = Function.update s.workers i phase)
    (hactive : ∀ c ∈ s'.active, phase.activeClient = some c ∨
      c ∈ s.active ∧ (s.workers i).activeClient ≠ some c) : ActiveOwned s' := by
  intro c hc
  rw [hworkers]
  rcases hactive c hc with hphase | ⟨hmem, hne⟩
  · exact ⟨i, by rwa [Function.update_self]⟩
  · obtain ⟨j, hj⟩ := hs c hmem
    have hji : j ≠ i := by
      rintro rfl
      exact hne hj
    exact ⟨j, by rwa [Function.update_of_ne hji]⟩

theorem Step.activeOwned (h : Step maxsize s action s') (hs : ActiveOwned s) : ActiveOwned s' := by
  cases h with
  | workerChecks hphase | get hphase | getTimesOut hphase | taskDone hphase =>
      exact hs.setWorker rfl fun c hc => .inr ⟨hc, by rw [hphase]; nofun⟩
  | @activate i client hphase =>
      refine hs.setWorker rfl fun c hc => ?_
      rcases Finset.mem_insert.mp hc with rfl | hc
      · exact .inl rfl
      · exact .inr ⟨hc, by rw [hphase]; nofun⟩
  | @handled i client hphase =>
      refine hs.setWorker rfl fun c hc => ?_
      by_cases heq : client = c
      · exact .inl (congrArg some heq)
      · refine .inr ⟨hc, ?_⟩
        rw [hphase]
        exact fun h => heq (Option.some.inj h)
  | @discard i client hphase =>
      refine hs.setWorker rfl fun c hc => ?_
      obtain ⟨hne, hc⟩ := Finset.mem_erase.mp hc
      refine .inr ⟨hc, ?_⟩
      rw [hphase]
      exact fun h => hne (Option.some.inj h).symm
  | _ => exact hs

theorem activeOwned_of_reachable (h : (server n maxsize).Reachable s) : ActiveOwned s := by
  refine h.invariant ?_ ?_
  · rintro _ rfl c hc
    exact absurd hc (Finset.notMem_empty c)
  · exact fun _ _ _ hs hstep => Step.activeOwned hstep hs

/-! ## The end of the drain -/

/-- What `stop` has done so far. Once it has found the queue empty, at
most one client can still come into the queue. -/
structure Stopped (s : Server n) : Prop where
  stopping : s.stop ≠ .idle → s.stopping = true
  listening : s.stop ≠ .idle → s.stop ≠ .stopping → s.listening = false
  late : s.Drained → s.queue = [] ∨
    ∃ client, s.queue = [client] ∧ ∀ c, s.acceptor ≠ .holding c

theorem Server.Drained.ne (h : s.Drained) {phase : StopPhase} (hj : phase ≠ .joining)
    (hr : phase ≠ .returned) : s.stop ≠ phase := by
  rintro rfl
  exact h.elim hj hr

/-- A step that leaves `stop`, the listener and the queue alone. -/
theorem Stopped.congr (hs : Stopped s) (hstop : s'.stop = s.stop)
    (hstopping : s'.stopping = s.stopping) (hlistening : s'.listening = s.listening)
    (hqueue : s'.queue = s.queue)
    (hacceptor : ∀ c, s'.acceptor = .holding c → s.Drained → s.acceptor = .holding c) :
    Stopped s' where
  stopping := by
    rw [hstop, hstopping]
    exact hs.stopping
  listening := by
    rw [hstop, hlistening]
    exact hs.listening
  late := by
    unfold Server.Drained
    rw [hstop, hqueue]
    intro hdrained
    rcases hs.late hdrained with h | ⟨client, h, hnot⟩
    · exact .inl h
    · exact .inr ⟨client, h, fun c hc => hnot c (hacceptor c hc hdrained)⟩

/-- After `task_done` the drain goes on, or it has raised. -/
theorem not_drained_of_taskDone {phase : StopPhase} {unfinishedTasks : Nat}
    (hnext : phase = if unfinishedTasks = 0 then .raised else .draining) :
    ¬ (phase = .joining ∨ phase = .returned) := by
  subst hnext
  by_cases h : unfinishedTasks = 0
  · rw [if_pos h]
    exact fun hdrained => hdrained.elim nofun nofun
  · rw [if_neg h]
    exact fun hdrained => hdrained.elim nofun nofun

theorem Step.stopped (h : Step maxsize s action s') (hs : Stopped s) : Stopped s' := by
  cases h with
  | @acceptorChecks phase _ hnext =>
      refine hs.congr rfl rfl rfl rfl fun c hc => ?_
      change phase = .holding c at hc
      rw [hnext] at hc
      cases hstopping : s.stopping <;> rw [hstopping] at hc <;> cases hc
  | accept _ hlistening =>
      refine hs.congr rfl rfl rfl rfl fun c _ hdrained => ?_
      have hclosed := hs.listening (hdrained.ne nofun nofun) (hdrained.ne nofun nofun)
      cases hlistening.symm.trans hclosed
  | acceptTimesOut | acceptFails | full => exact hs.congr rfl rfl rfl rfl nofun
  | @put client hphase =>
      exact {
        stopping := hs.stopping
        listening := hs.listening
        late := by
          intro hdrained
          rcases hs.late hdrained with hempty | ⟨client', -, hnot⟩
          · refine .inr ⟨client, ?_, nofun⟩
            change s.queue ++ [client] = [client]
            rw [hempty, List.nil_append]
          · exact absurd hphase (hnot client) }
  | @get i client rest _ hqueue =>
      exact {
        stopping := hs.stopping
        listening := hs.listening
        late := by
          intro hdrained
          rcases hs.late hdrained with hempty | ⟨client', hone, -⟩
          · cases hqueue.symm.trans hempty
          · exact .inl (List.cons.inj (hqueue.symm.trans hone)).2 }
  | workerChecks | getTimesOut | activate | handled | discard | taskDone =>
      exact hs.congr rfl rfl rfl rfl fun _ hc _ => hc
  | stopSets => exact ⟨fun _ => rfl, fun _ h => absurd rfl h, nofun⟩
  | stopClosesListener hphase =>
      exact ⟨fun _ => hs.stopping (by rw [hphase]; nofun), fun _ _ => rfl, nofun⟩
  | stopClosesActive hphase | drain hphase | drainCloses hphase =>
      have hidle : s.stop ≠ .idle := by rw [hphase]; nofun
      have hstopping : s.stop ≠ .stopping := by rw [hphase]; nofun
      exact ⟨fun _ => hs.stopping hidle, fun _ _ => hs.listening hidle hstopping, nofun⟩
  | @drainTaskDone phase hphase hnext =>
      have hidle : s.stop ≠ .idle := by rw [hphase]; nofun
      have hstopping : s.stop ≠ .stopping := by rw [hphase]; nofun
      exact ⟨fun _ => hs.stopping hidle, fun _ _ => hs.listening hidle hstopping,
        fun hdrained => absurd hdrained (not_drained_of_taskDone hnext)⟩
  | drainEmpty hphase hqueue =>
      have hidle : s.stop ≠ .idle := by rw [hphase]; nofun
      have hstopping : s.stop ≠ .stopping := by rw [hphase]; nofun
      exact ⟨fun _ => hs.stopping hidle, fun _ _ => hs.listening hidle hstopping,
        fun _ => .inl hqueue⟩
  | stopReturns hphase =>
      have hidle : s.stop ≠ .idle := by rw [hphase]; nofun
      have hstopping : s.stop ≠ .stopping := by rw [hphase]; nofun
      exact ⟨fun _ => hs.stopping hidle, fun _ _ => hs.listening hidle hstopping,
        fun _ => hs.late (.inl hphase)⟩

theorem stopped_of_reachable (h : (server n maxsize).Reachable s) : Stopped s := by
  refine h.invariant ?_ ?_
  · rintro _ rfl
    exact ⟨fun h => absurd rfl h, fun h => absurd rfl h, nofun⟩
  · exact fun _ _ _ hs hstep => Step.stopped hstep hs

/-- A client that came late has a worker waiting for it. -/
def Covered (s : Server n) : Prop :=
  s.Drained → s.queue ≠ [] → ∃ i, s.workers i = .getting

/-- A worker that was not waiting has changed its phase. -/
theorem Covered.setWorker (hs : Covered s) {i : Fin n} {phase : WorkerPhase}
    (hi : s.workers i ≠ .getting) (hstop : s'.stop = s.stop) (hqueue : s'.queue = s.queue)
    (hworkers : s'.workers = Function.update s.workers i phase) : Covered s' := by
  unfold Covered Server.Drained
  rw [hstop, hqueue, hworkers]
  intro hdrained hne
  obtain ⟨j, hj⟩ := hs hdrained hne
  have hji : j ≠ i := by
    rintro rfl
    exact hi hj
  exact ⟨j, by rwa [Function.update_of_ne hji]⟩

theorem Step.covered (h : Step maxsize s action s') (hstopped : Stopped s) (hs : Covered s)
    (hfine : Awaited (s, action)) : Covered s' := by
  have hstopped' := h.stopped hstopped
  cases h with
  | put => exact fun hdrained _ => hfine hdrained
  | get _ hqueue =>
      intro hdrained hne
      rcases hstopped.late hdrained with hempty | ⟨client, hone, -⟩
      · cases hqueue.symm.trans hempty
      · exact absurd (List.cons.inj (hqueue.symm.trans hone)).2 hne
  | getTimesOut _ hempty => exact fun _ hne => absurd hempty hne
  | workerChecks hphase | activate hphase | handled hphase | discard hphase | taskDone hphase =>
      exact hs.setWorker (by rw [hphase]; nofun) rfl rfl rfl
  | acceptorChecks | accept | acceptTimesOut | acceptFails | full => exact hs
  | stopSets | stopClosesListener | stopClosesActive | drain | drainCloses =>
      exact fun hdrained => hdrained.elim nofun nofun
  | drainTaskDone _ hnext =>
      exact fun hdrained => absurd hdrained (not_drained_of_taskDone hnext)
  | drainEmpty _ hempty => exact fun _ hne => absurd hempty hne
  | stopReturns hphase => exact fun _ => hs (.inl hphase)

/-- A client that came late has no worker that could take it. -/
structure Lost (s : Server n) : Prop where
  drained : s.Drained
  stopping : s.stopping = true
  queue : s.queue ≠ []
  workers : ∀ i, s.workers i ≠ .getting

theorem Lost.setWorker (hs : Lost s) {i : Fin n} {phase : WorkerPhase} (hphase : phase ≠ .getting)
    (hstop : s'.stop = s.stop) (hstopping : s'.stopping = s.stopping) (hqueue : s'.queue = s.queue)
    (hworkers : s'.workers = Function.update s.workers i phase) : Lost s' where
  drained := by
    unfold Server.Drained
    rw [hstop]
    exact hs.drained
  stopping := hstopping.trans hs.stopping
  queue := hqueue.trans_ne hs.queue
  workers := by
    intro j
    rw [hworkers]
    by_cases hj : j = i
    · rw [hj, Function.update_self]
      exact hphase
    · rw [Function.update_of_ne hj]
      exact hs.workers j

/-- No worker comes back to the queue once `_stopping` is set. -/
theorem Step.lost (h : Step maxsize s action s') (hs : Lost s) : Lost s' := by
  cases h with
  | acceptorChecks | accept | acceptTimesOut | acceptFails | full => exact { hs with }
  | put => exact { hs with queue := List.append_ne_nil_of_right_ne_nil _ nofun }
  | @workerChecks i phase _ hnext =>
      rw [hs.stopping, if_pos rfl] at hnext
      exact hs.setWorker (hnext.trans_ne nofun) rfl rfl rfl rfl
  | @get i _ _ hphase | @getTimesOut i hphase => exact absurd hphase (hs.workers i)
  | activate | handled | discard =>
      refine hs.setWorker ?_ rfl rfl rfl rfl
      nofun
  | @taskDone i phase _ hnext =>
      refine hs.setWorker ?_ rfl rfl rfl rfl
      subst hnext
      by_cases h : s.unfinishedTasks = 0
      · rw [if_pos h]
        nofun
      · rw [if_neg h]
        nofun
  | stopSets hphase | stopClosesListener hphase | stopClosesActive hphase | drain hphase
  | drainCloses hphase | drainTaskDone hphase | drainEmpty hphase =>
      exact absurd hphase (hs.drained.ne nofun nofun)
  | stopReturns => exact { hs with drained := .inr rfl }

/-- A put that no worker awaits loses its client. -/
theorem Step.lost_of_not_awaited (h : Step maxsize s action s') (hstopped : Stopped s)
    (hlate : ¬ Awaited (s, action)) : Lost s' := by
  cases h with
  | put =>
      obtain ⟨hdrained, hworkers⟩ := Classical.not_imp.mp hlate
      exact {
        drained := hdrained
        stopping := hstopped.stopping (hdrained.ne nofun nofun)
        queue := List.append_ne_nil_of_right_ne_nil _ nofun
        workers := not_exists.mp hworkers }
  | _ => exact absurd trivial hlate

/-! ## What is left at the end -/

/-- At the end only the queue can hold a client. -/
theorem settled_of_queue (hs : Placed s) (hactive : ActiveOwned s) (hfinished : s.Finished)
    (hqueue : s.queue = []) : s.Settled := by
  obtain ⟨hstop, hacceptor, hworkers⟩ := hfinished
  refine ⟨hqueue, ?_, ?_⟩
  · refine Finset.eq_empty_of_forall_notMem fun c hc => ?_
    obtain ⟨i, hi⟩ := hactive c hc
    rw [hworkers i] at hi
    cases hi
  · intro c hc
    by_contra hopen
    obtain ⟨holder, hholds⟩ := hs.held c ⟨hc, hopen⟩
    cases holder with
    | acceptor => cases hacceptor.symm.trans hholds
    | queue =>
        change c ∈ s.queue at hholds
        rw [hqueue] at hholds
        cases hholds
    | worker i =>
        change (s.workers i).Holds c at hholds
        rw [hworkers i] at hholds
        exact hholds
    | stop => cases hstop.symm.trans hholds

theorem queue_of_awaited {steps : List (Server n × Action)} (h : (server n maxsize).Run steps s)
    (hfine : ∀ step ∈ steps, Awaited step) (hfinished : s.Finished) : s.queue = [] := by
  have hcovered : Covered s := by
    refine h.invariant_of_steps ?_ ?_ hfine
    · rintro _ rfl hdrained
      exact hdrained.elim nofun nofun
    · intro s action s' hreachable hs hawaited hstep
      exact Step.covered hstep (stopped_of_reachable hreachable) hs hawaited
  by_contra hne
  obtain ⟨i, hi⟩ := hcovered (.inr hfinished.1) hne
  cases hi.symm.trans (hfinished.2.2 i)

theorem queue_of_not_awaited {steps : List (Server n × Action)}
    (h : (server n maxsize).Run steps s) (hlate : ¬ ∀ step ∈ steps, Awaited step) :
    s.queue ≠ [] := by
  have hlost : Lost s := by
    refine h.persists_of_step ?_ ?_ hlate
    · intro s action s' hreachable hstep hs
      exact Step.lost_of_not_awaited hs (stopped_of_reachable hreachable) hstep
    · exact fun _ _ _ hs hstep => Step.lost hstep hs
  exact hlost.queue

/-- In every run, before `stop` each accepted and open client has one
holder, and at the end no client is left exactly if every client that came
into the queue after the drain was awaited there. -/
theorem stop_settles_iff {steps : List (Server n × Action)} (h : (server n maxsize).Run steps s) :
    (s.stop = .idle → s.queue.Nodup ∧ ∀ c, s.Open c →
      ∃ holder, holder ≠ .stop ∧ s.Holds holder c ∧
        ∀ holder', s.Holds holder' c → holder' = holder) ∧
      (s.Finished → (s.Settled ↔ ∀ step ∈ steps, Awaited step)) := by
  have hs := placed_of_reachable h.reachable
  constructor
  · intro hidle
    refine ⟨hs.nodup, fun c hopen => ?_⟩
    obtain ⟨holder, hholds⟩ := hs.held c hopen
    refine ⟨holder, ?_, hholds, fun holder' hholds' => hs.sole holder' holder c hholds' hholds⟩
    rintro rfl
    cases hidle.symm.trans hholds
  · intro hfinished
    constructor
    · intro hsettled
      by_contra hlate
      exact queue_of_not_awaited h hlate hsettled.1
    · intro hfine
      exact settled_of_queue hs (activeOwned_of_reachable h.reachable) hfinished
        (queue_of_awaited h hfine hfinished)

/-- The acceptor has accepted a client when `stop` drains the queue, and
puts it there when the workers have gone. -/
theorem stop_loses_client :
    ∃ s : Server 1, (server 1 4).Reachable s ∧ s.Finished ∧ ¬ s.Settled := by
  have h : (server 1 4).Reachable (.started 1) := .start rfl
  have h := h.step (.acceptorChecks rfl rfl)
  have h := h.step (.accept rfl rfl (Finset.notMem_empty (0 : Client)))
  have h := h.step (.stopSets rfl)
  have h := h.step (.stopClosesListener rfl)
  have h := h.step (.stopClosesActive rfl)
  have h := h.step (.drainEmpty rfl rfl)
  have h := h.step (.workerChecks (i := 0) rfl rfl)
  have h := h.step (.put rfl (by rintro ⟨-, h⟩; cases h))
  have h := h.step (.acceptorChecks rfl rfl)
  have h := h.step (.stopReturns rfl)
  refine ⟨_, h, ⟨rfl, rfl, ?_⟩, ?_⟩
  · intro i
    rw [Subsingleton.elim i 0]
    rfl
  · rintro ⟨hqueue, -⟩
    cases hqueue

/-- A run that no late client comes into. -/
def Calm (n maxsize : Nat) (s : Server n) : Prop :=
  ∃ steps, (server n maxsize).Run steps s ∧ ∀ step ∈ steps, Awaited step

theorem Calm.step (h : Calm n maxsize s) (hstep : Step maxsize s action s')
    (hawaited : Awaited (s, action)) : Calm n maxsize s' := by
  obtain ⟨steps, hrun, hfine⟩ := h
  refine ⟨_, hrun.step hstep, fun step hmem => ?_⟩
  rcases List.mem_append.mp hmem with hmem | hmem
  · exact hfine step hmem
  · rw [List.mem_singleton.mp hmem]
    exact hawaited

/-- One client is served, and then the server stops. -/
theorem stop_settles_iff_served :
    ∃ s : Server 1, (server 1 4).Reachable s ∧ s.Finished ∧ s.accepted = {0} ∧ s.Settled := by
  have h : Calm 1 4 (.started 1) := ⟨[], .start rfl, nofun⟩
  have h := h.step (.acceptorChecks rfl rfl) trivial
  have h := h.step (.accept rfl rfl (Finset.notMem_empty (0 : Client))) trivial
  have h := h.step (.put rfl (by rintro ⟨-, h⟩; cases h))
    (fun hdrained => hdrained.elim nofun nofun)
  have h := h.step (.workerChecks (i := 0) rfl rfl) trivial
  have h := h.step (.get (i := 0) rfl rfl) trivial
  have h := h.step (.activate (i := 0) rfl) trivial
  have h := h.step (.handled (i := 0) rfl) trivial
  have h := h.step (.discard (i := 0) rfl) trivial
  have h := h.step (.taskDone (i := 0) rfl rfl) trivial
  have h := h.step (.stopSets rfl) trivial
  have h := h.step (.stopClosesListener rfl) trivial
  have h := h.step (.stopClosesActive rfl) trivial
  have h := h.step (.drainEmpty rfl rfl) trivial
  have h := h.step (.workerChecks (i := 0) rfl rfl) trivial
  have h := h.step (.acceptorChecks rfl rfl) trivial
  have h := h.step (.stopReturns rfl) trivial
  obtain ⟨steps, hrun, hfine⟩ := h
  have hfinished : ∀ i : Fin 1, i = 0 := fun i => Subsingleton.elim i 0
  refine ⟨_, hrun.reachable, ⟨rfl, rfl, ?_⟩, rfl,
    ((stop_settles_iff hrun).2 ⟨rfl, rfl, ?_⟩).mpr hfine⟩
  · intro i
    rw [hfinished i]
    rfl
  · intro i
    rw [hfinished i]
    rfl

end LighttpdFuzz.Backend
