import LighttpdFuzz.LineTools
import LighttpdFuzz.PyText
import LighttpdFuzz.Script

/-!
# The ready file of the backend

`start_backend_responder` starts the responder and polls for its ready
file. The responder starts its servers, writes the file under another name
and links it to the name that is polled; when it is told to stop, it stops
its servers and then removes the file. Both go on at the same time, and
each single step of the responder may fail.

The file is complete whenever it is there (`Inv`), so what the script can
find wrong with it is only that it has gone in the meantime. The script
succeeds after it has read each of the lines; as long as nothing ends the
responder, every server listens then (`start_backend_responder`).
-/

namespace LighttpdFuzz.ReadyFile

open Script

/-! ## The responder -/

/-- Where `main` of the responder is. -/
inductive ResponderPhase where
  | absent
  /-- That many servers have been started. -/
  | starting (started : Nat)
  | opening
  | writing
  | linking
  /-- Before `temporary.unlink`; whether the link has been made. -/
  | unlinking (linked : Bool)
  | announcing
  | waiting
  /-- That many servers are still to be stopped; `ready_created` -/
  | stopping (left : Nat) (created : Bool)
  | removing
  | exited
  | killed
  deriving DecidableEq, Repr

/-- How `start_backend_responder` ends; only `ready` returns 0. -/
inductive StartOutcome where
  /-- "Missing executable backend responder" -/
  | missing
  | ready
  /-- "wrote an invalid ready file" -/
  | invalid
  /-- "exited before becoming ready" -/
  | exited
  /-- "did not become ready within 10 seconds" -/
  | late
  deriving DecidableEq, Repr

/-- What one `grep` looks for, and what is in the ready file then. -/
structure Reading where
  line : Text
  content : Option Text
  deriving DecidableEq, Repr

/-- Whether `grep -Fqx` succeeds. -/
def Reading.found (reading : Reading) : Bool :=
  reading.content.any fun content => (LineTools.linesOf content).contains reading.line

/-- The responder, its files, and the variables of the script. -/
structure Handshake where
  /-- `[ -x "$responder" ]` -/
  executable : Bool
  phase : ResponderPhase
  /-- How many of the servers have an open listener. -/
  listening : Nat
  temporary : Option Text
  ready : Option Text
  /-- Whether `INT` or `TERM` has reached the responder. -/
  stopRequested : Bool
  /-- Whether a step has failed after the link. -/
  troubled : Bool
  /-- Whether `wait` has the status. -/
  reaped : Bool
  backendPids : List Nat
  /-- What the script has read, the last one at the end. -/
  readings : List Reading
  outcome : Option StartOutcome

/-- The protocols and ports of the servers, as the arguments give them. -/
abbrev Servers := List (Text × Nat)

/-- `f"{server.protocol}={server.port}"` -/
def readyLine (server : Text × Nat) : Text := server.1 ++ '=' :: Text.ofNat server.2

def payload (servers : Servers) : Text :=
  (servers.map fun server => readyLine server ++ ['\n']).flatten

def ResponderPhase.Ended (phase : ResponderPhase) : Prop := phase = .exited ∨ phase = .killed

/-- A step of the responder, or what happens to it. -/
inductive Step (servers : Servers) (s : Handshake) : Handshake → Prop
  | startServer {k : Nat} : s.phase = .starting k → k < servers.length →
      Step servers s { s with phase := .starting (k + 1), listening := k + 1 }
  | startFails {k : Nat} : s.phase = .starting k → k < servers.length →
      Step servers s { s with phase := .stopping servers.length false }
  | allStarted : s.phase = .starting servers.length → Step servers s { s with phase := .opening }
  | openTemporary : s.phase = .opening → s.temporary = none →
      Step servers s { s with phase := .writing, temporary := some [] }
  | openFails : s.phase = .opening → Step servers s { s with phase := .unlinking false }
  | write {written more : Text} : s.phase = .writing → s.temporary = some written →
      written ++ more <+: payload servers →
      Step servers s { s with temporary := some (written ++ more) }
  | allWritten : s.phase = .writing → s.temporary = some (payload servers) →
      Step servers s { s with phase := .linking }
  | writeFails : s.phase = .writing → Step servers s { s with phase := .unlinking false }
  | link {content : Text} : s.phase = .linking → s.ready = none → s.temporary = some content →
      Step servers s { s with phase := .unlinking true, ready := some content }
  | linkFails : s.phase = .linking → Step servers s { s with phase := .unlinking false }
  | unlink {linked : Bool} : s.phase = .unlinking linked →
      Step servers s { s with
        phase := if linked then .announcing else .stopping servers.length false
        temporary := none }
  /-- `ready_created` is not set then, whether there is a link or not. -/
  | unlinkFails {linked : Bool} : s.phase = .unlinking linked →
      Step servers s { s with
        phase := .stopping servers.length false
        troubled := s.troubled || linked }
  | announce : s.phase = .announcing → Step servers s { s with phase := .waiting }
  | announceFails : s.phase = .announcing →
      Step servers s { s with phase := .stopping servers.length true, troubled := true }
  | wake : s.phase = .waiting → s.stopRequested = true →
      Step servers s { s with phase := .stopping servers.length true }
  | stopServer {k : Nat} {created : Bool} : s.phase = .stopping (k + 1) created →
      Step servers s { s with phase := .stopping k created, listening := min s.listening k }
  | allStopped {created : Bool} : s.phase = .stopping 0 created →
      Step servers s { s with phase := if created then .removing else .exited }
  | remove : s.phase = .removing → Step servers s { s with phase := .exited, ready := none }
  | removeFails : s.phase = .removing →
      Step servers s { s with phase := .exited, troubled := true }
  | requestStop : s.phase ≠ .absent → Step servers s { s with stopRequested := true }
  | kill : s.phase ≠ .absent → ¬ s.phase.Ended →
      Step servers s { s with phase := .killed, listening := 0 }
  | reap : s.phase.Ended → Step servers s { s with reaped := true }

/-! ## The script -/

namespace Handshake

/-- `rm -f "$backend_ready_file"` -/
def removeReady (s : Handshake) : Handshake := { s with ready := none }

/-- `setsid "$responder" ... &` -/
def launch (pid : Nat) (s : Handshake) : Handshake :=
  { s with
    phase := .starting 0
    listening := 0
    stopRequested := false
    troubled := false
    reaped := false
    backendPids := s.backendPids ++ [pid] }

/-- `grep -Fqx "$line" "$backend_ready_file"` -/
def grep (line : Text) (s : Handshake) : Handshake :=
  { s with readings := s.readings ++ [⟨line, s.ready⟩] }

/-- The status of the last `grep`. -/
def found (s : Handshake) : Bool := s.readings.getLast?.any Reading.found

def conclude (outcome : StartOutcome) (s : Handshake) : Handshake :=
  { s with
    outcome := some outcome
    backendPids := if outcome = .exited then [] else s.backendPids }

end Handshake

/-- The ports of the campaign. -/
def servers : Servers := [("http".toList, 6501), ("fastcgi".toList, 6502), ("scgi".toList, 6503)]

/-- One line after the other is looked for. -/
def findLines : Servers → Script Handshake
  | [] => act (.conclude .ready)
  | server :: rest =>
      seq (act (.grep (readyLine server)))
        (ite (·.found) (findLines rest) (act (.conclude .invalid)))

/-- A turn of the loop. -/
def poll : Script Handshake :=
  ite (·.ready.isSome) (findLines servers) (ite (·.reaped) (act (.conclude .exited)) skip)

/-- `start_backend_responder` -/
def startBackendResponder (pid : Nat) : Script Handshake :=
  ite (·.executable)
    (seq (act .removeReady) (seq (act (.launch pid))
      (seq (upTo 100 poll (·.outcome.isSome))
        (ite (·.outcome.isSome) skip (act (.conclude .late))))))
    (act (.conclude .missing))

/-! ## The invariant -/

/-- Something has ended the responder, or is about to. -/
def Ending (s : Handshake) : Prop :=
  s.stopRequested = true ∨ s.troubled = true ∨ s.phase = .killed

/-- Every server listens, and the file is there. -/
structure Up (s : Handshake) : Prop where
  phase : s.phase = .unlinking true ∨ s.phase = .announcing ∨ s.phase = .waiting
  listening : s.listening = servers.length
  ready : s.ready = some (payload servers)

/-- The servers and the file, by the phase. -/
def Inv (s : Handshake) : Prop :=
  match s.phase with
  | .absent => s.ready = none
  | .starting started => s.listening = started ∧ s.ready = none
  | .opening | .unlinking false | .writing => s.listening = servers.length ∧ s.ready = none
  | .linking => s.listening = servers.length ∧ s.ready = none
      ∧ s.temporary = some (payload servers)
  | .unlinking true | .announcing | .waiting =>
      s.listening = servers.length ∧ s.ready = some (payload servers)
  | .stopping left true => s.listening ≤ left ∧ s.ready = some (payload servers)
      ∧ (s.stopRequested = true ∨ s.troubled = true)
  | .stopping left false => s.listening ≤ left
      ∧ (s.ready = none ∨ s.ready = some (payload servers) ∧ s.troubled = true)
  | .removing => s.listening = 0 ∧ s.ready = some (payload servers)
      ∧ (s.stopRequested = true ∨ s.troubled = true)
  | .exited => s.listening = 0
      ∧ (s.ready = none ∨ s.ready = some (payload servers) ∧ s.troubled = true)
  | .killed => s.listening = 0 ∧ (s.ready = none ∨ s.ready = some (payload servers))

section Inv

variable {s s' : Handshake}

/-- The file is complete whenever it is there. -/
theorem Inv.ready (h : Inv s) : s.ready = none ∨ s.ready = some (payload servers) := by
  unfold Inv at h
  split at h <;> grind

/-- A file that is there has been linked, and it goes again only when the
responder ends. -/
theorem Inv.up (h : Inv s) (hready : s.ready ≠ none) : Up s ∨ Ending s := by
  unfold Ending
  unfold Inv at h
  split at h
  all_goals first
    | exact .inl ⟨by simp_all, h.1, h.2⟩
    | grind

/-- No listener is left of a responder that has ended. -/
theorem Inv.ended (h : Inv s) (hended : s.phase.Ended) : s.listening = 0 := by
  unfold Inv at h
  rcases hended with hphase | hphase
  · rw [hphase] at h
    exact h.1
  · rw [hphase] at h
    exact h.1

theorem Inv.step (h : Inv s) (hstep : Step servers s s') : Inv s' := by
  cases hstep with
  | requestStop hphase =>
      unfold Inv at h ⊢
      split at h <;> simp_all
  | reap hended =>
      unfold Inv at h ⊢
      split at h <;> simp_all
  | kill hphase hended => exact ⟨rfl, h.ready⟩
  | startServer hphase hlt =>
      simp only [Inv, hphase] at h ⊢
      exact ⟨trivial, h.2⟩
  | startFails hphase hlt =>
      simp only [Inv, hphase] at h ⊢
      exact ⟨by omega, .inl h.2⟩
  | allStarted hphase =>
      simp only [Inv, hphase] at h ⊢
      exact h
  | openTemporary hphase hnone =>
      simp only [Inv, hphase] at h ⊢
      exact h
  | openFails hphase =>
      simp only [Inv, hphase] at h ⊢
      exact h
  | write hphase hwritten hmore =>
      simp only [Inv, hphase] at h ⊢
      exact h
  | allWritten hphase hwritten =>
      simp only [Inv, hphase] at h ⊢
      exact ⟨h.1, h.2, hwritten⟩
  | writeFails hphase =>
      simp only [Inv, hphase] at h ⊢
      exact h
  | link hphase hnone hcontent =>
      simp only [Inv, hphase] at h ⊢
      exact ⟨h.1, by rw [← hcontent, h.2.2]⟩
  | linkFails hphase =>
      simp only [Inv, hphase] at h ⊢
      exact ⟨h.1, h.2.1⟩
  | @unlink linked hphase =>
      cases linked with
      | true =>
          simp only [Inv, hphase] at h ⊢
          exact h
      | false =>
          simp only [Inv, hphase] at h ⊢
          exact ⟨h.1.le, .inl h.2⟩
  | @unlinkFails linked hphase =>
      cases linked with
      | true =>
          simp only [Inv, hphase] at h ⊢
          exact ⟨h.1.le, .inr ⟨h.2, by simp⟩⟩
      | false =>
          simp only [Inv, hphase] at h ⊢
          exact ⟨h.1.le, .inl h.2⟩
  | announce hphase =>
      simp only [Inv, hphase] at h ⊢
      exact h
  | announceFails hphase =>
      simp only [Inv, hphase] at h ⊢
      exact ⟨h.1.le, h.2, .inr trivial⟩
  | wake hphase hstop =>
      simp only [Inv, hphase] at h ⊢
      exact ⟨h.1.le, h.2, .inl hstop⟩
  | @stopServer k created hphase =>
      cases created with
      | true =>
          simp only [Inv, hphase] at h ⊢
          exact ⟨Nat.min_le_right _ _, h.2⟩
      | false =>
          simp only [Inv, hphase] at h ⊢
          exact ⟨Nat.min_le_right _ _, h.2⟩
  | @allStopped created hphase =>
      cases created with
      | true =>
          simp only [Inv, hphase] at h ⊢
          exact ⟨Nat.le_zero.mp h.1, h.2⟩
      | false =>
          simp only [Inv, hphase] at h ⊢
          exact ⟨Nat.le_zero.mp h.1, h.2⟩
  | remove hphase =>
      simp only [Inv, hphase] at h ⊢
      exact ⟨h.1, .inl trivial⟩
  | removeFails hphase =>
      simp only [Inv, hphase] at h ⊢
      exact ⟨h.1, .inr ⟨h.2.1, trivial⟩⟩

theorem Step.stopRequested (hstep : Step servers s s') (h : s.stopRequested = true) :
    s'.stopRequested = true := by
  cases hstep with
  | requestStop _ => rfl
  | _ => exact h

theorem Step.troubled (hstep : Step servers s s') (h : s.troubled = true) :
    s'.troubled = true := by
  cases hstep with
  | unlinkFails _ => simp [h]
  | announceFails _ => rfl
  | removeFails _ => rfl
  | _ => exact h

theorem Step.killed (hstep : Step servers s s') (h : s.phase = .killed) : s'.phase = .killed := by
  cases hstep with
  | requestStop _ => exact h
  | reap _ => exact h
  | kill _ hended => exact absurd (.inr h) hended
  | _ => simp_all

/-- Nothing takes it back that the responder ends. -/
theorem Ending.step (h : Ending s) (hstep : Step servers s s') : Ending s' := by
  rcases h with h | h | h
  · exact .inl (hstep.stopRequested h)
  · exact .inr (.inl (hstep.troubled h))
  · exact .inr (.inr (hstep.killed h))

/-- The file goes at the end of the responder only. -/
theorem Step.ready (hstep : Step servers s s') (hphase : s.phase ≠ .removing)
    (h : s.ready ≠ none) : s'.ready ≠ none := by
  cases hstep with
  | link _ hnone _ => exact absurd hnone h
  | remove hremoving => exact absurd hremoving hphase
  | _ => exact h

theorem Up.inv (h : Up s) : Inv s := by
  obtain ⟨hphase, hlistening, hready⟩ := h
  rcases hphase with hphase | hphase | hphase
  · simp only [Inv, hphase]
    exact ⟨hlistening, hready⟩
  · simp only [Inv, hphase]
    exact ⟨hlistening, hready⟩
  · simp only [Inv, hphase]
    exact ⟨hlistening, hready⟩

/-- What is up stays up until it ends. -/
theorem Up.step (h : Up s) (hstep : Step servers s s') : Up s' ∨ Ending s' := by
  refine (h.inv.step hstep).up (hstep.ready ?_ ?_)
  · rcases h.phase with hphase | hphase | hphase <;> simp [hphase]
  · simp [h.ready]

theorem Step.outcome (hstep : Step servers s s') : s'.outcome = s.outcome := by
  cases hstep <;> rfl

theorem Step.backendPids (hstep : Step servers s s') : s'.backendPids = s.backendPids := by
  cases hstep <;> rfl

theorem Step.readings (hstep : Step servers s s') : s'.readings = s.readings := by
  cases hstep <;> rfl

theorem Step.ended (hstep : Step servers s s') (h : s.phase.Ended) : s'.phase.Ended := by
  unfold ResponderPhase.Ended at h ⊢
  cases hstep with
  | requestStop _ => exact h
  | reap _ => exact h
  | kill _ hended => exact absurd h hended
  | _ => simp_all

end Inv

/-! ## The handshake -/

/-- The responder runs or has run. -/
structure Launched (s : Handshake) : Prop where
  inv : Inv s
  /-- `wait` gives a status of what has ended only. -/
  reaped : s.reaped = true → s.phase.Ended

/-- The complete file, read for the line of a server. -/
def readingOf (server : Text × Nat) : Reading := ⟨readyLine server, some (payload servers)⟩

/-- What the outcome of the script says. -/
def Concluded (pid : Nat) (s : Handshake) : Prop :=
  match s.outcome with
  | none => s.backendPids = [pid] ∧ s.readings = []
  | some .missing => False
  | some .ready => s.backendPids = [pid] ∧ s.readings = servers.map readingOf ∧ (Up s ∨ Ending s)
  | some .invalid => s.backendPids = [pid] ∧ (∃ reading ∈ s.readings, reading.content = none)
      ∧ Ending s
  | some .exited => s.backendPids = [] ∧ s.phase.Ended
  | some .late => s.backendPids = [pid]

section Handshake

variable {s s' : Handshake} {pid : Nat}

theorem stable_upOrEnding : Stable (Step servers) fun s => Up s ∨ Ending s := by
  rintro s s' hstep (h | h)
  · exact h.step hstep
  · exact .inr (h.step hstep)

theorem stable_ended : Stable (Step servers) fun s => s.phase.Ended :=
  fun _ _ hstep h => hstep.ended h

theorem stable_launched : Stable (Step servers) Launched := by
  rintro s s' hstep ⟨hinv, hreaped⟩
  have hended := hstep.ended
  refine ⟨hinv.step hstep, ?_⟩
  cases hstep with
  | reap hphase => exact fun _ => hphase
  | _ => exact fun h => hended (hreaped h)

/-- The script has not come to a conclusion; it has read so much. -/
structure Undecided (pid : Nat) (readings : List Reading) (s : Handshake) : Prop where
  launched : Launched s
  outcome : s.outcome = none
  backendPids : s.backendPids = [pid]
  readings : s.readings = readings

theorem stable_undecided {readings : List Reading} :
    Stable (Step servers) (Undecided pid readings) := by
  rintro s s' hstep ⟨hlaunched, houtcome, hpids, hreadings⟩
  exact ⟨stable_launched s s' hstep hlaunched, hstep.outcome.trans houtcome,
    hstep.backendPids.trans hpids, hstep.readings.trans hreadings⟩

/-- What the outcome says is true. -/
def Decided (pid : Nat) (s : Handshake) : Prop := Launched s ∧ Concluded pid s

theorem stable_decided : Stable (Step servers) (Decided pid) := by
  rintro s s' hstep ⟨hlaunched, hconcluded⟩
  refine ⟨stable_launched s s' hstep hlaunched, ?_⟩
  unfold Concluded at hconcluded ⊢
  rw [hstep.outcome, hstep.backendPids, hstep.readings]
  cases houtcome : s.outcome with
  | none =>
      rw [houtcome] at hconcluded
      exact hconcluded
  | some outcome =>
      rw [houtcome] at hconcluded
      cases outcome with
      | missing => exact hconcluded
      | ready =>
          exact ⟨hconcluded.1, hconcluded.2.1, stable_upOrEnding s s' hstep hconcluded.2.2⟩
      | invalid => exact ⟨hconcluded.1, hconcluded.2.1, Ending.step hconcluded.2.2 hstep⟩
      | exited => exact ⟨hconcluded.1, hstep.ended hconcluded.2⟩
      | late => exact hconcluded

theorem Undecided.decided (h : Undecided pid [] s) : Decided pid s := by
  refine ⟨h.launched, ?_⟩
  unfold Concluded
  rw [h.outcome]
  exact ⟨h.backendPids, h.readings⟩

theorem Decided.undecided (h : Decided pid s) (hnone : s.outcome = none) :
    Undecided pid [] s := by
  have hconcluded := h.2
  unfold Concluded at hconcluded
  rw [hnone] at hconcluded
  exact ⟨h.1, hnone, hconcluded.1, hconcluded.2⟩

/-- What the script writes down is no matter for the responder. -/
theorem Undecided.conclude {readings : List Reading} (h : Undecided pid readings s)
    {outcome : StartOutcome} (hoken : Concluded pid (s.conclude outcome)) :
    Decided pid (s.conclude outcome) :=
  ⟨⟨h.launched.inv, h.launched.reaped⟩, hoken⟩

theorem conclude_spec {readings : List Reading} {p : Handshake → Prop}
    (hp : Stable (Step servers) p) (outcome : StartOutcome)
    (h : ∀ s, Undecided pid readings s → p s → Concluded pid (s.conclude outcome)) :
    Triple (Step servers) (fun s => Undecided pid readings s ∧ p s) (act (.conclude outcome))
      (Decided pid) :=
  .act (stable_undecided.and hp) stable_decided fun s hs => hs.1.conclude (h s hs.1 hs.2)

/-- The lines that are looked for are in the file. -/
theorem readingOf_found : ∀ server ∈ servers, (readingOf server).found = true := by decide

/-- The `grep` for a server finds the file complete, or gone. -/
structure Looking (pid : Nat) (done : Servers) (server : Text × Nat) (content : Option Text)
    (s : Handshake) : Prop where
  undecided : Undecided pid (done.map readingOf ++ [⟨readyLine server, content⟩]) s
  up : Up s ∨ Ending s
  content : content = some (payload servers) ∨ content = none ∧ Ending s

theorem Looking.step {done : Servers} {server : Text × Nat} {content : Option Text}
    (h : Looking pid done server content s) (hstep : Step servers s s') :
    Looking pid done server content s' where
  undecided := stable_undecided s s' hstep h.undecided
  up := stable_upOrEnding s s' hstep h.up
  content := h.content.imp_right (And.imp_right fun hending => Ending.step hending hstep)

theorem stable_looking {done : Servers} {server : Text × Nat} :
    Stable (Step servers) fun s => ∃ content, Looking pid done server content s :=
  fun _ _ hstep ⟨content, hlooking⟩ => ⟨content, hlooking.step hstep⟩

/-- `grep` reads what is there. -/
theorem grep_spec {done : Servers} {server : Text × Nat} :
    Triple (Step servers) (fun s => Undecided pid (done.map readingOf) s ∧ (Up s ∨ Ending s))
      (act (.grep (readyLine server))) fun s => ∃ content, Looking pid done server content s := by
  refine .act (stable_undecided.and stable_upOrEnding) stable_looking fun s hs => ?_
  obtain ⟨⟨hlaunched, houtcome, hpids, hreadings⟩, hup⟩ := hs
  have hup' : Up (s.grep (readyLine server)) ∨ Ending (s.grep (readyLine server)) :=
    hup.imp_left fun h => ⟨h.phase, h.listening, h.ready⟩
  refine ⟨s.ready, ⟨⟨hlaunched.inv, hlaunched.reaped⟩, houtcome, hpids, ?_⟩, hup', ?_⟩
  · change s.readings ++ _ = _
    rw [hreadings]
  · rcases hlaunched.inv.ready with hready | hready
    · refine .inr ⟨hready, hup'.resolve_left fun h => ?_⟩
      exact absurd (h.ready.symm.trans hready) nofun
    · exact .inl hready

theorem Looking.found {done : Servers} {server : Text × Nat} {content : Option Text}
    (h : Looking pid done server content s) :
    s.found = (⟨readyLine server, content⟩ : Reading).found := by
  rw [Handshake.found, h.undecided.readings, List.getLast?_concat]
  rfl

/-- The induction is on the servers that are still to be looked for. -/
theorem findLines_spec : ∀ {rest done : Servers}, done ++ rest = servers →
    Triple (Step servers) (fun s => Undecided pid (done.map readingOf) s ∧ (Up s ∨ Ending s))
      (findLines rest) (Decided pid)
  | [], done, hservers => by
      rw [List.append_nil] at hservers
      refine conclude_spec stable_upOrEnding .ready fun s hs hup => ?_
      refine ⟨hs.backendPids, hservers ▸ hs.readings, ?_⟩
      exact hup.imp (fun h => ⟨h.phase, h.listening, h.ready⟩) fun h => h
  | server :: rest, done, hservers => by
      have hmem : server ∈ servers := by
        rw [← hservers]
        exact List.mem_append_right _ List.mem_cons_self
      rw [List.append_cons] at hservers
      have hstable : Stable (Step servers) fun s =>
          Undecided pid (done.map readingOf) s ∧ (Up s ∨ Ending s) :=
        stable_undecided.and stable_upOrEnding
      have hgone : Stable (Step servers) fun s => Looking pid done server none s ∧ Ending s :=
        fun s s' hstep hs => ⟨hs.1.step hstep, Ending.step hs.2 hstep⟩
      have hyes : ∀ s, (∃ content, Looking pid done server content s) → s.found = true →
          Undecided pid ((done ++ [server]).map readingOf) s ∧ (Up s ∨ Ending s) := by
        rintro s ⟨content, hlooking⟩ htest
        rcases hlooking.content with hcontent | ⟨hcontent, -⟩
        · subst hcontent
          rw [List.map_append]
          exact ⟨hlooking.undecided, hlooking.up⟩
        · rw [hlooking.found, hcontent] at htest
          cases htest
      have hno : ∀ s, (∃ content, Looking pid done server content s) → s.found = false →
          Looking pid done server none s ∧ Ending s := by
        rintro s ⟨content, hlooking⟩ htest
        rcases hlooking.content with hcontent | ⟨hcontent, hending⟩
        · rw [hlooking.found, hcontent] at htest
          cases htest.symm.trans (readingOf_found server hmem)
        · subst hcontent
          exact ⟨hlooking, hending⟩
      refine .seq hstable stable_decided grep_spec
        (.ite stable_looking stable_decided hyes hno (findLines_spec hservers)
          (.act hgone stable_decided fun s hs => hs.1.undecided.conclude ?_))
      have hlast : ⟨readyLine server, none⟩ ∈ (s.conclude .invalid).readings := by
        change _ ∈ s.readings
        rw [hs.1.undecided.readings]
        exact List.mem_concat_self
      exact ⟨hs.1.undecided.backendPids, ⟨_, hlast, rfl⟩, hs.2⟩

theorem poll_spec : Triple (Step servers) (Undecided pid []) poll (Decided pid) := by
  have hundecided : Stable (Step servers) (Undecided pid []) := stable_undecided
  have hgone : Triple (Step servers) (Undecided pid [])
      (ite (·.reaped) (act (.conclude .exited)) skip) (Decided pid) :=
    .ite hundecided stable_decided (fun s hs hreaped => ⟨hs, hs.launched.reaped hreaped⟩)
      (fun s hs _ => hs) (conclude_spec stable_ended .exited fun s hs hended => ⟨rfl, hended⟩)
      ((Triple.skip hundecided).weaken (fun _ hs => hs) fun s hs => hs.decided)
  exact .ite hundecided stable_decided
    (fun s hs hready => ⟨hs, hs.launched.inv.up (Option.isSome_iff_ne_none.mp hready)⟩)
    (fun s hs _ => hs) (findLines_spec (List.nil_append _)) hgone

/-- The script has not begun. -/
def Begins (s : Handshake) : Prop :=
  s.phase = .absent ∧ s.outcome = none ∧ s.backendPids = [] ∧ s.readings = []

/-- There is no responder that could do anything. -/
theorem Step.not_absent (hstep : Step servers s s') : s.phase ≠ .absent := by
  intro hphase
  cases hstep with
  | requestStop hne => exact hne hphase
  | kill hne _ => exact hne hphase
  | reap hended => rcases hended with h | h <;> cases hphase.symm.trans h
  | _ => simp_all

/-- Without an executable responder the script does nothing. -/
theorem startBackendResponder_missing (hphase : s.phase = .absent)
    (hexecutable : s.executable = false)
    (h : Exec (Step servers) (startBackendResponder pid) s s') : s' = s.conclude .missing := by
  have hsame : Stable (Step servers) (· = s) :=
    fun t t' hstep ht => absurd (ht ▸ hphase) hstep.not_absent
  have hconcluded : Stable (Step servers) (· = s.conclude .missing) :=
    fun t t' hstep ht => absurd (ht ▸ hphase) hstep.not_absent
  have hyes : ∀ t, t = s → t.executable = true → False := by
    rintro t rfl htest
    cases htest.symm.trans hexecutable
  have hact : Triple (Step servers) (· = s) (act (.conclude .missing)) (· = s.conclude .missing) :=
    .act hsame hconcluded fun t ht => by rw [ht]
  exact Triple.ite hsame hconcluded hyes (fun t ht _ => ht) (fun _ _ hfalse _ => hfalse.elim) hact
    s s' rfl h

theorem startBackendResponder_spec :
    Triple (Step servers) (fun s => Begins s ∧ s.executable = true) (startBackendResponder pid)
      fun s => Decided pid s ∧ s.outcome ≠ none := by
  have hbegins : Stable (Step servers) fun s => Begins s ∧ s.executable = true :=
    fun s s' hstep h => absurd h.1.1 hstep.not_absent
  have hcleared : Stable (Step servers) fun s => Begins s ∧ s.ready = none :=
    fun s s' hstep h => absurd h.1.1 hstep.not_absent
  have hundecided : Stable (Step servers) (Undecided pid []) := stable_undecided
  have hdecided : Stable (Step servers) (Decided pid) := stable_decided
  have hend : Stable (Step servers) fun s => Decided pid s ∧ s.outcome ≠ none :=
    fun s s' hstep h => ⟨hdecided s s' hstep h.1, hstep.outcome ▸ h.2⟩
  have hno : ∀ s, Begins s ∧ s.executable = true → s.executable = false → False := by
    rintro s ⟨-, hexecutable⟩ htest
    cases htest.symm.trans hexecutable
  refine .ite hbegins hend (fun s hs _ => hs) hno ?_ (fun _ _ hfalse _ => hfalse.elim)
  refine .seq hbegins hend (.act hbegins hcleared fun s hs => ⟨hs.1, rfl⟩) ?_
  refine .seq hcleared hend (.act hcleared hundecided fun s hs => ?_) ?_
  · obtain ⟨⟨-, houtcome, hpids, hreadings⟩, hready⟩ := hs
    refine ⟨⟨⟨rfl, hready⟩, fun h => ?_⟩, houtcome, ?_, hreadings⟩
    · cases h
    · simp [Handshake.launch, hpids]
  · refine .seq hundecided hend (.upTo hundecided hdecided poll_spec (fun s hs htest => ?_)
      (fun s hs => hs.decided) 100) ?_
    · exact hs.undecided (by simpa using htest)
    · exact .ite hdecided hend (fun s hs htest => ⟨hs, Option.isSome_iff_ne_none.mp htest⟩)
        (fun s hs htest => hs.undecided (by simpa using htest)) (.skip hend)
        (.act hundecided hend fun s hs =>
          ⟨hs.conclude hs.backendPids, by simp [Handshake.conclude]⟩)

end Handshake

/-- However the responder and the script are interleaved, and whatever
step of the responder fails: the ready file is complete if it is there;
the script succeeds only after it has read each line in the complete
file, and then all servers listen, or something has ended the responder
since; without such an end the file is never found to be invalid; and an
early exit is reported of a responder that has ended and has no listener
left. -/
theorem start_backend_responder {pid : Nat} {s t : Handshake} (hs : Begins s)
    (h : Exec (Step servers) (startBackendResponder pid) s t) :
    (s.executable = false → t = s.conclude .missing)
    ∧ (s.executable = true →
      (∀ content, t.ready = some content →
        content = "http=6501\nfastcgi=6502\nscgi=6503\n".toList)
      ∧ (t.outcome = some .ready ∧ t.backendPids = [pid]
          ∧ t.readings = servers.map (fun server => ⟨readyLine server, some (payload servers)⟩)
          ∧ (t.listening = 3 ∧ t.ready ≠ none ∨ Ending t)
        ∨ t.outcome = some .invalid ∧ t.backendPids = [pid]
          ∧ (∃ reading ∈ t.readings, reading.content = none) ∧ Ending t
        ∨ t.outcome = some .exited ∧ t.backendPids = [] ∧ t.phase.Ended ∧ t.listening = 0
        ∨ t.outcome = some .late ∧ t.backendPids = [pid])
      ∧ (t.phase = .exited → t.troubled = false → t.ready = none)) := by
  refine ⟨fun hexecutable => startBackendResponder_missing hs.1 hexecutable h,
    fun hexecutable => ?_⟩
  obtain ⟨⟨hlaunched, hconcluded⟩, houtcome⟩ := startBackendResponder_spec s t ⟨hs, hexecutable⟩ h
  refine ⟨fun content hcontent => ?_, ?_, fun hphase htroubled => ?_⟩
  · rcases hlaunched.inv.ready with hready | hready
    · rw [hready] at hcontent
      cases hcontent
    · rw [hready] at hcontent
      exact (Option.some.inj hcontent).symm
  · unfold Concluded at hconcluded
    cases heq : t.outcome with
    | none => exact absurd heq houtcome
    | some outcome =>
        rw [heq] at hconcluded
        cases outcome with
        | missing => exact hconcluded.elim
        | ready =>
            obtain ⟨hpids, hreadings, hup⟩ := hconcluded
            refine .inl ⟨rfl, hpids, hreadings, hup.imp_left fun hup => ⟨hup.listening, ?_⟩⟩
            simp [hup.ready]
        | invalid => exact .inr (.inl ⟨rfl, hconcluded⟩)
        | exited =>
            exact .inr (.inr (.inl
              ⟨rfl, hconcluded.1, hconcluded.2, hlaunched.inv.ended hconcluded.2⟩))
        | late => exact .inr (.inr (.inr ⟨rfl, hconcluded⟩))
  · have hinv := hlaunched.inv
    simp only [Inv, hphase] at hinv
    rcases hinv.2 with hready | ⟨-, htrouble⟩
    · exact hready
    · rw [htroubled] at htrouble
      cases htrouble

/-! ## A start -/

def demoAbsent : Handshake :=
  ⟨true, .absent, 0, none, some [], false, false, false, [], [], none⟩

/-- The responder is up before the script looks. -/
def demoUp : Handshake :=
  ⟨true, .announcing, 3, none, some (payload servers), false, false, false, [7], [], none⟩

theorem demo_starts {t : Handshake} (c : Script Handshake) (h : Exec (Step servers) c demoUp t) :
    Exec (Step servers) c (demoAbsent.removeReady.launch 7) t := by
  refine .before (.startServer (k := 0) rfl (by decide)) ?_
  refine .before (.startServer (k := 1) rfl (by decide)) ?_
  refine .before (.startServer (k := 2) rfl (by decide)) ?_
  refine .before (.allStarted rfl) (.before (.openTemporary rfl rfl) ?_)
  have hwrite : [] ++ payload servers <+: payload servers := List.prefix_refl _
  refine .before (.write rfl rfl hwrite) ?_
  exact .before (.allWritten rfl rfl) (.before (.link rfl rfl rfl) (.before (.unlink rfl) h))

theorem start_backend_responder_demo :
    ∃ t, Exec (Step servers) (startBackendResponder 7) demoAbsent t ∧ t.outcome = some .ready
      ∧ (∀ content, t.ready = some content →
        content = "http=6501\nfastcgi=6502\nscgi=6503\n".toList)
      ∧ (t.outcome = some .ready ∧ t.backendPids = [7]
          ∧ t.readings = servers.map (fun server => ⟨readyLine server, some (payload servers)⟩)
          ∧ (t.listening = 3 ∧ t.ready ≠ none ∨ Ending t)
        ∨ t.outcome = some .invalid ∧ t.backendPids = [7]
          ∧ (∃ reading ∈ t.readings, reading.content = none) ∧ Ending t
        ∨ t.outcome = some .exited ∧ t.backendPids = [] ∧ t.phase.Ended ∧ t.listening = 0
        ∨ t.outcome = some .late ∧ t.backendPids = [7])
      ∧ (t.phase = .exited → t.troubled = false → t.ready = none) := by
  have hexec : Exec (Step servers) (startBackendResponder 7) demoAbsent
      ({ demoUp with readings := servers.map readingOf }.conclude .ready) :=
    .iteTrue rfl (.seq .act (.seq .act (demo_starts _ (exec_of_run rfl))))
  exact ⟨_, hexec, rfl, (start_backend_responder ⟨rfl, rfl, rfl, rfl⟩ hexec).2 rfl⟩

end LighttpdFuzz.ReadyFile
