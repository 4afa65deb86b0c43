import LighttpdFuzz.ActiveProfiles
import LighttpdFuzz.CampaignStop

/-!
# Stopping all campaigns of a checkout

`run.sh --stop` goes through the processes, notes the ids of those that
look like a supervisor of this checkout, asks them to end, and waits until
none of them is left. It reads the executable, the directory and the
arguments of a process one after the other, while processes end, start,
and take over ids (`Others`).

A process is an id and a time of birth. If the script succeeds, each
supervisor that was there when it began has ended. Whoever is asked to
end is not the script itself, and its id has been that of a shell and of a
process with the arguments of a supervisor: `promise` is whatever holds of
an id throughout (`stop_campaigns_spec`).
-/

namespace LighttpdFuzz

open Script

/-! ## Processes -/

/-- What can be read about a process below `/proc`. -/
structure ProcessEntry where
  birth : Nat
  /-- Whether the user may signal and inspect it. -/
  owned : Bool
  zombie : Bool
  exe : Text
  cwd : Text
  cmdline : Text

/-- The processes, and the variables of the script. -/
structure Stopper where
  /-- All processes were born before. -/
  clock : Nat
  table : Nat → Option ProcessEntry
  processExe : Text
  processCwd : Text
  supervisors : List Nat
  running : Bool
  stdout : List Text
  stderr : List Text
  status : Nat
  /-- Which processes the signal has reached. -/
  terminated : List (Nat × Nat)

/-- The links of a process that has ended, or is not one's own, cannot be
read. -/
def ProcessEntry.readable (p : ProcessEntry) : Bool := p.owned && !p.zombie

/-- `$(readlink "/proc/$pid/..." 2>/dev/null || true)` -/
def Stopper.readlink (s : Stopper) (link : ProcessEntry → Text) (pid : Nat) : Text :=
  match s.table pid with
  | some p => if p.readable then captured (link p) else []
  | none => []

/-- The lines that a loop over `read` sees; the last one must be complete. -/
def readLines (line : Text) : Text → List Text
  | [] => []
  | c :: t => if c = '\n' then line :: readLines [] t else readLines (line ++ [c]) t

/-- `tr '\0' '\n'`, line by line -/
def ProcessEntry.args (p : ProcessEntry) : List Text :=
  readLines [] (p.cmdline.map fun c => if c.toNat = 0 then '\n' else c)

def bashName : Text := "bash".toList

/-- `[ "${process_exe##*/}" = bash ]` -/
def isBash (processExe : Text) : Bool := afterLast ['/'] processExe = bashName

/-- `"$directory/run.sh"` is among the arguments. -/
def ProcessEntry.namesScript (directory : Text) (p : ProcessEntry) : Bool :=
  p.args.any fun arg => arg = directory ++ "/run.sh".toList

/-- `./run.sh` or `run.sh` is among the arguments. -/
def ProcessEntry.namesRelative (p : ProcessEntry) : Bool :=
  p.args.any fun arg => arg = "./run.sh".toList ∨ arg = "run.sh".toList

/-! ## The script -/

namespace Stopper

def readExe (pid : Nat) (s : Stopper) : Stopper :=
  { s with processExe := s.readlink ProcessEntry.exe pid }

def readCwd (pid : Nat) (s : Stopper) : Stopper :=
  { s with processCwd := s.readlink ProcessEntry.cwd pid }

/-- The loop over the arguments. -/
def looksLikeSupervisor (directory : Text) (pid : Nat) (s : Stopper) : Bool :=
  match s.table pid with
  | none => false
  | some p => p.args.any fun arg =>
      arg = directory ++ "/run.sh".toList
        ∨ s.processCwd = directory ∧ (arg = "./run.sh".toList ∨ arg = "run.sh".toList)

def addSupervisor (pid : Nat) (s : Stopper) : Stopper :=
  { s with supervisors := s.supervisors ++ [pid] }

/-- `kill -0 "$pid"` -/
def reachable (s : Stopper) (pid : Nat) : Bool := (s.table pid).any ProcessEntry.owned

/-- `grep -q '^State:[[:space:]]*Z' "/proc/$pid/status"` -/
def isZombie (s : Stopper) (pid : Nat) : Bool := (s.table pid).any ProcessEntry.zombie

/-- `kill -TERM "$pid"` -/
def terminate (pid : Nat) (s : Stopper) : Stopper :=
  match s.table pid with
  | some p => if p.owned then { s with terminated := s.terminated ++ [(pid, p.birth)] } else s
  | none => s

def clearRunning (s : Stopper) : Stopper := { s with running := false }

def setRunning (s : Stopper) : Stopper := { s with running := true }

def say (line : Stopper → Text) (s : Stopper) : Stopper := { s with stdout := s.stdout ++ [line s] }

def overdueLine (pid : Nat) : Text :=
  "Campaign supervisor ".toList ++ Text.ofNat pid ++ " did not stop within 20 seconds.".toList

def reportOverdue (pid : Nat) (s : Stopper) : Stopper :=
  { s with stderr := s.stderr ++ [overdueLine pid], running := true }

def fail (s : Stopper) : Stopper := { s with status := 1 }

end Stopper

/-- `is_campaign_supervisor`, and what its caller does with the answer. -/
def considerProcess (shell : Nat) (directory : Text) (pid : Nat) : Script Stopper :=
  if pid = shell then skip
  else seq (act (.readExe pid)) (ite (fun s => isBash s.processExe)
    (seq (act (.readCwd pid)) (ite (·.looksLikeSupervisor directory pid)
      (act (.addSupervisor pid)) skip)) skip)

/-- `process_is_running`, and what its caller does with the answer. -/
def ifRunning (pid : Nat) (c : Script Stopper) : Script Stopper :=
  ite (·.reachable pid) (ite (·.isZombie pid) skip c) skip

/-- A loop over `supervisors`, which are some of the entries, in order. -/
def forSupervisors (entries : List Nat) (body : Nat → Script Stopper) : Script Stopper :=
  forEach entries fun pid => ite (·.supervisors.contains pid) (body pid) skip

/-- One round of waiting. -/
def pollSupervisors (entries : List Nat) : Script Stopper :=
  seq (act .clearRunning) (forSupervisors entries fun pid => ifRunning pid (act .setRunning))

/-- The last round, which names who is left. -/
def reportSupervisors (entries : List Nat) : Script Stopper :=
  seq (act .clearRunning)
    (forSupervisors entries fun pid => ifRunning pid (act (.reportOverdue pid)))

def countLine (before : String) (after : Text) (s : Stopper) : Text :=
  before.toList ++ Text.ofNat s.supervisors.length ++ " campaign supervisor(s)".toList ++ after

/-- `Stopping N campaign supervisor(s): ...` -/
def stoppingLine (s : Stopper) : Text :=
  countLine "Stopping " (": ".toList ++ Text.join [' '] (s.supervisors.map Text.ofNat)) s

/-- `stop_campaigns`, once `/proc/[0-9]*` has been expanded to `entries`. -/
def stopCampaigns (shell : Nat) (directory : Text) (entries : List Nat) : Script Stopper :=
  seq (forEach entries (considerProcess shell directory))
    (ite (fun s => s.supervisors.isEmpty)
      (act (.say fun _ => "No running campaigns found.".toList))
      (seq (act (.say stoppingLine))
      (seq (forSupervisors entries fun pid => act (.terminate pid))
      (seq (upTo 200 (pollSupervisors entries) fun s => !s.running)
      (seq (reportSupervisors entries)
        (ite (·.running) (act .fail) (act (.say (countLine "Stopped " ['.'])))))))))

/-! ## The other processes -/

/-- A process that had been born has ended, or is a zombie. -/
def Ended (pid birth : Nat) (s : Stopper) : Prop :=
  birth < s.clock ∧ ∀ p, s.table pid = some p → p.birth = birth → p.zombie = true

/-- The processes are consistent, and as they are promised to be. -/
structure Known (promise : Nat → Option ProcessEntry → Prop) (s : Stopper) : Prop where
  born : ∀ pid p, s.table pid = some p → p.birth < s.clock
  promised : ∀ pid, promise pid (s.table pid)

/-- Processes change, end, and are born; of each id `promise` keeps
holding. The variables belong to the script. -/
structure Others (promise : Nat → Option ProcessEntry → Prop) (s s' : Stopper) : Prop where
  locals : s' = { s with clock := s'.clock, table := s'.table }
  clock : s.clock ≤ s'.clock
  known : Known promise s'
  same : ∀ pid p', s'.table pid = some p' → p'.birth < s.clock →
    ∃ p, s.table pid = some p ∧ p.birth = p'.birth ∧ (p.zombie = true → p'.zombie = true)

section Stability

variable {promise : Nat → Option ProcessEntry → Prop} {pid birth : Nat}

theorem stable_known : Stable (Others promise) (Known promise) := fun _ _ hrely _ => hrely.known

theorem stable_born : Stable (Others promise) fun s => birth < s.clock :=
  fun _ _ hrely h => Nat.lt_of_lt_of_le h hrely.clock

theorem stable_ended : Stable (Others promise) (Ended pid birth) := by
  rintro s s' hrely ⟨hborn, hended⟩
  refine ⟨stable_born s s' hrely hborn, fun p' hp' hbirth => ?_⟩
  obtain ⟨p, hp, hsame, hzombie⟩ := hrely.same pid p' hp' (by omega)
  exact hzombie (hended p hp (hsame.trans hbirth))

theorem stable_locals {p : Stopper → Prop}
    (h : ∀ s clock table, p s → p { s with clock := clock, table := table }) :
    Stable (Others promise) p := by
  intro s s' hrely hs
  rw [hrely.locals]
  exact h s _ _ hs

end Stability

/-- An action that leaves the processes alone, forgets no supervisor, and
takes no signal back. -/
structure Mild (f : Stopper → Stopper) : Prop where
  clock : ∀ s, (f s).clock = s.clock
  table : ∀ s, (f s).table = s.table
  supervisors : ∀ s, s.supervisors ⊆ (f s).supervisors
  terminated : ∀ s, s.terminated ⊆ (f s).terminated

def MildScript (c : Script Stopper) : Prop := ∀ f, c.IsAction f → Mild f

/-- What no mild action and no other process breaks. -/
structure Lasting (promise : Nat → Option ProcessEntry → Prop) (p : Stopper → Prop) : Prop where
  stable : Stable (Others promise) p
  mild : ∀ f, Mild f → ∀ s, p s → p (f s)

theorem Lasting.keeps {promise : Nat → Option ProcessEntry → Prop} {p : Stopper → Prop}
    (h : Lasting promise p) {c : Script Stopper} (hc : MildScript c) :
    Triple (Others promise) p c p :=
  .keeps h.stable fun f hf => h.mild f (hc f hf)

section Lasting

variable {promise : Nat → Option ProcessEntry → Prop} {pid birth : Nat}

theorem lasting_known : Lasting promise (Known promise) where
  stable := stable_known
  mild f hf s hs := by
    refine ⟨?_, ?_⟩
    · rw [hf.clock, hf.table]
      exact hs.born
    · rw [hf.table]
      exact hs.promised

theorem Mild.ended {f : Stopper → Stopper} (hf : Mild f) {s : Stopper} (hs : Ended pid birth s) :
    Ended pid birth (f s) := by
  unfold Ended
  rw [hf.clock, hf.table]
  exact hs

theorem lasting_ended : Lasting promise (Ended pid birth) where
  stable := stable_ended
  mild _ hf _ hs := hf.ended hs

theorem lasting_born : Lasting promise fun s => birth < s.clock where
  stable := stable_born
  mild f hf s hs := by
    rw [hf.clock]
    exact hs

theorem lasting_mem : Lasting promise fun s => pid ∈ s.supervisors where
  stable := stable_locals fun _ _ _ hs => hs
  mild _ hf s hs := hf.supervisors s hs

theorem lasting_signalled : Lasting promise fun s => (pid, birth) ∈ s.terminated where
  stable := stable_locals fun _ _ _ hs => hs
  mild _ hf s hs := hf.terminated s hs

theorem Lasting.and {p q : Stopper → Prop} (hp : Lasting promise p) (hq : Lasting promise q) :
    Lasting promise fun s => p s ∧ q s where
  stable := hp.stable.and hq.stable
  mild f hf s hs := ⟨hp.mild f hf s hs.1, hq.mild f hf s hs.2⟩

theorem Lasting.or {p q : Stopper → Prop} (hp : Lasting promise p) (hq : Lasting promise q) :
    Lasting promise fun s => p s ∨ q s where
  stable := hp.stable.or hq.stable
  mild f hf s hs := hs.imp (hp.mild f hf s) (hq.mild f hf s)

end Lasting

/-! ## The actions -/

theorem mild_readExe (pid : Nat) : Mild (.readExe pid) :=
  ⟨fun _ => rfl, fun _ => rfl, fun _ => List.Subset.refl _, fun _ => List.Subset.refl _⟩

theorem mild_readCwd (pid : Nat) : Mild (.readCwd pid) :=
  ⟨fun _ => rfl, fun _ => rfl, fun _ => List.Subset.refl _, fun _ => List.Subset.refl _⟩

theorem mild_addSupervisor (pid : Nat) : Mild (.addSupervisor pid) :=
  ⟨fun _ => rfl, fun _ => rfl, fun _ => List.subset_append_left _ _, fun _ => List.Subset.refl _⟩

theorem mild_terminate (pid : Nat) : Mild (.terminate pid) := by
  have hcases : ∀ s : Stopper, s.terminate pid = s ∨
      ∃ x, s.terminate pid = { s with terminated := s.terminated ++ [x] } := by
    intro s
    unfold Stopper.terminate
    split
    · split
      · exact .inr ⟨_, rfl⟩
      · exact .inl rfl
    · exact .inl rfl
  constructor <;> intro s <;> rcases hcases s with heq | ⟨x, heq⟩ <;> rw [heq]
  · exact List.Subset.refl _
  · exact List.Subset.refl _
  · exact List.Subset.refl _
  · exact List.subset_append_left _ _

theorem mild_clearRunning : Mild .clearRunning :=
  ⟨fun _ => rfl, fun _ => rfl, fun _ => List.Subset.refl _, fun _ => List.Subset.refl _⟩

theorem mild_setRunning : Mild .setRunning :=
  ⟨fun _ => rfl, fun _ => rfl, fun _ => List.Subset.refl _, fun _ => List.Subset.refl _⟩

theorem mild_reportOverdue (pid : Nat) : Mild (.reportOverdue pid) :=
  ⟨fun _ => rfl, fun _ => rfl, fun _ => List.Subset.refl _, fun _ => List.Subset.refl _⟩

theorem mild_say (line : Stopper → Text) : Mild (.say line) :=
  ⟨fun _ => rfl, fun _ => rfl, fun _ => List.Subset.refl _, fun _ => List.Subset.refl _⟩

theorem mild_fail : Mild .fail :=
  ⟨fun _ => rfl, fun _ => rfl, fun _ => List.Subset.refl _, fun _ => List.Subset.refl _⟩

theorem mildScript_act {f : Stopper → Stopper} (h : Mild f) : MildScript (act f) := by
  rintro g rfl
  exact h

theorem mildScript_forSupervisors {entries : List Nat} {body : Nat → Script Stopper}
    (h : ∀ pid ∈ entries, MildScript (body pid)) : MildScript (forSupervisors entries body) := by
  intro f hf
  obtain ⟨pid, hpid, hf⟩ := isAction_forEach.mp hf
  rcases hf with hf | hf
  · exact h pid hpid f hf
  · exact hf.elim

theorem mildScript_ifRunning {pid : Nat} {c : Script Stopper} (h : MildScript c) :
    MildScript (ifRunning pid c) := by
  rintro f ((hf | hf) | hf)
  · exact hf.elim
  · exact h f hf
  · exact hf.elim

theorem mildScript_considerProcess (shell : Nat) (directory : Text) (pid : Nat) :
    MildScript (considerProcess shell directory pid) := by
  unfold considerProcess
  split
  · exact fun _ hf => hf.elim
  · rintro f (rfl | (rfl | (rfl | hf)) | hf)
    · exact mild_readExe pid
    · exact mild_readCwd pid
    · exact mild_addSupervisor pid
    · exact hf.elim
    · exact hf.elim

/-! ## A supervisor is found and asked -/

/-- The process is known to look like a supervisor while it runs. -/
structure Recognised (promise : Nat → Option ProcessEntry → Prop) (directory : Text)
    (pid birth : Nat) : Prop where
  bash : ∀ p, promise pid (some p) → p.birth = birth → p.zombie = false →
    p.owned = true ∧ isBash (captured p.exe) = true
  script : (∀ p, promise pid (some p) → p.birth = birth → p.zombie = false →
      p.namesScript directory = true) ∨
    ∀ p, promise pid (some p) → p.birth = birth → p.zombie = false →
      captured p.cwd = directory ∧ p.namesRelative = true

section Found

variable {promise : Nat → Option ProcessEntry → Prop} {shell : Nat} {directory : Text}
  {pid birth : Nat} {entries : List Nat}

/-- The processes are known, and this one was there. -/
def Watched (promise : Nat → Option ProcessEntry → Prop) (birth : Nat) (s : Stopper) : Prop :=
  Known promise s ∧ birth < s.clock

theorem lasting_watched : Lasting promise (Watched promise birth) := lasting_known.and lasting_born

theorem ended_or (pid : Nat) {s : Stopper} (h : Watched promise birth s) :
    Ended pid birth s ∨ ∃ p, s.table pid = some p ∧ promise pid (some p) ∧ p.birth = birth
      ∧ p.zombie = false := by
  by_cases halive : ∃ p, s.table pid = some p ∧ p.birth = birth ∧ p.zombie = false
  · obtain ⟨p, hp, hbirth, hzombie⟩ := halive
    exact .inr ⟨p, hp, hp ▸ h.1.promised pid, hbirth, hzombie⟩
  · refine .inl ⟨h.2, fun p hp hbirth => ?_⟩
    by_contra hzombie
    exact halive ⟨p, hp, hbirth, Bool.not_eq_true _ ▸ hzombie⟩

/-- It has ended, or it is on the list. -/
def Listed (pid birth : Nat) (s : Stopper) : Prop := Ended pid birth s ∨ pid ∈ s.supervisors

theorem lasting_listed : Lasting promise (Listed pid birth) := lasting_ended.or lasting_mem

theorem readExe_spec (h : Recognised promise directory pid birth) :
    Triple (Others promise) (Watched promise birth) (act (.readExe pid)) fun s =>
      Watched promise birth s ∧ (Ended pid birth s ∨ isBash s.processExe = true) := by
  have hbash : Stable (Others promise) fun s => isBash s.processExe = true :=
    stable_locals fun _ _ _ hs => hs
  refine .act lasting_watched.stable (lasting_watched.stable.and (stable_ended.or hbash))
    fun s hs => ⟨lasting_watched.mild _ (mild_readExe pid) s hs, ?_⟩
  rcases ended_or pid hs with hended | ⟨p, hp, hpromise, hbirth, hzombie⟩
  · exact .inl ((mild_readExe pid).ended hended)
  · obtain ⟨howned, hexe⟩ := h.bash p hpromise hbirth hzombie
    refine .inr ?_
    simp only [Stopper.readExe, Stopper.readlink, hp, ProcessEntry.readable, howned, hzombie,
      Bool.not_false, Bool.and_true, if_true]
    exact hexe

/-- What `processCwd` is for. -/
def CwdRead (promise : Nat → Option ProcessEntry → Prop) (directory : Text) (pid birth : Nat)
    (s : Stopper) : Prop :=
  (∀ p, promise pid (some p) → p.birth = birth → p.zombie = false →
    p.namesScript directory = true) ∨
  s.processCwd = directory ∧ ∀ p, promise pid (some p) → p.birth = birth → p.zombie = false →
    p.namesRelative = true

theorem readCwd_spec (h : Recognised promise directory pid birth) :
    Triple (Others promise) (Watched promise birth) (act (.readCwd pid)) fun s =>
      Watched promise birth s ∧ (Ended pid birth s ∨ CwdRead promise directory pid birth s) := by
  have hcwd : Stable (Others promise) (CwdRead promise directory pid birth) :=
    stable_locals fun _ _ _ hs => hs
  refine .act lasting_watched.stable (lasting_watched.stable.and (stable_ended.or hcwd))
    fun s hs => ⟨lasting_watched.mild _ (mild_readCwd pid) s hs, ?_⟩
  rcases ended_or pid hs with hended | ⟨p, hp, hpromise, hbirth, hzombie⟩
  · exact .inl ((mild_readCwd pid).ended hended)
  · rcases h.script with hnames | hrelative
    · exact .inr (.inl hnames)
    · refine .inr (.inr ⟨?_, fun q hq hqbirth hqzombie => (hrelative q hq hqbirth hqzombie).2⟩)
      obtain ⟨howned, -⟩ := h.bash p hpromise hbirth hzombie
      simp only [Stopper.readCwd, Stopper.readlink, hp, ProcessEntry.readable, howned, hzombie,
        Bool.not_false, Bool.and_true, if_true]
      exact (hrelative p hpromise hbirth hzombie).1

theorem looksLikeSupervisor_of_cwdRead {s : Stopper} {p : ProcessEntry}
    (hp : s.table pid = some p) (hpromise : promise pid (some p)) (hbirth : p.birth = birth)
    (hzombie : p.zombie = false) (h : CwdRead promise directory pid birth s) :
    s.looksLikeSupervisor directory pid = true := by
  unfold Stopper.looksLikeSupervisor
  simp only [hp]
  rw [List.any_eq_true]
  rcases h with hnames | ⟨hcwd, hrelative⟩
  · obtain ⟨arg, harg, heq⟩ := List.any_eq_true.mp (hnames p hpromise hbirth hzombie)
    exact ⟨arg, harg, decide_eq_true (.inl (of_decide_eq_true heq))⟩
  · obtain ⟨arg, harg, heq⟩ := List.any_eq_true.mp (hrelative p hpromise hbirth hzombie)
    exact ⟨arg, harg, decide_eq_true (.inr ⟨hcwd, of_decide_eq_true heq⟩)⟩

/-- The links and the arguments are read at three moments; at each of them
the process looks like a supervisor, or has ended. -/
theorem considerProcess_spec (h : Recognised promise directory pid birth) (hself : pid ≠ shell) :
    Triple (Others promise) (Watched promise birth) (considerProcess shell directory pid) fun s =>
      Watched promise birth s ∧ Listed pid birth s := by
  have hwatched : Stable (Others promise) (Watched promise birth) := lasting_watched.stable
  have hlisted : Stable (Others promise) (Listed pid birth) := lasting_listed.stable
  have hpost := hwatched.and hlisted
  have hskip : Triple (Others promise) (fun s => Watched promise birth s ∧ Ended pid birth s) skip
      fun s => Watched promise birth s ∧ Listed pid birth s :=
    (Triple.skip (hwatched.and stable_ended)).weaken (fun _ hs => hs)
      fun _ hs => ⟨hs.1, .inl hs.2⟩
  have hadd : Triple (Others promise) (Watched promise birth) (act (.addSupervisor pid)) fun s =>
      Watched promise birth s ∧ Listed pid birth s :=
    .act hwatched hpost fun s hs => ⟨lasting_watched.mild _ (mild_addSupervisor pid) s hs,
      .inr (List.mem_append_right _ (List.mem_singleton_self pid))⟩
  unfold considerProcess
  rw [if_neg hself]
  refine .seq hwatched hpost (readExe_spec h) (.ite ?_ hpost (fun s hs _ => hs.1) ?_
    (.seq hwatched hpost (readCwd_spec h) (.ite ?_ hpost (fun s hs _ => hs.1) ?_ hadd hskip)) hskip)
  · exact hwatched.and (stable_ended.or (stable_locals fun _ _ _ hs => hs))
  · rintro s ⟨hs, hended | hbash⟩ htest
    · exact ⟨hs, hended⟩
    · rw [hbash] at htest
      cases htest
  · exact hwatched.and (stable_ended.or (stable_locals fun _ _ _ hs => hs))
  · rintro s ⟨hs, hended | hcwd⟩ htest
    · exact ⟨hs, hended⟩
    · rcases ended_or pid hs with hended | ⟨p, hp, hpromise, hbirth, hzombie⟩
      · exact ⟨hs, hended⟩
      · rw [looksLikeSupervisor_of_cwdRead hp hpromise hbirth hzombie hcwd] at htest
        cases htest

/-- It has ended, or the signal has reached it. -/
def Asked (pid birth : Nat) (s : Stopper) : Prop :=
  Ended pid birth s ∨ (pid, birth) ∈ s.terminated

theorem lasting_asked : Lasting promise (Asked pid birth) := lasting_ended.or lasting_signalled

/-- It has ended, or the round has noticed that not everyone has. -/
def Noticed (pid birth : Nat) (s : Stopper) : Prop := s.running = true ∨ Ended pid birth s

theorem stable_noticed : Stable (Others promise) (Noticed pid birth) :=
  .or (stable_locals fun _ _ _ hs => hs) stable_ended

theorem scan_spec (h : Recognised promise directory pid birth) (hself : pid ≠ shell)
    (hpid : pid ∈ entries) :
    Triple (Others promise) (Watched promise birth)
      (forEach entries (considerProcess shell directory)) fun s =>
        Watched promise birth s ∧ Listed pid birth s :=
  .once lasting_watched.stable lasting_listed.stable hpid (considerProcess_spec h hself)
    (fun y _ => lasting_watched.keeps (mildScript_considerProcess shell directory y))
    fun y _ => (lasting_listed.keeps (mildScript_considerProcess shell directory y)).weaken
      (fun _ hs => hs.2) fun _ hs => hs

theorem terminate_spec (h : Recognised promise directory pid birth) :
    Triple (Others promise) (Watched promise birth) (act (.terminate pid)) fun s =>
      Asked pid birth s := by
  refine .act lasting_watched.stable lasting_asked.stable fun s hs => ?_
  rcases ended_or pid hs with hended | ⟨p, hp, hpromise, hbirth, hzombie⟩
  · exact .inl ((mild_terminate pid).ended hended)
  · obtain ⟨howned, -⟩ := h.bash p hpromise hbirth hzombie
    refine .inr ?_
    simp only [Stopper.terminate, hp, howned, if_true, hbirth]
    exact List.mem_append_right _ (List.mem_singleton_self _)

/-- A loop over the supervisors comes to the process, if it has been noted. -/
theorem forSupervisors_spec {q : Stopper → Prop} {body : Nat → Script Stopper}
    (hpid : pid ∈ entries) (hq : Stable (Others promise) q)
    (hended : ∀ s, Ended pid birth s → q s) (hmild : ∀ y ∈ entries, MildScript (body y))
    (hbody : Triple (Others promise) (Watched promise birth) (body pid) q)
    (hkeep : ∀ y ∈ entries, Triple (Others promise) q (body y) q) :
    Triple (Others promise) (fun s => Watched promise birth s ∧ Listed pid birth s)
      (forSupervisors entries body) fun s =>
        (Watched promise birth s ∧ Listed pid birth s) ∧ q s := by
  have hlasting : Lasting promise fun s => Watched promise birth s ∧ Listed pid birth s :=
    lasting_watched.and lasting_listed
  have hturn : ∀ y ∈ entries, MildScript (ite (·.supervisors.contains y) (body y) skip) := by
    rintro y hy f (hf | hf)
    · exact hmild y hy f hf
    · exact hf.elim
  refine .once hlasting.stable hq hpid ?_ (fun y hy => hlasting.keeps (hturn y hy)) fun y hy => ?_
  · have hboth : Triple (Others promise) (fun s => Watched promise birth s ∧ Listed pid birth s)
        (body pid) fun s => (Watched promise birth s ∧ Listed pid birth s) ∧ q s :=
      ((hlasting.keeps (hmild pid hpid)).and hbody).weaken (fun _ hs => ⟨hs, hs.1⟩) fun _ hs => hs
    refine .ite hlasting.stable (hlasting.stable.and hq) (fun _ hs _ => hs) ?_ hboth
      (.skip (hlasting.stable.and hq))
    rintro s ⟨hs, hended' | hlisted⟩ htest
    · exact ⟨⟨hs, .inl hended'⟩, hended s hended'⟩
    · rw [List.contains_iff_mem.mpr hlisted] at htest
      cases htest
  · exact .ite (hlasting.stable.and hq) hq (fun _ hs _ => hs.2) (fun _ hs _ => hs.2) (hkeep y hy)
      (.skip hq)

theorem ask_loop_spec (h : Recognised promise directory pid birth) (hpid : pid ∈ entries) :
    Triple (Others promise) (fun s => Watched promise birth s ∧ Listed pid birth s)
      (forSupervisors entries fun pid => act (.terminate pid)) fun s =>
        (Watched promise birth s ∧ Listed pid birth s) ∧ Asked pid birth s :=
  forSupervisors_spec hpid lasting_asked.stable (fun _ => .inl)
    (fun y _ => mildScript_act (mild_terminate y)) (terminate_spec h)
    fun y _ => lasting_asked.keeps (mildScript_act (mild_terminate y))

theorem noticed_reportOverdue (y : Nat) :
    Triple (Others promise) (Noticed pid birth) (ifRunning y (act (.reportOverdue y)))
      (Noticed pid birth) := by
  refine .keeps stable_noticed fun f hf s hs => ?_
  rcases hf with (hf | rfl) | hf
  · exact hf.elim
  · exact .inl rfl
  · exact hf.elim

theorem reportOverdue_spec (h : Recognised promise directory pid birth) :
    Triple (Others promise) (Watched promise birth) (ifRunning pid (act (.reportOverdue pid)))
      (Noticed pid birth) := by
  have hwatched : Stable (Others promise) (Watched promise birth) := lasting_watched.stable
  have hskip : Triple (Others promise) (Noticed pid birth) skip (Noticed pid birth) :=
    .skip stable_noticed
  have hreport : Triple (Others promise) (Watched promise birth) (act (.reportOverdue pid))
      (Noticed pid birth) := .act hwatched stable_noticed fun _ _ => .inl rfl
  refine .ite hwatched stable_noticed (fun _ hs _ => hs) ?_
    (.ite hwatched stable_noticed ?_ (fun _ hs _ => hs) hskip hreport) hskip
  · intro s hs htest
    rcases ended_or pid hs with hended | ⟨p, hp, hpromise, hbirth, hzombie⟩
    · exact .inr hended
    · obtain ⟨howned, -⟩ := h.bash p hpromise hbirth hzombie
      rw [Stopper.reachable, hp] at htest
      rw [Option.any_some, howned] at htest
      cases htest
  · intro s hs htest
    refine .inr ⟨hs.2, fun p hp _ => ?_⟩
    rw [Stopper.isZombie, hp] at htest
    exact htest

theorem reportSupervisors_spec (h : Recognised promise directory pid birth)
    (hpid : pid ∈ entries) :
    Triple (Others promise) (fun s => Watched promise birth s ∧ Listed pid birth s)
      (reportSupervisors entries) fun s =>
        (Watched promise birth s ∧ Listed pid birth s) ∧ Noticed pid birth s := by
  have hlasting : Lasting promise fun s => Watched promise birth s ∧ Listed pid birth s :=
    lasting_watched.and lasting_listed
  exact .seq hlasting.stable (hlasting.stable.and stable_noticed)
    (hlasting.keeps (mildScript_act mild_clearRunning))
    (forSupervisors_spec hpid stable_noticed (fun _ => .inr)
      (fun y _ => mildScript_ifRunning (mildScript_act (mild_reportOverdue y)))
      (reportOverdue_spec h) fun y _ => noticed_reportOverdue y)

theorem mildScript_pollSupervisors : MildScript (pollSupervisors entries) := by
  rintro f (rfl | hf)
  · exact mild_clearRunning
  · exact mildScript_forSupervisors
      (fun y _ => mildScript_ifRunning (mildScript_act mild_setRunning)) f hf

theorem mildScript_reportSupervisors : MildScript (reportSupervisors entries) := by
  rintro f (rfl | hf)
  · exact mild_clearRunning
  · exact mildScript_forSupervisors
      (fun y _ => mildScript_ifRunning (mildScript_act (mild_reportOverdue y))) f hf

/-- What becomes of a supervisor that was there at the beginning. -/
theorem stopCampaigns_ended (h : Recognised promise directory pid birth) (hself : pid ≠ shell)
    (hpid : pid ∈ entries) :
    Triple (Others promise) (Watched promise birth) (stopCampaigns shell directory entries)
      fun s => (s.status = 0 → Ended pid birth s) ∧ Asked pid birth s := by
  have hlisted : Lasting promise fun s => Watched promise birth s ∧ Listed pid birth s :=
    lasting_watched.and lasting_listed
  have hasked : Lasting promise fun s =>
      (Watched promise birth s ∧ Listed pid birth s) ∧ Asked pid birth s :=
    hlisted.and lasting_asked
  have hasked' : Lasting promise (Asked pid birth) := lasting_asked
  have hpost : Stable (Others promise) fun s =>
      (s.status = 0 → Ended pid birth s) ∧ Asked pid birth s := by
    refine .and (fun s s' hrely hs hzero => ?_) lasting_asked.stable
    rw [hrely.locals] at hzero
    exact stable_ended s s' hrely (hs hzero)
  have hend : ∀ line, Triple (Others promise) (Ended pid birth) (act (.say line)) fun s =>
      (s.status = 0 → Ended pid birth s) ∧ Asked pid birth s := fun line =>
    .act stable_ended hpost fun s hs => ⟨fun _ => (mild_say line).ended hs,
      .inl ((mild_say line).ended hs)⟩
  have hfail : Triple (Others promise) (Asked pid birth) (act .fail) fun s =>
      (s.status = 0 → Ended pid birth s) ∧ Asked pid birth s :=
    .act lasting_asked.stable hpost fun s hs => by
      refine ⟨fun hzero => ?_, hasked'.mild _ mild_fail s hs⟩
      cases hzero
  have hreport : Triple (Others promise) (fun s =>
      (Watched promise birth s ∧ Listed pid birth s) ∧ Asked pid birth s)
      (reportSupervisors entries) fun s => Noticed pid birth s ∧ Asked pid birth s :=
    ((reportSupervisors_spec h hpid).and (lasting_asked.keeps mildScript_reportSupervisors)).weaken
      (fun _ hs => hs) fun _ hs => ⟨hs.1.2, hs.2⟩
  have hpoll : MildScript (upTo 200 (pollSupervisors entries) fun s => !s.running) :=
    fun f hf => mildScript_pollSupervisors f (isAction_upTo hf)
  refine .seq lasting_watched.stable hpost (scan_spec h hself hpid)
    (.ite hlisted.stable hpost ?_ (fun _ hs _ => hs) (hend _)
      (.seq hlisted.stable hpost (hlisted.keeps (mildScript_act (mild_say _)))
      (.seq hlisted.stable hpost (ask_loop_spec h hpid)
      (.seq hasked.stable hpost (hasked.keeps hpoll)
      (.seq hasked.stable hpost hreport
        (.ite (stable_noticed.and lasting_asked.stable) hpost (fun _ hs _ => hs.2) ?_
          hfail (hend _)))))))
  · rintro s ⟨-, hended | hlisted⟩ htest
    · exact hended
    · rw [List.isEmpty_iff.mp htest] at hlisted
      cases hlisted
  · rintro s ⟨hrunning | hended, -⟩ htest
    · rw [hrunning] at htest
      cases htest
    · exact hended

end Found

/-! ## Nobody else is asked -/

/-- At some moment each, the id may have been that of a shell, and of a
process with the arguments of a supervisor of this checkout. -/
structure Suspected (promise : Nat → Option ProcessEntry → Prop) (directory : Text) (pid : Nat) :
    Prop where
  bash : ∃ p, promise pid (some p) ∧ p.owned = true ∧ isBash (captured p.exe) = true
  script : (∃ p, promise pid (some p) ∧ p.namesScript directory = true) ∨
    (∃ p, promise pid (some p) ∧ captured p.cwd = directory) ∧
      ∃ p, promise pid (some p) ∧ p.namesRelative = true

/-- Only suspects are on the list, and only who is on the list was asked. -/
structure Careful (promise : Nat → Option ProcessEntry → Prop) (shell : Nat) (directory : Text)
    (s : Stopper) : Prop where
  suspected : ∀ pid ∈ s.supervisors, pid ≠ shell ∧ Suspected promise directory pid
  listed : ∀ x ∈ s.terminated, x.1 ∈ s.supervisors

section Careful

variable {promise : Nat → Option ProcessEntry → Prop} {shell : Nat} {directory : Text}
  {entries : List Nat}

theorem stable_careful : Stable (Others promise) (Careful promise shell directory) :=
  stable_locals fun _ _ _ hs => ⟨hs.suspected, hs.listed⟩

/-- While the processes are read, both hold. -/
theorem stable_scan : Stable (Others promise) fun s =>
    Known promise s ∧ Careful promise shell directory s :=
  stable_known.and stable_careful

theorem Stopper.readlink_eq {s : Stopper} {link : ProcessEntry → Text} {pid : Nat} {text : Text}
    (h : s.readlink link pid = text) (htext : text ≠ []) :
    ∃ p, s.table pid = some p ∧ p.owned = true ∧ captured (link p) = text := by
  unfold Stopper.readlink at h
  split at h
  · next p hp =>
      split at h
      · next hreadable => exact ⟨p, hp, (Bool.and_eq_true_iff.mp hreadable).1, h⟩
      · exact absurd h.symm htext
  · exact absurd h.symm htext

section Steps

variable {pid : Nat}

theorem readExe_careful :
    Triple (Others promise) (fun s => Known promise s ∧ Careful promise shell directory s)
      (act (.readExe pid)) fun s => (Known promise s ∧ Careful promise shell directory s) ∧
        (isBash s.processExe = true →
          ∃ p, promise pid (some p) ∧ p.owned = true ∧ isBash (captured p.exe) = true) := by
  refine .act stable_scan (stable_scan.and (stable_locals fun _ _ _ hs => hs)) fun s hs =>
    ⟨⟨lasting_known.mild _ (mild_readExe pid) s hs.1, hs.2.suspected, hs.2.listed⟩, fun hbash => ?_⟩
  have hne : s.readlink ProcessEntry.exe pid ≠ [] := by
    intro hnil
    rw [Stopper.readExe, hnil] at hbash
    cases hbash
  obtain ⟨p, hp, howned, heq⟩ := Stopper.readlink_eq rfl hne
  refine ⟨p, hp ▸ hs.1.promised pid, howned, ?_⟩
  rw [heq]
  exact hbash

theorem readCwd_careful (hdirectory : directory ≠ []) :
    Triple (Others promise) (fun s => Known promise s ∧ Careful promise shell directory s)
      (act (.readCwd pid)) fun s => (Known promise s ∧ Careful promise shell directory s) ∧
        (s.processCwd = directory → ∃ p, promise pid (some p) ∧ captured p.cwd = directory) := by
  refine .act stable_scan (stable_scan.and (stable_locals fun _ _ _ hs => hs)) fun s hs =>
    ⟨⟨lasting_known.mild _ (mild_readCwd pid) s hs.1, hs.2.suspected, hs.2.listed⟩, fun heq => ?_⟩
  obtain ⟨p, hp, -, hcwd⟩ := Stopper.readlink_eq heq hdirectory
  exact ⟨p, hp ▸ hs.1.promised pid, hcwd⟩

theorem addSupervisor_careful (hshell : pid ≠ shell)
    (hsuspected : Suspected promise directory pid) :
    Triple (Others promise) (fun s => Known promise s ∧ Careful promise shell directory s)
      (act (.addSupervisor pid)) fun s =>
        Known promise s ∧ Careful promise shell directory s := by
  refine .act stable_scan stable_scan fun s hs =>
    ⟨lasting_known.mild _ (mild_addSupervisor pid) s hs.1, fun y hy => ?_, fun x hx => ?_⟩
  · rcases List.mem_append.mp hy with hy | hy
    · exact hs.2.suspected y hy
    · rw [List.mem_singleton.mp hy]
      exact ⟨hshell, hsuspected⟩
  · exact List.mem_append_left _ (hs.2.listed x hx)

/-- What the test finds is true of the id for good. -/
theorem suspected_of_looksLikeSupervisor {s : Stopper} (hknown : Known promise s)
    (hbash : ∃ p, promise pid (some p) ∧ p.owned = true ∧ isBash (captured p.exe) = true)
    (hcwd : s.processCwd = directory → ∃ p, promise pid (some p) ∧ captured p.cwd = directory)
    (htest : s.looksLikeSupervisor directory pid = true) : Suspected promise directory pid := by
  refine ⟨hbash, ?_⟩
  unfold Stopper.looksLikeSupervisor at htest
  split at htest
  · cases htest
  · next p hp =>
      have hpromise : promise pid (some p) := hp ▸ hknown.promised pid
      obtain ⟨arg, harg, heq⟩ := List.any_eq_true.mp htest
      rcases of_decide_eq_true heq with heq | ⟨hdir, heq⟩
      · exact .inl ⟨p, hpromise, List.any_eq_true.mpr ⟨arg, harg, decide_eq_true heq⟩⟩
      · exact .inr ⟨hcwd hdir, p, hpromise, List.any_eq_true.mpr ⟨arg, harg, decide_eq_true heq⟩⟩

end Steps

theorem considerProcess_careful (hdirectory : directory ≠ []) (pid : Nat) :
    Triple (Others promise) (fun s => Known promise s ∧ Careful promise shell directory s)
      (considerProcess shell directory pid) fun s =>
        Known promise s ∧ Careful promise shell directory s := by
  unfold considerProcess
  split
  · exact .skip stable_scan
  next hshell =>
  have hlooks : (∃ p, promise pid (some p) ∧ p.owned = true ∧ isBash (captured p.exe) = true) →
      Triple (Others promise) (fun s => Known promise s ∧ Careful promise shell directory s)
        (seq (act (.readCwd pid)) (ite (·.looksLikeSupervisor directory pid)
          (act (.addSupervisor pid)) skip))
        fun s => Known promise s ∧ Careful promise shell directory s := by
    intro hbash
    refine .seq stable_scan stable_scan (readCwd_careful hdirectory)
      (.ite (stable_scan.and (stable_locals fun _ _ _ hs => hs)) stable_scan
        (fun s hs htest => ?_) (fun _ hs _ => hs.1)
        (.of_fact (addSupervisor_careful hshell)) (.skip stable_scan))
    exact ⟨hs.1, suspected_of_looksLikeSupervisor hs.1.1 hbash hs.2 htest⟩
  refine .seq stable_scan stable_scan readExe_careful
    (.ite (stable_scan.and (stable_locals fun _ _ _ hs => hs)) stable_scan
      (fun s hs htest => ⟨hs.1, hs.2 htest⟩) (fun _ hs _ => hs.1)
      (.of_fact hlooks) (.skip stable_scan))

/-- An action that changes neither list. -/
theorem careful_of_eq {f : Stopper → Stopper}
    (hsupervisors : ∀ s, (f s).supervisors = s.supervisors)
    (hterminated : ∀ s, (f s).terminated = s.terminated) {s : Stopper}
    (hs : Careful promise shell directory s) : Careful promise shell directory (f s) := by
  refine ⟨?_, ?_⟩
  · rw [hsupervisors]
    exact hs.suspected
  · rw [hsupervisors, hterminated]
    exact hs.listed

theorem terminate_careful :
    Triple (Others promise) (Careful promise shell directory)
      (forSupervisors entries fun pid => act (.terminate pid))
      (Careful promise shell directory) := by
  refine .forEach_keeps stable_careful fun pid _ => ?_
  have hmem : Stable (Others promise) fun s => Careful promise shell directory s
      ∧ pid ∈ s.supervisors := stable_careful.and (stable_locals fun _ _ _ hs => hs)
  have hterminate : Triple (Others promise) (fun s => Careful promise shell directory s
      ∧ pid ∈ s.supervisors) (act (.terminate pid)) (Careful promise shell directory) := by
    refine .act hmem stable_careful fun s hs => ?_
    unfold Stopper.terminate
    split
    · split
      · refine ⟨hs.1.suspected, fun x hx => ?_⟩
        rcases List.mem_append.mp hx with hx | hx
        · exact hs.1.listed x hx
        · rw [List.mem_singleton.mp hx]
          exact hs.2
      · exact hs.1
    · exact hs.1
  exact .ite stable_careful stable_careful
    (fun s hs htest => ⟨hs, List.contains_iff_mem.mp htest⟩) (fun _ hs _ => hs) hterminate
    (.skip stable_careful)

theorem stopCampaigns_careful (hdirectory : directory ≠ []) :
    Triple (Others promise) (fun s => Known promise s ∧ Careful promise shell directory s)
      (stopCampaigns shell directory entries) (Careful promise shell directory) := by
  have hscan : Triple (Others promise)
      (fun s => Known promise s ∧ Careful promise shell directory s)
      (forEach entries (considerProcess shell directory)) (Careful promise shell directory) :=
    (Triple.forEach_keeps stable_scan
      fun pid _ => considerProcess_careful hdirectory pid).weaken (fun _ hs => hs) fun _ hs => hs.2
  have hact : ∀ f : Stopper → Stopper, (∀ s, (f s).supervisors = s.supervisors) →
      (∀ s, (f s).terminated = s.terminated) → Triple (Others promise)
        (Careful promise shell directory) (act f) (Careful promise shell directory) :=
    fun f hsupervisors hterminated => .act stable_careful stable_careful
      fun _ => careful_of_eq hsupervisors hterminated
  have hloop : ∀ body : Nat → Script Stopper, (∀ pid, Triple (Others promise)
      (Careful promise shell directory) (body pid) (Careful promise shell directory)) →
      Triple (Others promise) (Careful promise shell directory)
        (forSupervisors entries fun pid => ifRunning pid (body pid))
        (Careful promise shell directory) := by
    intro body hbody
    refine .forEach_keeps stable_careful fun pid _ => ?_
    have hskip : Triple (Others promise) (Careful promise shell directory) skip
        (Careful promise shell directory) := .skip stable_careful
    exact .ite stable_careful stable_careful (fun _ hs _ => hs) (fun _ hs _ => hs)
      (.ite stable_careful stable_careful (fun _ hs _ => hs) (fun _ hs _ => hs)
        (.ite stable_careful stable_careful (fun _ hs _ => hs) (fun _ hs _ => hs) hskip
          (hbody pid)) hskip) hskip
  have hpoll : Triple (Others promise) (Careful promise shell directory)
      (pollSupervisors entries) (Careful promise shell directory) :=
    .seq stable_careful stable_careful (hact _ (fun _ => rfl) fun _ => rfl)
      (hloop _ fun _ => hact _ (fun _ => rfl) fun _ => rfl)
  have hreport : Triple (Others promise) (Careful promise shell directory)
      (reportSupervisors entries) (Careful promise shell directory) :=
    .seq stable_careful stable_careful (hact _ (fun _ => rfl) fun _ => rfl)
      (hloop _ fun _ => hact _ (fun _ => rfl) fun _ => rfl)
  refine .seq stable_scan stable_careful hscan
    (.ite stable_careful stable_careful (fun _ hs _ => hs) (fun _ hs _ => hs)
      (hact _ (fun _ => rfl) fun _ => rfl)
      (.seq stable_careful stable_careful (hact _ (fun _ => rfl) fun _ => rfl)
      (.seq stable_careful stable_careful terminate_careful
      (.seq stable_careful stable_careful
        (.upTo stable_careful stable_careful hpoll (fun _ hs _ => hs) (fun _ hs => hs) 200)
      (.seq stable_careful stable_careful hreport
        (.ite stable_careful stable_careful (fun _ hs _ => hs) (fun _ hs _ => hs)
          (hact _ (fun _ => rfl) fun _ => rfl) (hact _ (fun _ => rfl) fun _ => rfl)))))))

end Careful

/-- `--stop`, among other processes. Each supervisor that was there has been
asked to end or has ended, and if the script succeeds it has ended. Who was
asked is not the script, and a suspect. -/
theorem stop_campaigns_spec {promise : Nat → Option ProcessEntry → Prop} {shell : Nat}
    {directory : Text} {entries : List Nat} {s t : Stopper} (hknown : Known promise s)
    (hentries : ∀ pid p, s.table pid = some p → pid ∈ entries)
    (hdirectory : directory ≠ []) (hsupervisors : s.supervisors = [])
    (hterminated : s.terminated = [])
    (hexec : Exec (Others promise) (stopCampaigns shell directory entries) s t) :
    (∀ pid p, s.table pid = some p → pid ≠ shell →
      Recognised promise directory pid p.birth →
        (t.status = 0 → Ended pid p.birth t) ∧ Asked pid p.birth t) ∧
    ∀ x ∈ t.terminated, x.1 ≠ shell ∧ Suspected promise directory x.1 := by
  refine ⟨fun pid p hp hshell h => ?_, fun x hx => ?_⟩
  · exact stopCampaigns_ended h hshell (hentries pid p hp) s t ⟨hknown, hknown.born pid p hp⟩ hexec
  · have hempty : Careful promise shell directory s := by
      refine ⟨?_, ?_⟩
      · rw [hsupervisors]
        exact List.forall_mem_nil _
      · rw [hterminated]
        exact List.forall_mem_nil _
    have hcareful := stopCampaigns_careful hdirectory s t ⟨hknown, hempty⟩ hexec
    exact hcareful.suspected x.1 (hcareful.listed x hx)

/-! A run: the campaign of the checkout ends when it is asked to. -/

def demoSupervisor (birth : Nat) : ProcessEntry where
  birth := birth
  owned := true
  zombie := false
  exe := "/bin/bash".toList
  cwd := "/w".toList
  cmdline := "bash\x00./run.sh\x00".toList

/-- The campaign has the id 5, and 9 is the script. -/
def demoTable (campaign : Bool) : Nat → Option ProcessEntry
  | 5 => if campaign then some (demoSupervisor 1) else none
  | 9 => some (demoSupervisor 2)
  | _ => none

def demoPromise (pid : Nat) (entry : Option ProcessEntry) : Prop :=
  pid = 5 → ∀ p, entry = some p → p = demoSupervisor 1

def demoStopper (campaign : Bool) (supervisors : List Nat) (stdout : List Text)
    (terminated : List (Nat × Nat)) : Stopper where
  clock := 3
  table := demoTable campaign
  processExe := if supervisors = [] then [] else "/bin/bash".toList
  processCwd := if supervisors = [] then [] else "/w".toList
  supervisors := supervisors
  running := false
  stdout := stdout
  stderr := []
  status := 0
  terminated := terminated

def demoAnnounced : Text := "Stopping 1 campaign supervisor(s): 5".toList

theorem known_demo (campaign : Bool) (supervisors : List Nat) (stdout : List Text)
    (terminated : List (Nat × Nat)) :
    Known demoPromise (demoStopper campaign supervisors stdout terminated) := by
  have hcases : ∀ pid p, demoTable campaign pid = some p →
      pid = 5 ∧ p = demoSupervisor 1 ∨ pid = 9 ∧ p = demoSupervisor 2 := by
    intro pid p hp
    unfold demoTable at hp
    split at hp
    · split at hp
      · exact .inl ⟨rfl, (Option.some.inj hp).symm⟩
      · cases hp
    · exact .inr ⟨rfl, (Option.some.inj hp).symm⟩
    · cases hp
  constructor
  · intro pid p hp
    rcases hcases pid p hp with ⟨-, rfl⟩ | ⟨-, rfl⟩
    · change 1 < 3
      omega
    · change 2 < 3
      omega
  · intro pid hpid p hp
    rcases hcases pid p hp with ⟨-, heq⟩ | ⟨hnine, -⟩
    · exact heq
    · omega

theorem others_demo (supervisors : List Nat) (stdout : List Text) (terminated : List (Nat × Nat)) :
    Others demoPromise (demoStopper true supervisors stdout terminated)
      (demoStopper false supervisors stdout terminated) where
  locals := rfl
  clock := Nat.le_refl _
  known := known_demo _ _ _ _
  same pid p hp _ := by
    change demoTable false pid = some p at hp
    unfold demoTable at hp
    split at hp
    · cases hp
    · rw [← Option.some.inj hp]
      exact ⟨demoSupervisor 2, rfl, rfl, id⟩
    · cases hp

theorem stop_campaigns_demo :
    ∃ t, Exec (Others demoPromise) (stopCampaigns 9 "/w".toList [5, 9])
        (demoStopper true [] [] []) t ∧ t.status = 0 ∧ Ended 5 1 t := by
  have hscan : (forEach [5, 9] (considerProcess 9 "/w".toList)).run (demoStopper true [] [] []) =
      some (demoStopper true [5] [] []) := by rfl
  have hsay : (act (.say stoppingLine)).run (demoStopper true [5] [] []) =
      some (demoStopper true [5] [demoAnnounced] []) := by rfl
  have hask : (forSupervisors [5, 9] fun pid => act (.terminate pid)).run
      (demoStopper true [5] [demoAnnounced] []) =
        some (demoStopper true [5] [demoAnnounced] [(5, 1)]) := by rfl
  have hend : ((seq (upTo 200 (pollSupervisors [5, 9]) fun s => !s.running)
      (seq (reportSupervisors [5, 9])
        (ite (·.running) (act .fail) (act (.say (countLine "Stopped " ['.'])))))).run
      (demoStopper false [5] [demoAnnounced] [(5, 1)])).map (·.status) = some 0 := by rfl
  obtain ⟨t, ht, hstatus⟩ := Option.map_eq_some_iff.mp hend
  have hexec : Exec (Others demoPromise) (stopCampaigns 9 "/w".toList [5, 9])
      (demoStopper true [] [] []) t :=
    .seq (exec_of_run hscan) (.iteFalse rfl (.seq (exec_of_run hsay)
      (.seq (.after (exec_of_run hask) (others_demo _ _ _)) (exec_of_run ht))))
  have hrecognised : Recognised demoPromise "/w".toList 5 1 := by
    refine ⟨fun p hp _ _ => ?_, .inr fun p hp _ _ => ?_⟩
    · rw [hp rfl p rfl]
      exact ⟨rfl, rfl⟩
    · rw [hp rfl p rfl]
      exact ⟨rfl, rfl⟩
  have hspec := stop_campaigns_spec (known_demo true [] [] []) ?_ (by decide) rfl rfl hexec
  · exact ⟨t, hexec, hstatus,
      (hspec.1 5 (demoSupervisor 1) rfl (by decide) hrecognised).1 hstatus⟩
  · intro pid p hp
    change demoTable true pid = some p at hp
    unfold demoTable at hp
    split at hp
    · decide
    · decide
    · cases hp

end LighttpdFuzz
