import ReZygisk.Monitor.Transitions

/-!
# Traced children

`process` stands for a protocol with each child of init: its first stop is
answered with `PTRACE_O_TRACEEXEC` and a continue, its exec is looked at, and
then it is let go.  The state of that protocol can be read off what was waited
for and asked of the kernel, so membership can be compared with it.
-/

namespace ReZygisk
namespace InitMonitor

open Foundation
open Kernel
open SigChldHandler

/-- How far a process has come.  `ready` is a process whose last report was its
first stop, and which was then given its options and continued. -/
inductive Tracee where
  | untraced
  | stopped
  | optioned
  | ready
  | astray
  deriving DecidableEq, Repr

def Tracee.reported (t : Tracee) (status : Nat) : Tracee :=
  if WIFSTOPPED status then
    match t with
    | Tracee.untraced => Tracee.stopped
    | _ => Tracee.astray
  else
    Tracee.untraced

def Tracee.setOptions : Tracee -> Tracee
  | Tracee.stopped => Tracee.optioned
  | t => t

def Tracee.cont : Tracee -> Tracee
  | Tracee.optioned => Tracee.ready
  | t => t

/-- What one effect means for the process `pid`. -/
def Tracee.next (pid : Int) (t : Tracee) : Effect -> Tracee
  | Effect.waited p status => if p = pid then t.reported status else t
  | Effect.setOptions p => if p = pid then t.setOptions else t
  | Effect.cont p _ => if p = pid then t.cont else t
  | Effect.detach p _ => if p = pid then Tracee.untraced else t
  | _ => t

def tracee (pid : Int) (effects : List Effect) : Tracee :=
  effects.foldl (Tracee.next pid) Tracee.untraced

/-- Membership means that the process is ready. -/
def Tracked (m : Monitor) : Prop :=
  forall pid, pid ∈ m.process -> pid ≠ 1 ∧ tracee pid m.effects = Tracee.ready

/-- The handling of a result keeps to the protocol: an exit or a kill inserts no
one, the first stop of a process that was not traced is answered as one, and the
exec of a member is seen. -/
structure KeepsProtocol (m : Monitor) (e : WaitEvent) (m' : Monitor) : Prop where
  exit_inserts_none : WIFSTOPPED e.status = false ->
    forall pid, pid ∈ m'.process -> pid ∈ m.process
  first_stop : e.pid ≠ 1 -> e.pid ≠ -1 -> WIFSTOPPED e.status = true ->
    tracee e.pid m.effects = Tracee.untraced ->
    e.pid ∈ m'.process ∧
      m'.effects = m.effects ++ [Effect.waited e.pid e.status,
        Effect.setOptions e.pid, Effect.cont e.pid 0]
  exec_seen : e.pid ∈ m.process ->
    stoppedWith e.status SIGTRAP PTRACE_EVENT_EXEC = true ->
    exists program, SeesExec m e program

/-- Whether one of the two expansions of `CHECK_DAEMON_EXIT` takes the pid. -/
def caught (m : Monitor) (pid : Int) : Bool :=
  caughtBy m Abi.abi64 pid || caughtBy m Abi.abi32 pid

/-- A result that the handler reads as what it is.  What `CHECK_DAEMON_EXIT`
takes is no stop and no report about a member, what comes from no member is a
stop, and the program of a member in an exec can be read. -/
structure AsExpected (m : Monitor) (e : WaitEvent) : Prop where
  daemon : caught m e.pid = true -> e.pid ≠ -1 ->
    WIFSTOPPED e.status = false ∧ e.pid ∉ m.process
  unknown : caught m e.pid = false -> e.pid ∉ m.process ->
    e.pid ≠ -1 ∧ WIFSTOPPED e.status = true
  exec : caught m e.pid = false -> e.pid ∈ m.process ->
    stoppedWith e.status SIGTRAP PTRACE_EVENT_EXEC = true ->
    e.program ≠ none

def ReadAsExpected (m : Monitor) : Event -> Prop
  | Event.datagram _ => True
  | Event.wait e => e.pid ≠ 1 -> ¬ leaves m e -> AsExpected m e

/-!
# Effects and the protocol
-/

/-- The process that an effect is a report about or a request for. -/
def Effect.about : Effect -> Option Int
  | Effect.waited pid _ => some pid
  | Effect.setOptions pid => some pid
  | Effect.cont pid _ => some pid
  | Effect.detach pid _ => some pid
  | _ => none

theorem Tracee.next_of_not_about {pid : Int} {e : Effect} (t : Tracee)
    (h : e.about ≠ some pid) : Tracee.next pid t e = t := by
  cases e with
  | waited p status => exact if_neg (fun heq => h (congrArg some heq))
  | setOptions p => exact if_neg (fun heq => h (congrArg some heq))
  | cont p signal => exact if_neg (fun heq => h (congrArg some heq))
  | detach p signal => exact if_neg (fun heq => h (congrArg some heq))
  | _ => rfl

theorem tracee_concat (pid : Int) (effects : List Effect) (e : Effect) :
    tracee pid (effects ++ [e]) = Tracee.next pid (tracee pid effects) e := by
  unfold tracee
  rw [List.foldl_append]
  rfl

theorem tracee_emit_of_not_about {pid : Int} {e : Effect} (m : Monitor)
    (h : e.about ≠ some pid) :
    tracee pid (m.emit e).effects = tracee pid m.effects := by
  rw [Monitor.effects_emit, tracee_concat, Tracee.next_of_not_about _ h]

theorem tracee_append_of_not_about {pid : Int} {es : List Effect} (effects : List Effect)
    (h : forall e, e ∈ es -> e.about ≠ some pid) :
    tracee pid (effects ++ es) = tracee pid effects := by
  induction es generalizing effects with
  | nil => rw [List.append_nil]
  | cons e rest ih =>
      have hrest := ih (effects ++ [e]) (fun x hx => h x (List.mem_cons_of_mem e hx))
      rw [List.append_assoc, List.singleton_append] at hrest
      rw [hrest, tracee_concat, Tracee.next_of_not_about _ (h e List.mem_cons_self)]

/-- From `m` to `m'` only effects about `pid` and init were added that a tracee
could notice, and no process came or went. -/
structure OnlyAbout (pid : Int) (m m' : Monitor) : Prop where
  process : m'.process = m.process
  tracee : forall p, p ≠ pid -> p ≠ 1 ->
    tracee p m'.effects = InitMonitor.tracee p m.effects

namespace OnlyAbout

theorem refl (pid : Int) (m : Monitor) : OnlyAbout pid m m where
  process := rfl
  tracee := fun _ _ _ => rfl

theorem trans {pid : Int} {m m1 m2 : Monitor} (h : OnlyAbout pid m m1)
    (h' : OnlyAbout pid m1 m2) : OnlyAbout pid m m2 where
  process := h'.process.trans h.process
  tracee := fun p hp h1 => (h'.tracee p hp h1).trans (h.tracee p hp h1)

theorem emit {pid : Int} (m : Monitor) {e : Effect}
    (h : forall p, p ≠ pid -> p ≠ 1 -> e.about ≠ some p) :
    OnlyAbout pid m (m.emit e) where
  process := rfl
  tracee := fun p hp h1 => tracee_emit_of_not_about m (h p hp h1)

theorem of_eq (pid : Int) {m m' : Monitor} (hprocess : m'.process = m.process)
    (heffects : m'.effects = m.effects) : OnlyAbout pid m m' where
  process := hprocess
  tracee := by
    intro p _ _
    rw [heffects]

theorem setStatus (pid : Int) (m : Monitor) (abi : Abi) (s : Status) :
    OnlyAbout pid m (m.setStatus abi s) :=
  of_eq pid (Monitor.process_setStatus m abi s) (Monitor.effects_setStatus m abi s)

/-- An effect about no process, or about init. -/
theorem emit_elsewhere {pid : Int} (m : Monitor) {e : Effect}
    (h : e.about = none ∨ e.about = some 1) : OnlyAbout pid m (m.emit e) := by
  apply emit
  intro p _ h1 hp
  rcases h with h | h
  · rw [h] at hp
    cases hp
  · rw [h] at hp
    injection hp with hp
    exact h1 hp.symm

/-- An effect about the process itself. -/
theorem emit_own {pid : Int} (m : Monitor) {e : Effect} (h : e.about = some pid) :
    OnlyAbout pid m (m.emit e) := by
  apply emit
  intro p hp _ hp'
  rw [h] at hp'
  injection hp' with hp'
  exact hp hp'.symm

end OnlyAbout

/-- The process of the result that is handled was let go of when its last status
was not a stop. -/
def SettledBy (pid : Int) (m : Monitor) : Prop :=
  WIFSTOPPED m.waitStatus = false -> tracee pid m.effects = Tracee.untraced

theorem tracee_waited (pid : Int) (status : Nat) (effects : List Effect) :
    tracee pid (effects ++ [Effect.waited pid status]) =
      (tracee pid effects).reported status := by
  rw [tracee_concat]
  exact if_pos rfl

theorem tracee_detach (pid : Int) (signal : Nat) (effects : List Effect) :
    tracee pid (effects ++ [Effect.detach pid signal]) = Tracee.untraced := by
  rw [tracee_concat]
  exact if_pos rfl

theorem Tracee.reported_exit (t : Tracee) {status : Nat}
    (h : WIFSTOPPED status = false) : t.reported status = Tracee.untraced := by
  simp [Tracee.reported, h]

/-- Releasing a process leaves it untraced, stopped or not. -/
theorem tracee_release {pid : Int} {m : Monitor} (h : SettledBy pid m) :
    tracee pid (release m pid).effects = Tracee.untraced := by
  unfold release
  cases hstatus : WIFSTOPPED m.waitStatus with
  | true => exact tracee_detach pid 0 m.effects
  | false => exact h hstatus

theorem onlyAbout_release (pid : Int) (m : Monitor) (p : Int) (hp : p ≠ pid) :
    tracee p (release m pid).effects = tracee p m.effects := by
  unfold release
  cases hstatus : WIFSTOPPED m.waitStatus with
  | true =>
      apply tracee_emit_of_not_about m
      intro heq
      injection heq with heq
      exact hp heq.symm
  | false => rfl

/-!
# The exec of a member
-/

theorem onlyAbout_takeWait (m : Monitor) (e : WaitEvent) :
    OnlyAbout e.pid m (takeWait m e) := by
  unfold takeWait
  split
  · exact OnlyAbout.refl e.pid m
  · exact (OnlyAbout.emit_own m rfl).trans (OnlyAbout.of_eq e.pid rfl rfl)

theorem settledBy_takeWait {e : WaitEvent} (h : e.pid ≠ -1) (m : Monitor) :
    SettledBy e.pid (takeWait m e) := by
  intro hstatus
  rw [waitStatus_takeWait h] at hstatus
  unfold takeWait
  rw [if_neg h]
  change tracee e.pid (m.effects ++ [Effect.waited e.pid e.status]) = _
  rw [tracee_waited, Tracee.reported_exit _ hstatus]

/-- What a step between the report of an exec and the release may do. -/
structure Handles (pid : Int) (m m' : Monitor) : Prop where
  only : OnlyAbout pid m m'
  settled : SettledBy pid m -> SettledBy pid m'

theorem Handles.trans {pid : Int} {m m1 m2 : Monitor} (h : Handles pid m m1)
    (h' : Handles pid m1 m2) : Handles pid m m2 where
  only := h.only.trans h'.only
  settled := fun hsettled => h'.settled (h.settled hsettled)

theorem Handles.refl (pid : Int) (m : Monitor) : Handles pid m m where
  only := OnlyAbout.refl pid m
  settled := id

theorem handles_emit {pid : Int} (m : Monitor) {e : Effect} (hpid : pid ≠ 1)
    (h : e.about = none ∨ e.about = some 1) : Handles pid m (m.emit e) where
  only := OnlyAbout.emit_elsewhere m h
  settled := by
    intro hsettled hstatus
    have hother : e.about ≠ some pid := by
      intro hp
      rcases h with h | h
      · rw [h] at hp
        cases hp
      · rw [h] at hp
        injection hp with hp
        exact hpid hp.symm
    rw [tracee_emit_of_not_about m hother]
    exact hsettled hstatus

theorem handles_setStatus (pid : Int) (m : Monitor) (abi : Abi) (s : Status) :
    Handles pid m (m.setStatus abi s) where
  only := OnlyAbout.setStatus pid m abi s
  settled := by
    intro h hstatus
    rw [Monitor.effects_setStatus]
    apply h
    cases abi <;> exact hstatus

theorem handles_setCounter (pid : Int) (m : Monitor) (abi : Abi)
    (c : ZygoteStartCounter) : Handles pid m (m.setCounter abi c) where
  only := OnlyAbout.of_eq pid (Monitor.process_setCounter m abi c)
    (Monitor.effects_setCounter m abi c)
  settled := by
    intro h hstatus
    rw [Monitor.effects_setCounter]
    apply h
    cases abi <;> exact hstatus

theorem handles_ensureDaemonCreated {pid : Int} (hpid : pid ≠ 1) (m : Monitor)
    (abi : Abi) (fork : Option ChildPid) :
    Handles pid m (ensureDaemonCreated m abi fork).2 := by
  have humount : Handles pid m (umountProp m abi) := by
    unfold umountProp
    split
    · exact handles_emit m hpid (Or.inl rfl)
    · exact Handles.refl pid m
  have hstarted := humount.trans (handles_setStatus pid _ abi
    (startStatus (m.status abi) fork))
  unfold ensureDaemonCreated
  simp only
  split
  · cases fork with
    | none => exact hstarted
    | some child => exact hstarted.trans (handles_emit _ hpid (Or.inl rfl))
  · exact hstarted

theorem handles_stopInjecting {pid : Int} (hpid : pid ≠ 1) (m : Monitor)
    (reason : String) : Handles pid m (stopInjecting m reason) := by
  have hreason : Handles pid m { m with
      tracingState := TracingState.stopping
      monitorStopReason := bytesOf reason } :=
    { only := OnlyAbout.of_eq pid rfl rfl
      settled := id }
  exact hreason.trans (handles_emit _ hpid (Or.inl rfl))

theorem handles_preInject {pid : Int} (hpid : pid ≠ 1) (m : Monitor) (abi : Abi)
    (e : WaitEvent) : Handles pid m (preInject m abi e).2 := by
  have hcounted : Handles pid m (shouldStopInject m abi e.now).2 :=
    handles_setCounter pid m abi _
  unfold preInject
  cases hstop : shouldStopInject m abi e.now with
  | mk stop mc =>
      rw [hstop] at hcounted
      have hensure := handles_ensureDaemonCreated hpid mc abi e.daemonFork
      cases stop with
      | true => exact hcounted.trans (handles_stopInjecting hpid mc _)
      | false =>
          simp only
          cases hcreated : ensureDaemonCreated mc abi e.daemonFork with
          | mk created m2 =>
              rw [hcreated] at hensure
              cases created with
              | true => exact hcounted.trans hensure
              | false =>
                  exact (hcounted.trans hensure).trans
                    (handles_stopInjecting hpid m2 _)

/-- The blocking `waitpid` reports about the process itself, so it settles what
the status says. -/
theorem handles_stopZygote (m : Monitor) (e : WaitEvent) :
    Handles e.pid m (stopZygote m e) where
  only := (((OnlyAbout.emit_elsewhere m (Or.inl rfl)).trans
    (OnlyAbout.emit_own _ rfl)).trans (OnlyAbout.emit_own _ rfl)).trans
      (OnlyAbout.of_eq e.pid rfl rfl)
  settled := by
    intro _ hstatus
    change WIFSTOPPED e.stopStatus = false at hstatus
    change tracee e.pid (_ ++ [Effect.waited e.pid e.stopStatus]) = _
    rw [tracee_waited, Tracee.reported_exit _ hstatus]

theorem handles_detachZygote (m : Monitor) (abi : Abi) (e : WaitEvent) :
    Handles e.pid m (detachZygote m abi e) where
  only := by
    have hdetach : OnlyAbout e.pid m
        { m.emit (Effect.detach e.pid SIGSTOP) with waitStatus := 0 } :=
      (OnlyAbout.emit_own m rfl).trans (OnlyAbout.of_eq e.pid rfl rfl)
    apply hdetach.trans
    apply OnlyAbout.emit_elsewhere
    left
    cases e.tracerFork <;> rfl
  settled := by
    intro _ _
    have hlast : (if e.tracerFork then Effect.launchTracer abi e.pid
        else Effect.kill e.pid SIGKILL).about ≠ some e.pid := by
      cases e.tracerFork <;> (intro hno; cases hno)
    unfold detachZygote
    rw [tracee_emit_of_not_about _ hlast]
    exact tracee_detach e.pid SIGSTOP m.effects

theorem handles_launchTracer (m : Monitor) (abi : Abi) (e : WaitEvent) :
    Handles e.pid m (launchTracer m abi e) := by
  unfold launchTracer
  split
  · exact (handles_stopZygote m e).trans (handles_detachZygote _ abi e)
  · exact handles_stopZygote m e

theorem handles_handleZygote (m : Monitor) (abi : Abi) {e : WaitEvent}
    (hpid : e.pid ≠ 1) : Handles e.pid m (handleZygote m abi e) := by
  have hpre := handles_preInject hpid m abi e
  unfold handleZygote
  cases hinject : preInject m abi e with
  | mk inject m1 =>
      rw [hinject] at hpre
      cases inject with
      | false => exact hpre
      | true => exact hpre.trans (handles_launchTracer m1 abi e)

theorem handles_handleExec (m : Monitor) {e : WaitEvent} (hpid : e.pid ≠ 1)
    (program : List Byte) : Handles e.pid m (handleExec m e program) := by
  unfold handleExec
  split
  · exact Handles.refl e.pid m
  · split
    · exact handles_handleZygote m Abi.abi64 hpid
    · split
      · exact handles_handleZygote m Abi.abi32 hpid
      · exact Handles.refl e.pid m

/-!
# One event
-/

/-- Members are ready and all other processes untraced; neither init nor a
failed wait is a member. -/
structure TraceeInv (m : Monitor) : Prop where
  members : forall pid, pid ∈ m.process ->
    pid ≠ 1 ∧ pid ≠ -1 ∧ tracee pid m.effects = Tracee.ready
  others : forall pid, pid ∉ m.process -> pid ≠ 1 ->
    tracee pid m.effects = Tracee.untraced

theorem TraceeInv.congr {m m' : Monitor} (h : TraceeInv m)
    (hprocess : m'.process = m.process)
    (htracee : forall pid, pid ≠ 1 -> tracee pid m'.effects = tracee pid m.effects) :
    TraceeInv m' where
  members := by
    intro pid hpid
    rw [hprocess] at hpid
    rcases h.members pid hpid with ⟨h1, hfailed, hready⟩
    exact ⟨h1, hfailed, (htracee pid h1).trans hready⟩
  others := by
    intro pid hpid h1
    rw [hprocess] at hpid
    rw [htracee pid h1]
    exact h.others pid hpid h1

/-- A step about init alone does not matter. -/
theorem TraceeInv.of_onlyAbout_init {m m' : Monitor} (h : TraceeInv m)
    (honly : OnlyAbout 1 m m') : TraceeInv m' :=
  h.congr honly.process (fun pid h1 => honly.tracee pid h1 h1)

theorem onlyAbout_resumeInit (m : Monitor) (status : Nat) :
    OnlyAbout 1 m (resumeInit m 1 status) := by
  unfold resumeInit
  split
  · split
    · split
      · exact OnlyAbout.emit_own m rfl
      · exact OnlyAbout.emit_own m rfl
    · exact OnlyAbout.emit_own m rfl
  · exact OnlyAbout.refl 1 m

theorem onlyAbout_handleInit (m : Monitor) (status : Nat) :
    OnlyAbout 1 m (handleInit m 1 status) := by
  unfold handleInit
  split
  · exact (OnlyAbout.emit_elsewhere m (Or.inl rfl)).trans
      (onlyAbout_resumeInit _ status)
  · split
    · exact (OnlyAbout.emit_own m rfl).trans (OnlyAbout.of_eq 1 rfl rfl)
    · exact onlyAbout_resumeInit m status

theorem onlyAbout_command {m m' : Monitor} {cmd : Option Command}
    (h : CommandStep m cmd m') : OnlyAbout 1 m m' where
  process := h.process_eq
  tracee := by
    intro p _ _
    rcases h.added with ⟨es, heq, hes⟩
    rw [heq]
    apply tracee_append_of_not_about
    intro e he habout
    cases hes e he <;> cases habout

theorem tracee_attach {m : Monitor} {e : WaitEvent} (hpid : e.pid ≠ -1)
    (hstatus : WIFSTOPPED e.status = true)
    (hnew : tracee e.pid m.effects = Tracee.untraced) :
    tracee e.pid (attach (takeWait m e) e.pid).effects = Tracee.ready := by
  have hstopped : tracee e.pid (takeWait m e).effects = Tracee.stopped := by
    unfold takeWait
    rw [if_neg hpid]
    change tracee e.pid (m.effects ++ [Effect.waited e.pid e.status]) = _
    rw [tracee_waited, hnew, Tracee.reported, if_pos hstatus]
  change tracee e.pid (((takeWait m e).effects ++ [Effect.setOptions e.pid]) ++
    [Effect.cont e.pid 0]) = _
  rw [tracee_concat, tracee_concat, hstopped]
  simp [Tracee.next, Tracee.setOptions, Tracee.cont]

theorem traceeInv_attach {m : Monitor} {e : WaitEvent} (h : TraceeInv m)
    (hinit : e.pid ≠ 1) (hpid : e.pid ≠ -1) (hnew : e.pid ∉ m.process)
    (hstatus : WIFSTOPPED e.status = true) :
    TraceeInv (attach (takeWait m e) e.pid) := by
  have hready := tracee_attach hpid hstatus (h.others e.pid hnew hinit)
  have hprocess : (attach (takeWait m e) e.pid).process = e.pid :: m.process := by
    rw [← process_takeWait m e]
    rfl
  have hsame : forall p, p ≠ e.pid -> p ≠ 1 ->
      tracee p (attach (takeWait m e) e.pid).effects = tracee p m.effects :=
    ((onlyAbout_takeWait m e).trans ((OnlyAbout.emit_own _ rfl).trans
      (OnlyAbout.emit_own _ rfl))).tracee
  constructor
  · intro p hp
    rw [hprocess] at hp
    rcases Decidable.em (p = e.pid) with heq | hne
    · rw [heq]
      exact ⟨hinit, hpid, hready⟩
    · rcases h.members p (List.mem_of_ne_of_mem hne hp) with ⟨h1, hfailed, hp⟩
      exact ⟨h1, hfailed, (hsame p hne h1).trans hp⟩
  · intro p hp h1
    rw [hprocess, List.mem_cons, not_or] at hp
    rw [hsame p hp.left h1]
    exact h.others p hp.right h1

/-- A member that is settled can be released. -/
theorem traceeInv_release {m m1 : Monitor} {pid : Int} (h : TraceeInv m)
    (honly : OnlyAbout pid m m1) (hsettled : SettledBy pid m1) :
    TraceeInv (release m1 pid) := by
  have hprocess : (release m1 pid).process = m.process.filter (fun p => p ≠ pid) := by
    unfold release
    rw [honly.process]
  constructor
  · intro p hp
    rw [hprocess, List.mem_filter, decide_eq_true_eq] at hp
    rcases h.members p hp.left with ⟨h1, hfailed, hready⟩
    refine ⟨h1, hfailed, ?_⟩
    rw [onlyAbout_release pid m1 p hp.right, honly.tracee p hp.right h1]
    exact hready
  · intro p hp h1
    rcases Decidable.em (p = pid) with heq | hne
    · rw [heq]
      exact tracee_release hsettled
    · have hout : p ∉ m.process := by
        intro hin
        rw [hprocess] at hp
        exact hp (List.mem_filter.mpr ⟨hin, decide_eq_true hne⟩)
      rw [onlyAbout_release pid m1 p hne, honly.tracee p hne h1]
      exact h.others p hout h1

theorem traceeInv_daemonExit {sysSigname : Nat -> List Byte} {m m' : Monitor}
    {e : WaitEvent} {abi : Abi} (h : TraceeInv m)
    (hexpected : e.pid ≠ -1 -> WIFSTOPPED e.status = false ∧ e.pid ∉ m.process)
    (hexit : daemonExit sysSigname (takeWait m e) abi = Except.ok m') :
    m'.process = m.process ∧ TraceeInv m' := by
  have hsame : OnlyAbout e.pid m m' ∧ tracee e.pid m'.effects =
      tracee e.pid (takeWait m e).effects := by
    unfold daemonExit at hexit
    simp only at hexit
    split at hexit
    · cases hexit
    · split at hexit
      · cases hexit
      · injection hexit with hexit
        rw [← hexit]
        constructor
        · exact ((onlyAbout_takeWait m e).trans (OnlyAbout.setStatus e.pid _ abi _)).trans
            (OnlyAbout.emit_elsewhere _ (Or.inl rfl))
        · unfold updateStatus
          rw [tracee_emit_of_not_about _ (by intro hno; cases hno),
            Monitor.effects_setStatus]
  refine ⟨hsame.left.process, h.congr hsame.left.process ?_⟩
  intro p h1
  rcases Decidable.em (p = e.pid) with heq | hne
  · rw [heq] at h1 ⊢
    rw [hsame.right]
    rcases Decidable.em (e.pid = -1) with hfailed | hpid
    · unfold takeWait
      rw [if_pos hfailed]
    · rcases hexpected hpid with ⟨hstatus, hout⟩
      rw [h.others e.pid hout h1]
      apply settledBy_takeWait hpid
      rw [waitStatus_takeWait hpid]
      exact hstatus
  · exact hsame.left.tracee p hne h1

theorem mem_process_release {m : Monitor} {pid p : Int}
    (h : p ∈ (release m pid).process) : p ∈ m.process := by
  unfold release at h
  exact (List.mem_filter.mp h).left

/-- A result for a member settles it one way or the other, and releases it. -/
theorem traceeInv_member {m : Monitor} {e : WaitEvent} (h : TraceeInv m)
    (hknown : e.pid ∈ m.process)
    (hread : stoppedWith e.status SIGTRAP PTRACE_EVENT_EXEC = true ->
      e.program ≠ none) :
    TraceeInv (handleProcess (takeWait m e) e) ∧
      forall p, p ∈ (handleProcess (takeWait m e) e).process -> p ∈ m.process := by
  rcases h.members e.pid hknown with ⟨hinit, hpid, _⟩
  have htake := onlyAbout_takeWait m e
  have hsettled := settledBy_takeWait hpid m
  unfold handleProcess
  rw [process_takeWait, if_neg (not_not.mpr hknown), waitStatus_takeWait hpid]
  split
  · rename_i hexec
    cases hprogram : e.program with
    | none => exact absurd hprogram (hread hexec)
    | some program =>
        have hhandled := handles_handleExec (takeWait m e) hinit program
        have hupdated : Handles e.pid (handleExec (takeWait m e) e program)
            (updateStatus (handleExec (takeWait m e) e program)) :=
          handles_emit _ hinit (Or.inl rfl)
        have honly := (htake.trans hhandled.only).trans hupdated.only
        constructor
        · exact traceeInv_release h honly
            (hupdated.settled (hhandled.settled hsettled))
        · intro p hp
          have hp := mem_process_release hp
          rw [honly.process] at hp
          exact hp
  · constructor
    · exact traceeInv_release h htake hsettled
    · intro p hp
      have hp := mem_process_release hp
      rw [htake.process] at hp
      exact hp

theorem seesExec_of_member {m : Monitor} {e : WaitEvent} (h : TraceeInv m)
    (hexpected : AsExpected m e) (hknown : e.pid ∈ m.process)
    (hexec : stoppedWith e.status SIGTRAP PTRACE_EVENT_EXEC = true) :
    exists program, SeesExec m e program := by
  rcases h.members e.pid hknown with ⟨hinit, hpid, _⟩
  have hcaught : caught m e.pid = false := by
    by_contra hno
    exact (hexpected.daemon (by simpa using hno) hpid).right hknown
  have hprogram := hexpected.exec hcaught hknown hexec
  cases hread : e.program with
  | none => exact absurd hread hprogram
  | some program =>
      have hboth := Bool.or_eq_false_iff.mp hcaught
      exact ⟨program, {
        stays := fun hleaves => hpid hleaves.left
        known := hknown
        stopped := by
          rw [waitStatus_takeWait hpid]
          exact hexec
        read := hread
        notInit := hinit
        notDaemon := by
          intro abi
          cases abi with
          | abi64 => exact hboth.left
          | abi32 => exact hboth.right }⟩

section Result

variable {sysSigname : Nat -> List Byte} {m m' : Monitor} {e : WaitEvent}

/-- A result for init, or one that a check of daemon exits takes, changes no
membership. -/
theorem keepsProtocol_of_process_eq (h : TraceeInv m) (hprocess : m'.process = m.process)
    (hfirst : e.pid ≠ 1 -> e.pid ≠ -1 -> WIFSTOPPED e.status = false)
    (hout : e.pid ≠ 1 -> e.pid ≠ -1 -> e.pid ∉ m.process) :
    KeepsProtocol m e m' where
  exit_inserts_none := by
    intro _ p hp
    rw [hprocess] at hp
    exact hp
  first_stop := by
    intro hinit hpid hstopped _
    rw [hfirst hinit hpid] at hstopped
    cases hstopped
  exec_seen := by
    intro hknown _
    rcases h.members e.pid hknown with ⟨hinit, hpid, _⟩
    exact absurd hknown (hout hinit hpid)

/-- The end of a daemon is no event of a tracee. -/
theorem traceeInv_of_daemonExit {abi : Abi} (h : TraceeInv m) (hread : AsExpected m e)
    (hby : caughtBy m abi e.pid = true)
    (hexit : daemonExit sysSigname (takeWait m e) abi = Except.ok m') :
    TraceeInv m' ∧ KeepsProtocol m e m' := by
  have hcaught : caught m e.pid = true := by
    unfold caught
    cases abi <;> simp [hby]
  rcases traceeInv_daemonExit h (hread.daemon hcaught) hexit with ⟨hprocess, hinv⟩
  exact ⟨hinv, keepsProtocol_of_process_eq h hprocess
    (fun _ hpid => (hread.daemon hcaught hpid).left)
    (fun _ hpid => (hread.daemon hcaught hpid).right)⟩

/-- A process that is not a daemon is attached at its first stop, and then seen
to its `exec`. -/
theorem traceeInv_handleProcess (h : TraceeInv m) (hread : AsExpected m e)
    (hinit : e.pid ≠ 1) (hcaught : caught m e.pid = false) :
    TraceeInv (handleProcess (takeWait m e) e) ∧
      KeepsProtocol m e (handleProcess (takeWait m e) e) := by
  rcases Decidable.em (e.pid ∈ m.process) with hknown | hnew
  · rcases traceeInv_member h hknown (hread.exec hcaught hknown) with ⟨hinv, hsub⟩
    refine ⟨hinv, ?_⟩
    exact {
      exit_inserts_none := fun _ => hsub
      first_stop := by
        intro _ _ _ huntraced
        rw [(h.members e.pid hknown).right.right] at huntraced
        cases huntraced
      exec_seen := fun _ => seesExec_of_member h hread hknown }
  · rcases hread.unknown hcaught hnew with ⟨hpid, hstopped⟩
    unfold handleProcess
    rw [process_takeWait, if_pos hnew]
    refine ⟨traceeInv_attach h hinit hpid hnew hstopped, ?_⟩
    exact {
      exit_inserts_none := by
        intro hexit
        rw [hstopped] at hexit
        cases hexit
      first_stop := by
        intro _ _ _ _
        refine ⟨List.mem_cons_self, ?_⟩
        unfold attach takeWait
        rw [if_neg hpid]
        simp [Monitor.emit]
      exec_seen := fun hknown => absurd hknown hnew }

theorem traceeInv_handleResult (h : TraceeInv m)
    (hexpected : e.pid ≠ 1 -> AsExpected m e)
    (hresult : handleResult sysSigname (takeWait m e) e = Except.ok m') :
    TraceeInv m' ∧ KeepsProtocol m e m' := by
  unfold handleResult at hresult
  rw [caughtBy_takeWait, caughtBy_takeWait] at hresult
  split at hresult
  · rename_i hinit
    injection hresult with hresult
    rw [← hresult, hinit]
    have honly : OnlyAbout 1 m
        (handleInit (takeWait m e) 1 (takeWait m e).waitStatus) := by
      have htake := onlyAbout_takeWait m e
      rw [hinit] at htake
      exact htake.trans (onlyAbout_handleInit _ _)
    exact ⟨h.of_onlyAbout_init honly, keepsProtocol_of_process_eq h honly.process
      (fun hno => absurd hinit hno) (fun hno => absurd hinit hno)⟩
  · rename_i hinit
    have hread := hexpected hinit
    split at hresult
    · rename_i h64
      exact traceeInv_of_daemonExit h hread h64 hresult
    · rename_i h64
      split at hresult
      · rename_i h32
        exact traceeInv_of_daemonExit h hread h32 hresult
      · rename_i h32
        injection hresult with hresult
        rw [← hresult]
        exact traceeInv_handleProcess h hread hinit (by simp [caught, h64, h32])

end Result

/-!
# Every run
-/

section Run

variable {lp : Lp} {sysSigname : Nat -> List Byte}

theorem traceeInv_initial (preSection postSection : List Byte) :
    TraceeInv (initial preSection postSection) where
  members := by
    intro pid hpid
    cases hpid
  others := fun _ _ _ => rfl

/-- A result is handled, or the handler leaves and nothing changes. -/
theorem waitStep_cases {m m' : Monitor} {e : WaitEvent}
    (h : waitStep sysSigname m e = some m') :
    (leaves m e ∧ m' = m) ∨
      (¬ leaves m e ∧ handleResult sysSigname (takeWait m e) e = Except.ok m') := by
  unfold waitStep handleWait at h
  rcases Classical.em (leaves m e) with hleaves | hstays
  · left
    refine ⟨hleaves, ?_⟩
    unfold leaves at hleaves
    rw [if_pos hleaves] at h
    injection h with h
    exact h.symm
  · right
    refine ⟨hstays, ?_⟩
    unfold leaves at hstays
    rw [if_neg hstays] at h
    cases hresult : handleResult sysSigname (takeWait m e) e with
    | ok m1 =>
        rw [hresult] at h
        injection h with h
        rw [h]
    | error f =>
        rw [hresult] at h
        cases h

theorem traceeInv_wait {m m' : Monitor} {e : WaitEvent} (h : TraceeInv m)
    (hread : ReadAsExpected m (Event.wait e))
    (hstep : (system lp sysSigname).step m (Event.wait e) = some m') :
    TraceeInv m' ∧ KeepsProtocol m e m' := by
  have hwait : waitStep sysSigname m e = some m' := by
    change (if m.running then waitStep sysSigname m e else none) = some m' at hstep
    split at hstep
    · exact hstep
    · cases hstep
  rcases waitStep_cases hwait with ⟨hleaves, heq⟩ | ⟨hstays, hresult⟩
  · rw [heq]
    exact ⟨h, keepsProtocol_of_process_eq h rfl
      (fun _ hpid => absurd hleaves.left hpid)
      (fun _ hpid => absurd hleaves.left hpid)⟩
  · exact traceeInv_handleResult h (fun hinit => hread hinit hstays) hresult

theorem traceeInv_step {m m' : Monitor} {event : Event} (h : TraceeInv m)
    (hread : ReadAsExpected m event)
    (hstep : (system lp sysSigname).step m event = some m') : TraceeInv m' := by
  cases event with
  | wait e => exact (traceeInv_wait h hread hstep).left
  | datagram d =>
      cases step_of_datagramStep hstep with
      | rejected _ _ => exact h
      | command _ _ _ hcommand =>
          exact h.of_onlyAbout_init (onlyAbout_command hcommand)

/-- In every run whose results are read as what they are, every member is a
child whose first stop was its last report and which was given its options and
continued, and every further such result is handled by the protocol. -/
theorem tracked_of_readAsExpected (lp : Lp) (sysSigname : Nat -> List Byte)
    (preSection postSection : List Byte) (events : List Event) {m : Monitor}
    (halong : (system lp sysSigname).AlongRun ReadAsExpected
      (initial preSection postSection) events)
    (hrun : (system lp sysSigname).run (initial preSection postSection) events =
      some m) :
    Tracked m ∧
      forall e m', ReadAsExpected m (Event.wait e) ->
        (system lp sysSigname).step m (Event.wait e) = some m' ->
        KeepsProtocol m e m' := by
  have hinv : TraceeInv m :=
    TransitionSystem.run_invariant
      (fun _ _ _ hs hread hstep => traceeInv_step hs hread hstep)
      (traceeInv_initial preSection postSection) halong hrun
  constructor
  · intro pid hpid
    rcases hinv.members pid hpid with ⟨hinit, _, hready⟩
    exact ⟨hinit, hready⟩
  · intro e m' hread hstep
    exact (traceeInv_wait hinv hread hstep).right

end Run

/-- A child stops, dies, and its pid is used for the next child. -/
def pidReused : List Event :=
  [Event.wait { pid := 200, status := 0x80057f },
    Event.wait { pid := 200, status := 9 },
    Event.wait { pid := 200, status := 0x80057f }]

theorem tracked_pidReused :
    exists m,
      (system Lp.lp64 (fun _ => [])).run (initial [] []) pidReused = some m ∧
        200 ∈ m.process ∧ Tracked m := by
  refine ⟨_, rfl, by decide, ?_⟩
  refine (tracked_of_readAsExpected Lp.lp64 (fun _ => []) [] [] pidReused ?_ rfl).left
  have hread : forall {m : Monitor} {e : WaitEvent}, AsExpected m e ->
      ReadAsExpected m (Event.wait e) := fun h _ _ => h
  refine ⟨hread ⟨by decide, by decide, by decide⟩, fun m1 h1 => ?_⟩
  injection h1 with h1
  rw [← h1]
  refine ⟨hread ⟨by decide, by decide, by decide⟩, fun m2 h2 => ?_⟩
  injection h2 with h2
  rw [← h2]
  exact ⟨hread ⟨by decide, by decide, by decide⟩, fun _ _ => trivial⟩

/-- A child that is killed before its first stop is taken for an attached one;
the next process with its pid is let go at its first stop. -/
theorem not_tracked_killed_before_stop :
    exists m m',
      (system Lp.lp64 (fun _ => [])).run (initial [] [])
        [Event.wait { pid := 200, status := 9 }] = some m ∧
      ¬ Tracked m ∧
      (system Lp.lp64 (fun _ => [])).step m
        (Event.wait { pid := 200, status := 0x80057f }) = some m' ∧
      ¬ KeepsProtocol m { pid := 200, status := 0x80057f } m' := by
  refine ⟨_, _, rfl, ?_, rfl, ?_⟩
  · intro h
    have hready := (h 200 (by decide)).right
    exact absurd hready (by decide)
  · intro h
    have hfirst := h.first_stop (by decide) (by decide) (by decide) (by decide)
    exact absurd hfirst.left (by decide)

end InitMonitor
end ReZygisk
