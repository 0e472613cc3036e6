import ReZygisk.Monitor.Transitions

/-!
# Why tracing stops

Tracing is left from three places: the `STOP` command and the two guards of a
zygote start.  `EXIT` ends the loop from any state.  Each of them leaves its
reason, and no other event touches the tracing state, the reason and the loop
flag in a way that could hide it.
-/

namespace ReZygisk
namespace InitMonitor

open Foundation
open Kernel
open SigChldHandler

inductive StopCause where
  | userRequested
  | zygoteCrashed
  | daemonNotRunning
  deriving DecidableEq, Repr

def StopCause.reason : StopCause -> List Byte
  | StopCause.userRequested => bytesOf "user requested"
  | StopCause.zygoteCrashed => bytesOf "zygote crashed"
  | StopCause.daemonNotRunning => bytesOf "daemon not running"

/-- Whether `ensure_daemon_created` will answer true. -/
def daemonAvailable (s : Status) (fork : Option ChildPid) : Bool :=
  if s.daemonPid = -1 then fork.isSome else s.daemonRunning

def zygoteCause (m : Monitor) (abi : Abi) (e : WaitEvent) : Option StopCause :=
  if (shouldStopInject m abi e.now).1 then some StopCause.zygoteCrashed
  else if daemonAvailable (m.status abi) e.daemonFork then none
  else some StopCause.daemonNotRunning

def commandCause (m : Monitor) : Option Command -> Option StopCause
  | some Command.stop =>
      if m.tracingState = TracingState.tracing then some StopCause.userRequested
      else none
  | some Command.exit => some StopCause.userRequested
  | _ => none

/-- The cause of a transition out of `TRACING`, or of an `EXIT`. -/
def stopCause (lp : Lp) (m : Monitor) : Event -> Option StopCause
  | Event.datagram d =>
      if SocketHandler.accepted lp d then
        commandCause m (Command.ofCode (SocketHandler.peekHead d).cmd)
      else
        none
  | Event.wait e =>
      if m.tracingState = TracingState.tracing then
        if SeesExec m e (appProcess Abi.abi64) then zygoteCause m Abi.abi64 e
        else if SeesExec m e (appProcess Abi.abi32) then
          zygoteCause m Abi.abi32 e
        else none
      else
        none

/-!
# The fields that control the loop
-/

def Monitor.control (m : Monitor) : TracingState × List Byte × Bool :=
  (m.tracingState, m.monitorStopReason, m.running)

section Control

variable (m : Monitor) (abi : Abi)

@[simp] theorem control_emit (e : Effect) : (m.emit e).control = m.control := rfl

@[simp] theorem control_updateStatus : (updateStatus m).control = m.control := rfl

@[simp] theorem control_setStatus (s : Status) :
    (m.setStatus abi s).control = m.control := by
  cases abi <;> rfl

@[simp] theorem control_countedStart (now : Int) :
    (countedStart m abi now).control = m.control := by
  cases abi <;> rfl

@[simp] theorem control_stopInjecting (reason : String) :
    (stopInjecting m reason).control =
      (TracingState.stopping, bytesOf reason, m.running) := rfl

end Control

theorem Housekeeping.control {m m' : Monitor} (h : Housekeeping m m') :
    m'.control = m.control := by
  unfold Monitor.control
  rw [h.tracingState, h.monitorStopReason, h.running]

theorem control_daemonStep {m m' : Monitor} {abi : Abi} {fork : Option ChildPid}
    {created : Bool} (h : DaemonStep m abi fork created m') :
    m'.control = m.control := by
  cases h with
  | forkFailed _ _ => exact control_setStatus m abi _
  | known _ => exact control_setStatus m abi _
  | forked _ pid _ => exact control_setStatus m abi _

theorem created_eq_daemonAvailable {m m' : Monitor} {abi : Abi}
    {fork : Option ChildPid} {created : Bool}
    (h : DaemonStep m abi fork created m') :
    created = daemonAvailable (m.status abi) fork := by
  unfold daemonAvailable
  cases h with
  | forkFailed hpid hfork => rw [if_pos hpid, hfork]; rfl
  | forked hpid pid hfork => rw [if_pos hpid, hfork]; rfl
  | known hpid => rw [if_neg hpid]

/-!
# What an event does to them
-/

/-- What a step with the given cause does to the tracing state and the reason;
the loop flag is `running`. -/
structure CauseStep (m m' : Monitor) (cause : Option StopCause) : Prop where
  some : forall c, cause = some c ->
    m'.tracingState ≠ TracingState.tracing ∧ m'.monitorStopReason = c.reason
  none : cause = none ->
    (m.tracingState = TracingState.tracing ->
      m'.tracingState = TracingState.tracing) ∧
    m'.monitorStopReason = m.monitorStopReason

/-- A step that keeps the control fields has no cause. -/
theorem causeStep_none {m m' : Monitor} (h : m'.control = m.control) :
    CauseStep m m' none where
  some := by
    intro c hc
    cases hc
  none := by
    intro _
    unfold Monitor.control at h
    injection h with hstate hrest
    injection hrest with hreason _
    rw [hstate, hreason]
    exact ⟨id, rfl⟩

theorem causeStep_some {m m' : Monitor} {c : StopCause}
    (hstate : m'.tracingState ≠ TracingState.tracing)
    (hreason : m'.monitorStopReason = c.reason) : CauseStep m m' (some c) where
  some := by
    intro c' hc
    injection hc with hc
    rw [← hc]
    exact ⟨hstate, hreason⟩
  none := by
    intro hc
    cases hc

/-- Going back to `TRACING` is nothing that stops. -/
theorem causeStep_tracing {m m' : Monitor}
    (hstate : m'.tracingState = TracingState.tracing)
    (hreason : m'.monitorStopReason = m.monitorStopReason) :
    CauseStep m m' none where
  some := by
    intro c hc
    cases hc
  none := fun _ => ⟨fun _ => hstate, hreason⟩

theorem causeStep_command {m m' : Monitor} {cmd : Option Command}
    (h : CommandStep m cmd m') : CauseStep m m' (commandCause m cmd) := by
  cases h with
  | unknown => exact causeStep_none rfl
  | cancelStop _ => exact causeStep_tracing rfl rfl
  | seizeInit _ => exact causeStep_tracing rfl rfl
  | nothingToStart _ => exact causeStep_none rfl
  | requestStop htracing =>
      rw [commandCause, if_pos htracing]
      exact causeStep_some (fun hno => by cases hno) rfl
  | nothingToStop hnot =>
      rw [commandCause, if_neg hnot]
      exact causeStep_none rfl
  | exit => exact causeStep_some (fun hno => by cases hno) rfl
  | injected abi => exact causeStep_none (control_setStatus m abi _)
  | info abi block => exact causeStep_none (control_setStatus m abi _)
  | errorInfo abi block => exact causeStep_none (control_setStatus m abi _)
  | mount => exact causeStep_none rfl

theorem shouldStopInject_eq (m : Monitor) (abi : Abi) (now : Int) :
    (shouldStopInject m abi now).1 =
      decide (MAX_RETRY_COUNT ≤ ((countedStart m abi now).counter abi).count) := by
  cases abi <;> rfl

section Exec

variable {lp : Lp} {m m' : Monitor} {e : WaitEvent}

theorem stopCause_of_not_tracing (h : m.tracingState ≠ TracingState.tracing) :
    stopCause lp m (Event.wait e) = none :=
  if_neg h

theorem stopCause_of_not_sees (h : forall abi, ¬ SeesExec m e (appProcess abi)) :
    stopCause lp m (Event.wait e) = none := by
  rw [stopCause, if_neg (h Abi.abi64), if_neg (h Abi.abi32), ite_self]

theorem stopCause_of_sees {abi : Abi} (hsees : SeesExec m e (appProcess abi))
    (h : m.tracingState = TracingState.tracing) :
    stopCause lp m (Event.wait e) = zygoteCause m abi e := by
  rw [stopCause, if_pos h]
  cases abi with
  | abi64 => rw [if_pos hsees]
  | abi32 =>
      have hother : ¬ SeesExec m e (appProcess Abi.abi64) := by
        intro hno
        cases appProcess_injective (hno.program_eq hsees)
      rw [if_neg hother, if_pos hsees]

/-- The cause that a zygote start has, from the answers of its two guards. -/
theorem zygoteCause_of_crash {abi : Abi}
    (h : MAX_RETRY_COUNT ≤ ((countedStart m abi e.now).counter abi).count) :
    zygoteCause m abi e = some StopCause.zygoteCrashed := by
  unfold zygoteCause
  rw [shouldStopInject_eq, if_pos (decide_eq_true h)]

theorem zygoteCause_of_daemonStep {abi : Abi} {m1 m2 : Monitor} {created : Bool}
    (h : ((countedStart m abi e.now).counter abi).count < MAX_RETRY_COUNT)
    (hkeep : Housekeeping (countedStart m abi e.now) m1)
    (hdaemon : DaemonStep m1 abi e.daemonFork created m2) :
    zygoteCause m abi e =
      if created then none else some StopCause.daemonNotRunning := by
  have hstatus : m1.status abi = m.status abi := by
    rw [hkeep.status]
    exact Monitor.status_setCounter m abi _ abi
  have hcreated := created_eq_daemonAvailable hdaemon
  rw [hstatus] at hcreated
  unfold zygoteCause
  rw [shouldStopInject_eq, if_neg, hcreated]
  rw [decide_eq_true_eq]
  exact Int.not_le.mpr h

theorem zygoteCause_congr {m1 : Monitor} (hkeep : Housekeeping m m1) (abi : Abi) :
    zygoteCause m1 abi e = zygoteCause m abi e := by
  unfold zygoteCause
  rw [hkeep.status, shouldStopInject_congr (hkeep.counter abi)]

theorem causeStep_congr {m1 : Monitor} {cause : Option StopCause}
    (hkeep : Housekeeping m m1) (h : CauseStep m1 m' cause) :
    CauseStep m m' cause where
  some := h.some
  none := by
    intro hnone
    have hsame := h.none hnone
    rw [hkeep.tracingState, hkeep.monitorStopReason] at hsame
    exact hsame

/-- Once the cause of the zygote start is known, the rest is the control
fields. -/
theorem causeStep_zygote {abi : Abi}
    (h : m.tracingState = TracingState.tracing)
    (hexec : ExecStep m e (appProcess abi) m') :
    CauseStep m m' (zygoteCause m abi e) := by
  cases hexec with
  | notTracing hnot => exact absurd h hnot
  | otherProgram hother => exact absurd rfl (hother abi)
  | crashed abi' _ hprogram hstop =>
      rw [appProcess_injective hprogram, zygoteCause_of_crash hstop]
      exact causeStep_some (fun hno => by cases hno) rfl
  | daemonDown abi' m1 m2 _ hprogram hstop hkeep hdaemon =>
      rw [appProcess_injective hprogram,
        zygoteCause_of_daemonStep hstop hkeep hdaemon]
      exact causeStep_some (fun hno => by cases hno) rfl
  | injecting abi' m1 m2 _ _ hprogram hstop hkeep hdaemon hstopped =>
      rw [appProcess_injective hprogram,
        zygoteCause_of_daemonStep hstop hkeep hdaemon]
      apply causeStep_none
      rw [hstopped.control, control_daemonStep hdaemon, hkeep.control,
        control_countedStart]
  | launched abi' m1 m2 m3 _ hprogram hstop hkeep hdaemon hstopped =>
      rw [appProcess_injective hprogram,
        zygoteCause_of_daemonStep hstop hkeep hdaemon]
      apply causeStep_none
      rw [control_emit, hstopped.control, control_daemonStep hdaemon,
        hkeep.control, control_countedStart]

theorem causeStep_execStep {program : List Byte} {m1 : Monitor}
    (hsees : SeesExec m e program) (hkeep : Housekeeping m m1)
    (hexec : ExecStep m1 e program m') :
    CauseStep m m' (stopCause lp m (Event.wait e)) := by
  rcases Decidable.em (m.tracingState = TracingState.tracing) with htracing | hnot
  · have htracing1 := hkeep.tracingState.trans htracing
    rcases Classical.em (exists abi, program = appProcess abi) with
      ⟨abi, heq⟩ | hother
    · rw [heq] at hsees hexec
      rw [stopCause_of_sees hsees htracing, ← zygoteCause_congr hkeep]
      exact causeStep_congr hkeep (causeStep_zygote htracing1 hexec)
    · have hnone : forall abi, ¬ SeesExec m e (appProcess abi) := by
        intro abi hsame
        exact hother ⟨abi, hsees.program_eq hsame⟩
      rw [stopCause_of_not_sees hnone]
      apply causeStep_congr hkeep
      cases hexec with
      | notTracing hno => exact absurd htracing1 hno
      | otherProgram _ => exact causeStep_none rfl
      | crashed abi _ heq _ => exact absurd ⟨abi, heq⟩ hother
      | daemonDown abi _ _ _ heq _ _ _ => exact absurd ⟨abi, heq⟩ hother
      | injecting abi _ _ _ _ heq _ _ _ _ => exact absurd ⟨abi, heq⟩ hother
      | launched abi _ _ _ _ heq _ _ _ _ => exact absurd ⟨abi, heq⟩ hother
  · rw [stopCause_of_not_tracing hnot]
    apply causeStep_congr hkeep
    have hnot1 : m1.tracingState ≠ TracingState.tracing := by
      rw [hkeep.tracingState]
      exact hnot
    cases hexec with
    | notTracing _ => exact causeStep_none rfl
    | otherProgram _ => exact causeStep_none rfl
    | crashed abi hno _ _ => exact absurd hno hnot1
    | daemonDown abi _ _ hno _ _ _ _ => exact absurd hno hnot1
    | injecting abi _ _ _ hno _ _ _ _ _ => exact absurd hno hnot1
    | launched abi _ _ _ hno _ _ _ _ _ => exact absurd hno hnot1

theorem causeStep_result (h : ResultStep m e m') :
    CauseStep m m' (stopCause lp m (Event.wait e)) := by
  cases h with
  | housekeeping _ hkeep hexec =>
      rw [stopCause_of_not_sees (fun abi => hexec (appProcess abi))]
      exact causeStep_none hkeep.control
  | detachInit m1 hkeep hstopping hpid =>
      rw [stopCause_of_not_sees (fun abi hsees => hsees.notInit hpid)]
      constructor
      · intro c hc
        cases hc
      · intro _
        refine ⟨?_, hkeep.monitorStopReason⟩
        intro hno
        rw [hstopping] at hno
        cases hno
  | daemonExit abi block m1 hkeep hcaught =>
      have hnone : forall abi', ¬ SeesExec m e (appProcess abi') := by
        intro abi' hsees
        rw [hsees.notDaemon abi] at hcaught
        cases hcaught
      rw [stopCause_of_not_sees hnone]
      apply causeStep_none
      rw [control_updateStatus, control_setStatus, hkeep.control]
  | exec program m1 m2 _ hsees hkeep hexec hreleased =>
      have hcause : CauseStep m m2 (stopCause lp m (Event.wait e)) :=
        causeStep_execStep hsees hkeep hexec
      constructor
      · intro c hc
        rw [hreleased.tracingState, hreleased.monitorStopReason]
        exact hcause.some c hc
      · intro hc
        rw [hreleased.tracingState, hreleased.monitorStopReason]
        exact hcause.none hc

end Exec

/-!
# The loop flag
-/

theorem running_of_control {m m' : Monitor} (h : m'.control = m.control) :
    m'.running = m.running := by
  unfold Monitor.control at h
  injection h with _ hrest
  injection hrest

theorem running_execStep {m m' : Monitor} {e : WaitEvent} {program : List Byte}
    (h : ExecStep m e program m') : m'.running = m.running := by
  cases h with
  | notTracing _ => rfl
  | otherProgram _ => rfl
  | crashed abi _ _ _ =>
      have hsame := running_of_control (control_countedStart m abi e.now)
      exact hsame
  | daemonDown abi m1 m2 _ _ _ hkeep hdaemon =>
      have hsame : m2.running = m.running := by
        apply running_of_control
        rw [control_daemonStep hdaemon, hkeep.control, control_countedStart]
      exact hsame
  | injecting abi m1 m2 _ _ _ _ hkeep hdaemon hstopped =>
      apply running_of_control
      rw [hstopped.control, control_daemonStep hdaemon, hkeep.control,
        control_countedStart]
  | launched abi m1 m2 m3 _ _ _ hkeep hdaemon hstopped =>
      apply running_of_control
      rw [control_emit, hstopped.control, control_daemonStep hdaemon,
        hkeep.control, control_countedStart]

theorem running_result {m m' : Monitor} {e : WaitEvent} (h : ResultStep m e m') :
    m'.running = m.running := by
  cases h with
  | housekeeping _ hkeep _ => exact hkeep.running
  | detachInit m1 hkeep _ _ => exact hkeep.running
  | daemonExit abi block m1 hkeep _ =>
      apply running_of_control
      rw [control_updateStatus, control_setStatus, hkeep.control]
  | exec program m1 m2 _ _ hkeep hexec hreleased =>
      have hsame : m2.running = m1.running := running_execStep hexec
      rw [hreleased.running, ← hkeep.running]
      exact hsame

/-- Every event of the monitor does what its cause says. -/
theorem causeStep_step {lp : Lp} {sysSigname : Nat -> List Byte} {m m' : Monitor}
    {event : Event} (h : step lp sysSigname m event = some m') :
    CauseStep m m' (stopCause lp m event) := by
  cases step_cases h with
  | rejected d hrejected =>
      rw [stopCause, hrejected]
      exact causeStep_none rfl
  | command d _ haccepted hcommand =>
      rw [stopCause, if_pos haccepted]
      exact causeStep_command hcommand
  | result e _ _ hresult => exact causeStep_result hresult

end InitMonitor
end ReZygisk
