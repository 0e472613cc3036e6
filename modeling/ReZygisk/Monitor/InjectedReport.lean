import ReZygisk.Monitor.Transitions

/-!
# The injected report

`ZYGOTE<ABI>_INJECTED` sets a flag that the start of the next zygote should
clear.  Only `ensure_daemon_created` clears it, and an exec that is handled
while the monitor is not tracing, or past the restart limit, does not get that
far.
-/

namespace ReZygisk
namespace InitMonitor

open Foundation
open Kernel
open SigChldHandler

def handlesExec (abi : Abi) (m : Monitor) : Event -> Bool
  | Event.wait e => decide (SeesExec m e (appProcess abi))
  | Event.datagram _ => false

def reportsInjected (lp : Lp) (abi : Abi) : Event -> Bool
  | Event.wait _ => false
  | Event.datagram d =>
      SocketHandler.accepted lp d &&
        decide (Command.ofCode (SocketHandler.peekHead d).cmd =
          some (Command.zygoteInjected abi))

/-- Whether a zygote of the ABI has been seen to start since the last report of
an injection, along a run. -/
def startedSinceReport (lp : Lp) (sysSigname : Nat -> List Byte) (abi : Abi) :
    Monitor -> List Event -> Bool :=
  (system lp sysSigname).history
    (fun seen m event =>
      !reportsInjected lp abi event && (seen || handlesExec abi m event))
    false

/-- The step handles the exec of a zygote whose flag is set and does not reach
`ensure_daemon_created`. -/
def SkipsClearing (abi : Abi) (m : Monitor) (event : Event) : Prop :=
  exists e, event = Event.wait e ∧ SeesExec m e (appProcess abi) ∧
    (m.status abi).zygoteInjected = true ∧
    (m.tracingState ≠ TracingState.tracing ∨
      (shouldStopInject m abi e.now).1 = true)

/-!
# The flag across one event
-/

/-- A record that keeps the flag of its ABI keeps the flags. -/
theorem injected_setStatus_same {m : Monitor} (abi abi' : Abi) {s : Status}
    (h : s.zygoteInjected = (m.status abi').zygoteInjected) :
    ((m.setStatus abi' s).status abi).zygoteInjected =
      (m.status abi).zygoteInjected := by
  rcases Decidable.em (abi = abi') with heq | hne
  · rw [heq, Monitor.status_setStatus]
    exact h
  · rw [Monitor.status_setStatus_of_ne _ _ hne]

theorem injected_command {m m' : Monitor} {cmd : Option Command} {abi : Abi}
    (h : CommandStep m cmd m') (hnot : cmd ≠ some (Command.zygoteInjected abi)) :
    (m'.status abi).zygoteInjected = (m.status abi).zygoteInjected := by
  have hchange := h.recordChange abi
  generalize m'.status abi = s at hchange
  cases hchange with
  | kept _ => rfl
  | injected => exact absurd rfl hnot
  | info block => rfl
  | errorInfo block => rfl

theorem injected_daemonStep {m m' : Monitor} {abi : Abi} {fork : Option ChildPid}
    {created : Bool} (h : DaemonStep m abi fork created m') :
    (m'.status abi).zygoteInjected = false := by
  cases h with
  | forkFailed _ _ => rw [Monitor.status_setStatus]
  | forked _ pid _ => rw [Monitor.status_emit, Monitor.status_setStatus]
  | known _ => rw [Monitor.status_setStatus]

theorem injected_daemonStep_other {m m' : Monitor} {abi abi' : Abi}
    (hne : abi ≠ abi') {fork : Option ChildPid} {created : Bool}
    (h : DaemonStep m abi' fork created m') :
    m'.status abi = m.status abi := by
  cases h with
  | forkFailed _ _ => exact Monitor.status_setStatus_of_ne _ _ hne
  | forked _ pid _ =>
      rw [Monitor.status_emit]
      exact Monitor.status_setStatus_of_ne _ _ hne
  | known _ => exact Monitor.status_setStatus_of_ne _ _ hne

theorem injected_execStep {m m' : Monitor} {e : WaitEvent} {program : List Byte}
    {abi : Abi} (h : ExecStep m e program m')
    (hset : (m'.status abi).zygoteInjected = true) :
    (m.status abi).zygoteInjected = true ∧
      (program = appProcess abi ->
        m.tracingState ≠ TracingState.tracing ∨
          (shouldStopInject m abi e.now).1 = true) := by
  have hcounted : forall abi',
      (countedStart m abi' e.now).status abi = m.status abi :=
    fun abi' => Monitor.status_setCounter m abi' _ abi
  -- Past `ensure_daemon_created` the flag of the started zygote is clear.
  have hcreated : forall (abi' : Abi) (m1 m2 : Monitor) (created : Bool),
      program = appProcess abi' -> Housekeeping (countedStart m abi' e.now) m1 ->
      DaemonStep m1 abi' e.daemonFork created m2 ->
      (m2.status abi).zygoteInjected = true ->
      (m.status abi).zygoteInjected = true ∧ program ≠ appProcess abi := by
    intro abi' m1 m2 created hprogram hkeep hdaemon hm2
    rcases Decidable.em (abi = abi') with heq | hne
    · rw [heq, injected_daemonStep hdaemon] at hm2
      cases hm2
    · rw [injected_daemonStep_other hne hdaemon, hkeep.status, hcounted] at hm2
      refine ⟨hm2, ?_⟩
      intro hsame
      exact hne (appProcess_injective (hsame.symm.trans hprogram))
  cases h with
  | notTracing htracing => exact ⟨hset, fun _ => Or.inl htracing⟩
  | otherProgram hother => exact ⟨hset, fun hsame => absurd hsame (hother abi)⟩
  | crashed abi' _ hprogram hstop =>
      have hkept : (stopInjecting (countedStart m abi' e.now)
          "zygote crashed").status abi = m.status abi := by
        rw [← hcounted abi']
        cases abi <;> rfl
      rw [hkept] at hset
      refine ⟨hset, ?_⟩
      intro hsame
      rw [appProcess_injective (hsame.symm.trans hprogram)]
      right
      apply decide_eq_true
      cases abi' <;> exact hstop
  | daemonDown abi' m1 m2 _ hprogram _ hkeep hdaemon =>
      have hm2 : (m2.status abi).zygoteInjected = true := by
        cases abi <;> exact hset
      rcases hcreated abi' m1 m2 false hprogram hkeep hdaemon hm2 with
        ⟨hbefore, hother⟩
      exact ⟨hbefore, fun hsame => absurd hsame hother⟩
  | injecting abi' m1 m2 _ _ hprogram _ hkeep hdaemon hstopped =>
      rw [hstopped.status] at hset
      rcases hcreated abi' m1 m2 true hprogram hkeep hdaemon hset with
        ⟨hbefore, hother⟩
      exact ⟨hbefore, fun hsame => absurd hsame hother⟩
  | launched abi' m1 m2 m3 _ hprogram _ hkeep hdaemon hstopped =>
      rw [Monitor.status_emit, hstopped.status] at hset
      rcases hcreated abi' m1 m2 true hprogram hkeep hdaemon hset with
        ⟨hbefore, hother⟩
      exact ⟨hbefore, fun hsame => absurd hsame hother⟩

/-- A set flag was set before, by an event that is neither a report nor the
start of a zygote, unless the event skips the clearing. -/
theorem injected_result {m m' : Monitor} {e : WaitEvent} {abi : Abi}
    (h : ResultStep m e m') (hset : (m'.status abi).zygoteInjected = true)
    (hclears : ¬ SkipsClearing abi m (Event.wait e)) :
    (m.status abi).zygoteInjected = true ∧ ¬ SeesExec m e (appProcess abi) := by
  cases h with
  | housekeeping _ hkeep hexec =>
      rw [hkeep.status] at hset
      exact ⟨hset, hexec _⟩
  | detachInit m1 hkeep _ hpid =>
      have hbefore : (m1.status abi).zygoteInjected = true := by
        cases abi <;> exact hset
      rw [hkeep.status] at hbefore
      exact ⟨hbefore, fun hsees => hsees.notInit hpid⟩
  | daemonExit abi' block m1 hkeep hcaught =>
      rw [status_updateStatus] at hset
      have hbefore : (m1.status abi).zygoteInjected = true := by
        rw [← hset]
        symm
        exact injected_setStatus_same abi abi' rfl
      rw [hkeep.status] at hbefore
      refine ⟨hbefore, ?_⟩
      intro hsees
      rw [hsees.notDaemon abi'] at hcaught
      cases hcaught
  | exec program m1 m2 _ hsees hkeep hexec hreleased =>
      rw [hreleased.status, status_updateStatus] at hset
      rcases injected_execStep hexec hset with ⟨hbefore, hskips⟩
      rw [hkeep.status] at hbefore
      rw [hkeep.tracingState, shouldStopInject_congr (hkeep.counter abi)] at hskips
      refine ⟨hbefore, ?_⟩
      intro hsame
      exact hclears ⟨e, rfl, hsame, hbefore, hskips (hsees.program_eq hsame)⟩

/-!
# The flag along a run
-/

section Run

variable (lp : Lp) (sysSigname : Nat -> List Byte) (abi : Abi)

theorem injected_step {m m' : Monitor} {event : Event}
    (h : step lp sysSigname m event = some m')
    (hset : (m'.status abi).zygoteInjected = true)
    (hclears : ¬ SkipsClearing abi m event) :
    reportsInjected lp abi event = true ∨
      ((m.status abi).zygoteInjected = true ∧ handlesExec abi m event = false) := by
  cases step_cases h with
  | rejected d _ => exact Or.inr ⟨hset, rfl⟩
  | command d _ haccepted hcommand =>
      rcases Decidable.em (Command.ofCode (SocketHandler.peekHead d).cmd =
        some (Command.zygoteInjected abi)) with hreport | hother
      · exact Or.inl (Bool.and_eq_true_iff.mpr ⟨haccepted, decide_eq_true hreport⟩)
      · rw [injected_command hcommand hother] at hset
        exact Or.inr ⟨hset, rfl⟩
  | result e _ _ hresult =>
      rcases injected_result hresult hset hclears with ⟨hbefore, hnot⟩
      exact Or.inr ⟨hbefore, decide_eq_false hnot⟩

/-- While the monitor traces, a zygote shown as injected is the latest one that
was seen to start. -/
def InjectedReportCurrent (events : List Event) (m m' : Monitor) : Prop :=
  m'.tracingState = TracingState.tracing ->
  (m'.status abi).zygoteInjected = true ->
  startedSinceReport lp sysSigname abi m events = false

/-- In a run in which every exec of a zygote reported as injected reaches
`ensure_daemon_created`, the report stays current. -/
theorem injectedReportCurrent_of_clearing (preSection postSection : List Byte)
    (events : List Event) (m' : Monitor)
    (hrun : (system lp sysSigname).run (initial preSection postSection) events =
      some m')
    (hclears : (system lp sysSigname).AlongRun
      (fun m event => ¬ SkipsClearing abi m event)
      (initial preSection postSection) events) :
    InjectedReportCurrent lp sysSigname abi events
      (initial preSection postSection) m' := by
  have hcurrent := TransitionSystem.history_invariant
    (I := fun seen m => (m.status abi).zygoteInjected = true -> seen = false)
    (f := fun seen m event =>
      !reportsInjected lp abi event && (seen || handlesExec abi m event))
    (g := false) ?_ (fun _ => rfl) hclears hrun
  · intro _ hset
    exact hcurrent hset
  · intro seen m event m1 hseen hskips hstep hset
    rcases injected_step lp sysSigname abi hstep hset hskips with
      hreport | ⟨hbefore, hnot⟩
    · rw [hreport]
      rfl
    · rw [hseen hbefore, hnot, Bool.or_false, Bool.and_false]

end Run

/-- A first zygote starts and is reported as injected; init forks a second one,
tracing is stopped, the second one execs, and tracing is started again. -/
def restartWhileStopped : List Event :=
  [ Event.wait { pid := 200, status := stoppedStatus SIGSTOP PTRACE_EVENT_STOP },
    Event.wait
      { pid := 200, status := stoppedStatus SIGTRAP PTRACE_EVENT_EXEC,
        program := some (appProcess Abi.abi64),
        now := 100,
        daemonFork := some ⟨300, by decide⟩,
        stopStatus := stoppedStatus SIGSTOP 0 },
    Event.datagram [4, 0, 0, 0],
    Event.wait { pid := 201, status := stoppedStatus SIGSTOP PTRACE_EVENT_STOP },
    Event.datagram [2, 0, 0, 0],
    Event.wait
      { pid := 201, status := stoppedStatus SIGTRAP PTRACE_EVENT_EXEC,
        program := some (appProcess Abi.abi64),
        now := 200 },
    Event.datagram [1, 0, 0, 0] ]

theorem not_injectedReportCurrent_restart :
    exists m', (system Lp.lp64 (fun _ => [])).run (initial [] [])
        restartWhileStopped = some m' ∧
      ¬ InjectedReportCurrent Lp.lp64 (fun _ => []) Abi.abi64 restartWhileStopped
        (initial [] []) m' := by
  refine ⟨_, rfl, ?_⟩
  intro h
  have hstale : startedSinceReport Lp.lp64 (fun _ => []) Abi.abi64
      (initial [] []) restartWhileStopped = true := rfl
  rw [h rfl rfl] at hstale
  cases hstale

/-- The same start without the second exec. -/
theorem injectedReportCurrent_first_zygote :
    exists m', (system Lp.lp64 (fun _ => [])).run (initial [] [])
        (restartWhileStopped.take 3) = some m' ∧
      (m'.status Abi.abi64).zygoteInjected = true ∧
      InjectedReportCurrent Lp.lp64 (fun _ => []) Abi.abi64
        (restartWhileStopped.take 3) (initial [] []) m' := by
  refine ⟨_, rfl, rfl, injectedReportCurrent_of_clearing Lp.lp64 (fun _ => [])
    Abi.abi64 [] [] (restartWhileStopped.take 3) _ rfl ?_⟩
  have hclear : forall (m : Monitor) (event : Event),
      (m.status Abi.abi64).zygoteInjected = false ->
      ¬ SkipsClearing Abi.abi64 m event := by
    intro m event hno hskips
    rcases hskips with ⟨_, _, _, hyes, _⟩
    rw [hno] at hyes
    cases hyes
  refine ⟨hclear _ _ rfl, ?_⟩
  intro m1 h1
  injection h1 with h1
  rw [← h1]
  refine ⟨hclear _ _ rfl, ?_⟩
  intro m2 h2
  injection h2 with h2
  rw [← h2]
  exact ⟨hclear _ _ rfl, fun _ _ => trivial⟩

end InitMonitor
end ReZygisk
