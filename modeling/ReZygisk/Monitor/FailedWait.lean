import ReZygisk.Monitor.StopCause

/-!
# A failed `waitpid`

When `waitpid` fails, the handler leaves its inner loop only if init is not
traced any more and there is nothing to wait for.  Otherwise the value -1 goes
on as if it were a pid: it is compared with daemon pids, of which -1 stands for
none, and then looked up in the set of processes.
-/

namespace ReZygisk
namespace InitMonitor

open Foundation
open Kernel

namespace SigChldHandler

/-!
# The handler

The outer loop reads signal records until there is none; the inner loop asks
`waitpid` until it answers 0.
-/

/-- `reads` says of each record that can be read whether it is a whole one of
`SIGCHLD`; `calls` counts the calls of `waitpid`. -/
structure HandlerState where
  reads : List Bool
  draining : Bool
  calls : Nat
  monitor : Monitor

section Handler

variable (sysSigname : Nat -> List Byte) (answers : Nat -> Option WaitEvent)

/-- One pass of whichever loop the handler is in.  `waitpid` answers 0 where
`answers` has no result. -/
def handleEventPass (s : HandlerState) :
    LoopStep HandlerState (Except Fault Monitor) :=
  if s.draining then
    match answers s.calls with
    | none => LoopStep.again { s with draining := false, calls := s.calls + 1 }
    | some e =>
        match handleWait sysSigname s.monitor e with
        | WaitStep.next m =>
            LoopStep.again { s with calls := s.calls + 1, monitor := m }
        | WaitStep.leave m =>
            LoopStep.again
              { s with draining := false, calls := s.calls + 1, monitor := m }
        | WaitStep.dead f => LoopStep.done (Except.error f)
  else
    match s.reads with
    | [] => LoopStep.done (Except.ok s.monitor)
    | child :: rest => LoopStep.again { s with reads := rest, draining := child }

def HandleEventReturns (reads : List Bool) (m m' : Monitor) : Prop :=
  LoopReturns (handleEventPass sysSigname answers)
    { reads := reads, draining := false, calls := 0, monitor := m }
    (Except.ok m')

end Handler

/-- Every `waitpid` fails with `ECHILD`. -/
def KeepsFailing (answers : Nat -> Option WaitEvent) : Prop :=
  forall n, exists e, answers n = some e ∧ e.pid = -1 ∧ e.echild = true

/-- A failed `waitpid` ends the inner loop and changes nothing: no entry of the
set of processes, no record, no request to the kernel and no status file.  If it
keeps failing with `ECHILD`, the handler returns. -/
structure EndsDraining (sysSigname : Nat -> List Byte) (m : Monitor)
    (e : WaitEvent) : Prop where
  ends : exists m', handleWait sysSigname m e = WaitStep.leave m' ∧
    m'.process = m.process ∧ m'.status64 = m.status64 ∧
    m'.status32 = m.status32 ∧ m'.tracingState = m.tracingState ∧
    m'.effects = m.effects
  returns : forall answers, KeepsFailing answers -> forall reads,
    exists m', HandleEventReturns sysSigname answers reads m m'

/-!
# With init not traced
-/

variable {sysSigname : Nat -> List Byte} {answers : Nat -> Option WaitEvent}

theorem handleWait_of_leaves {m : Monitor} {e : WaitEvent} (h : leaves m e) :
    handleWait sysSigname m e = WaitStep.leave m := by
  unfold handleWait
  unfold leaves at h
  rw [if_pos h]

theorem handleEventPass_leaves (hfail : KeepsFailing answers) {m : Monitor}
    (hstopped : m.tracingState = TracingState.stopped) (reads : List Bool)
    (calls : Nat) :
    handleEventPass sysSigname answers ⟨reads, true, calls, m⟩ =
      LoopStep.again ⟨reads, false, calls + 1, m⟩ := by
  rcases hfail calls with ⟨e, he, hpid, hechild⟩
  have hleave : handleWait sysSigname m e = WaitStep.leave m :=
    handleWait_of_leaves ⟨hpid, hstopped, hechild⟩
  simp [handleEventPass, he, hleave]

theorem handleEventPass_reads (child : Bool) (rest : List Bool) (calls : Nat)
    (m : Monitor) :
    handleEventPass sysSigname answers ⟨child :: rest, false, calls, m⟩ =
      LoopStep.again ⟨rest, child, calls, m⟩ := rfl

theorem returns_of_stopped (hfail : KeepsFailing answers) {m : Monitor}
    (hstopped : m.tracingState = TracingState.stopped) (reads : List Bool)
    (calls : Nat) :
    LoopReturns (handleEventPass sysSigname answers) ⟨reads, false, calls, m⟩
      (Except.ok m) := by
  induction reads generalizing calls with
  | nil => exact loopReturns_of_done rfl
  | cons child rest ih =>
      rw [loopReturns_again_iff (handleEventPass_reads child rest calls m)]
      cases child with
      | false => exact ih calls
      | true =>
          rw [loopReturns_again_iff
            (handleEventPass_leaves hfail hstopped rest calls)]
          exact ih (calls + 1)

/-!
# With init traced, or about to be let go
-/

theorem not_stopped_of_execStep {m m' : Monitor} {e : WaitEvent}
    {program : List Byte} (h : ExecStep m e program m')
    (hstate : m.tracingState ≠ TracingState.stopped) :
    m'.tracingState ≠ TracingState.stopped := by
  have htracing : forall {m1 : Monitor}, m1.control = m.control ->
      m1.tracingState ≠ TracingState.stopped := by
    intro m1 hcontrol
    unfold Monitor.control at hcontrol
    injection hcontrol with hsame _
    rw [hsame]
    exact hstate
  cases h with
  | notTracing _ => exact hstate
  | otherProgram _ => exact hstate
  | crashed abi _ _ _ =>
      intro hno
      cases hno
  | daemonDown abi m1 m2 _ _ _ _ _ =>
      intro hno
      cases hno
  | injecting abi m1 m2 _ _ _ _ hkeep hdaemon hstopped =>
      apply htracing
      rw [hstopped.control, control_daemonStep hdaemon, hkeep.control,
        control_countedStart]
  | launched abi m1 m2 m3 _ _ _ hkeep hdaemon hstopped =>
      apply htracing
      rw [control_emit, hstopped.control, control_daemonStep hdaemon,
        hkeep.control, control_countedStart]

/-- Only a result for init can end the tracing of init. -/
theorem not_stopped_of_resultStep {m m' : Monitor} {e : WaitEvent}
    (h : ResultStep m e m') (hpid : e.pid ≠ 1)
    (hstate : m.tracingState ≠ TracingState.stopped) :
    m'.tracingState ≠ TracingState.stopped := by
  cases h with
  | housekeeping _ hkeep _ =>
      rw [hkeep.tracingState]
      exact hstate
  | detachInit m1 _ _ hinit => exact absurd hinit hpid
  | daemonExit abi block m1 hkeep _ =>
      rw [tracingState_updateStatus, Monitor.tracingState_setStatus,
        hkeep.tracingState]
      exact hstate
  | exec program m1 m2 _ _ hkeep hexec hreleased =>
      rw [hreleased.tracingState, tracingState_updateStatus]
      rw [← hkeep.tracingState] at hstate
      exact not_stopped_of_execStep hexec hstate

/-- Unless init has been let go, a failed `waitpid` does not end the inner
loop, and init is not let go by it. -/
theorem handleWait_failed (sysSigname : Nat -> List Byte) {m : Monitor}
    {e : WaitEvent} (hpid : e.pid = -1)
    (hstate : m.tracingState ≠ TracingState.stopped) :
    (exists m', handleWait sysSigname m e = WaitStep.next m' ∧
      m'.tracingState ≠ TracingState.stopped) ∨
    exists f, handleWait sysSigname m e = WaitStep.dead f := by
  have hstays : ¬ leaves m e := fun hleaves => hstate hleaves.right.left
  have hinit : e.pid ≠ 1 := by
    rw [hpid]
    decide
  cases hresult : handleResult sysSigname (takeWait m e) e with
  | ok m' =>
      have hwait : handleWait sysSigname m e = WaitStep.next m' := by
        unfold handleWait
        unfold leaves at hstays
        rw [if_neg hstays, hresult]
      exact Or.inl ⟨m', hwait, not_stopped_of_resultStep
        (resultStep_handleResult hstays hresult) hinit hstate⟩
  | error f =>
      have hwait : handleWait sysSigname m e = WaitStep.dead f := by
        unfold handleWait
        unfold leaves at hstays
        rw [if_neg hstays, hresult]
      exact Or.inr ⟨f, hwait⟩

/-- Once it asks a `waitpid` that keeps failing, the handler does not return. -/
theorem not_returns_of_not_stopped (hfail : KeepsFailing answers) {m : Monitor}
    (hstate : m.tracingState ≠ TracingState.stopped) (reads : List Bool)
    (calls : Nat) (m' : Monitor) :
    ¬ LoopReturns (handleEventPass sysSigname answers) ⟨reads, true, calls, m⟩
      (Except.ok m') := by
  apply not_loopReturns_of_invariant
    (I := fun s => s.draining = true ∧
      s.monitor.tracingState ≠ TracingState.stopped)
  · intro s hs
    rcases hs with ⟨hdraining, hs⟩
    rcases hfail s.calls with ⟨e, he, hpid, _⟩
    rcases handleWait_failed sysSigname hpid hs with ⟨m1, hnext, hm1⟩ | ⟨f, hdead⟩
    · left
      refine ⟨{ s with calls := s.calls + 1, monitor := m1 }, ?_, hdraining, hm1⟩
      simp [handleEventPass, hdraining, he, hnext]
    · right
      refine ⟨Except.error f, ?_, ?_⟩
      · simp [handleEventPass, hdraining, he, hdead]
      · intro hno
        cases hno
  · exact ⟨rfl, hstate⟩

/-!
# When the contract is met
-/

theorem endsDraining_iff_leaves {m : Monitor} {e : WaitEvent} (hpid : e.pid = -1) :
    EndsDraining sysSigname m e <->
      m.tracingState = TracingState.stopped ∧ e.echild = true := by
  constructor
  · intro h
    rcases h.ends with ⟨m', hleave, _⟩
    by_contra hno
    have hstays : ¬ leaves m e := fun hleaves => hno hleaves.right
    unfold handleWait at hleave
    unfold leaves at hstays
    rw [if_neg hstays] at hleave
    split at hleave <;> cases hleave
  · intro h
    constructor
    · exact ⟨m, handleWait_of_leaves ⟨hpid, h⟩, rfl, rfl, rfl, rfl, rfl⟩
    · intro answers hfail reads
      exact ⟨m, returns_of_stopped hfail h.left reads 0⟩

end SigChldHandler

open SigChldHandler

/-- In every run, the failed calls of `waitpid` end the inner loop and leave no
trace exactly when each of them happens with init let go and with nothing left
to wait for. -/
theorem failedWaits_end_iff (lp : Lp) (sysSigname : Nat -> List Byte)
    (preSection postSection : List Byte) (events : List Event) :
    (system lp sysSigname).AlongRun
        (fun m event => forall e, event = Event.wait e -> e.pid = -1 ->
          EndsDraining sysSigname m e)
        (initial preSection postSection) events <->
      (system lp sysSigname).AlongRun
        (fun m event => forall e, event = Event.wait e -> e.pid = -1 ->
          m.tracingState = TracingState.stopped ∧ e.echild = true)
        (initial preSection postSection) events := by
  apply TransitionSystem.alongRun_iff (I := fun _ => True)
  · intro _ _ _ _ _
    trivial
  · intro m event _ _
    constructor
    · intro h e he hpid
      exact (endsDraining_iff_leaves hpid).mp (h e he hpid)
    · intro h e he hpid
      exact (endsDraining_iff_leaves hpid).mpr (h e he hpid)
  · trivial

/-- A monitor that could not seize init has nothing to wait for: it takes -1 for
a new process, and after one `SIGCHLD` its handler does not return. -/
theorem not_failedWait_ends_initial :
    (¬ (system Lp.lp64 (fun _ => [])).AlongRun
      (fun m event => forall e, event = Event.wait e -> e.pid = -1 ->
        EndsDraining (fun _ => []) m e)
      (initial [] []) [Event.wait { pid := -1, status := 0, echild := true }]) ∧
    forall m', ¬ HandleEventReturns (fun _ => [])
      (fun _ => some { pid := -1, status := 0, echild := true }) [true]
      (initial [] []) m' := by
  constructor
  · intro h
    have hends := h.left _ rfl rfl
    have hstopped := ((endsDraining_iff_leaves rfl).mp hends).left
    cases hstopped
  · intro m' h
    have hread := (loopReturns_again_iff (handleEventPass_reads _ _ _ _)).mp h
    refine not_returns_of_not_stopped ?_ ?_ [] 0 m' hread
    · intro n
      exact ⟨_, rfl, rfl, rfl⟩
    · intro hstopped
      cases hstopped

end InitMonitor
end ReZygisk
