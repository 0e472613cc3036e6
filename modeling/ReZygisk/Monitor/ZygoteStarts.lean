import Mathlib.Data.List.GetD
import Mathlib.Data.List.Induction
import ReZygisk.Monitor.StopCause

/-!
# Zygotes that start too often

For each ABI `should_stop_inject` keeps the time of its last call and counts
the calls that came soon after the one before.  Five in a row stop the
injection.  The count is that of a window over all calls so far, the first of
which is measured from time 0.
-/

namespace ReZygisk
namespace InitMonitor

open Foundation
open Kernel
open SigChldHandler

/-!
# The window
-/

/-- The time of call number `i`, with time 0 before the first one. -/
def callTime (times : List Int) (i : Nat) : Int :=
  (0 :: times).getD i 0

/-- Each of the last `k` calls came within 30 seconds of the one before. -/
def SoonAfter (times : List Int) (k : Nat) : Prop :=
  k ≤ times.length ∧ forall i, times.length < i + k -> i ≤ times.length ->
    callTime times i - callTime times (i - 1) < 30

/-- The last of the calls at these times is one too many. -/
def TooManyStarts (times : List Int) : Prop :=
  SoonAfter times 5

/-- The counter after one more call. -/
def ZygoteStartCounter.next (c : ZygoteStartCounter) (now : Int) :
    ZygoteStartCounter :=
  { last := now, count := if now - c.last < 30 then c.count + 1 else 0 }

/-- The counter after calls at these times. -/
def countStarts (times : List Int) : ZygoteStartCounter :=
  times.foldl ZygoteStartCounter.next {}

theorem next_count (c : ZygoteStartCounter) (now : Int) :
    (c.next now).count = if now - c.last < 30 then c.count + 1 else 0 := rfl

theorem countStarts_append (times : List Int) (now : Int) :
    countStarts (times ++ [now]) = (countStarts times).next now := by
  unfold countStarts
  rw [List.foldl_append, List.foldl_cons, List.foldl_nil]

theorem callTime_append {times : List Int} {i : Nat} (h : i ≤ times.length) (now : Int) :
    callTime (times ++ [now]) i = callTime times i := by
  unfold callTime
  rw [← List.cons_append, List.getD_append _ _ _ _ (Nat.lt_succ_of_le h)]

theorem callTime_last (times : List Int) (now : Int) :
    callTime (times ++ [now]) (times.length + 1) = now := by
  unfold callTime
  rw [List.getD_cons_succ, List.getD_append_right _ _ _ _ (Nat.le_refl _), Nat.sub_self]
  rfl

theorem countStarts_last (times : List Int) :
    (countStarts times).last = callTime times times.length := by
  induction times using List.reverseRecOn with
  | nil => rfl
  | append_singleton times now ih =>
      rw [countStarts_append, List.length_append, List.length_singleton, callTime_last]
      rfl

theorem soonAfter_zero (times : List Int) : SoonAfter times 0 := by
  constructor
  · exact Nat.zero_le _
  · intro i hlow hhigh
    exact absurd hlow (Nat.not_lt.mpr hhigh)

/-- One more call is one more of the last calls if it came soon. -/
theorem soonAfter_append_iff (times : List Int) (now : Int) (k : Nat) :
    SoonAfter (times ++ [now]) (k + 1) <->
      SoonAfter times k ∧ now - callTime times times.length < 30 := by
  have hlength : (times ++ [now]).length = times.length + 1 := by simp
  have hlast : callTime (times ++ [now]) (times.length + 1) -
      callTime (times ++ [now]) (times.length + 1 - 1) =
        now - callTime times times.length := by
    rw [callTime_last, Nat.add_sub_cancel, callTime_append (Nat.le_refl _)]
  have hbefore : forall i, i ≤ times.length ->
      callTime (times ++ [now]) i - callTime (times ++ [now]) (i - 1) =
        callTime times i - callTime times (i - 1) := by
    intro i hi
    rw [callTime_append hi, callTime_append ((Nat.sub_le i 1).trans hi)]
  unfold SoonAfter
  rw [hlength]
  constructor
  · intro h
    rcases h with ⟨hle, hsoon⟩
    constructor
    · constructor
      · exact Nat.le_of_succ_le_succ hle
      · intro i hlow hhigh
        rw [← hbefore i hhigh]
        exact hsoon i (Nat.succ_lt_succ hlow) (Nat.le_succ_of_le hhigh)
    · rw [← hlast]
      exact hsoon (times.length + 1) (by omega) (Nat.le_refl _)
  · intro h
    rcases h with ⟨⟨hle, hsoon⟩, hnow⟩
    constructor
    · exact Nat.succ_le_succ hle
    · intro i hlow hhigh
      rcases Nat.le_or_eq_of_le_succ hhigh with hi | hi
      · rw [hbefore i hi]
        exact hsoon i (by omega) hi
      · rw [hi, hlast]
        exact hnow

/-- The count is the number of calls, up to the last one, that came soon. -/
theorem le_count_iff (times : List Int) (k : Nat) :
    (k : Int) ≤ (countStarts times).count <-> SoonAfter times k := by
  induction times using List.reverseRecOn generalizing k with
  | nil =>
      constructor
      · intro h
        have hzero : k = 0 := Int.natCast_eq_zero.mp
          (Int.le_antisymm h (Int.natCast_nonneg k))
        rw [hzero]
        exact soonAfter_zero []
      · intro h
        have hzero : k = 0 := Nat.le_zero.mp h.left
        rw [hzero]
        exact Int.le_refl 0
  | append_singleton times now ih =>
      have hcount : 0 ≤ (countStarts times).count := (ih 0).mpr (soonAfter_zero times)
      rw [countStarts_append, next_count, countStarts_last]
      cases k with
      | zero =>
          have hsoon := soonAfter_zero (times ++ [now])
          simp only [hsoon, iff_true]
          split
          · exact Int.add_nonneg hcount (by decide)
          · exact Int.le_refl 0
      | succ k =>
          rw [soonAfter_append_iff, ← ih k, Int.natCast_succ]
          by_cases hnow : now - callTime times times.length < 30
          · rw [if_pos hnow, Int.add_le_add_iff_right]
            exact (and_iff_left hnow).symm
          · rw [if_neg hnow]
            constructor
            · intro hle
              exact absurd hle (by omega)
            · intro hno
              exact absurd hno.right hnow

/-- The count stays within an `int` for as many calls. -/
theorem count_le_length (times : List Int) :
    0 ≤ (countStarts times).count ∧ (countStarts times).count ≤ times.length := by
  have hnonneg := (le_count_iff times 0).mpr (soonAfter_zero times)
  have hself : SoonAfter times (countStarts times).count.toNat := by
    apply (le_count_iff times _).mp
    exact Int.le_of_eq (Int.toNat_of_nonneg hnonneg)
  constructor
  · exact hnonneg
  · have hle := hself.left
    omega

/-!
# The calls of a run
-/

/-- The time at which an event asks `should_stop_inject` for the ABI, if it
does. -/
def askedAt (abi : Abi) (m : Monitor) : Event -> List Int
  | Event.wait e =>
      if m.tracingState = TracingState.tracing ∧ SeesExec m e (appProcess abi) then
        [e.now]
      else []
  | Event.datagram _ => []

/-- The times at which `should_stop_inject` was asked for the ABI, along a run. -/
def startTimes (lp : Lp) (sysSigname : Nat -> List Byte) (abi : Abi) :
    Monitor -> List Event -> List Int :=
  (system lp sysSigname).history (fun times m event => times ++ askedAt abi m event) []

section Counter

variable (m : Monitor) (abi : Abi)

theorem counter_setStatus (abi' : Abi) (s : Status) :
    (m.setStatus abi' s).counter abi = m.counter abi := by
  cases abi' <;> cases abi <;> rfl

theorem counter_emit (e : Effect) : (m.emit e).counter abi = m.counter abi := by
  cases abi <;> rfl

theorem counter_updateStatus : (updateStatus m).counter abi = m.counter abi :=
  counter_emit m abi _

theorem counter_stopInjecting (reason : String) :
    (stopInjecting m reason).counter abi = m.counter abi := by
  cases abi <;> rfl

theorem counter_countedStart (abi' : Abi) (now : Int) :
    (countedStart m abi' now).counter abi =
      if abi' = abi then (m.counter abi).next now else m.counter abi := by
  cases abi' <;> cases abi <;> rfl

theorem shouldStopInject_next (now : Int) :
    (shouldStopInject m abi now).1 =
      decide (MAX_RETRY_COUNT ≤ ((m.counter abi).next now).count) := by
  rw [shouldStopInject_eq, counter_countedStart, if_pos rfl]

end Counter

section Step

variable {m m' : Monitor} {abi : Abi}

theorem counter_command {cmd : Option Command} (h : CommandStep m cmd m') :
    m'.counter abi = m.counter abi := by
  cases h with
  | unknown => rfl
  | nothingToStop _ => rfl
  | nothingToStart _ => exact counter_updateStatus m abi
  | cancelStop _ => cases abi <;> rfl
  | seizeInit _ => cases abi <;> rfl
  | requestStop _ => cases abi <;> rfl
  | exit => cases abi <;> rfl
  | mount => exact counter_emit m abi _
  | injected abi' => rw [counter_updateStatus, counter_setStatus]
  | info abi' block => rw [counter_updateStatus, counter_setStatus]
  | errorInfo abi' block => rw [counter_updateStatus, counter_setStatus]

theorem counter_daemonStep {abi' : Abi} {fork : Option ChildPid} {created : Bool}
    (h : DaemonStep m abi' fork created m') : m'.counter abi = m.counter abi := by
  cases h with
  | forkFailed _ _ => exact counter_setStatus m abi abi' _
  | forked _ pid _ => rw [counter_emit, counter_setStatus]
  | known _ => exact counter_setStatus m abi abi' _

/-- An exec counts for the ABI of the zygote, if the monitor traces. -/
theorem counter_execStep {e : WaitEvent} {program : List Byte}
    (h : ExecStep m e program m') :
    m'.counter abi =
      if m.tracingState = TracingState.tracing ∧ program = appProcess abi then
        (m.counter abi).next e.now
      else m.counter abi := by
  have hcounted : forall abi', m.tracingState = TracingState.tracing ->
      program = appProcess abi' ->
      (countedStart m abi' e.now).counter abi =
        if m.tracingState = TracingState.tracing ∧ program = appProcess abi then
          (m.counter abi).next e.now
        else m.counter abi := by
    intro abi' htracing hprogram
    rw [counter_countedStart]
    by_cases heq : abi' = abi
    · rw [if_pos heq, if_pos ⟨htracing, by rw [hprogram, heq]⟩]
    · have hother : program ≠ appProcess abi := by
        rw [hprogram]
        exact fun hno => heq (appProcess_injective hno)
      rw [if_neg heq, if_neg (fun hno => hother hno.right)]
  cases h with
  | notTracing hnot => rw [if_neg (fun hno => hnot hno.left)]
  | otherProgram hother => rw [if_neg (fun hno => hother abi hno.right)]
  | crashed abi' htracing hprogram _ =>
      rw [counter_stopInjecting]
      exact hcounted abi' htracing hprogram
  | daemonDown abi' m1 m2 htracing hprogram _ hkeep hdaemon =>
      rw [counter_stopInjecting, counter_daemonStep hdaemon, hkeep.counter]
      exact hcounted abi' htracing hprogram
  | injecting abi' m1 m2 _ htracing hprogram _ hkeep hdaemon hstopped =>
      rw [hstopped.counter, counter_daemonStep hdaemon, hkeep.counter]
      exact hcounted abi' htracing hprogram
  | launched abi' m1 m2 m3 htracing hprogram _ hkeep hdaemon hstopped =>
      rw [counter_emit, hstopped.counter, counter_daemonStep hdaemon, hkeep.counter]
      exact hcounted abi' htracing hprogram

theorem counter_result {e : WaitEvent} (h : ResultStep m e m') :
    m'.counter abi =
      (askedAt abi m (Event.wait e)).foldl ZygoteStartCounter.next (m.counter abi) := by
  have hunasked : ¬ (m.tracingState = TracingState.tracing ∧
      SeesExec m e (appProcess abi)) ->
      (askedAt abi m (Event.wait e)).foldl ZygoteStartCounter.next (m.counter abi) =
        m.counter abi := by
    intro hno
    rw [askedAt, if_neg hno, List.foldl_nil]
  cases h with
  | housekeeping _ hkeep hexec =>
      rw [hunasked (fun hno => hexec _ hno.right)]
      exact hkeep.counter abi
  | detachInit m1 hkeep hstopping _ =>
      have hnot : ¬ (m.tracingState = TracingState.tracing ∧
          SeesExec m e (appProcess abi)) := by
        intro hno
        rw [hstopping] at hno
        cases hno.left
      rw [hunasked hnot, ← hkeep.counter abi]
      cases abi <;> rfl
  | daemonExit abi' block m1 hkeep hcaught =>
      have hnot : ¬ (m.tracingState = TracingState.tracing ∧
          SeesExec m e (appProcess abi)) := by
        intro hno
        have hfree := hno.right.notDaemon abi'
        rw [hcaught] at hfree
        cases hfree
      rw [hunasked hnot, counter_updateStatus, counter_setStatus]
      exact hkeep.counter abi
  | exec program m1 m2 _ hsees hkeep hexec hreleased =>
      have hasked : m.tracingState = TracingState.tracing ∧
          SeesExec m e (appProcess abi) <->
          m1.tracingState = TracingState.tracing ∧ program = appProcess abi := by
        rw [hkeep.tracingState]
        constructor
        · intro hyes
          exact ⟨hyes.left, hsees.program_eq hyes.right⟩
        · intro hyes
          rw [← hyes.right]
          exact ⟨hyes.left, hsees⟩
      rw [hreleased.counter, counter_updateStatus, counter_execStep hexec, hkeep.counter,
        askedAt]
      by_cases hyes : m1.tracingState = TracingState.tracing ∧ program = appProcess abi
      · rw [if_pos hyes, if_pos (hasked.mpr hyes), List.foldl_cons, List.foldl_nil]
      · rw [if_neg hyes, if_neg (fun hno => hyes (hasked.mp hno)), List.foldl_nil]

/-- An event changes the counter of an ABI only by asking for it. -/
theorem counter_step {lp : Lp} {sysSigname : Nat -> List Byte} {event : Event}
    (h : step lp sysSigname m event = some m') :
    m'.counter abi =
      (askedAt abi m event).foldl ZygoteStartCounter.next (m.counter abi) := by
  cases step_cases h with
  | rejected d _ => rfl
  | command d _ _ hcommand => exact counter_command hcommand
  | result e _ _ hresult => exact counter_result hresult

end Step

/-!
# Every run
-/

section Run

variable (lp : Lp) (sysSigname : Nat -> List Byte) (preSection postSection : List Byte)

theorem counter_of_run {events : List Event} {m : Monitor}
    (hrun : (system lp sysSigname).run (initial preSection postSection) events = some m)
    (abi : Abi) :
    m.counter abi =
      countStarts (startTimes lp sysSigname abi (initial preSection postSection) events) := by
  refine TransitionSystem.history_invariant
    (I := fun times m => m.counter abi = countStarts times) ?_ ?_
    (TransitionSystem.alongRun_true _ _) hrun
  · intro times s event s' hs _ hstep
    rw [counter_step hstep, hs]
    unfold countStarts
    rw [List.foldl_append]
  · cases abi <;> rfl

/-- A call of `should_stop_inject` answers from the calls for its own ABI alone:
it says stop exactly if it is at least the fifth and each of the last five came
within 30 seconds of the one before, and then the injection is stopped.  No other
event changes the count. -/
theorem shouldStopInject_iff_tooManyStarts {events : List Event} {m : Monitor}
    (hrun : (system lp sysSigname).run (initial preSection postSection) events = some m)
    (abi : Abi) :
    (forall now, (shouldStopInject m abi now).1 = true <->
      TooManyStarts (startTimes lp sysSigname abi
        (initial preSection postSection) events ++ [now])) ∧
    (forall e m', step lp sysSigname m (Event.wait e) = some m' ->
      m.tracingState = TracingState.tracing -> SeesExec m e (appProcess abi) ->
      ((m'.tracingState ≠ TracingState.tracing ∧
          m'.monitorStopReason = bytesOf "zygote crashed") <->
        TooManyStarts (startTimes lp sysSigname abi
          (initial preSection postSection) events ++ [e.now]))) ∧
    forall event m', step lp sysSigname m event = some m' ->
      askedAt abi m event = [] -> m'.counter abi = m.counter abi := by
  have hanswer : forall now, (shouldStopInject m abi now).1 = true <->
      TooManyStarts (startTimes lp sysSigname abi
        (initial preSection postSection) events ++ [now]) := by
    intro now
    rw [shouldStopInject_next, decide_eq_true_eq,
      counter_of_run lp sysSigname preSection postSection hrun, ← countStarts_append]
    exact le_count_iff _ 5
  constructor
  · exact hanswer
  · constructor
    · intro e m' hstep htracing hsees
      have hcause := causeStep_step hstep
      rw [stopCause_of_sees hsees htracing, zygoteCause] at hcause
      rw [← hanswer e.now]
      cases hstop : (shouldStopInject m abi e.now).1 with
      | true =>
          rw [hstop] at hcause
          simp only [iff_true]
          exact hcause.some StopCause.zygoteCrashed rfl
      | false =>
          rw [hstop] at hcause
          simp only [Bool.false_eq_true, iff_false]
          intro hcrashed
          cases havailable : daemonAvailable (m.status abi) e.daemonFork with
          | true =>
              rw [havailable] at hcause
              exact hcrashed.left ((hcause.none rfl).left htracing)
          | false =>
              rw [havailable] at hcause
              have hreason := (hcause.some StopCause.daemonNotRunning rfl).right
              rw [hcrashed.right] at hreason
              exact absurd hreason (by decide)
    · intro event m' hstep hunasked
      rw [counter_step hstep, hunasked, List.foldl_nil]

end Run

/-- A zygote that starts at these times, with a new process each time. -/
def zygoteStarts (abi : Abi) (daemonFork : Option ChildPid) : Int -> List Int -> List Event
  | _, [] => []
  | pid, now :: rest =>
      Event.wait { pid := pid, status := stoppedStatus SIGSTOP PTRACE_EVENT_STOP } ::
        Event.wait
          { pid := pid, status := stoppedStatus SIGTRAP PTRACE_EVENT_EXEC,
            program := some (appProcess abi),
            now := now,
            daemonFork := daemonFork,
            stopStatus := stoppedStatus SIGSTOP 0 } ::
          zygoteStarts abi daemonFork (pid + 1) rest

/-- The first start is soon after boot and counts as well. -/
theorem tooManyStarts_fifth :
    exists m, (system Lp.lp64 (fun _ => [])).run (initial [] [])
        (zygoteStarts Abi.abi64 (some ⟨301, by decide⟩) 200 [20, 30, 40, 60]) = some m ∧
      (shouldStopInject m Abi.abi64 85).1 = true ∧
      TooManyStarts (startTimes Lp.lp64 (fun _ => []) Abi.abi64 (initial [] [])
        (zygoteStarts Abi.abi64 (some ⟨301, by decide⟩) 200 [20, 30, 40, 60]) ++ [85]) := by
  refine ⟨_, rfl, rfl, ?_⟩
  exact ((shouldStopInject_iff_tooManyStarts Lp.lp64 (fun _ => []) [] [] rfl
    Abi.abi64).left 85).mp rfl

end InitMonitor
end ReZygisk
