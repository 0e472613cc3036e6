import Mathlib.Logic.Relation
import ReZygisk.Monitor.System

/-!
# Everything one event can do

The two handlers share the monitor's globals, so an invariant of the monitor has
to survive every branch of both.  This module lists the branches once, with
their guards and the state each of them leaves behind.
-/

namespace ReZygisk
namespace InitMonitor

open Foundation
open Kernel
open SigChldHandler

/-!
# Commands
-/

def userRequested : List Byte := bytesOf "user requested"

/-- What the command of an accepted datagram does. -/
inductive CommandStep (m : Monitor) : Option Command -> Monitor -> Prop where
  | unknown : CommandStep m none m
  | cancelStop (h : m.tracingState = TracingState.stopping) :
      CommandStep m (some Command.start)
        (updateStatus { m with tracingState := TracingState.tracing })
  | seizeInit (h : m.tracingState = TracingState.stopped) :
      CommandStep m (some Command.start)
        (updateStatus { m.emit (Effect.seize 1) with
          tracingState := TracingState.tracing })
  | nothingToStart
      (h : m.tracingState = TracingState.tracing ∨
        m.tracingState = TracingState.exiting) :
      CommandStep m (some Command.start) (updateStatus m)
  | requestStop (h : m.tracingState = TracingState.tracing) :
      CommandStep m (some Command.stop)
        (updateStatus ({ m with
          tracingState := TracingState.stopping
          monitorStopReason := userRequested }.emit (Effect.interrupt 1)))
  | nothingToStop (h : m.tracingState ≠ TracingState.tracing) :
      CommandStep m (some Command.stop) m
  | exit :
      CommandStep m (some Command.exit)
        { updateStatus { m with
            tracingState := TracingState.exiting
            monitorStopReason := userRequested } with
          running := false }
  | injected (abi : Abi) :
      CommandStep m (some (Command.zygoteInjected abi))
        (updateStatus
          (m.setStatus abi { m.status abi with zygoteInjected := true }))
  | info (abi : Abi) (block : List Byte) :
      CommandStep m (some (Command.daemonSetInfo abi))
        (updateStatus
          (m.setStatus abi { m.status abi with daemonInfo := some block }))
  | errorInfo (abi : Abi) (block : List Byte) :
      CommandStep m (some (Command.daemonSetErrorInfo abi))
        (updateStatus (m.setStatus abi { m.status abi with
          daemonRunning := false
          daemonErrorInfo := some block }))
  | mount :
      CommandStep m (some Command.systemServerStarted) (m.emit Effect.mountProp)

theorem commandStep_start (m : Monitor) {m' : Monitor}
    (h : SocketHandler.handleMsg m ⟨1, 0⟩ [] = Except.ok m') :
    CommandStep m (some Command.start) m' := by
  injection h with h
  rw [← h]
  cases hstate : m.tracingState with
  | tracing => exact CommandStep.nothingToStart (Or.inl hstate)
  | stopping => exact CommandStep.cancelStop hstate
  | stopped => exact CommandStep.seizeInit hstate
  | exiting => exact CommandStep.nothingToStart (Or.inr hstate)

theorem commandStep_of_handleMsg {m m' : Monitor}
    {head : SocketHandler.MsgHead} {data : List Byte}
    (h : SocketHandler.handleMsg m head data = Except.ok m') :
    CommandStep m (Command.ofCode head.cmd) m' := by
  rw [SocketHandler.handleMsg] at h
  cases hcmd : Command.ofCode head.cmd with
  | none =>
      rw [hcmd] at h
      injection h with h
      rw [← h]
      exact CommandStep.unknown
  | some cmd =>
      rw [hcmd] at h
      cases cmd with
      | start => exact commandStep_start m h
      | stop =>
          simp only at h
          split at h
          · rename_i htracing
            injection h with h
            rw [← h]
            exact CommandStep.requestStop htracing
          · rename_i htracing
            injection h with h
            rw [← h]
            exact CommandStep.nothingToStop htracing
      | exit =>
          injection h with h
          rw [← h]
          exact CommandStep.exit
      | zygoteInjected abi =>
          injection h with h
          rw [← h]
          exact CommandStep.injected abi
      | daemonSetInfo abi =>
          simp only at h
          split at h
          · cases h
          · injection h with h
            rw [← h]
            exact CommandStep.info abi _
      | daemonSetErrorInfo abi =>
          simp only at h
          split at h
          · cases h
          · injection h with h
            rw [← h]
            exact CommandStep.errorInfo abi _
      | systemServerStarted =>
          injection h with h
          rw [← h]
          exact CommandStep.mount

/-- What a command may make of the record of an ABI. -/
inductive RecordChange (m : Monitor) (abi : Abi) : Option Command -> Status -> Prop where
  | kept (cmd : Option Command) : RecordChange m abi cmd (m.status abi)
  | injected :
      RecordChange m abi (some (Command.zygoteInjected abi))
        { m.status abi with zygoteInjected := true }
  | info (block : List Byte) :
      RecordChange m abi (some (Command.daemonSetInfo abi))
        { m.status abi with daemonInfo := some block }
  | errorInfo (block : List Byte) :
      RecordChange m abi (some (Command.daemonSetErrorInfo abi))
        { m.status abi with
          daemonRunning := false
          daemonErrorInfo := some block }

theorem CommandStep.recordChange {m m' : Monitor} {cmd : Option Command}
    (h : CommandStep m cmd m') (abi : Abi) :
    RecordChange m abi cmd (m'.status abi) := by
  have hkept : forall m1 : Monitor, m1.status abi = m.status abi ->
      RecordChange m abi cmd (m1.status abi) := by
    intro m1 heq
    rw [heq]
    exact RecordChange.kept cmd
  have hset : forall abi' s, RecordChange m abi' cmd s ->
      RecordChange m abi cmd ((updateStatus (m.setStatus abi' s)).status abi) := by
    intro abi' s hs
    rw [status_updateStatus]
    rcases Decidable.em (abi = abi') with heq | hne
    · rw [heq, Monitor.status_setStatus]
      exact hs
    · rw [Monitor.status_setStatus_of_ne _ _ hne]
      exact RecordChange.kept cmd
  cases h with
  | unknown => exact hkept m rfl
  | nothingToStop _ => exact hkept m rfl
  | nothingToStart _ => exact hkept _ (status_updateStatus m abi)
  | cancelStop _ => exact hkept _ (by cases abi <;> rfl)
  | seizeInit _ => exact hkept _ (by cases abi <;> rfl)
  | requestStop _ => exact hkept _ (by cases abi <;> rfl)
  | exit => exact hkept _ (by cases abi <;> rfl)
  | mount => exact hkept _ (Monitor.status_emit m abi _)
  | injected abi' => exact hset abi' _ RecordChange.injected
  | info abi' block => exact hset abi' _ (RecordChange.info block)
  | errorInfo abi' block => exact hset abi' _ (RecordChange.errorInfo block)

theorem CommandStep.process_eq {m m' : Monitor} {cmd : Option Command}
    (h : CommandStep m cmd m') : m'.process = m.process := by
  cases h with
  | injected abi => exact Monitor.process_setStatus m abi _
  | info abi block => exact Monitor.process_setStatus m abi _
  | errorInfo abi block => exact Monitor.process_setStatus m abi _
  | _ => rfl

/-- Commands write the status file, mount it, and seize or interrupt init. -/
inductive CommandEffect : Effect -> Prop where
  | write (content : List Byte) : CommandEffect (Effect.writeProp content)
  | mount : CommandEffect Effect.mountProp
  | seize : CommandEffect (Effect.seize 1)
  | interrupt : CommandEffect (Effect.interrupt 1)

theorem CommandStep.added {m m' : Monitor} {cmd : Option Command}
    (h : CommandStep m cmd m') : exists es, m'.effects = m.effects ++ es ∧
      forall e, e ∈ es -> CommandEffect e := by
  have hnone : exists es, m.effects = m.effects ++ es ∧
      forall e, e ∈ es -> CommandEffect e :=
    ⟨[], (List.append_nil _).symm, by simp⟩
  have hwrite : forall m1 : Monitor, m1.effects = m.effects ->
      exists es, (updateStatus m1).effects = m.effects ++ es ∧
        forall e, e ∈ es -> CommandEffect e := by
    intro m1 heq
    exact ⟨_, by rw [← heq]; rfl, by simp [CommandEffect.write]⟩
  cases h with
  | unknown => exact hnone
  | nothingToStop _ => exact hnone
  | nothingToStart _ => exact hwrite m rfl
  | cancelStop _ => exact hwrite _ rfl
  | exit =>
      exact hwrite { m with
        tracingState := TracingState.exiting
        monitorStopReason := userRequested } rfl
  | mount => exact ⟨[Effect.mountProp], rfl, by simp [CommandEffect.mount]⟩
  | seizeInit _ =>
      exact ⟨_, List.append_assoc _ [Effect.seize 1] _,
        by simp [CommandEffect.seize, CommandEffect.write]⟩
  | requestStop _ =>
      exact ⟨_, List.append_assoc _ [Effect.interrupt 1] _,
        by simp [CommandEffect.interrupt, CommandEffect.write]⟩
  | injected abi => exact hwrite _ (Monitor.effects_setStatus m abi _)
  | info abi block => exact hwrite _ (Monitor.effects_setStatus m abi _)
  | errorInfo abi block => exact hwrite _ (Monitor.effects_setStatus m abi _)

/-!
# Housekeeping

Most of what a wait result causes is bookkeeping of the traced processes.
-/

/-- Effects that touch neither init nor the status file, fork no daemon and
start no tracer. -/
def Effect.inert : Effect -> Bool
  | Effect.seize _ => false
  | Effect.detach pid _ => decide (pid ≠ 1)
  | Effect.forkDaemon _ _ => false
  | Effect.launchTracer _ _ => false
  | Effect.writeProp _ => false
  | _ => true

/-- From `m` to `m'` only the handler's own members change, with inert
effects. -/
structure Housekeeping (m m' : Monitor) : Prop where
  added : exists es, m'.effects = m.effects ++ es ∧
    forall x, x ∈ es -> x.inert = true
  kept : m' = { m with
    process := m'.process, waitStatus := m'.waitStatus, effects := m'.effects }

namespace Housekeeping

theorem refl (m : Monitor) : Housekeeping m m where
  added := ⟨[], (List.append_nil _).symm, by simp⟩
  kept := rfl

theorem trans {m m1 m2 : Monitor} (h : Housekeeping m m1) (h' : Housekeeping m1 m2) :
    Housekeeping m m2 where
  added := by
    rcases h.added with ⟨es, heq, hes⟩
    rcases h'.added with ⟨es', heq', hes'⟩
    refine ⟨es ++ es', ?_, ?_⟩
    · rw [heq', heq, List.append_assoc]
    · intro x hx
      rcases List.mem_append.mp hx with hx | hx
      · exact hes x hx
      · exact hes' x hx
  kept := by
    have hkept := h'.kept
    rw [h.kept] at hkept
    exact hkept

theorem emit (m : Monitor) {e : Effect} (h : e.inert = true) :
    Housekeeping m (m.emit e) where
  added := ⟨[e], rfl, by simpa using h⟩
  kept := rfl

theorem setMembers (m : Monitor) (process : List Int) (waitStatus : Nat) :
    Housekeeping m { m with process := process, waitStatus := waitStatus } where
  added := ⟨[], (List.append_nil _).symm, by simp⟩
  kept := rfl

section Kept

variable {m m' : Monitor} (h : Housekeeping m m')

include h

theorem tracingState : m'.tracingState = m.tracingState := by
  rw [h.kept]

theorem monitorStopReason : m'.monitorStopReason = m.monitorStopReason := by
  rw [h.kept]

theorem running : m'.running = m.running := by
  rw [h.kept]

theorem status (abi : Abi) : m'.status abi = m.status abi := by
  rw [h.kept]
  cases abi <;> rfl

theorem counter (abi : Abi) : m'.counter abi = m.counter abi := by
  rw [h.kept]
  cases abi <;> rfl

theorem preSection : m'.preSection = m.preSection := by
  rw [h.kept]

theorem postSection : m'.postSection = m.postSection := by
  rw [h.kept]

end Kept

end Housekeeping

theorem housekeeping_takeWait (m : Monitor) (e : WaitEvent) :
    Housekeeping m (takeWait m e) := by
  unfold takeWait
  split
  · exact Housekeeping.refl m
  · exact (Housekeeping.emit m rfl).trans (Housekeeping.setMembers _ m.process e.status)

theorem housekeeping_resumeInit (m : Monitor) (pid : Int) (status : Nat) :
    Housekeeping m (resumeInit m pid status) := by
  unfold resumeInit
  split
  · split
    · split
      · exact Housekeeping.emit m rfl
      · exact Housekeeping.emit m rfl
    · exact Housekeeping.emit m rfl
  · exact Housekeeping.refl m

theorem housekeeping_attach (m : Monitor) (pid : Int) :
    Housekeeping m (attach m pid) :=
  ((Housekeeping.emit m rfl).trans (Housekeeping.emit _ rfl)).trans
    (Housekeeping.setMembers _ (pid :: m.process) m.waitStatus)

theorem housekeeping_release (m : Monitor) {pid : Int} (h : pid ≠ 1) :
    Housekeeping m (release m pid) := by
  unfold release
  split
  · exact (Housekeeping.emit m (e := Effect.detach pid 0) (decide_eq_true h)).trans
      (Housekeeping.setMembers _ _ m.waitStatus)
  · exact Housekeeping.setMembers m _ m.waitStatus

theorem housekeeping_stopZygote (m : Monitor) (e : WaitEvent) :
    Housekeeping m (stopZygote m e) :=
  (((Housekeeping.emit m rfl).trans (Housekeeping.emit _ rfl)).trans
    (Housekeeping.emit _ rfl)).trans
      (Housekeeping.setMembers _ m.process e.stopStatus)

theorem housekeeping_umountProp (m : Monitor) (abi : Abi) :
    Housekeeping m (umountProp m abi) := by
  unfold umountProp
  split
  · exact Housekeeping.emit m rfl
  · exact Housekeeping.refl m

/-!
# Zygote starts
-/

/-- What `ensure_daemon_created` answers and leaves behind. -/
inductive DaemonStep (m : Monitor) (abi : Abi) (fork : Option ChildPid) :
    Bool -> Monitor -> Prop where
  | forkFailed (h : (m.status abi).daemonPid = -1) (hfork : fork = none) :
      DaemonStep m abi fork false
        (m.setStatus abi { m.status abi with zygoteInjected := false })
  | forked (h : (m.status abi).daemonPid = -1) (pid : ChildPid)
      (hfork : fork = some pid) :
      DaemonStep m abi fork true
        ((m.setStatus abi { m.status abi with
          supported := true
          zygoteInjected := false
          daemonPid := pid.val
          daemonRunning := true }).emit (Effect.forkDaemon abi pid.val))
  | known (h : (m.status abi).daemonPid ≠ -1) :
      DaemonStep m abi fork (m.status abi).daemonRunning
        (m.setStatus abi { m.status abi with zygoteInjected := false })

theorem daemonStep_ensureDaemonCreated (m : Monitor) (abi : Abi)
    (fork : Option ChildPid) :
    exists m1, Housekeeping m m1 ∧ DaemonStep m1 abi fork
      (ensureDaemonCreated m abi fork).1 (ensureDaemonCreated m abi fork).2 := by
  have hkeep := housekeeping_umountProp m abi
  refine ⟨umountProp m abi, hkeep, ?_⟩
  unfold ensureDaemonCreated startStatus
  rw [← hkeep.status abi]
  rcases Decidable.em (((umountProp m abi).status abi).daemonPid = -1) with
    hpid | hpid
  · simp only [if_pos hpid]
    cases fork with
    | none => exact DaemonStep.forkFailed hpid rfl
    | some pid => exact DaemonStep.forked hpid pid rfl
  · simp only [if_neg hpid]
    exact DaemonStep.known hpid

theorem appProcess_injective {abi abi' : Abi} (h : appProcess abi = appProcess abi') :
    abi = abi' := by
  revert h
  cases abi <;> cases abi' <;> decide

theorem shouldStopInject_congr {m m' : Monitor} {abi : Abi}
    (h : m'.counter abi = m.counter abi) (now : Int) :
    (shouldStopInject m' abi now).1 = (shouldStopInject m abi now).1 := by
  unfold shouldStopInject
  rw [h]

def countedStart (m : Monitor) (abi : Abi) (now : Int) : Monitor :=
  (shouldStopInject m abi now).2

/-- What the exec of `program` does, up to the status file. -/
inductive ExecStep (m : Monitor) (e : WaitEvent) (program : List Byte) :
    Monitor -> Prop where
  | notTracing (h : m.tracingState ≠ TracingState.tracing) :
      ExecStep m e program m
  | otherProgram (h : forall abi, program ≠ appProcess abi) :
      ExecStep m e program m
  | crashed (abi : Abi) (h : m.tracingState = TracingState.tracing)
      (hprogram : program = appProcess abi)
      (hstop : MAX_RETRY_COUNT ≤ ((countedStart m abi e.now).counter abi).count) :
      ExecStep m e program
        (stopInjecting (countedStart m abi e.now) "zygote crashed")
  | daemonDown (abi : Abi) (m1 m2 : Monitor)
      (h : m.tracingState = TracingState.tracing)
      (hprogram : program = appProcess abi)
      (hstop : ((countedStart m abi e.now).counter abi).count < MAX_RETRY_COUNT)
      (hkeep : Housekeeping (countedStart m abi e.now) m1)
      (hdaemon : DaemonStep m1 abi e.daemonFork false m2) :
      ExecStep m e program (stopInjecting m2 "daemon not running")
  | injecting (abi : Abi) (m1 m2 m3 : Monitor)
      (h : m.tracingState = TracingState.tracing)
      (hprogram : program = appProcess abi)
      (hstop : ((countedStart m abi e.now).counter abi).count < MAX_RETRY_COUNT)
      (hkeep : Housekeeping (countedStart m abi e.now) m1)
      (hdaemon : DaemonStep m1 abi e.daemonFork true m2)
      (hstopped : Housekeeping m2 m3) :
      ExecStep m e program m3
  | launched (abi : Abi) (m1 m2 m3 : Monitor)
      (h : m.tracingState = TracingState.tracing)
      (hprogram : program = appProcess abi)
      (hstop : ((countedStart m abi e.now).counter abi).count < MAX_RETRY_COUNT)
      (hkeep : Housekeeping (countedStart m abi e.now) m1)
      (hdaemon : DaemonStep m1 abi e.daemonFork true m2)
      (hstopped : Housekeeping m2 m3) :
      ExecStep m e program (m3.emit (Effect.launchTracer abi e.pid))

theorem launchTracer_cases (m : Monitor) (abi : Abi) (e : WaitEvent)
    (hpid : e.pid ≠ 1) :
    Housekeeping m (launchTracer m abi e) ∨
      exists m', Housekeeping m m' ∧
        launchTracer m abi e = m'.emit (Effect.launchTracer abi e.pid) := by
  have hstop := housekeeping_stopZygote m e
  unfold launchTracer detachZygote
  split
  · have hdetach : Housekeeping (stopZygote m e)
        { (stopZygote m e).emit (Effect.detach e.pid SIGSTOP) with
          waitStatus := 0 } :=
      (Housekeeping.emit _ (e := Effect.detach e.pid SIGSTOP)
        (decide_eq_true hpid)).trans (Housekeeping.setMembers _ _ 0)
    split
    · exact Or.inr ⟨_, hstop.trans hdetach, rfl⟩
    · exact Or.inl ((hstop.trans hdetach).trans (Housekeeping.emit _ rfl))
  · exact Or.inl hstop

theorem execStep_handleZygote {m : Monitor} {e : WaitEvent} {abi : Abi}
    (h : m.tracingState = TracingState.tracing) (hpid : e.pid ≠ 1) :
    ExecStep m e (appProcess abi) (handleZygote m abi e) := by
  have hcount : (shouldStopInject m abi e.now).1 =
      decide (MAX_RETRY_COUNT ≤ ((countedStart m abi e.now).counter abi).count) := by
    cases abi <;> rfl
  have hcounted : countedStart m abi e.now = (shouldStopInject m abi e.now).2 := rfl
  unfold handleZygote preInject
  cases hstop : shouldStopInject m abi e.now with
  | mk stop mc =>
      rw [hstop] at hcount hcounted
      change _ = mc at hcounted
      cases stop with
      | true =>
          have hcrash := ExecStep.crashed (e := e) abi h rfl
            (of_decide_eq_true hcount.symm)
          rw [hcounted] at hcrash
          exact hcrash
      | false =>
          have hbelow := Int.not_le.mp (of_decide_eq_false hcount.symm)
          rcases daemonStep_ensureDaemonCreated mc abi e.daemonFork with
            ⟨m1, hkeep, hdaemon⟩
          rw [← hcounted] at hkeep
          simp only
          cases hensure : ensureDaemonCreated mc abi e.daemonFork with
          | mk created m2 =>
              rw [hensure] at hdaemon
              cases created with
              | false => exact ExecStep.daemonDown abi m1 m2 h rfl hbelow hkeep hdaemon
              | true =>
                  rcases launchTracer_cases m2 abi e hpid with hl | ⟨m3, hq, hl⟩
                  · exact ExecStep.injecting abi m1 m2 _ h rfl hbelow hkeep hdaemon hl
                  · simp only
                    rw [hl]
                    exact ExecStep.launched abi m1 m2 m3 h rfl hbelow hkeep
                      hdaemon hq

theorem execStep_handleExec (m : Monitor) {e : WaitEvent} (hpid : e.pid ≠ 1)
    (program : List Byte) : ExecStep m e program (handleExec m e program) := by
  unfold handleExec
  split
  · rename_i h
    exact ExecStep.notTracing h
  · rename_i h
    have htracing := not_not.mp h
    split
    · rename_i h64
      rw [h64]
      exact execStep_handleZygote htracing hpid
    · rename_i h64
      split
      · rename_i h32
        rw [h32]
        exact execStep_handleZygote htracing hpid
      · rename_i h32
        apply ExecStep.otherProgram
        intro abi
        cases abi with
        | abi64 => exact h64
        | abi32 => exact h32

/-!
# Wait results
-/

/-- `waitpid` has nothing left to wait for, and the handler returns. -/
def leaves (m : Monitor) (e : WaitEvent) : Prop :=
  e.pid = -1 ∧ m.tracingState = TracingState.stopped ∧ e.echild = true

/-- The handler sees a known process stop in an exec whose program it can
read. -/
structure SeesExec (m : Monitor) (e : WaitEvent) (program : List Byte) : Prop where
  stays : ¬ leaves m e
  known : e.pid ∈ m.process
  stopped : stoppedWith (takeWait m e).waitStatus SIGTRAP PTRACE_EVENT_EXEC = true
  read : e.program = some program
  notInit : e.pid ≠ 1
  notDaemon : forall abi, caughtBy m abi e.pid = false

instance seesExecDecidable (m : Monitor) (e : WaitEvent) (program : List Byte) :
    Decidable (SeesExec m e program) :=
  decidable_of_iff
    (¬ (e.pid = -1 ∧ m.tracingState = TracingState.stopped ∧ e.echild = true) ∧
      e.pid ∈ m.process ∧
      stoppedWith (takeWait m e).waitStatus SIGTRAP PTRACE_EVENT_EXEC = true ∧
      e.program = some program ∧ e.pid ≠ 1 ∧
      caughtBy m Abi.abi64 e.pid = false ∧ caughtBy m Abi.abi32 e.pid = false)
    ⟨fun h => ⟨h.1, h.2.1, h.2.2.1, h.2.2.2.1, h.2.2.2.2.1,
        fun abi => by
          cases abi with
          | abi64 => exact h.2.2.2.2.2.1
          | abi32 => exact h.2.2.2.2.2.2⟩,
      fun h => ⟨h.stays, h.known, h.stopped, h.read, h.notInit,
        h.notDaemon Abi.abi64, h.notDaemon Abi.abi32⟩⟩

theorem SeesExec.program_eq {m : Monitor} {e : WaitEvent}
    {program program' : List Byte} (h : SeesExec m e program)
    (h' : SeesExec m e program') : program = program' := by
  have hread := h.read
  rw [h'.read] at hread
  injection hread with hread
  exact hread.symm

/-- Everything a wait result can do. -/
inductive ResultStep (m : Monitor) (e : WaitEvent) : Monitor -> Prop where
  | housekeeping (m' : Monitor) (hkeep : Housekeeping m m')
      (hexec : forall program, ¬ SeesExec m e program) : ResultStep m e m'
  | detachInit (m1 : Monitor) (hkeep : Housekeeping m m1)
      (h : m.tracingState = TracingState.stopping) (hpid : e.pid = 1) :
      ResultStep m e
        { m1.emit (Effect.detach 1 0) with tracingState := TracingState.stopped }
  | daemonExit (abi : Abi) (block : List Byte) (m1 : Monitor)
      (hkeep : Housekeeping m m1) (hcaught : caughtBy m abi e.pid = true) :
      ResultStep m e (updateStatus (m1.setStatus abi { m1.status abi with
        daemonRunning := false
        daemonErrorInfo := some block }))
  | exec (program : List Byte) (m1 m2 m' : Monitor)
      (hsees : SeesExec m e program) (hkeep : Housekeeping m m1)
      (hexec : ExecStep m1 e program m2)
      (hreleased : Housekeeping (updateStatus m2) m') : ResultStep m e m'

theorem resultStep_handleProcess {m : Monitor} {e : WaitEvent}
    (hstays : ¬ leaves m e) (hpid : e.pid ≠ 1)
    (hcaught : forall abi, caughtBy m abi e.pid = false) :
    ResultStep m e (handleProcess (takeWait m e) e) := by
  have htake := housekeeping_takeWait m e
  unfold handleProcess
  rw [process_takeWait]
  split
  · rename_i hnew
    apply ResultStep.housekeeping _ (htake.trans (housekeeping_attach _ e.pid))
    intro program hsees
    exact hnew hsees.known
  · rename_i hknown
    split
    · rename_i hstopped
      cases hread : e.program with
      | none =>
          apply ResultStep.housekeeping _ htake
          intro program hsees
          rw [hsees.read] at hread
          cases hread
      | some program =>
          exact ResultStep.exec program _ _ _
            ⟨hstays, not_not.mp hknown, hstopped, hread, hpid, hcaught⟩ htake
            (execStep_handleExec _ hpid program) (housekeeping_release _ hpid)
    · rename_i hstopped
      apply ResultStep.housekeeping _ (htake.trans (housekeeping_release _ hpid))
      intro program hsees
      exact hstopped hsees.stopped

theorem resultStep_handleInit {m : Monitor} {e : WaitEvent} (hpid : e.pid = 1) :
    ResultStep m e (handleInit (takeWait m e) e.pid (takeWait m e).waitStatus) := by
  have htake := housekeeping_takeWait m e
  have hexec : forall program, ¬ SeesExec m e program :=
    fun _ hsees => hsees.notInit hpid
  unfold handleInit
  split
  · exact ResultStep.housekeeping _
      ((htake.trans (Housekeeping.emit _ rfl)).trans
        (housekeeping_resumeInit _ _ _)) hexec
  · split
    · rename_i hstop
      have hstate := of_decide_eq_true (Bool.and_eq_true_iff.mp hstop).right
      rw [htake.tracingState] at hstate
      exact ResultStep.detachInit _ htake hstate hpid
    · exact ResultStep.housekeeping _ (htake.trans (housekeeping_resumeInit _ _ _)) hexec

section Step

variable {lp : Lp} {sysSigname : Nat -> List Byte}

theorem resultStep_daemonExit {m m' : Monitor} {e : WaitEvent} {abi : Abi}
    (hcaught : caughtBy (takeWait m e) abi e.pid = true)
    (h : SigChldHandler.daemonExit sysSigname (takeWait m e) abi = Except.ok m') :
    ResultStep m e m' := by
  rw [caughtBy_takeWait] at hcaught
  unfold SigChldHandler.daemonExit at h
  simp only at h
  split at h
  · cases h
  · split at h
    · cases h
    · rename_i block _
      injection h with h
      rw [← h]
      exact ResultStep.daemonExit abi block _ (housekeeping_takeWait m e) hcaught

theorem resultStep_handleResult {m m' : Monitor} {e : WaitEvent}
    (hstays : ¬ leaves m e)
    (h : handleResult sysSigname (takeWait m e) e = Except.ok m') :
    ResultStep m e m' := by
  unfold handleResult at h
  split at h
  · rename_i hpid
    injection h with h
    rw [← h]
    exact resultStep_handleInit hpid
  · rename_i hpid
    split at h
    · rename_i h64
      exact resultStep_daemonExit h64 h
    · rename_i h64
      split at h
      · rename_i h32
        exact resultStep_daemonExit h32 h
      · rename_i h32
        injection h with h
        rw [← h]
        apply resultStep_handleProcess hstays hpid
        intro abi
        cases abi with
        | abi64 => simpa [caughtBy_takeWait] using h64
        | abi32 => simpa [caughtBy_takeWait] using h32

theorem resultStep_of_waitStep {m m' : Monitor} {e : WaitEvent}
    (h : waitStep sysSigname m e = some m') : ResultStep m e m' := by
  unfold waitStep handleWait at h
  rcases Classical.em (e.pid = -1 ∧ m.tracingState = TracingState.stopped ∧
    e.echild = true) with hleaves | hstays
  · rw [if_pos hleaves] at h
    injection h with h
    rw [← h]
    exact ResultStep.housekeeping m (Housekeeping.refl m)
      (fun _ hsees => hsees.stays hleaves)
  · rw [if_neg hstays] at h
    cases hresult : handleResult sysSigname (takeWait m e) e with
    | ok m1 =>
        rw [hresult] at h
        injection h with h
        rw [← h]
        exact resultStep_handleResult hstays hresult
    | error f =>
        rw [hresult] at h
        cases h

/-!
# Events
-/

/-- Everything an event of the monitor can do. -/
inductive Step (lp : Lp) (m : Monitor) : Event -> Monitor -> Prop where
  | rejected (d : Datagram) (h : SocketHandler.accepted lp d = false) :
      Step lp m (Event.datagram d) m
  | command (d : Datagram) (m' : Monitor) (h : SocketHandler.accepted lp d = true)
      (hcommand : CommandStep m
        (Command.ofCode (SocketHandler.peekHead d).cmd) m') :
      Step lp m (Event.datagram d) m'
  | result (e : WaitEvent) (m' : Monitor) (hrunning : m.running = true)
      (hresult : ResultStep m e m') : Step lp m (Event.wait e) m'

/-- A datagram that is taken off the queue is acted on if it is accepted. -/
theorem act_of_datagramStep {m m' : Monitor} {d : Datagram}
    (h : datagramStep lp m d = some m') :
    (SocketHandler.accepted lp d = true ∧ SocketHandler.act lp m d = Except.ok m') ∨
      (SocketHandler.accepted lp d = false ∧ m' = m) := by
  unfold datagramStep SocketHandler.SocketState.start at h
  rcases Classical.em (SocketHandler.Drainable lp d) with hd | hd
  · rcases SocketHandler.handleEventBody_drainable hd [] [] m with
      ⟨m1, hbody, hact⟩
    rw [hbody] at h
    simp only [if_true] at h
    injection h with h
    rw [← h]
    cases haccepted : SocketHandler.accepted lp d with
    | true =>
        rw [haccepted, if_pos rfl] at hact
        exact Or.inl ⟨rfl, hact⟩
    | false =>
        rw [haccepted, if_neg Bool.false_ne_true] at hact
        exact Or.inr ⟨rfl, hact⟩
  · rcases SocketHandler.handleEventBody_not_drainable hd [] [] m with
      hspin | ⟨f, hdead⟩
    · rw [hspin] at h
      simp at h
    · rw [hdead] at h
      cases h

theorem step_of_datagramStep {m m' : Monitor} {d : Datagram}
    (h : datagramStep lp m d = some m') : Step lp m (Event.datagram d) m' := by
  rcases act_of_datagramStep h with ⟨haccepted, hact⟩ | ⟨haccepted, heq⟩
  · exact Step.command d _ haccepted (commandStep_of_handleMsg hact)
  · rw [heq]
    exact Step.rejected d haccepted

/-- The one inversion of `step` that the invariants use. -/
theorem step_cases {m m' : Monitor} {event : Event}
    (h : step lp sysSigname m event = some m') : Step lp m event m' := by
  cases event with
  | datagram d => exact step_of_datagramStep h
  | wait e =>
      simp only [step] at h
      split at h
      · rename_i hrunning
        exact Step.result e m' hrunning (resultStep_of_waitStep h)
      · cases h

end Step

/-!
# Updates

Every event is a chain of small updates, so an invariant that each of these
keeps is kept by every event.
-/

inductive Update (m : Monitor) : Monitor -> Prop where
  | emit (e : Effect) (h : forall content, e ≠ Effect.writeProp content) :
      Update m (m.emit e)
  | write : Update m (updateStatus m)
  | status (abi : Abi) (s : Status) : Update m (m.setStatus abi s)
  | counter (abi : Abi) (c : ZygoteStartCounter) : Update m (m.setCounter abi c)
  | tracing (state : TracingState) (reason : List Byte) :
      Update m { m with tracingState := state, monitorStopReason := reason }
  | members (process : List Int) (waitStatus : Nat) :
      Update m { m with process := process, waitStatus := waitStatus }
  | stop : Update m { m with running := false }

abbrev Updates : Monitor -> Monitor -> Prop :=
  Relation.ReflTransGen Update

section Updates

variable {m m1 m' : Monitor}

theorem Effect.ne_writeProp_of_inert {e : Effect} (h : e.inert = true)
    (content : List Byte) : e ≠ Effect.writeProp content := by
  intro hno
  rw [hno] at h
  cases h

theorem updates_emits {es : List Effect} (m : Monitor)
    (h : forall x, x ∈ es -> x.inert = true) :
    Updates m { m with effects := m.effects ++ es } := by
  induction es generalizing m with
  | nil => rw [List.append_nil]
  | cons e es ih =>
      have hfirst := Update.emit (m := m) e (Effect.ne_writeProp_of_inert
        (h e List.mem_cons_self))
      have hrest := ih (m.emit e) (fun x hx => h x (List.mem_cons_of_mem e hx))
      rw [Monitor.effects_emit, List.append_assoc] at hrest
      exact Relation.ReflTransGen.head hfirst hrest

theorem updates_housekeeping (h : Housekeeping m m') : Updates m m' := by
  rcases h.added with ⟨es, heq, hes⟩
  have hkept := h.kept
  rw [heq] at hkept
  rw [hkept]
  exact (updates_emits m hes).tail (Update.members m'.process m'.waitStatus)

theorem updates_daemonStep {abi : Abi} {fork : Option ChildPid} {created : Bool}
    (h : DaemonStep m abi fork created m') : Updates m m' := by
  cases h with
  | forkFailed _ _ => exact Relation.ReflTransGen.single (Update.status abi _)
  | known _ => exact Relation.ReflTransGen.single (Update.status abi _)
  | forked _ pid _ =>
      exact (Relation.ReflTransGen.single (Update.status abi _)).tail
        (Update.emit _ (fun _ hno => by cases hno))

theorem updates_countedStart (m : Monitor) (abi : Abi) (now : Int) :
    Updates m (countedStart m abi now) :=
  Relation.ReflTransGen.single (Update.counter abi _)

theorem updates_stopInjecting (h : Updates m m1) (reason : String) :
    Updates m (stopInjecting m1 reason) :=
  (h.tail (Update.tracing TracingState.stopping (bytesOf reason))).tail
    (Update.emit _ (fun _ hno => by cases hno))

theorem updates_execStep {e : WaitEvent} {program : List Byte}
    (h : ExecStep m e program m') : Updates m m' := by
  cases h with
  | notTracing _ => exact Relation.ReflTransGen.refl
  | otherProgram _ => exact Relation.ReflTransGen.refl
  | crashed abi _ _ _ => exact updates_stopInjecting (updates_countedStart m abi e.now) _
  | daemonDown abi m1 m2 _ _ _ hkeep hdaemon =>
      have hstart := (updates_countedStart m abi e.now).trans (updates_housekeeping hkeep)
      exact updates_stopInjecting (hstart.trans (updates_daemonStep hdaemon)) _
  | injecting abi m1 m2 _ _ _ _ hkeep hdaemon hstopped =>
      have hstart := (updates_countedStart m abi e.now).trans (updates_housekeeping hkeep)
      exact (hstart.trans (updates_daemonStep hdaemon)).trans (updates_housekeeping hstopped)
  | launched abi m1 m2 m3 _ _ _ hkeep hdaemon hstopped =>
      have hstart := (updates_countedStart m abi e.now).trans (updates_housekeeping hkeep)
      have hcreated := hstart.trans (updates_daemonStep hdaemon)
      exact (hcreated.trans (updates_housekeeping hstopped)).tail
        (Update.emit _ (fun _ hno => by cases hno))

theorem updates_command {cmd : Option Command} (h : CommandStep m cmd m') :
    Updates m m' := by
  have hstatus : forall abi s, Updates m (updateStatus (m.setStatus abi s)) := by
    intro abi s
    exact (Relation.ReflTransGen.single (Update.status abi s)).tail Update.write
  have hemit : forall e, (forall content, e ≠ Effect.writeProp content) ->
      Updates m (m.emit e) := by
    intro e he
    exact Relation.ReflTransGen.single (Update.emit e he)
  have hstate : forall state reason, Updates m
      { m with tracingState := state, monitorStopReason := reason } := by
    intro state reason
    exact Relation.ReflTransGen.single (Update.tracing state reason)
  cases h with
  | unknown => exact Relation.ReflTransGen.refl
  | nothingToStop _ => exact Relation.ReflTransGen.refl
  | nothingToStart _ => exact Relation.ReflTransGen.single Update.write
  | cancelStop _ => exact (hstate TracingState.tracing m.monitorStopReason).tail Update.write
  | seizeInit _ =>
      exact ((hemit (Effect.seize 1) (fun _ hno => by cases hno)).tail
        (Update.tracing TracingState.tracing m.monitorStopReason)).tail Update.write
  | requestStop _ =>
      exact ((hstate TracingState.stopping userRequested).tail
        (Update.emit (Effect.interrupt 1) (fun _ hno => by cases hno))).tail Update.write
  | exit =>
      exact ((hstate TracingState.exiting userRequested).tail Update.write).tail Update.stop
  | mount => exact hemit Effect.mountProp (fun _ hno => by cases hno)
  | injected abi => exact hstatus abi _
  | info abi block => exact hstatus abi _
  | errorInfo abi block => exact hstatus abi _

theorem updates_result {e : WaitEvent} (h : ResultStep m e m') : Updates m m' := by
  cases h with
  | housekeeping _ hkeep _ => exact updates_housekeeping hkeep
  | detachInit m1 hkeep _ =>
      exact ((updates_housekeeping hkeep).tail
        (Update.emit (Effect.detach 1 0) (fun _ hno => by cases hno))).tail
          (Update.tracing TracingState.stopped m1.monitorStopReason)
  | daemonExit abi block m1 hkeep =>
      exact ((updates_housekeeping hkeep).tail (Update.status abi _)).tail Update.write
  | exec program m1 m2 _ _ hkeep hexec hreleased =>
      have hstart := (updates_housekeeping hkeep).trans (updates_execStep hexec)
      exact (hstart.tail Update.write).trans (updates_housekeeping hreleased)

theorem updates_step {lp : Lp} {sysSigname : Nat -> List Byte} {event : Event}
    (h : step lp sysSigname m event = some m') : Updates m m' := by
  cases step_cases h with
  | rejected d _ => exact Relation.ReflTransGen.refl
  | command d _ _ hcommand => exact updates_command hcommand
  | result e _ _ hresult => exact updates_result hresult

/-- What every update keeps is kept by every event. -/
theorem invariant_of_update {I : Monitor -> Prop}
    (hupdate : forall m m', Update m m' -> I m -> I m') {lp : Lp}
    {sysSigname : Nat -> List Byte} {event : Event}
    (h : step lp sysSigname m event = some m') (hm : I m) : I m' := by
  have hupdates := updates_step h
  clear h
  induction hupdates with
  | refl => exact hm
  | tail _ hlast ih => exact hupdate _ _ hlast ih

end Updates

/-- The recorded effects only grow. -/
theorem prefix_step {lp : Lp} {sysSigname : Nat -> List Byte} {m m' : Monitor}
    {event : Event} (h : step lp sysSigname m event = some m') :
    m.effects <+: m'.effects := by
  refine invariant_of_update (I := fun m' => m.effects <+: m'.effects) ?_ h List.prefix_rfl
  intro m1 m2 hupdate hm1
  cases hupdate with
  | emit e _ => exact hm1.trans ⟨[e], rfl⟩
  | write => exact hm1.trans ⟨[Effect.writeProp _], rfl⟩
  | status abi s =>
      rw [Monitor.effects_setStatus]
      exact hm1
  | counter abi c =>
      rw [Monitor.effects_setCounter]
      exact hm1
  | tracing _ _ => exact hm1
  | members _ _ => exact hm1
  | stop => exact hm1

end InitMonitor
end ReZygisk
