import ReZygisk.Monitor.State

/-!
# Wait results

`SigChldHandler::HandleEvent` asks `waitpid` for one result after the other and
handles each before it asks for the next.  A result comes with everything the
kernel answers while it is handled.
-/

namespace ReZygisk
namespace InitMonitor

open Foundation
open Kernel

namespace SigChldHandler

def stoppedWith (status sig event : Nat) : Bool :=
  WIFSTOPPED status && decide (status / 256 = sig ||| (event <<< 8))

abbrev ChildPid := { pid : Int // 1 < pid }

/-- A value of `waitpid` other than 0 and the kernel's answers during its
handling.  `pid` is -1 when `waitpid` failed, and `status` is then not
written. -/
structure WaitEvent where
  pid : Int
  status : Nat
  /-- `waitpid` failed with `ECHILD`. -/
  echild : Bool := false
  /-- Target of `/proc/<pid>/exe`, when it can be read. -/
  program : Option (List Byte) := none
  /-- Seconds of the monotonic clock. -/
  now : Int := 0
  /-- Pid of a forked daemon, when `fork` succeeds. -/
  daemonFork : Option ChildPid := none
  /-- What the blocking `waitpid` on a traced process reports. -/
  stopStatus : Nat := 0
  /-- Whether `fork_dont_care` succeeds in the monitor. -/
  tracerFork : Bool := true
  deriving DecidableEq, Repr

inductive WaitStep where
  | next (m : Monitor)
  | leave (m : Monitor)
  | dead (f : Fault)

/-!
# Init
-/

/-- Resume a stopped init: signals that stop it are suppressed, others are
passed on. -/
def resumeInit (m : Monitor) (pid : Int) (status : Nat) : Monitor :=
  if WIFSTOPPED status then
    if WPTEVENT status = 0 then
      if WSTOPSIG status ≠ SIGSTOP ∧ WSTOPSIG status ≠ SIGTSTP ∧
          WSTOPSIG status ≠ SIGTTIN ∧ WSTOPSIG status ≠ SIGTTOU then
        m.emit (Effect.cont pid (WSTOPSIG status))
      else
        m.emit (Effect.cont pid 0)
    else
      m.emit (Effect.cont pid 0)
  else
    m

def handleInit (m : Monitor) (pid : Int) (status : Nat) : Monitor :=
  if stoppedWith status SIGTRAP PTRACE_EVENT_FORK then
    resumeInit (m.emit (Effect.getEventMsg pid)) pid status
  else if stoppedWith status SIGTRAP PTRACE_EVENT_STOP &&
      decide (m.tracingState = TracingState.stopping) then
    { m.emit (Effect.detach 1 0) with tracingState := TracingState.stopped }
  else
    resumeInit m pid status

/-!
# Daemon exits
-/

section Exit

variable (sysSigname : Nat -> List Byte)

/-- `if (error_info[0] == '\0') memcpy(error_info, text, strlen(text))`.  The
copy has no terminator: if it does not end inside the block, either it runs
over the end or the status text that is written next reads past it. -/
def fillErrorInfo (block text : List Byte) : Except Fault (List Byte) :=
  match block with
  | [] => Except.error Fault.heapOverrun
  | b :: _ =>
      if b = 0 then
        if block.length ≤ text.length then Except.error Fault.heapOverrun
        else Except.ok (text ++ block.drop text.length)
      else
        Except.ok block

/-- The condition of `CHECK_DAEMON_EXIT`, which names `status64` in both of its
expansions. -/
def caughtBy (m : Monitor) (abi : Abi) (pid : Int) : Bool :=
  (m.status abi).supported && decide (pid = m.status64.daemonPid)

def daemonExit (m : Monitor) (abi : Abi) : Except Fault Monitor :=
  let text := parseStatus sysSigname m.waitStatus 64
  match (m.status abi).daemonErrorInfo with
  | none => Except.error Fault.nullDereference
  | some block =>
      match fillErrorInfo block text with
      | Except.error f => Except.error f
      | Except.ok block =>
          Except.ok (updateStatus (m.setStatus abi
            { m.status abi with
              daemonRunning := false
              daemonErrorInfo := some block }))

end Exit

/-!
# Zygote starts
-/

def MAX_RETRY_COUNT : Int := 5

def shouldStopInject (m : Monitor) (abi : Abi) (now : Int) : Bool × Monitor :=
  let count :=
    if now - (m.counter abi).last < 30 then (m.counter abi).count + 1 else 0
  (decide (MAX_RETRY_COUNT ≤ count),
    m.setCounter abi { last := now, count := count })

def startStatus (s : Status) (fork : Option ChildPid) : Status :=
  let s := { s with zygoteInjected := false }
  if s.daemonPid = -1 then
    match fork with
    | none => s
    | some pid =>
        { s with
          supported := true
          daemonPid := pid.val
          daemonRunning := true }
  else
    s

/-- Only the 64-bit zygote undoes the bind mount of the status file. -/
def umountProp (m : Monitor) (abi : Abi) : Monitor :=
  if abi = Abi.abi64 then m.emit Effect.umountProp else m

def ensureDaemonCreated (m : Monitor) (abi : Abi) (fork : Option ChildPid) :
    Bool × Monitor :=
  let started :=
    (umountProp m abi).setStatus abi (startStatus (m.status abi) fork)
  if (m.status abi).daemonPid = -1 then
    match fork with
    | none => (false, started)
    | some pid => (true, started.emit (Effect.forkDaemon abi pid.val))
  else
    ((m.status abi).daemonRunning, started)

def appProcess (abi : Abi) : List Byte :=
  bytesOf ("/system/bin/app_process" ++ abi.suffix)

def stopInjecting (m : Monitor) (reason : String) : Monitor :=
  { m with
    tracingState := TracingState.stopping
    monitorStopReason := bytesOf reason }.emit (Effect.interrupt 1)

def preInject (m : Monitor) (abi : Abi) (e : WaitEvent) : Bool × Monitor :=
  match shouldStopInject m abi e.now with
  | (true, m) => (false, stopInjecting m "zygote crashed")
  | (false, m) =>
      match ensureDaemonCreated m abi e.daemonFork with
      | (false, m) => (false, stopInjecting m "daemon not running")
      | (true, m) => (true, m)

def stopZygote (m : Monitor) (e : WaitEvent) : Monitor :=
  { ((m.emit (Effect.kill e.pid SIGSTOP)).emit (Effect.cont e.pid 0)).emit
      (Effect.waited e.pid e.stopStatus) with
    waitStatus := e.stopStatus }

/-- Detach the stopped zygote and start the tracer on it.  The status is reset
so that the process is not detached once more. -/
def detachZygote (m : Monitor) (abi : Abi) (e : WaitEvent) : Monitor :=
  { m.emit (Effect.detach e.pid SIGSTOP) with waitStatus := 0 }.emit
    (if e.tracerFork then Effect.launchTracer abi e.pid
      else Effect.kill e.pid SIGKILL)

def launchTracer (m : Monitor) (abi : Abi) (e : WaitEvent) : Monitor :=
  if stoppedWith e.stopStatus SIGSTOP 0 then
    detachZygote (stopZygote m e) abi e
  else
    stopZygote m e

def handleZygote (m : Monitor) (abi : Abi) (e : WaitEvent) : Monitor :=
  match preInject m abi e with
  | (false, m) => m
  | (true, m) => launchTracer m abi e

def handleExec (m : Monitor) (e : WaitEvent) (program : List Byte) : Monitor :=
  if m.tracingState ≠ TracingState.tracing then
    m
  else if program = appProcess Abi.abi64 then
    handleZygote m Abi.abi64 e
  else if program = appProcess Abi.abi32 then
    handleZygote m Abi.abi32 e
  else
    m

/-!
# Other processes
-/

def release (m : Monitor) (pid : Int) : Monitor :=
  { if WIFSTOPPED m.waitStatus then m.emit (Effect.detach pid 0) else m with
    process := m.process.filter (fun p => p ≠ pid) }

def attach (m : Monitor) (pid : Int) : Monitor :=
  { (m.emit (Effect.setOptions pid)).emit (Effect.cont pid 0) with
    process := pid :: m.process }

def handleProcess (m : Monitor) (e : WaitEvent) : Monitor :=
  if e.pid ∉ m.process then
    attach m e.pid
  else if stoppedWith m.waitStatus SIGTRAP PTRACE_EVENT_EXEC then
    match e.program with
    | none => m
    | some program => release (updateStatus (handleExec m e program)) e.pid
  else
    release m e.pid

/-!
# One wait result
-/

section Handle

variable (sysSigname : Nat -> List Byte)

def takeWait (m : Monitor) (e : WaitEvent) : Monitor :=
  if e.pid = -1 then m
  else { m.emit (Effect.waited e.pid e.status) with waitStatus := e.status }

@[simp] theorem process_takeWait (m : Monitor) (e : WaitEvent) :
    (takeWait m e).process = m.process := by
  unfold takeWait
  split <;> rfl

@[simp] theorem status_takeWait (m : Monitor) (e : WaitEvent) (abi : Abi) :
    (takeWait m e).status abi = m.status abi := by
  unfold takeWait
  split <;> cases abi <;> rfl

theorem waitStatus_takeWait {e : WaitEvent} (h : e.pid ≠ -1) (m : Monitor) :
    (takeWait m e).waitStatus = e.status := by
  unfold takeWait
  rw [if_neg h]

theorem caughtBy_takeWait (m : Monitor) (e : WaitEvent) (abi : Abi) :
    caughtBy (takeWait m e) abi e.pid = caughtBy m abi e.pid := by
  unfold takeWait
  split <;> cases abi <;> rfl

def handleResult (m : Monitor) (e : WaitEvent) : Except Fault Monitor :=
  if e.pid = 1 then
    Except.ok (handleInit m e.pid m.waitStatus)
  else if caughtBy m Abi.abi64 e.pid then
    daemonExit sysSigname m Abi.abi64
  else if caughtBy m Abi.abi32 e.pid then
    daemonExit sysSigname m Abi.abi32
  else
    Except.ok (handleProcess m e)

def handleWait (m : Monitor) (e : WaitEvent) : WaitStep :=
  if e.pid = -1 ∧ m.tracingState = TracingState.stopped ∧ e.echild then
    WaitStep.leave m
  else
    match handleResult sysSigname (takeWait m e) e with
    | Except.ok m => WaitStep.next m
    | Except.error f => WaitStep.dead f

theorem handleWait_of_pid {e : WaitEvent} (h : e.pid ≠ -1) (m : Monitor) :
    handleWait sysSigname m e =
      match handleResult sysSigname (takeWait m e) e with
      | Except.ok m => WaitStep.next m
      | Except.error f => WaitStep.dead f := by
  unfold handleWait
  rw [if_neg (fun hleave => h hleave.left)]

theorem handleWait_eq_next_iff {e : WaitEvent} (h : e.pid ≠ -1)
    (m m' : Monitor) :
    handleWait sysSigname m e = WaitStep.next m' <->
      handleResult sysSigname (takeWait m e) e = Except.ok m' := by
  rw [handleWait_of_pid sysSigname h]
  cases handleResult sysSigname (takeWait m e) e <;> simp

end Handle

end SigChldHandler
end InitMonitor
end ReZygisk
