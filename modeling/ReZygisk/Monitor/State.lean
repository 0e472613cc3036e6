import ReZygisk.Kernel.Abi
import ReZygisk.Kernel.Wait

/-!
# State of the init monitor

The globals of `monitor.cpp`, the members of its two event handlers, and the
rendering of the status file.  System calls with an effect outside the process
are recorded in order, so that a property of what the monitor asks of the
kernel is a property of the recorded list.
-/

namespace ReZygisk
namespace InitMonitor

open Foundation
open Kernel

inductive TracingState where
  | tracing
  | stopping
  | stopped
  | exiting
  deriving DecidableEq, Repr

inductive Command where
  | start
  | stop
  | exit
  | zygoteInjected (abi : Abi)
  | daemonSetInfo (abi : Abi)
  | daemonSetErrorInfo (abi : Abi)
  | systemServerStarted
  deriving DecidableEq, Repr

def Command.code : Command -> Nat
  | Command.start => 1
  | Command.stop => 2
  | Command.exit => 3
  | Command.zygoteInjected Abi.abi64 => 4
  | Command.zygoteInjected Abi.abi32 => 5
  | Command.daemonSetInfo Abi.abi64 => 6
  | Command.daemonSetInfo Abi.abi32 => 7
  | Command.daemonSetErrorInfo Abi.abi64 => 8
  | Command.daemonSetErrorInfo Abi.abi32 => 9
  | Command.systemServerStarted => 10

def Command.ofCode : Nat -> Option Command
  | 1 => some Command.start
  | 2 => some Command.stop
  | 3 => some Command.exit
  | 4 => some (Command.zygoteInjected Abi.abi64)
  | 5 => some (Command.zygoteInjected Abi.abi32)
  | 6 => some (Command.daemonSetInfo Abi.abi64)
  | 7 => some (Command.daemonSetInfo Abi.abi32)
  | 8 => some (Command.daemonSetErrorInfo Abi.abi64)
  | 9 => some (Command.daemonSetErrorInfo Abi.abi32)
  | 10 => some Command.systemServerStarted
  | _ => none

theorem Command.ofCode_eq_some_iff (n : Nat) (cmd : Command) :
    Command.ofCode n = some cmd <-> n = cmd.code := by
  constructor
  · intro h
    unfold Command.ofCode at h
    split at h <;> first | (injection h with h; rw [← h]; rfl) | cases h
  · intro h
    rw [h]
    rcases cmd with _ | _ | _ | abi | abi | abi | _ <;>
      first | rfl | (cases abi <;> rfl)

/-- `struct Status`.  The two texts are heap blocks; `none` is the null
pointer, which static storage starts from. -/
structure Status where
  supported : Bool := false
  zygoteInjected : Bool := false
  daemonRunning : Bool := false
  daemonPid : Int := -1
  daemonInfo : Option (List Byte) := none
  daemonErrorInfo : Option (List Byte) := none
  deriving DecidableEq, Repr

structure ZygoteStartCounter where
  last : Int := 0
  count : Int := 0
  deriving DecidableEq, Repr

/-- What the monitor asks of the kernel, and what the kernel reports to it. -/
inductive Effect where
  | waited (pid : Int) (status : Nat)
  | seize (pid : Int)
  | interrupt (pid : Int)
  | getEventMsg (pid : Int)
  | setOptions (pid : Int)
  | cont (pid : Int) (signal : Nat)
  | detach (pid : Int) (signal : Nat)
  | kill (pid : Int) (signal : Nat)
  | mountProp
  | umountProp
  | forkDaemon (abi : Abi) (pid : Int)
  | launchTracer (abi : Abi) (pid : Int)
  | writeProp (content : List Byte)
  deriving DecidableEq, Repr

structure Monitor where
  tracingState : TracingState := TracingState.tracing
  monitorStopReason : List Byte := []
  status64 : Status := {}
  status32 : Status := {}
  counter64 : ZygoteStartCounter := {}
  counter32 : ZygoteStartCounter := {}
  process : List Int := []
  waitStatus : Nat := 0
  running : Bool := true
  preSection : List Byte := []
  postSection : List Byte := []
  effects : List Effect := []
  deriving DecidableEq, Repr

inductive Fault where
  | lengthError
  | badCopy
  | nullDereference
  | heapOverrun
  deriving DecidableEq, Repr

/-!
# Access by ABI

The macros name `status64` or `status32` by their argument.
-/

def Monitor.status (m : Monitor) : Abi -> Status
  | Abi.abi64 => m.status64
  | Abi.abi32 => m.status32

def Monitor.setStatus (m : Monitor) (abi : Abi) (s : Status) : Monitor :=
  match abi with
  | Abi.abi64 => { m with status64 := s }
  | Abi.abi32 => { m with status32 := s }

def Monitor.counter (m : Monitor) : Abi -> ZygoteStartCounter
  | Abi.abi64 => m.counter64
  | Abi.abi32 => m.counter32

def Monitor.setCounter (m : Monitor) (abi : Abi) (c : ZygoteStartCounter) :
    Monitor :=
  match abi with
  | Abi.abi64 => { m with counter64 := c }
  | Abi.abi32 => { m with counter32 := c }

def Monitor.emit (m : Monitor) (e : Effect) : Monitor :=
  { m with effects := m.effects ++ [e] }

section Access

variable (m : Monitor) (abi : Abi) (s : Status) (c : ZygoteStartCounter)
  (e : Effect)

@[simp] theorem Monitor.status_setStatus :
    (m.setStatus abi s).status abi = s := by
  cases abi <;> rfl

@[simp] theorem Monitor.status_setStatus_other :
    (m.setStatus abi s).status abi.other = m.status abi.other := by
  cases abi <;> rfl

theorem Monitor.status_setStatus_of_ne {abi abi' : Abi} (h : abi ≠ abi') :
    (m.setStatus abi' s).status abi = m.status abi := by
  cases abi <;> cases abi' <;> first | rfl | exact absurd rfl h

@[simp] theorem Monitor.tracingState_setStatus :
    (m.setStatus abi s).tracingState = m.tracingState := by
  cases abi <;> rfl

@[simp] theorem Monitor.process_setStatus :
    (m.setStatus abi s).process = m.process := by
  cases abi <;> rfl

@[simp] theorem Monitor.effects_setStatus :
    (m.setStatus abi s).effects = m.effects := by
  cases abi <;> rfl

@[simp] theorem Monitor.status_setCounter (abi' : Abi) :
    (m.setCounter abi c).status abi' = m.status abi' := by
  cases abi <;> cases abi' <;> rfl

@[simp] theorem Monitor.tracingState_setCounter :
    (m.setCounter abi c).tracingState = m.tracingState := by
  cases abi <;> rfl

@[simp] theorem Monitor.process_setCounter :
    (m.setCounter abi c).process = m.process := by
  cases abi <;> rfl

@[simp] theorem Monitor.effects_setCounter :
    (m.setCounter abi c).effects = m.effects := by
  cases abi <;> rfl

@[simp] theorem Monitor.status_emit : (m.emit e).status abi = m.status abi := by
  cases abi <;> rfl

@[simp] theorem Monitor.tracingState_emit :
    (m.emit e).tracingState = m.tracingState := rfl

@[simp] theorem Monitor.process_emit : (m.emit e).process = m.process := rfl

@[simp] theorem Monitor.effects_emit :
    (m.emit e).effects = m.effects ++ [e] := rfl

end Access

/-!
# The status file
-/

def writeStatusAbi (m : Monitor) (abi : Abi) : List Byte :=
  let status := m.status abi
  if status.supported then
    bytesOf (" zygote" ++ abi.suffix ++ ":") ++
      (if m.tracingState ≠ TracingState.tracing then bytesOf "❓ unknown, "
        else if status.zygoteInjected then bytesOf "😋 injected, "
        else bytesOf "❌ not injected, ") ++
      bytesOf (" daemon" ++ abi.suffix ++ ":") ++
      if status.daemonRunning then
        bytesOf "😋running" ++
          match status.daemonInfo with
          | none => []
          | some info => bytesOf "(" ++ cstr info ++ bytesOf ")"
      else
        bytesOf "❌ crashed " ++
          match status.daemonErrorInfo with
          | none => []
          | some info => bytesOf "(" ++ cstr info ++ bytesOf ")"
  else
    []

def renderStatus (m : Monitor) : List Byte :=
  bytesOf "monitor: " ++
    (match m.tracingState with
      | TracingState.tracing => bytesOf "😋 tracing"
      | TracingState.stopping => bytesOf "❌ stopped"
      | TracingState.stopped => bytesOf "❌ stopped"
      | TracingState.exiting => bytesOf "❌ exited") ++
    (if m.tracingState ≠ TracingState.tracing ∧ m.monitorStopReason ≠ [] then
        bytesOf "(" ++ m.monitorStopReason ++ bytesOf ")"
      else
        []) ++
    bytesOf "," ++
    writeStatusAbi m Abi.abi64 ++ writeStatusAbi m Abi.abi32

/-- `updateStatus`, with `fopen` succeeding.  The text is not cut to the 1024
bytes of its buffer: whether it fits is a question about `renderStatus`. -/
def updateStatus (m : Monitor) : Monitor :=
  m.emit (Effect.writeProp
    (m.preSection ++ bytesOf "[" ++ renderStatus m ++ bytesOf "] " ++
      m.postSection))

section Update

variable (m : Monitor)

@[simp] theorem status_updateStatus (abi : Abi) :
    (updateStatus m).status abi = m.status abi := by
  cases abi <;> rfl

@[simp] theorem tracingState_updateStatus :
    (updateStatus m).tracingState = m.tracingState := rfl

@[simp] theorem process_updateStatus :
    (updateStatus m).process = m.process := rfl

end Update

end InitMonitor
end ReZygisk
