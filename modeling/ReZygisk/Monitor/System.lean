import ReZygisk.Foundation.System
import ReZygisk.Monitor.Socket
import ReZygisk.Monitor.SigChld

/-!
# The monitor as a transition system

The event loop runs one handler at a time, so a run of the monitor is a
sequence of handled datagrams and handled wait results.  A datagram on which
the socket handler spins or dies, and a wait result on which the monitor dies,
have no successor.
-/

namespace ReZygisk
namespace InitMonitor

open Foundation
open Kernel
open SigChldHandler

inductive Event where
  | datagram (d : Datagram)
  | wait (e : WaitEvent)

section System

variable (lp : Lp) (sysSigname : Nat -> List Byte)

def waitStep (m : Monitor) (e : WaitEvent) : Option Monitor :=
  match handleWait sysSigname m e with
  | WaitStep.next m' => some m'
  | WaitStep.leave m' => some m'
  | WaitStep.dead _ => none

def datagramStep (m : Monitor) (d : Datagram) : Option Monitor :=
  match SocketHandler.handleEventBody lp
      (SocketHandler.SocketState.start [d] m) with
  | LoopStep.again s => if s.queue = [] then some s.monitor else none
  | LoopStep.done _ => none

/-- Once the loop is stopped, the rest of the socket's queue is still drained,
but no wait result is handled. -/
def step (m : Monitor) : Event -> Option Monitor
  | Event.datagram d => datagramStep lp m d
  | Event.wait e => if m.running then waitStep sysSigname m e else none

/-- The state in which `init_monitor` enters its loop: the status file is
written and init is seized. -/
def initial (preSection postSection : List Byte) : Monitor :=
  (updateStatus
    { preSection := preSection, postSection := postSection }).emit
      (Effect.seize 1)

def system : TransitionSystem Monitor Event where
  init m := exists preSection postSection, m = initial preSection postSection
  step := step lp sysSigname

end System

end InitMonitor
end ReZygisk
