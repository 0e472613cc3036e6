import ReZygisk.Monitor.StopCause

/-!
# The event loop

`EventLoop::Loop` asks `epoll_wait` for the handlers that are ready and calls
each of them once, leaving the batch as soon as the loop has been stopped.  The
socket handler drains its queue; the other one reads signal records and, for
each, handles wait results until `waitpid` has none.  What the loop handles, in
order, is a run of the monitor.
-/

namespace ReZygisk
namespace InitMonitor

open Foundation
open Kernel
open SigChldHandler

namespace EventLoop

/-- A ready handler with what it finds: the datagrams waiting on the socket,
or, for each signal record, the results of `waitpid` before it returns 0. -/
inductive Ready where
  | socket (queue : List Datagram)
  | sigChld (reads : List (List WaitEvent))

/-- A handler's outcome: the state it leaves and the events it handled. -/
abbrev Handled := Option (Monitor × List Event)

def Handled.andThen (first : Handled) (rest : Monitor -> Handled) : Handled :=
  first.bind (fun r => (rest r.1).map (fun r' => (r'.1, r.2 ++ r'.2)))

section Loop

variable (lp : Lp) (sysSigname : Nat -> List Byte)

def drain : Monitor -> List Datagram -> Handled
  | m, [] => some (m, [])
  | m, d :: rest =>
      Handled.andThen
        ((datagramStep lp m d).map (fun m' => (m', [Event.datagram d])))
        (fun m' => drain m' rest)

def waitLoop : Monitor -> List WaitEvent -> Handled
  | m, [] => some (m, [])
  | m, e :: rest =>
      match handleWait sysSigname m e with
      | WaitStep.next m' =>
          Handled.andThen (some (m', [Event.wait e])) (fun m' => waitLoop m' rest)
      | WaitStep.leave m' => some (m', [Event.wait e])
      | WaitStep.dead _ => none

def readSignals : Monitor -> List (List WaitEvent) -> Handled
  | m, [] => some (m, [])
  | m, results :: rest =>
      Handled.andThen (waitLoop sysSigname m results) (fun m' => readSignals m' rest)

def handleEvent (m : Monitor) : Ready -> Handled
  | Ready.socket queue => drain lp m queue
  | Ready.sigChld reads => readSignals sysSigname m reads

/-- One batch of `epoll_wait`, with the check after each handler. -/
def handleBatch : Monitor -> List Ready -> Handled
  | m, [] => some (m, [])
  | m, r :: rest =>
      Handled.andThen (handleEvent lp sysSigname m r)
        (fun m' => if m'.running then handleBatch m' rest else some (m', []))

/-- `while (running)`, for as many batches as have come. -/
def loop : Monitor -> List (List Ready) -> Handled
  | m, [] => some (m, [])
  | m, batch :: rest =>
      if m.running then
        Handled.andThen (handleBatch lp sysSigname m batch) (fun m' => loop m' rest)
      else
        some (m, [])

end Loop

/-!
# The drained socket

`drain` takes the queue one datagram at a time; it is the loop of the socket
handler.
-/

theorem datagramStep_of_drainable {lp : Lp} {d : Datagram}
    (h : SocketHandler.Drainable lp d) (rest taken : List Datagram) (m : Monitor) :
    exists m1, datagramStep lp m d = some m1 ∧
      SocketHandler.handleEventBody lp ⟨d :: rest, taken, m⟩ =
        LoopStep.again ⟨rest, taken ++ [d], m1⟩ := by
  rcases SocketHandler.handleEventBody_drainable h [] [] m with ⟨m1, hone, hact1⟩
  rcases SocketHandler.handleEventBody_drainable h rest taken m with
    ⟨m2, hmany, hact2⟩
  have hsame : m2 = m1 := by
    split at hact2
    · rename_i haccepted
      rw [if_pos haccepted, hact2] at hact1
      injection hact1
    · rename_i hrejected
      rw [if_neg hrejected] at hact1
      exact hact2.trans hact1.symm
  refine ⟨m1, ?_, hsame ▸ hmany⟩
  unfold datagramStep SocketHandler.SocketState.start
  rw [hone]
  rfl

theorem datagramStep_of_not_drainable {lp : Lp} {d : Datagram}
    (h : ¬ SocketHandler.Drainable lp d) (m : Monitor) :
    datagramStep lp m d = none := by
  unfold datagramStep SocketHandler.SocketState.start
  rcases SocketHandler.handleEventBody_not_drainable h [] [] m with
    hspin | ⟨f, hdead⟩
  · rw [hspin]
    rfl
  · rw [hdead]

theorem drain_cons (lp : Lp) (m : Monitor) (d : Datagram) (rest : List Datagram) :
    drain lp m (d :: rest) =
      Handled.andThen
        ((datagramStep lp m d).map (fun m' => (m', [Event.datagram d])))
        (fun m' => drain lp m' rest) := rfl

theorem drain_iff_loopReturns {lp : Lp} (queue taken : List Datagram)
    (m m' : Monitor) :
    (exists events, drain lp m queue = some (m', events)) <->
      LoopReturns (SocketHandler.handleEventBody lp) ⟨queue, taken, m⟩
        (Except.ok ⟨[], taken ++ queue, m'⟩) := by
  induction queue generalizing taken m with
  | nil =>
      have hbody : SocketHandler.handleEventBody lp ⟨[], taken, m⟩ =
          LoopStep.done (Except.ok ⟨[], taken, m⟩) := rfl
      rw [List.append_nil, loopReturns_done_iff hbody]
      constructor
      · intro h
        rcases h with ⟨events, h⟩
        cases h
        rfl
      · intro h
        injection h with h
        injection h with _ _ hm
        exact ⟨[], by rw [hm]; rfl⟩
  | cons d rest ih =>
      rcases Classical.em (SocketHandler.Drainable lp d) with hd | hd
      · rcases datagramStep_of_drainable hd rest taken m with ⟨m1, hstep, hbody⟩
        have hrest := ih (taken ++ [d]) m1
        rw [List.append_assoc, List.singleton_append] at hrest
        rw [loopReturns_again_iff hbody, ← hrest]
        rw [drain_cons, hstep]
        constructor
        · intro h
          rcases h with ⟨events, h⟩
          rcases Option.map_eq_some_iff.mp h with ⟨r, hr, heq⟩
          injection heq with hm _
          rw [← hm]
          exact ⟨r.2, hr⟩
        · intro h
          rcases h with ⟨events, h⟩
          exact ⟨[Event.datagram d] ++ events,
            Option.map_eq_some_iff.mpr ⟨(m', events), h, rfl⟩⟩
      · constructor
        · intro h
          rcases h with ⟨events, h⟩
          rw [drain_cons, datagramStep_of_not_drainable hd] at h
          cases h
        · intro h
          exact absurd (SocketHandler.drainable_of_loopReturns _ _ _ h d
            List.mem_cons_self) hd

/-- The model of the socket handler in the loop is the handler itself. -/
theorem drain_iff_handleEventReturns {lp : Lp} (queue : List Datagram)
    (m m' : Monitor) :
    (exists events, drain lp m queue = some (m', events)) <->
      SocketHandler.HandleEventReturns lp queue m ⟨[], queue, m'⟩ :=
  drain_iff_loopReturns queue [] m m'

/-!
# What is handled is a run
-/

section Refinement

variable {lp : Lp} {sysSigname : Nat -> List Byte}

/-- The handled events lead from `m` to the state that is left. -/
def IsRun (lp : Lp) (sysSigname : Nat -> List Byte) (m : Monitor) (h : Handled) :
    Prop :=
  forall m' events, h = some (m', events) ->
    (system lp sysSigname).run m events = some m'

theorem isRun_nil (m : Monitor) : IsRun lp sysSigname m (some (m, [])) := by
  intro m' events h
  injection h with h
  injection h with hm hevents
  rw [← hm, ← hevents]
  rfl

theorem isRun_andThen {m : Monitor} {first : Handled} {rest : Monitor -> Handled}
    (hfirst : IsRun lp sysSigname m first)
    (hrest : forall m1 events, first = some (m1, events) ->
      IsRun lp sysSigname m1 (rest m1)) :
    IsRun lp sysSigname m (first.andThen rest) := by
  intro m' events h
  rcases Option.bind_eq_some_iff.mp h with ⟨r1, h1, h2⟩
  rcases Option.map_eq_some_iff.mp h2 with ⟨r2, h2, heq⟩
  injection heq with hm hevents
  rw [← hevents, TransitionSystem.run_append, hfirst r1.1 r1.2 h1]
  have htail := hrest r1.1 r1.2 h1 r2.1 r2.2 h2
  rw [hm] at htail
  exact htail

theorem isRun_drain (m : Monitor) (queue : List Datagram) :
    IsRun lp sysSigname m (drain lp m queue) := by
  induction queue generalizing m with
  | nil => exact isRun_nil m
  | cons d rest ih =>
      apply isRun_andThen
      · intro m' events h
        rcases Option.map_eq_some_iff.mp h with ⟨m1, hstep, heq⟩
        injection heq with hm hevents
        rw [← hm, ← hevents]
        exact (Option.bind_eq_some_iff.mpr ⟨m1, hstep, rfl⟩)
      · intro m1 _ _
        exact ih m1

theorem running_waitStep {m m' : Monitor} {e : WaitEvent}
    (h : waitStep sysSigname m e = some m') : m'.running = m.running :=
  running_result (resultStep_of_waitStep h)

theorem waitStep_of_next {m m' : Monitor} {e : WaitEvent}
    (h : handleWait sysSigname m e = WaitStep.next m') :
    waitStep sysSigname m e = some m' := by
  rw [waitStep, h]

theorem waitStep_of_leave {m m' : Monitor} {e : WaitEvent}
    (h : handleWait sysSigname m e = WaitStep.leave m') :
    waitStep sysSigname m e = some m' := by
  rw [waitStep, h]

theorem isRun_wait {m m1 : Monitor} {e : WaitEvent} (hrunning : m.running = true)
    (h : waitStep sysSigname m e = some m1) :
    IsRun lp sysSigname m (some (m1, [Event.wait e])) := by
  intro m' events heq
  injection heq with heq
  injection heq with hm hevents
  rw [← hm, ← hevents]
  refine Option.bind_eq_some_iff.mpr ⟨m1, ?_, rfl⟩
  change (if m.running then waitStep sysSigname m e else none) = some m1
  rw [if_pos hrunning]
  exact h

/-- Handling wait results never stops the loop. -/
theorem running_waitLoop {m m' : Monitor} {events : List Event}
    (hrunning : m.running = true) {results : List WaitEvent}
    (h : waitLoop sysSigname m results = some (m', events)) :
    m'.running = true := by
  induction results generalizing m m' events with
  | nil =>
      cases h
      exact hrunning
  | cons e rest ih =>
      unfold waitLoop at h
      split at h
      · rename_i m1 hwait
        rcases Option.map_eq_some_iff.mp h with ⟨r, hrest, heq⟩
        injection heq with hm _
        have hstep := running_waitStep (waitStep_of_next hwait)
        rw [← hm]
        exact ih (hstep.trans hrunning) hrest
      · rename_i m1 hwait
        cases h
        exact (running_waitStep (waitStep_of_leave hwait)).trans hrunning
      · cases h

theorem isRun_waitLoop {m : Monitor} (hrunning : m.running = true)
    (results : List WaitEvent) :
    IsRun lp sysSigname m (waitLoop sysSigname m results) := by
  induction results generalizing m with
  | nil => exact isRun_nil m
  | cons e rest ih =>
      unfold waitLoop
      split
      · rename_i m1 hwait
        have hstep := waitStep_of_next hwait
        apply isRun_andThen (isRun_wait hrunning hstep)
        intro m2 events h
        injection h with h
        injection h with hm _
        rw [← hm]
        exact ih ((running_waitStep hstep).trans hrunning)
      · rename_i m1 hwait
        exact isRun_wait hrunning (waitStep_of_leave hwait)
      · intro m' events h
        cases h

theorem isRun_readSignals {m : Monitor} (hrunning : m.running = true)
    (reads : List (List WaitEvent)) :
    IsRun lp sysSigname m (readSignals sysSigname m reads) := by
  induction reads generalizing m with
  | nil => exact isRun_nil m
  | cons results rest ih =>
      apply isRun_andThen (isRun_waitLoop hrunning results)
      intro m1 events h
      exact ih (running_waitLoop hrunning h)

theorem isRun_handleEvent {m : Monitor} (hrunning : m.running = true) (r : Ready) :
    IsRun lp sysSigname m (handleEvent lp sysSigname m r) := by
  cases r with
  | socket queue => exact isRun_drain m queue
  | sigChld reads => exact isRun_readSignals hrunning reads

theorem isRun_handleBatch {m : Monitor} (hrunning : m.running = true)
    (batch : List Ready) :
    IsRun lp sysSigname m (handleBatch lp sysSigname m batch) := by
  induction batch generalizing m with
  | nil => exact isRun_nil m
  | cons r rest ih =>
      apply isRun_andThen (isRun_handleEvent hrunning r)
      intro m1 events h
      split
      · rename_i hstill
        exact ih hstill
      · exact isRun_nil m1

/-- What the event loop handles is a run of the monitor: in particular no wait
result is handled once the loop has been stopped. -/
theorem isRun_loop (m : Monitor) (batches : List (List Ready)) :
    IsRun lp sysSigname m (loop lp sysSigname m batches) := by
  induction batches generalizing m with
  | nil => exact isRun_nil m
  | cons batch rest ih =>
      unfold loop
      split
      · rename_i hrunning
        apply isRun_andThen (isRun_handleBatch hrunning batch)
        intro m1 events h
        exact ih m1
      · exact isRun_nil m

end Refinement

end EventLoop
end InitMonitor
end ReZygisk
