import ReZygisk.Monitor.EventLoop

/-!
# Tracing, stopping and exiting

The monitor holds init seized while it traces and until a requested stop has
been carried out.  A stop is requested from three places, carried out by a
later stop of init, and can be taken back in between; `EXIT` overtakes it.
-/

namespace ReZygisk
namespace InitMonitor

open Foundation
open Kernel
open SigChldHandler

/-!
# Whether init is seized
-/

def seizeAfter (seized : Bool) : Effect -> Bool
  | Effect.seize pid => if pid = 1 then true else seized
  | Effect.detach pid _ => if pid = 1 then false else seized
  | _ => seized

def initSeized (effects : List Effect) : Bool :=
  effects.foldl seizeAfter false

/-- Every `PTRACE_SEIZE` of init comes while init is not seized. -/
def SeizesFree : Bool -> List Effect -> Prop
  | _, [] => True
  | seized, e :: rest =>
      (e = Effect.seize 1 -> seized = false) ∧
        SeizesFree (seizeAfter seized e) rest

theorem seizesFree_append (seized : Bool) (es es' : List Effect) :
    SeizesFree seized (es ++ es') <->
      SeizesFree seized es ∧ SeizesFree (es.foldl seizeAfter seized) es' := by
  induction es generalizing seized with
  | nil => simp [SeizesFree]
  | cons e rest ih =>
      simp only [List.cons_append, SeizesFree, List.foldl_cons, ih, and_assoc]

def Effect.offInit : Effect -> Bool
  | Effect.seize pid => decide (pid ≠ 1)
  | Effect.detach pid _ => decide (pid ≠ 1)
  | _ => true

theorem offInit_of_inert {x : Effect} (h : x.inert = true) : x.offInit = true := by
  cases x with
  | seize pid => cases h
  | detach pid sig => exact h
  | _ => rfl

theorem seizeAfter_offInit {x : Effect} (h : x.offInit = true) (seized : Bool) :
    seizeAfter seized x = seized := by
  cases x with
  | seize pid => exact if_neg (of_decide_eq_true h)
  | detach pid sig => exact if_neg (of_decide_eq_true h)
  | _ => rfl

theorem seizes_offInit {es : List Effect} (h : forall x, x ∈ es -> x.offInit = true)
    (seized : Bool) :
    es.foldl seizeAfter seized = seized ∧ SeizesFree seized es := by
  induction es with
  | nil => exact ⟨rfl, trivial⟩
  | cons x rest ih =>
      have hx := h x List.mem_cons_self
      have hrest := ih (fun y hy => h y (List.mem_cons_of_mem x hy))
      rw [List.foldl_cons, SeizesFree, seizeAfter_offInit hx]
      refine ⟨hrest.left, ?_, hrest.right⟩
      intro hseize
      rw [hseize] at hx
      cases hx

/-!
# Steps that leave init alone
-/

def OffInit (m m' : Monitor) : Prop :=
  exists es, m'.effects = m.effects ++ es ∧ forall x, x ∈ es -> x.offInit = true

theorem OffInit.of_effects {m m' : Monitor} (h : m'.effects = m.effects) :
    OffInit m m' :=
  ⟨[], by rw [h, List.append_nil], by simp⟩

theorem OffInit.trans {m m1 m2 : Monitor} (h : OffInit m m1) (h' : OffInit m1 m2) :
    OffInit m m2 := by
  rcases h with ⟨es, heq, hes⟩
  rcases h' with ⟨es', heq', hes'⟩
  refine ⟨es ++ es', by rw [heq', heq, List.append_assoc], ?_⟩
  intro x hx
  rcases List.mem_append.mp hx with hx | hx
  · exact hes x hx
  · exact hes' x hx

theorem OffInit.emit {m m1 : Monitor} (h : OffInit m m1) {e : Effect}
    (he : e.offInit = true) : OffInit m (m1.emit e) :=
  h.trans ⟨[e], rfl, by simpa using he⟩

theorem OffInit.updateStatus {m m1 : Monitor} (h : OffInit m m1) :
    OffInit m (updateStatus m1) :=
  h.emit rfl

theorem OffInit.setStatus {m m1 : Monitor} (h : OffInit m m1) (abi : Abi)
    (s : Status) : OffInit m (m1.setStatus abi s) :=
  h.trans (OffInit.of_effects (Monitor.effects_setStatus m1 abi s))

theorem OffInit.housekeeping {m m1 m2 : Monitor} (h : OffInit m m1)
    (hkeep : Housekeeping m1 m2) : OffInit m m2 := by
  rcases hkeep.added with ⟨es, heq, hes⟩
  exact h.trans ⟨es, heq, fun x hx => offInit_of_inert (hes x hx)⟩

theorem OffInit.countedStart {m m1 : Monitor} (h : OffInit m m1) (abi : Abi)
    (now : Int) : OffInit m (countedStart m1 abi now) :=
  h.trans (OffInit.of_effects (Monitor.effects_setCounter m1 abi _))

theorem OffInit.daemonStep {m m1 m2 : Monitor} (h : OffInit m m1) {abi : Abi}
    {fork : Option ChildPid} {created : Bool}
    (hdaemon : DaemonStep m1 abi fork created m2) : OffInit m m2 := by
  cases hdaemon with
  | forkFailed _ _ => exact h.setStatus abi _
  | known _ => exact h.setStatus abi _
  | forked _ pid _ => exact (h.setStatus abi _).emit rfl

theorem OffInit.execStep {m m1 m2 : Monitor} (h : OffInit m m1) {e : WaitEvent}
    {program : List Byte} (hexec : ExecStep m1 e program m2) : OffInit m m2 := by
  cases hexec with
  | notTracing _ => exact h
  | otherProgram _ => exact h
  | crashed abi _ _ _ => exact (h.countedStart abi e.now).emit rfl
  | daemonDown abi _ _ _ _ _ hkeep hdaemon =>
      exact (((h.countedStart abi e.now).housekeeping hkeep).daemonStep
        hdaemon).emit rfl
  | injecting abi _ _ _ _ _ _ hkeep hdaemon hstopped =>
      exact (((h.countedStart abi e.now).housekeeping hkeep).daemonStep
        hdaemon).housekeeping hstopped
  | launched abi _ _ _ _ _ _ hkeep hdaemon hstopped =>
      exact ((((h.countedStart abi e.now).housekeeping hkeep).daemonStep
        hdaemon).housekeeping hstopped).emit rfl

/-!
# What an event does about init
-/

def Traced (m : Monitor) : Prop :=
  m.tracingState = TracingState.tracing ∨ m.tracingState = TracingState.stopping

/-- The tracing state across an event that leaves init alone. -/
inductive StateStep (m m' : Monitor) : Prop where
  | same (h : m'.tracingState = m.tracingState) (hrunning : m'.running = m.running)
  | between (h : Traced m) (h' : Traced m') (hrunning : m'.running = m.running)
  | exit (h : m'.tracingState = TracingState.exiting)
      (hrunning : m'.running = false)

inductive InitStep (m m' : Monitor) : Prop where
  | alone (hoff : OffInit m m') (hstate : StateStep m m')
  | seize (h : m.tracingState = TracingState.stopped) (m1 : Monitor)
      (hseized : m1.effects = m.effects ++ [Effect.seize 1]) (hoff : OffInit m1 m')
      (hstate : m'.tracingState = TracingState.tracing)
      (hrunning : m'.running = m.running)
  | detach (h : m.tracingState = TracingState.stopping) (m1 : Monitor)
      (hoff : OffInit m m1)
      (hdetached : m'.effects = m1.effects ++ [Effect.detach 1 0])
      (hstate : m'.tracingState = TracingState.stopped)
      (hrunning : m'.running = m.running)

theorem stateStep_of_control {m m' : Monitor} (h : m'.control = m.control) :
    StateStep m m' := by
  unfold Monitor.control at h
  injection h with hstate hrest
  injection hrest with _ hrunning
  exact StateStep.same hstate hrunning

theorem initStep_command {m m' : Monitor} {cmd : Option Command}
    (h : CommandStep m cmd m') : InitStep m m' := by
  have hrefl : OffInit m m := OffInit.of_effects rfl
  cases h with
  | unknown => exact InitStep.alone hrefl (stateStep_of_control rfl)
  | nothingToStop _ => exact InitStep.alone hrefl (stateStep_of_control rfl)
  | nothingToStart _ =>
      exact InitStep.alone hrefl.updateStatus (stateStep_of_control rfl)
  | cancelStop hstopping =>
      have hoff : OffInit m { m with tracingState := TracingState.tracing } :=
        OffInit.of_effects rfl
      exact InitStep.alone hoff.updateStatus
        (StateStep.between (Or.inr hstopping) (Or.inl rfl) rfl)
  | seizeInit hstopped =>
      have hoff : OffInit (m.emit (Effect.seize 1))
          { m.emit (Effect.seize 1) with tracingState := TracingState.tracing } :=
        OffInit.of_effects rfl
      exact InitStep.seize hstopped _ rfl hoff.updateStatus rfl rfl
  | requestStop htracing =>
      have hoff : OffInit m { m with
          tracingState := TracingState.stopping
          monitorStopReason := userRequested } :=
        OffInit.of_effects rfl
      have hinterrupted := hoff.emit (e := Effect.interrupt 1) rfl
      exact InitStep.alone hinterrupted.updateStatus
        (StateStep.between (Or.inl htracing) (Or.inr rfl) rfl)
  | exit =>
      have hoff : OffInit m { m with
          tracingState := TracingState.exiting
          monitorStopReason := userRequested } :=
        OffInit.of_effects rfl
      have hstopped : OffInit m { updateStatus { m with
          tracingState := TracingState.exiting
          monitorStopReason := userRequested } with running := false } :=
        hoff.updateStatus.trans (OffInit.of_effects rfl)
      exact InitStep.alone hstopped (StateStep.exit rfl rfl)
  | injected abi =>
      exact InitStep.alone (hrefl.setStatus abi _).updateStatus
        (stateStep_of_control (control_setStatus m abi _))
  | info abi block =>
      exact InitStep.alone (hrefl.setStatus abi _).updateStatus
        (stateStep_of_control (control_setStatus m abi _))
  | errorInfo abi block =>
      exact InitStep.alone (hrefl.setStatus abi _).updateStatus
        (stateStep_of_control (control_setStatus m abi _))
  | mount => exact InitStep.alone (hrefl.emit rfl) (stateStep_of_control rfl)

theorem stateStep_execStep {m m' : Monitor} {e : WaitEvent} {program : List Byte}
    (h : ExecStep m e program m') : StateStep m m' := by
  have hrunning := running_execStep h
  cases h with
  | notTracing _ => exact stateStep_of_control rfl
  | otherProgram _ => exact stateStep_of_control rfl
  | crashed abi htracing _ _ =>
      exact StateStep.between (Or.inl htracing) (Or.inr rfl) hrunning
  | daemonDown abi _ _ htracing _ _ _ _ =>
      exact StateStep.between (Or.inl htracing) (Or.inr rfl) hrunning
  | injecting abi _ _ _ _ _ _ hkeep hdaemon hstopped =>
      apply stateStep_of_control
      rw [hstopped.control, control_daemonStep hdaemon, hkeep.control,
        control_countedStart]
  | launched abi _ _ _ _ _ _ hkeep hdaemon hstopped =>
      apply stateStep_of_control
      rw [control_emit, hstopped.control, control_daemonStep hdaemon,
        hkeep.control, control_countedStart]

theorem stateStep_congr {m m1 m2 m' : Monitor} (hbefore : m1.control = m.control)
    (hafter : m'.control = m2.control) (h : StateStep m1 m2) : StateStep m m' := by
  unfold Monitor.control at hbefore hafter
  injection hbefore with hstate hrest
  injection hrest with _ hrun
  injection hafter with hstate' hrest'
  injection hrest' with _ hrun'
  cases h with
  | same h hrunning =>
      exact StateStep.same (by rw [hstate', h, hstate]) (by rw [hrun', hrunning, hrun])
  | between h h' hrunning =>
      unfold Traced at h h'
      rw [hstate] at h
      rw [← hstate'] at h'
      exact StateStep.between h h' (by rw [hrun', hrunning, hrun])
  | exit h hrunning =>
      exact StateStep.exit (hstate'.trans h) (hrun'.trans hrunning)

theorem initStep_result {m m' : Monitor} {e : WaitEvent} (h : ResultStep m e m') :
    InitStep m m' := by
  have hrefl : OffInit m m := OffInit.of_effects rfl
  cases h with
  | housekeeping _ hkeep _ =>
      exact InitStep.alone (hrefl.housekeeping hkeep)
        (stateStep_of_control hkeep.control)
  | detachInit m1 hkeep hstopping _ =>
      exact InitStep.detach hstopping m1 (hrefl.housekeeping hkeep) rfl rfl
        hkeep.running
  | daemonExit abi block m1 hkeep _ =>
      apply InitStep.alone
      · exact ((hrefl.housekeeping hkeep).setStatus abi _).updateStatus
      · apply stateStep_of_control
        rw [control_updateStatus, control_setStatus, hkeep.control]
  | exec program m1 m2 _ _ hkeep hexec hreleased =>
      have hoff := (hrefl.housekeeping hkeep).execStep hexec
      exact InitStep.alone (hoff.updateStatus.housekeeping hreleased)
        (stateStep_congr hkeep.control
          (hreleased.control.trans (control_updateStatus m2))
          (stateStep_execStep hexec))

theorem initStep_step {lp : Lp} {sysSigname : Nat -> List Byte} {m m' : Monitor}
    {event : Event} (h : step lp sysSigname m event = some m') : InitStep m m' := by
  cases step_cases h with
  | rejected d _ =>
      exact InitStep.alone (OffInit.of_effects rfl) (stateStep_of_control rfl)
  | command d _ _ hcommand => exact initStep_command hcommand
  | result e _ _ hresult => exact initStep_result hresult

/-!
# The invariant
-/

structure InitTracked (m : Monitor) : Prop where
  seized : m.running = true -> (initSeized m.effects = true <-> Traced m)
  exits : m.running = false <-> m.tracingState = TracingState.exiting
  free : SeizesFree false m.effects

theorem OffInit.seizes {m m' : Monitor} (h : OffInit m m')
    (hfree : SeizesFree false m.effects) :
    initSeized m'.effects = initSeized m.effects ∧ SeizesFree false m'.effects := by
  rcases h with ⟨es, heq, hes⟩
  have hkeeps := seizes_offInit hes (initSeized m.effects)
  rw [heq, seizesFree_append]
  refine ⟨?_, hfree, hkeeps.right⟩
  unfold initSeized
  rw [List.foldl_append]
  exact hkeeps.left

theorem not_exiting_of_traced {m : Monitor} (h : Traced m) :
    m.tracingState ≠ TracingState.exiting := by
  intro hno
  rcases h with h | h
  · rw [h] at hno
    cases hno
  · rw [h] at hno
    cases hno

theorem initTracked_alone {m m' : Monitor} (hm : InitTracked m)
    (hoff : OffInit m m') (hstate : StateStep m m') : InitTracked m' := by
  rcases hoff.seizes hm.free with ⟨hsame, hfree⟩
  cases hstate with
  | same h hrunning =>
      refine ⟨?_, ?_, hfree⟩
      · unfold Traced
        rw [hrunning, h, hsame]
        exact hm.seized
      · rw [hrunning, h]
        exact hm.exits
  | between h h' hrunning =>
      refine ⟨?_, ?_, hfree⟩
      · intro hyes
        rw [hsame, hm.seized (hrunning.symm.trans hyes)]
        exact iff_of_true h h'
      · rw [hrunning, hm.exits]
        exact iff_of_false (not_exiting_of_traced h) (not_exiting_of_traced h')
  | exit h hrunning =>
      refine ⟨?_, iff_of_true hrunning h, hfree⟩
      intro hyes
      rw [hrunning] at hyes
      cases hyes

theorem initTracked_step {m m' : Monitor} (hm : InitTracked m)
    (h : InitStep m m') : InitTracked m' := by
  cases h with
  | alone hoff hstate => exact initTracked_alone hm hoff hstate
  | seize hstopped m1 hseized hoff hstate hrunning =>
      have hexits : ¬ m.running = false := by
        rw [hm.exits, hstopped]
        intro hno
        cases hno
      have hrun : m.running = true := eq_true_of_ne_false hexits
      have hbefore : initSeized m.effects = false := by
        apply eq_false_of_ne_true
        rw [hm.seized hrun]
        unfold Traced
        rw [hstopped]
        intro hno
        rcases hno with hno | hno
        · cases hno
        · cases hno
      have hfree : SeizesFree false m1.effects := by
        rw [hseized, seizesFree_append]
        exact ⟨hm.free, fun _ => hbefore, trivial⟩
      have hseizedNow : initSeized m1.effects = true := by
        unfold initSeized
        rw [hseized, List.foldl_append]
        rfl
      rcases hoff.seizes hfree with ⟨hsame, hfree'⟩
      refine ⟨?_, ?_, hfree'⟩
      · intro _
        rw [hsame, hseizedNow]
        exact iff_of_true rfl (Or.inl hstate)
      · rw [hrunning, hm.exits, hstopped, hstate]
        exact iff_of_false (fun hno => by cases hno) (fun hno => by cases hno)
  | detach hstopping m1 hoff hdetached hstate hrunning =>
      rcases hoff.seizes hm.free with ⟨_, hfree⟩
      refine ⟨?_, ?_, ?_⟩
      · intro _
        unfold initSeized Traced
        rw [hdetached, List.foldl_append, hstate]
        apply iff_of_false Bool.false_ne_true
        intro hno
        rcases hno with hno | hno
        · cases hno
        · cases hno
      · rw [hrunning, hm.exits, hstopping, hstate]
        exact iff_of_false (fun hno => by cases hno) (fun hno => by cases hno)
      · rw [hdetached, seizesFree_append]
        exact ⟨hfree, (fun hno => by cases hno), trivial⟩

theorem initTracked_initial (preSection postSection : List Byte) :
    InitTracked (initial preSection postSection) := by
  refine ⟨?_, ?_, ?_⟩
  · intro _
    exact iff_of_true rfl (Or.inl rfl)
  · exact iff_of_false (fun hno => by cases hno) (fun hno => by cases hno)
  · exact ⟨fun _ => rfl, fun _ => rfl, trivial⟩

/-!
# Runs of the monitor
-/

section Runs

variable (lp : Lp) (sysSigname : Nat -> List Byte)

def acceptsCommand (cmd : Command) (d : Datagram) : Prop :=
  SocketHandler.accepted lp d = true ∧
    Command.ofCode (SocketHandler.peekHead d).cmd = some cmd

/-- The cause of the most recent transition out of `TRACING`, or of the most
recent `EXIT`. -/
def lastStopCause : Monitor -> List Event -> Option StopCause :=
  (system lp sysSigname).history
    (fun last m event => (stopCause lp m event).or last) none

/-- No `PTRACE_DETACH` of init among the effects added from `m` to `m'`. -/
def KeepsInit (m m' : Monitor) : Prop :=
  forall new sig, m'.effects = m.effects ++ new -> Effect.detach 1 sig ∉ new

theorem OffInit.keepsInit {m m' : Monitor} (h : OffInit m m') : KeepsInit m m' := by
  rcases h with ⟨es, heq, hes⟩
  intro new sig hnew hmem
  rw [heq] at hnew
  rw [← List.append_cancel_left hnew] at hmem
  cases hes _ hmem

/-- Everything that the monitor owes to init and to its stop reason, in the
state `m` that `events` lead to. -/
structure LifecycleSafe (start : Monitor) (events : List Event) (m : Monitor) :
    Prop where
  seized : m.running = true ->
    (initSeized m.effects = true <->
      m.tracingState = TracingState.tracing ∨
        m.tracingState = TracingState.stopping)
  seizesFree : SeizesFree false m.effects
  detaches : forall event m', step lp sysSigname m event = some m' ->
    ¬ KeepsInit m m' -> m.tracingState = TracingState.stopping
  cancelled : forall d m1 later m2,
    m.tracingState = TracingState.stopping -> acceptsCommand lp Command.start d ->
    step lp sysSigname m (Event.datagram d) = some m1 ->
    (system lp sysSigname).run m1 later = some m2 ->
    (system lp sysSigname).AlongRun
      (fun s event => stopCause lp s event = none) m1 later ->
    m2.tracingState = TracingState.tracing ∧ KeepsInit m m2
  exited : forall d m1 later m2, acceptsCommand lp Command.exit d ->
    step lp sysSigname m (Event.datagram d) = some m1 ->
    (system lp sysSigname).run m1 later = some m2 ->
    m2.tracingState = TracingState.exiting ∧
      forall event, event ∈ later -> exists d', event = Event.datagram d'
  causes : forall event m', step lp sysSigname m event = some m' ->
    ((stopCause lp m event).isSome = true <->
      (m.tracingState = TracingState.tracing ∧
        m'.tracingState ≠ TracingState.tracing) ∨
      exists d, event = Event.datagram d ∧ acceptsCommand lp Command.exit d)
  reason : m.tracingState ≠ TracingState.tracing ->
    exists cause, lastStopCause lp sysSigname start events = some cause ∧
      m.monitorStopReason = cause.reason

variable {lp sysSigname}

theorem detaches_only_stopping {m m' : Monitor} {event : Event}
    (h : step lp sysSigname m event = some m') (hdetach : ¬ KeepsInit m m') :
    m.tracingState = TracingState.stopping := by
  cases initStep_step h with
  | alone hoff _ => exact absurd hoff.keepsInit hdetach
  | seize _ m1 hseized hoff _ _ =>
      exfalso
      apply hdetach
      rcases hoff with ⟨es, heq, hes⟩
      rw [hseized, List.append_assoc] at heq
      intro new sig hnew hmem
      rw [heq] at hnew
      rw [← List.append_cancel_left hnew] at hmem
      rcases List.mem_cons.mp hmem with hmem | hmem
      · cases hmem
      · cases hes _ hmem
  | detach hstopping _ _ _ _ _ => exact hstopping

/-- While nothing stops a tracing monitor, it goes on tracing and leaves init
alone. -/
theorem offInit_of_uninterrupted {m m1 m2 : Monitor} {later : List Event}
    (hoff : OffInit m m1) (htracing : m1.tracingState = TracingState.tracing)
    (hrun : (system lp sysSigname).run m1 later = some m2)
    (hnone : (system lp sysSigname).AlongRun
      (fun s event => stopCause lp s event = none) m1 later) :
    m2.tracingState = TracingState.tracing ∧ OffInit m m2 := by
  refine TransitionSystem.run_invariant
    (I := fun s => s.tracingState = TracingState.tracing ∧ OffInit m s)
    ?_ ⟨htracing, hoff⟩ hnone hrun
  intro s event s' hs hcause hstep
  refine ⟨((causeStep_step hstep).none hcause).left hs.left, ?_⟩
  have hnot : forall state, s.tracingState = state ->
      state = TracingState.tracing := by
    intro state hstate
    exact hstate.symm.trans hs.left
  cases initStep_step hstep with
  | alone hoff' _ => exact hs.right.trans hoff'
  | seize hstopped _ _ _ _ _ => cases hnot _ hstopped
  | detach hstopping _ _ _ _ _ => cases hnot _ hstopping

theorem started_of_stopping {m m1 : Monitor} {d : Datagram}
    (hstopping : m.tracingState = TracingState.stopping)
    (hd : acceptsCommand lp Command.start d)
    (h : step lp sysSigname m (Event.datagram d) = some m1) :
    m1.tracingState = TracingState.tracing ∧ OffInit m m1 := by
  cases step_cases h with
  | rejected _ hrejected =>
      rw [hd.left] at hrejected
      cases hrejected
  | command _ _ _ hcommand =>
      rw [hd.right] at hcommand
      cases hcommand with
      | cancelStop _ =>
          have hoff : OffInit m { m with tracingState := TracingState.tracing } :=
            OffInit.of_effects rfl
          exact ⟨rfl, hoff.updateStatus⟩
      | seizeInit hstopped =>
          rw [hstopping] at hstopped
          cases hstopped
      | nothingToStart hno =>
          rw [hstopping] at hno
          rcases hno with hno | hno
          · cases hno
          · cases hno

theorem exited_of_exit {m m1 : Monitor} {d : Datagram}
    (hd : acceptsCommand lp Command.exit d)
    (h : step lp sysSigname m (Event.datagram d) = some m1) :
    m1.tracingState = TracingState.exiting ∧ m1.running = false := by
  cases step_cases h with
  | rejected _ hrejected =>
      rw [hd.left] at hrejected
      cases hrejected
  | command _ _ _ hcommand =>
      rw [hd.right] at hcommand
      cases hcommand with
      | exit => exact ⟨rfl, rfl⟩

theorem exiting_step {m m' : Monitor} {event : Event}
    (hm : m.tracingState = TracingState.exiting ∧ m.running = false)
    (h : step lp sysSigname m event = some m') :
    (m'.tracingState = TracingState.exiting ∧ m'.running = false) ∧
      exists d, event = Event.datagram d := by
  have hstate : m'.tracingState = TracingState.exiting ∧ m'.running = false := by
    cases initStep_step h with
    | alone _ hstep =>
        cases hstep with
        | same hsame hrunning =>
            exact ⟨hsame.trans hm.left, hrunning.trans hm.right⟩
        | between htraced _ _ =>
            exact absurd hm.left (not_exiting_of_traced htraced)
        | exit hexit hrunning => exact ⟨hexit, hrunning⟩
    | seize hstopped _ _ _ _ _ =>
        rw [hm.left] at hstopped
        cases hstopped
    | detach hstopping _ _ _ _ _ =>
        rw [hm.left] at hstopping
        cases hstopping
  refine ⟨hstate, ?_⟩
  cases step_cases h with
  | rejected d _ => exact ⟨d, rfl⟩
  | command d _ _ _ => exact ⟨d, rfl⟩
  | result e _ hrunning _ =>
      rw [hm.right] at hrunning
      cases hrunning

theorem exiting_run {m m' : Monitor} {later : List Event}
    (hm : m.tracingState = TracingState.exiting ∧ m.running = false)
    (h : (system lp sysSigname).run m later = some m') :
    m'.tracingState = TracingState.exiting ∧
      forall event, event ∈ later -> exists d, event = Event.datagram d := by
  induction later generalizing m with
  | nil =>
      cases h
      exact ⟨hm.left, fun _ hno => by cases hno⟩
  | cons event rest ih =>
      rcases Option.bind_eq_some_iff.mp h with ⟨m1, hstep, hrest⟩
      rcases exiting_step hm hstep with ⟨hm1, hdatagram⟩
      rcases ih hm1 hrest with ⟨hstate, hall⟩
      refine ⟨hstate, ?_⟩
      intro event' hmem
      cases hmem with
      | head => exact hdatagram
      | tail _ htail => exact hall event' htail

theorem stopCause_tracing_or_exit {m : Monitor} {event : Event} {c : StopCause}
    (h : stopCause lp m event = some c) :
    m.tracingState = TracingState.tracing ∨
      exists d, event = Event.datagram d ∧ acceptsCommand lp Command.exit d := by
  cases event with
  | wait e =>
      left
      by_contra hnot
      rw [stopCause_of_not_tracing hnot] at h
      cases h
  | datagram d =>
      rw [stopCause] at h
      split at h
      · rename_i haccepted
        unfold commandCause at h
        split at h
        · split at h
          · rename_i htracing
            exact Or.inl htracing
          · cases h
        · rename_i hexit
          exact Or.inr ⟨d, rfl, haccepted, hexit⟩
        · cases h
      · cases h

theorem stopCause_isSome_iff {m m' : Monitor} {event : Event}
    (h : step lp sysSigname m event = some m') :
    (stopCause lp m event).isSome = true <->
      (m.tracingState = TracingState.tracing ∧
        m'.tracingState ≠ TracingState.tracing) ∨
      exists d, event = Event.datagram d ∧ acceptsCommand lp Command.exit d := by
  have hcause := causeStep_step h
  constructor
  · intro hsome
    rcases Option.isSome_iff_exists.mp hsome with ⟨c, hc⟩
    rcases stopCause_tracing_or_exit hc with htracing | hexit
    · exact Or.inl ⟨htracing, (hcause.some c hc).left⟩
    · exact Or.inr hexit
  · intro hleft
    rcases hleft with ⟨htracing, hnot⟩ | ⟨d, hevent, haccepted, hcmd⟩
    · cases hc : stopCause lp m event with
      | none => exact absurd ((hcause.none hc).left htracing) hnot
      | some c => rfl
    · rw [hevent, stopCause, if_pos haccepted, hcmd]
      rfl

variable (lp sysSigname)

theorem lifecycleSafe_of_run (preSection postSection : List Byte)
    {events : List Event} {m : Monitor}
    (h : (system lp sysSigname).run (initial preSection postSection) events =
      some m) :
    LifecycleSafe lp sysSigname (initial preSection postSection) events m := by
  have halways : (system lp sysSigname).AlongRun (fun _ _ => True)
      (initial preSection postSection) events :=
    TransitionSystem.alongRun_true _ _
  have htracked : InitTracked m := by
    refine TransitionSystem.run_invariant (I := InitTracked) ?_
      (initTracked_initial preSection postSection) halways h
    intro s event s' hs _ hstep
    exact initTracked_step hs (initStep_step hstep)
  constructor
  · exact htracked.seized
  · exact htracked.free
  · intro event m' hstep hdetach
    exact detaches_only_stopping hstep hdetach
  · intro d m1 later m2 hstopping hd hstep hrun hnone
    rcases started_of_stopping hstopping hd hstep with ⟨htracing, hoff⟩
    have hkept := offInit_of_uninterrupted hoff htracing hrun hnone
    exact ⟨hkept.left, hkept.right.keepsInit⟩
  · intro d m1 later m2 hd hstep hrun
    exact exiting_run (exited_of_exit hd hstep) hrun
  · intro event m' hstep
    exact stopCause_isSome_iff hstep
  · refine TransitionSystem.history_invariant
      (I := fun last s => s.tracingState ≠ TracingState.tracing ->
        exists cause : StopCause, last = some cause ∧
          s.monitorStopReason = cause.reason)
      ?_ (fun hno => absurd rfl hno) halways h
    intro last s event s' hs _ hstep hnot
    have hcause := causeStep_step hstep
    cases hc : stopCause lp s event with
    | some c => exact ⟨c, rfl, (hcause.some c hc).right⟩
    | none =>
        rcases hcause.none hc with ⟨hstays, hreason⟩
        rcases hs (fun htracing => hnot (hstays htracing)) with ⟨c, hlast, htext⟩
        exact ⟨c, hlast, hreason.trans htext⟩

/-- In every state between two handled events of the event loop, started by
`init_monitor` and fed any batches of ready handlers. -/
theorem loop_lifecycleSafe (preSection postSection : List Byte)
    (batches : List (List EventLoop.Ready)) (final : Monitor)
    (handled : List Event)
    (h : EventLoop.loop lp sysSigname (initial preSection postSection) batches =
      some (final, handled)) :
    (system lp sysSigname).run (initial preSection postSection) handled =
        some final ∧
      forall before after, handled = before ++ after ->
        exists m, (system lp sysSigname).run (initial preSection postSection)
            before = some m ∧
          LifecycleSafe lp sysSigname (initial preSection postSection) before m := by
  have hrun := EventLoop.isRun_loop _ _ final handled h
  refine ⟨hrun, ?_⟩
  intro before after hsplit
  rw [hsplit, TransitionSystem.run_append] at hrun
  rcases Option.bind_eq_some_iff.mp hrun with ⟨m, hbefore, _⟩
  exact ⟨m, hbefore, lifecycleSafe_of_run lp sysSigname _ _ hbefore⟩

end Runs

/-- `STOP` and `START` in one drain, the interrupt-stop of the cancelled stop,
then `STOP` carried out, and `EXIT` with a `START` behind it. -/
def cancelledAndExited : List (List EventLoop.Ready) :=
  [ [EventLoop.Ready.socket [[2, 0, 0, 0], [1, 0, 0, 0]]],
    [EventLoop.Ready.sigChld
      [[{ pid := 1, status := stoppedStatus SIGTRAP PTRACE_EVENT_STOP }]]],
    [EventLoop.Ready.socket [[2, 0, 0, 0]],
      EventLoop.Ready.sigChld
        [[{ pid := 1, status := stoppedStatus SIGTRAP PTRACE_EVENT_STOP }]]],
    [EventLoop.Ready.socket [[3, 0, 0, 0], [1, 0, 0, 0]],
      EventLoop.Ready.sigChld
        [[{ pid := 200, status := stoppedStatus SIGSTOP PTRACE_EVENT_STOP }]]] ]

theorem loop_lifecycleSafe_cancelled_and_exited :
    exists final handled,
      EventLoop.loop Lp.lp64 (fun _ => []) (initial [] []) cancelledAndExited =
        some (final, handled) ∧
      final.tracingState = TracingState.exiting ∧
      initSeized final.effects = false ∧
      LifecycleSafe Lp.lp64 (fun _ => []) (initial [] []) handled final := by
  have hloop : exists final handled,
      EventLoop.loop Lp.lp64 (fun _ => []) (initial [] []) cancelledAndExited =
        some (final, handled) ∧
      final.tracingState = TracingState.exiting ∧
      initSeized final.effects = false :=
    ⟨_, _, rfl, rfl, rfl⟩
  rcases hloop with ⟨final, handled, hloop, hstate, hfree⟩
  refine ⟨final, handled, hloop, hstate, hfree, ?_⟩
  rcases loop_lifecycleSafe _ _ [] [] cancelledAndExited final handled hloop
    with ⟨hrun, hsafe⟩
  rcases hsafe handled [] (List.append_nil _).symm with ⟨m, hm, hmSafe⟩
  rw [hrun] at hm
  injection hm with hm
  rw [hm]
  exact hmSafe

end InitMonitor
end ReZygisk
