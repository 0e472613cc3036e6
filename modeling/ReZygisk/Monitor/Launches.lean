import ReZygisk.Monitor.Transitions

/-!
# Daemons and tracers

For each ABI the monitor forks at most one daemon, and it starts a tracer only
on a zygote of that ABI, while it is tracing, with the daemon running and the
restart counter below its limit.
-/

namespace ReZygisk
namespace InitMonitor

open Foundation
open Kernel
open SigChldHandler

/-!
# What the effects record
-/

def Effect.forkedFor (abi : Abi) : Effect -> Option Int
  | Effect.forkDaemon abi' pid => if abi' = abi then some pid else none
  | _ => none

def Effect.launched : Effect -> Option (Abi × Int)
  | Effect.launchTracer abi pid => some (abi, pid)
  | _ => none

def forkedDaemons (m : Monitor) (abi : Abi) : List Int :=
  m.effects.filterMap (Effect.forkedFor abi)

def launches (m : Monitor) : List (Abi × Int) :=
  m.effects.filterMap Effect.launched

theorem forkedFor_of_inert (abi : Abi) (x : Effect) (h : x.inert = true) :
    x.forkedFor abi = none := by
  cases x <;> first | rfl | cases h

theorem launched_of_inert (x : Effect) (h : x.inert = true) :
    x.launched = none := by
  cases x <;> first | rfl | cases h

theorem filterMap_of_added {β : Type} {f : Effect -> Option β} {m m' : Monitor}
    {es : List Effect} (h : m'.effects = m.effects ++ es)
    (hes : forall x, x ∈ es -> f x = none) :
    m'.effects.filterMap f = m.effects.filterMap f := by
  rw [h, List.filterMap_append, List.filterMap_eq_nil_iff.mpr hes, List.append_nil]

theorem Housekeeping.filterMap_effects {β : Type} {f : Effect -> Option β}
    (hf : forall x, x.inert = true -> f x = none) {m m' : Monitor}
    (h : Housekeeping m m') : m'.effects.filterMap f = m.effects.filterMap f := by
  rcases h.added with ⟨es, heq, hes⟩
  exact filterMap_of_added heq (fun x hx => hf x (hes x hx))

theorem CommandStep.filterMap_effects {β : Type} {f : Effect -> Option β}
    (hf : forall x, CommandEffect x -> f x = none) {m m' : Monitor}
    {cmd : Option Command} (h : CommandStep m cmd m') :
    m'.effects.filterMap f = m.effects.filterMap f := by
  rcases h.added with ⟨es, heq, hes⟩
  exact filterMap_of_added heq (fun x hx => hf x (hes x hx))

theorem filterMap_emit {β : Type} {f : Effect -> Option β} {e : Effect}
    (h : f e = none) (m : Monitor) :
    (m.emit e).effects.filterMap f = m.effects.filterMap f := by
  rw [Monitor.effects_emit, List.filterMap_append]
  simp [h]

/-!
# The records
-/

structure DaemonRecord (m : Monitor) (abi : Abi) : Prop where
  supported : (m.status abi).supported = true <-> (m.status abi).daemonPid ≠ -1
  running : (m.status abi).daemonRunning = true -> (m.status abi).supported = true
  forked : forkedDaemons m abi =
    if (m.status abi).daemonPid = -1 then [] else [(m.status abi).daemonPid]

/-- A step that leaves the pid and the forks alone and does not set
`daemon_running` keeps the record. -/
theorem DaemonRecord.keep {m m' : Monitor} {abi : Abi} (h : DaemonRecord m abi)
    (hsupported : (m'.status abi).supported = (m.status abi).supported)
    (hpid : (m'.status abi).daemonPid = (m.status abi).daemonPid)
    (hrunning : (m'.status abi).daemonRunning = true ->
      (m.status abi).daemonRunning = true)
    (hforked : forkedDaemons m' abi = forkedDaemons m abi) :
    DaemonRecord m' abi where
  supported := by
    rw [hsupported, hpid]
    exact h.supported
  running := by
    rw [hsupported]
    exact fun hyes => h.running (hrunning hyes)
  forked := by
    rw [hforked, hpid]
    exact h.forked

theorem DaemonRecord.housekeeping {m m' : Monitor} {abi : Abi} (h : DaemonRecord m abi)
    (hkeep : Housekeeping m m') : DaemonRecord m' abi := by
  have hstatus := hkeep.status abi
  have hforked := hkeep.filterMap_effects (forkedFor_of_inert abi)
  exact h.keep (by rw [hstatus]) (by rw [hstatus])
    (by rw [hstatus]; exact id) hforked

theorem DaemonRecord.emit {m : Monitor} {abi : Abi} (h : DaemonRecord m abi)
    {e : Effect} (he : e.forkedFor abi = none) : DaemonRecord (m.emit e) abi := by
  have hstatus := Monitor.status_emit m abi e
  exact h.keep (by rw [hstatus]) (by rw [hstatus])
    (by rw [hstatus]; exact id) (filterMap_emit he m)

theorem DaemonRecord.updateStatus {m : Monitor} {abi : Abi}
    (h : DaemonRecord m abi) : DaemonRecord (updateStatus m) abi :=
  h.emit rfl

/-- `s` keeps what the record of `m` says about the daemon. -/
theorem DaemonRecord.setStatus {m : Monitor} {abi : Abi} (h : DaemonRecord m abi)
    (abi' : Abi) {s : Status}
    (hsupported : s.supported = (m.status abi').supported)
    (hpid : s.daemonPid = (m.status abi').daemonPid)
    (hrunning : s.daemonRunning = true -> (m.status abi').daemonRunning = true) :
    DaemonRecord (m.setStatus abi' s) abi := by
  have hforked : forkedDaemons (m.setStatus abi' s) abi = forkedDaemons m abi := by
    unfold forkedDaemons
    rw [Monitor.effects_setStatus]
  rcases Decidable.em (abi = abi') with heq | hne
  · rw [heq] at h hforked ⊢
    have hstatus := Monitor.status_setStatus m abi' s
    exact h.keep (by rw [hstatus, hsupported]) (by rw [hstatus, hpid])
      (by rw [hstatus]; exact hrunning) hforked
  · have hstatus := Monitor.status_setStatus_of_ne m s hne
    exact h.keep (by rw [hstatus]) (by rw [hstatus])
      (by rw [hstatus]; exact id) hforked

theorem DaemonRecord.command {m m' : Monitor} {cmd : Option Command} {abi : Abi}
    (hm : DaemonRecord m abi) (h : CommandStep m cmd m') :
    DaemonRecord m' abi := by
  have hforked : forkedDaemons m' abi = forkedDaemons m abi :=
    h.filterMap_effects (fun x hx => by cases hx <;> rfl)
  have hchange := h.recordChange abi
  generalize hs : m'.status abi = s at hchange
  cases hchange with
  | kept _ => exact hm.keep (by rw [hs]) (by rw [hs]) (by rw [hs]; exact id) hforked
  | injected => exact hm.keep (by rw [hs]) (by rw [hs]) (by rw [hs]; exact id) hforked
  | info block => exact hm.keep (by rw [hs]) (by rw [hs]) (by rw [hs]; exact id) hforked
  | errorInfo block =>
      have hdown : (m'.status abi).daemonRunning ≠ true := by
        rw [hs]
        exact Bool.false_ne_true
      exact hm.keep (by rw [hs]) (by rw [hs]) (fun hno => absurd hno hdown) hforked

theorem DaemonRecord.counted {m : Monitor} {abi : Abi} (h : DaemonRecord m abi)
    (abi' : Abi) (now : Int) : DaemonRecord (countedStart m abi' now) abi := by
  have hstatus : (countedStart m abi' now).status abi = m.status abi :=
    Monitor.status_setCounter m abi' _ abi
  have hforked : forkedDaemons (countedStart m abi' now) abi =
      forkedDaemons m abi := by
    unfold forkedDaemons countedStart shouldStopInject
    rw [Monitor.effects_setCounter]
  exact h.keep (by rw [hstatus]) (by rw [hstatus]) (by rw [hstatus]; exact id)
    hforked

theorem DaemonRecord.stopInjecting {m : Monitor} {abi : Abi}
    (h : DaemonRecord m abi) (reason : String) :
    DaemonRecord (stopInjecting m reason) abi := by
  have hstopping : DaemonRecord { m with
      tracingState := TracingState.stopping
      monitorStopReason := bytesOf reason } abi :=
    h.keep (by cases abi <;> rfl) (by cases abi <;> rfl)
      (by cases abi <;> exact id) rfl
  exact hstopping.emit rfl

theorem DaemonRecord.daemonStep {m m' : Monitor} {abi abi' : Abi}
    {fork : Option ChildPid} {created : Bool} (hm : DaemonRecord m abi)
    (h : DaemonStep m abi' fork created m') : DaemonRecord m' abi := by
  cases h with
  | forkFailed _ _ => exact hm.setStatus abi' rfl rfl id
  | known _ => exact hm.setStatus abi' rfl rfl id
  | forked hnone pid _ =>
      rcases Decidable.em (abi = abi') with heq | hne
      · -- The one transition that sets the pid, from -1.
        rw [heq] at hm ⊢
        have hne : pid.val ≠ -1 := by
          have hpid := pid.property
          omega
        have hforked := hm.forked
        rw [if_pos hnone] at hforked
        constructor
        · rw [Monitor.status_emit, Monitor.status_setStatus]
          exact iff_of_true rfl hne
        · rw [Monitor.status_emit, Monitor.status_setStatus]
          exact fun _ => rfl
        · rw [Monitor.status_emit, Monitor.status_setStatus, if_neg hne]
          unfold forkedDaemons at hforked ⊢
          rw [Monitor.effects_emit, Monitor.effects_setStatus,
            List.filterMap_append, hforked]
          simp [Effect.forkedFor]
      · have hother : Effect.forkedFor abi (Effect.forkDaemon abi' pid.val) = none :=
          if_neg (Ne.symm hne)
        refine DaemonRecord.emit ?_ hother
        have hstatus : forall s, (m.setStatus abi' s).status abi = m.status abi :=
          fun s => Monitor.status_setStatus_of_ne m s hne
        refine hm.keep (by rw [hstatus]) (by rw [hstatus])
          (by rw [hstatus]; exact id) ?_
        unfold forkedDaemons
        rw [Monitor.effects_setStatus]

theorem DaemonRecord.execStep {m m' : Monitor} {e : WaitEvent}
    {program : List Byte} {abi : Abi} (hm : DaemonRecord m abi)
    (h : ExecStep m e program m') : DaemonRecord m' abi := by
  cases h with
  | notTracing _ => exact hm
  | otherProgram _ => exact hm
  | crashed abi' _ _ _ => exact (hm.counted abi' e.now).stopInjecting _
  | daemonDown abi' m1 m2 _ _ _ hkeep hdaemon =>
      exact (((hm.counted abi' e.now).housekeeping hkeep).daemonStep
        hdaemon).stopInjecting _
  | injecting abi' m1 m2 _ _ _ _ hkeep hdaemon hstopped =>
      exact (((hm.counted abi' e.now).housekeeping hkeep).daemonStep
        hdaemon).housekeeping hstopped
  | launched abi' m1 m2 m3 _ _ _ hkeep hdaemon hstopped =>
      exact ((((hm.counted abi' e.now).housekeeping hkeep).daemonStep
        hdaemon).housekeeping hstopped).emit rfl

theorem DaemonRecord.result {m m' : Monitor} {e : WaitEvent} {abi : Abi}
    (hm : DaemonRecord m abi) (h : ResultStep m e m') : DaemonRecord m' abi := by
  cases h with
  | housekeeping _ hkeep _ => exact hm.housekeeping hkeep
  | detachInit m1 hkeep _ =>
      have hdetached := (hm.housekeeping hkeep).emit (e := Effect.detach 1 0) rfl
      exact hdetached.keep (by cases abi <;> rfl) (by cases abi <;> rfl)
        (by cases abi <;> exact id) rfl
  | daemonExit abi' block m1 hkeep =>
      apply DaemonRecord.updateStatus
      refine (hm.housekeeping hkeep).setStatus abi' rfl rfl ?_
      intro hno
      cases hno
  | exec program m1 m2 _ _ hkeep hexec hreleased =>
      exact ((hm.housekeeping hkeep).execStep hexec).updateStatus.housekeeping hreleased

section Reach

variable {lp : Lp} {sysSigname : Nat -> List Byte}

theorem daemonRecord_step {m m' : Monitor} {event : Event} {abi : Abi}
    (hm : DaemonRecord m abi) (h : step lp sysSigname m event = some m') :
    DaemonRecord m' abi := by
  cases step_cases h with
  | rejected d _ => exact hm
  | command d _ _ hcommand => exact hm.command hcommand
  | result e _ _ hresult => exact hm.result hresult

theorem daemonRecord_of_reachable {m : Monitor}
    (h : (system lp sysSigname).Reachable m) (abi : Abi) :
    DaemonRecord m abi := by
  induction h with
  | init hinit =>
      rcases hinit with ⟨preSection, postSection, heq⟩
      rw [heq]
      cases abi <;>
        exact ⟨iff_of_false Bool.false_ne_true (not_not_intro rfl),
          fun hno => absurd hno Bool.false_ne_true, rfl⟩
  | step _ hstep ih => exact daemonRecord_step ih hstep

/-- A pid, once recorded, is recorded for the rest of the run. -/
theorem daemonPid_of_step {m m' : Monitor} {event : Event} {abi : Abi}
    (hm : DaemonRecord m abi) (hpid : (m.status abi).daemonPid ≠ -1)
    (h : step lp sysSigname m event = some m') :
    (m'.status abi).daemonPid = (m.status abi).daemonPid := by
  have hforked := hm.forked
  have hforked' := (daemonRecord_step hm h).forked
  have hprefix : forkedDaemons m abi <+: forkedDaemons m' abi :=
    (prefix_step h).filterMap (Effect.forkedFor abi)
  rw [hforked, hforked', if_neg hpid] at hprefix
  split at hprefix
  · cases List.prefix_nil.mp hprefix
  · exact ((List.cons_prefix_cons.mp hprefix).left).symm

theorem daemonPid_of_run {m m' : Monitor} {abi : Abi}
    (hm : DaemonRecord m abi) (hpid : (m.status abi).daemonPid ≠ -1)
    {events : List Event} (h : (system lp sysSigname).run m events = some m') :
    (m'.status abi).daemonPid = (m.status abi).daemonPid := by
  induction events generalizing m with
  | nil =>
      cases h
      rfl
  | cons event rest ih =>
      rcases Option.bind_eq_some_iff.mp h with ⟨m1, hstep, hrest⟩
      have hsame := daemonPid_of_step hm hpid hstep
      rw [← hsame] at hpid ⊢
      exact ih (daemonRecord_step hm hstep) hpid hrest

end Reach

/-!
# Tracer launches
-/

/-- The conditions under which the monitor starts a tracer: `m` is the state
before the wait result is handled and `m'` the state after it, in which the
fields still have the values of the launch. -/
structure LaunchGuard (m : Monitor) (e : WaitEvent) (abi : Abi) (m' : Monitor) :
    Prop where
  execed : SeesExec m e (appProcess abi)
  tracing : m.tracingState = TracingState.tracing
  stillTracing : m'.tracingState = TracingState.tracing
  running : (m'.status abi).daemonRunning = true
  counter : (m'.counter abi).count < MAX_RETRY_COUNT

theorem launches_updateStatus (m : Monitor) :
    launches (updateStatus m) = launches m :=
  filterMap_emit rfl m

theorem launches_setStatus (m : Monitor) (abi : Abi) (s : Status) :
    launches (m.setStatus abi s) = launches m := by
  unfold launches
  rw [Monitor.effects_setStatus]

theorem Housekeeping.launches {m m' : Monitor} (h : Housekeeping m m') :
    launches m' = launches m :=
  h.filterMap_effects launched_of_inert

theorem launches_command {m m' : Monitor} {cmd : Option Command}
    (h : CommandStep m cmd m') : launches m' = launches m :=
  h.filterMap_effects (fun x hx => by cases hx <;> rfl)

theorem launches_countedStart (m : Monitor) (abi : Abi) (now : Int) :
    launches (countedStart m abi now) = launches m := by
  unfold launches countedStart shouldStopInject
  rw [Monitor.effects_setCounter]

/-- `ensure_daemon_created` starts no tracer and leaves the tracing state and
the counters alone; when it answers true the daemon is running. -/
structure DaemonStepKeeps (m m' : Monitor) (abi : Abi) (created : Bool) : Prop where
  launches : launches m' = launches m
  tracing : m'.tracingState = m.tracingState
  counter : m'.counter abi = m.counter abi
  running : created = true -> (m'.status abi).daemonRunning = true

theorem daemonStepKeeps {m m' : Monitor} {abi : Abi} {fork : Option ChildPid}
    {created : Bool} (h : DaemonStep m abi fork created m') :
    DaemonStepKeeps m m' abi created := by
  cases h with
  | forkFailed _ _ =>
      exact ⟨launches_setStatus m abi _, Monitor.tracingState_setStatus m abi _,
        by cases abi <;> rfl, fun hno => absurd hno Bool.false_ne_true⟩
  | forked _ pid _ =>
      exact ⟨(filterMap_emit rfl _).trans (launches_setStatus m abi _),
        Monitor.tracingState_setStatus m abi _, by cases abi <;> rfl,
        fun _ => by cases abi <;> rfl⟩
  | known _ =>
      exact ⟨launches_setStatus m abi _, Monitor.tracingState_setStatus m abi _,
        by cases abi <;> rfl, fun hyes => by cases abi <;> exact hyes⟩

theorem launches_execStep {m m' : Monitor} {e : WaitEvent} {program : List Byte}
    (h : ExecStep m e program m') :
    launches m' = launches m ∨
      exists abi, launches m' = launches m ++ [(abi, e.pid)] ∧
        program = appProcess abi ∧
        m.tracingState = TracingState.tracing ∧
        m'.tracingState = TracingState.tracing ∧
        (m'.status abi).daemonRunning = true ∧
        (m'.counter abi).count < MAX_RETRY_COUNT := by
  cases h with
  | notTracing _ => exact Or.inl rfl
  | otherProgram _ => exact Or.inl rfl
  | crashed abi _ _ _ =>
      exact Or.inl ((filterMap_emit (e := Effect.interrupt 1) rfl _).trans
        (launches_countedStart m abi e.now))
  | daemonDown abi m1 m2 _ _ _ hkeep hdaemon =>
      have hcreated := (daemonStepKeeps hdaemon).launches
      rw [hkeep.launches, launches_countedStart] at hcreated
      exact Or.inl ((filterMap_emit (e := Effect.interrupt 1) rfl _).trans hcreated)
  | injecting abi m1 m2 _ _ _ _ hkeep hdaemon hstopped =>
      have hcreated := (daemonStepKeeps hdaemon).launches
      rw [hkeep.launches, launches_countedStart] at hcreated
      exact Or.inl (hstopped.launches.trans hcreated)
  | launched abi m1 m2 m3 htracing hprogram hstop hkeep hdaemon hstopped =>
      have hdaemonKeeps := daemonStepKeeps hdaemon
      have hcreated := hdaemonKeeps.launches
      rw [hkeep.launches, launches_countedStart] at hcreated
      have hstate : m3.tracingState = m.tracingState := by
        rw [hstopped.tracingState, hdaemonKeeps.tracing, hkeep.tracingState]
        exact Monitor.tracingState_setCounter m abi _
      have hcounter : m3.counter abi = (countedStart m abi e.now).counter abi := by
        rw [hstopped.counter, hdaemonKeeps.counter, hkeep.counter]
      right
      refine ⟨abi, ?_, hprogram, htracing, hstate.trans htracing, ?_, ?_⟩
      · rw [← hcreated, ← hstopped.launches]
        unfold launches
        rw [Monitor.effects_emit, List.filterMap_append]
        rfl
      · rw [Monitor.status_emit, hstopped.status]
        exact hdaemonKeeps.running rfl
      · have hsame : (m3.emit (Effect.launchTracer abi e.pid)).counter abi =
            m3.counter abi := by
          cases abi <;> rfl
        rw [hsame, hcounter]
        exact hstop

theorem launches_result {m m' : Monitor} {e : WaitEvent} (h : ResultStep m e m') :
    launches m' = launches m ∨
      exists abi, launches m' = launches m ++ [(abi, e.pid)] ∧
        LaunchGuard m e abi m' := by
  cases h with
  | housekeeping _ hkeep _ => exact Or.inl hkeep.launches
  | detachInit m1 hkeep _ =>
      exact Or.inl ((filterMap_emit (e := Effect.detach 1 0) rfl m1).trans
        hkeep.launches)
  | daemonExit abi block m1 hkeep =>
      exact Or.inl ((launches_updateStatus _).trans
        ((launches_setStatus m1 abi _).trans hkeep.launches))
  | exec program m1 m2 _ hsees hkeep hexec hreleased =>
      have hend : launches m' = launches m2 :=
        hreleased.launches.trans (launches_updateStatus m2)
      rw [hend, ← hkeep.launches]
      rcases launches_execStep hexec with hnone |
        ⟨abi, hone, hprogram, htracing, hstill, hrunning, hcount⟩
      · exact Or.inl hnone
      · right
        refine ⟨abi, hone, hprogram ▸ hsees, hkeep.tracingState ▸ htracing, ?_, ?_, ?_⟩
        · rw [hreleased.tracingState]
          exact hstill
        · rw [hreleased.status, status_updateStatus]
          exact hrunning
        · have hcounter : (updateStatus m2).counter abi = m2.counter abi := by
            cases abi <;> rfl
          rw [hreleased.counter, hcounter]
          exact hcount

section Safety

variable (lp : Lp) (sysSigname : Nat -> List Byte)

/-- Some step of the run started the tracer of `abi` on `pid`, with its guard
satisfied. -/
def LaunchedBy (abi : Abi) (pid : Int) : Prop :=
  exists m e m', (system lp sysSigname).Reachable m ∧
    step lp sysSigname m (Event.wait e) = some m' ∧ e.pid = pid ∧
    LaunchGuard m e abi m'

theorem launchedBy_of_reachable {m : Monitor}
    (h : (system lp sysSigname).Reachable m) (abi : Abi) (pid : Int)
    (hmem : (abi, pid) ∈ launches m) : LaunchedBy lp sysSigname abi pid := by
  induction h with
  | init hinit =>
      rcases hinit with ⟨preSection, postSection, heq⟩
      rw [heq] at hmem
      cases hmem
  | @step s s' event hs hstep ih =>
      cases step_cases hstep with
      | rejected d _ => exact ih hmem
      | command d _ _ hcommand =>
          rw [launches_command hcommand] at hmem
          exact ih hmem
      | result e _ _ hresult =>
          rcases launches_result hresult with hnone | ⟨abi', hone, hguard⟩
          · rw [hnone] at hmem
            exact ih hmem
          · rw [hone] at hmem
            rcases List.mem_append.mp hmem with hold | hnew
            · exact ih hold
            · have heq := List.mem_singleton.mp hnew
              injection heq with habi hpid
              rw [habi]
              exact ⟨s, e, s', hs, hstep, hpid.symm, hguard⟩

end Safety

end InitMonitor
end ReZygisk
