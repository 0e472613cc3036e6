import ReZygisk.Zygiskd.Panics

/-!
# The accept loop

`main` accepts one connection after another, reads the action itself and hands
all but three actions to a new thread.  Threads run at any later time.  The
daemon ends when `main` returns an error, which `start` turns into a panic, or
when a thread panics.
-/

namespace ReZygisk
namespace Zygiskd

open Foundation
open Kernel

/-- A client: what it sends before it closes, and what the system answers while
it is served. -/
structure Connection where
  input : List Byte
  env : RequestEnv

structure Request where
  action : DaemonSocketAction
  input : List Byte
  env : RequestEnv

inductive Phase where
  | running
  | mainFailed
  | aborted
  deriving DecidableEq

structure Daemon where
  phase : Phase
  companions : Nat -> Option (Option Nat)
  pending : List Request
  datagrams : List (List Byte)
  served : List (List Effect)

def Daemon.start : Daemon :=
  { phase := Phase.running, companions := fun _ => none, pending := [],
    datagrams := [], served := [] }

def ZYGOTE_INJECTED : Lp -> Nat
  | Lp.lp64 => 4
  | Lp.lp32 => 5

def SYSTEM_SERVER_STARTED : Nat := 10

/-- `read_u8` and `DaemonSocketAction::try_from`.  `main` applies `?` to both,
so without an action it returns the error. -/
def readAction (input : List Byte) : Option (DaemonSocketAction × List Byte) :=
  match readU8 { input := input, effects := [], companions := fun _ => none } with
  | Outcome.ok code w =>
      (DaemonSocketAction.tryFrom code).map (fun action => (action, w.input))
  | _ => none

section Loop

variable (lp : Lp) (root : Root) (modules : List Module)

def acceptAction (d : Daemon) (action : DaemonSocketAction) (rest : List Byte)
    (env : RequestEnv) : Daemon :=
  match action with
  | DaemonSocketAction.pingHeartbeat =>
      { d with datagrams := d.datagrams ++ [leBytes 4 (ZYGOTE_INJECTED lp)] }
  | DaemonSocketAction.zygoteRestart => { d with companions := fun _ => none }
  | DaemonSocketAction.systemServerStarted =>
      { d with datagrams := d.datagrams ++ [leBytes 4 SYSTEM_SERVER_STARTED] }
  | action =>
      { d with pending := d.pending ++ [{ action := action, input := rest, env := env }] }

/-- The actions that `main` hands to a thread. -/
def DaemonSocketAction.hasThread : DaemonSocketAction -> Bool
  | DaemonSocketAction.pingHeartbeat => false
  | DaemonSocketAction.zygoteRestart => false
  | DaemonSocketAction.systemServerStarted => false
  | _ => true

def acceptConnection (d : Daemon) (c : Connection) : Daemon :=
  match readAction c.input with
  | none => { d with phase := Phase.mainFailed }
  | some (action, rest) => acceptAction lp d action rest c.env

/-- A request thread runs.  Its error is only logged; its panic ends the
daemon; a forked child that leaves is another process. -/
def runRequest (d : Daemon) (i : Nat) (r : Request) : Daemon :=
  match handleDaemonAction root modules r.env r.action
      { input := r.input, effects := [], companions := d.companions } with
  | Outcome.ok _ w | Outcome.err _ w =>
      { d with companions := w.companions, pending := d.pending.eraseIdx i,
               served := d.served ++ [w.effects] }
  | Outcome.stopped Stop.panicked => { d with phase := Phase.aborted }
  | Outcome.stopped (Stop.exited _) => { d with pending := d.pending.eraseIdx i }

inductive Event where
  | accept (c : Connection)
  | serve (i : Nat)

def handleEvent (d : Daemon) : Event -> Daemon
  | Event.accept c => acceptConnection lp d c
  | Event.serve i =>
      match d.pending[i]? with
      | some r => runRequest root modules d i r
      | none => d

def step (d : Daemon) (e : Event) : Daemon :=
  if d.phase = Phase.running then handleEvent lp root modules d e else d

def run (d : Daemon) (events : List Event) : Daemon :=
  events.foldl (step lp root modules) d

end Loop

def accepted (events : List Event) : List Connection :=
  events.filterMap (fun e =>
    match e with
    | Event.accept c => some c
    | Event.serve _ => none)

/-!
# Surviving every client
-/

section Survival

variable {lp : Lp} {root : Root} {modules : List Module}

def sendsAction : Event -> Bool
  | Event.accept c => (readAction c.input).isSome
  | Event.serve _ => true

/-- However the threads are scheduled between these connections, the daemon
keeps running, and does so as if the clients that send no action had not
connected. -/
def KeepsServing (lp : Lp) (root : Root) (modules : List Module)
    (connections : List Connection) : Prop :=
  forall events, accepted events = connections ->
    (run lp root modules Daemon.start events).phase = Phase.running ∧
      run lp root modules Daemon.start events =
        run lp root modules Daemon.start (events.filter sendsAction)

def GoodClient (root : Root) (modules : List Module) (c : Connection) : Prop :=
  exists action rest, readAction c.input = some (action, rest) ∧
    Servable root modules c.env rest action

def Healthy (root : Root) (modules : List Module) (d : Daemon) : Prop :=
  d.phase = Phase.running ∧
    forall r, r ∈ d.pending -> Servable root modules r.env r.input r.action

theorem healthy_start : Healthy root modules Daemon.start :=
  ⟨rfl, fun r hr => by cases hr⟩

theorem healthy_accept {d : Daemon} {c : Connection}
    (hd : Healthy root modules d) (hc : GoodClient root modules c) :
    Healthy root modules (acceptConnection lp d c) := by
  rcases hc with ⟨action, rest, hread, hservable⟩
  have hpend : Healthy root modules
      { d with pending := d.pending ++
          [{ action := action, input := rest, env := c.env }] } := by
    refine ⟨hd.left, ?_⟩
    intro r hr
    rcases List.mem_append.mp hr with hold | hnew
    · exact hd.right r hold
    · rw [List.mem_singleton] at hnew
      rw [hnew]
      exact hservable
  rw [acceptConnection, hread]
  cases action <;> first | exact hpend | exact hd

theorem runRequest_of_servable {r : Request} (d : Daemon) (i : Nat)
    (h : Servable root modules r.env r.input r.action) :
    (runRequest root modules d i r).phase = d.phase ∧
      (runRequest root modules d i r).pending = d.pending.eraseIdx i := by
  have hpanic := (@panics_iff_not_servable root modules r.env
    { input := r.input, effects := [], companions := d.companions } r.action).mp
  simp only [runRequest]
  split
  · exact ⟨rfl, rfl⟩
  · exact ⟨rfl, rfl⟩
  · rename_i hrun
    exact absurd h (hpanic hrun)
  · exact ⟨rfl, rfl⟩

theorem healthy_runRequest {d : Daemon} {i : Nat} {r : Request}
    (hd : Healthy root modules d) (hr : r ∈ d.pending) :
    Healthy root modules (runRequest root modules d i r) := by
  rcases runRequest_of_servable d i (hd.right r hr) with ⟨hphase, hpending⟩
  refine ⟨hphase.trans hd.left, ?_⟩
  intro r' hr'
  rw [hpending] at hr'
  exact hd.right r' (List.mem_of_mem_eraseIdx hr')

theorem healthy_step {d : Daemon} {e : Event} (hd : Healthy root modules d)
    (he : forall c, e = Event.accept c -> GoodClient root modules c) :
    Healthy root modules (step lp root modules d e) := by
  rw [step, if_pos hd.left]
  cases e with
  | accept c => exact healthy_accept hd (he c rfl)
  | serve i =>
      rw [handleEvent]
      split
      · rename_i r hget
        exact healthy_runRequest hd (List.mem_of_getElem? hget)
      · exact hd

theorem healthy_run {d : Daemon} (hd : Healthy root modules d)
    {events : List Event}
    (h : forall c, Event.accept c ∈ events -> GoodClient root modules c) :
    Healthy root modules (run lp root modules d events) := by
  induction events generalizing d with
  | nil => exact hd
  | cons e rest ih =>
      apply ih
      · apply healthy_step hd
        intro c hc
        exact h c (hc ▸ List.mem_cons_self)
      · intro c hc
        exact h c (List.mem_cons_of_mem e hc)

theorem mem_accepted {events : List Event} {c : Connection} :
    c ∈ accepted events <-> Event.accept c ∈ events := by
  simp only [accepted, List.mem_filterMap]
  constructor
  · intro h
    rcases h with ⟨e, he, hc⟩
    cases e with
    | accept c' =>
        cases hc
        exact he
    | serve i => cases hc
  · intro h
    exact ⟨Event.accept c, h, rfl⟩

theorem keepsServing_of_good {connections : List Connection}
    (h : forall c, c ∈ connections -> GoodClient root modules c) :
    KeepsServing lp root modules connections := by
  intro events hevents
  have hgood : forall c, Event.accept c ∈ events -> GoodClient root modules c := by
    intro c hc
    exact h c (hevents ▸ mem_accepted.mpr hc)
  refine ⟨(healthy_run healthy_start hgood).left, ?_⟩
  have hall : events.filter sendsAction = events := by
    rw [List.filter_eq_self]
    intro e he
    cases e with
    | accept c =>
        rcases hgood c he with ⟨action, rest, hread, _⟩
        simp [sendsAction, hread]
    | serve i => rfl
  rw [hall]

/-!
# Killing the daemon

Once it has ended, nothing brings it back.  To reach a thread's panic it is
enough to schedule each thread right after its connection.
-/

theorem run_of_ended {d : Daemon} (h : d.phase ≠ Phase.running)
    (events : List Event) : run lp root modules d events = d := by
  induction events with
  | nil => rfl
  | cons e rest ih =>
      show run lp root modules (step lp root modules d e) rest = d
      rw [step, if_neg h]
      exact ih

def eager (c : Connection) : List Event :=
  [Event.accept c, Event.serve 0]

theorem accepted_eager (connections : List Connection) :
    accepted (connections.flatMap eager) = connections := by
  induction connections with
  | nil => rfl
  | cons c rest ih =>
      show c :: accepted (rest.flatMap eager) = c :: rest
      rw [ih]

theorem eager_thread {d : Daemon} {c : Connection} {action : DaemonSocketAction}
    {rest : List Byte} (hrunning : d.phase = Phase.running)
    (hpending : d.pending = [])
    (hread : readAction c.input = some (action, rest))
    (hthread : action.hasThread = true) :
    run lp root modules d (eager c) =
      runRequest root modules
        { d with pending := [{ action := action, input := rest, env := c.env }] } 0
        { action := action, input := rest, env := c.env } := by
  have haccept : acceptConnection lp d c =
      { d with pending := [{ action := action, input := rest, env := c.env }] } := by
    rw [acceptConnection, hread]
    cases action <;> simp_all [acceptAction, DaemonSocketAction.hasThread]
  simp only [run, eager, List.foldl_cons, List.foldl_nil, step, if_pos hrunning,
    handleEvent, haccept]
  rfl

theorem eager_main {d : Daemon} {c : Connection} {action : DaemonSocketAction}
    {rest : List Byte} (hrunning : d.phase = Phase.running)
    (hpending : d.pending = [])
    (hread : readAction c.input = some (action, rest))
    (hthread : action.hasThread = false) :
    (run lp root modules d (eager c)).pending = [] ∧
      Servable root modules c.env rest action := by
  have haccept : (acceptConnection lp d c).phase = Phase.running ∧
      (acceptConnection lp d c).pending = [] := by
    rw [acceptConnection, hread]
    cases action <;> simp_all [acceptAction, DaemonSocketAction.hasThread]
  constructor
  · simp [run, eager, step, hrunning, handleEvent, haccept.left, haccept.right]
  · cases action <;> first | exact trivial | cases hthread

/-- If the daemon still runs after it has served a connection eagerly, then
that connection was good, and no request waits. -/
theorem good_of_running {d : Daemon} {c : Connection}
    (hrunning : d.phase = Phase.running) (hpending : d.pending = [])
    (h : (run lp root modules d (eager c)).phase = Phase.running) :
    GoodClient root modules c ∧
      (run lp root modules d (eager c)).pending = [] := by
  cases hread : readAction c.input with
  | none => simp [run, eager, step, hrunning, handleEvent, acceptConnection, hread] at h
  | some found =>
      rcases found with ⟨action, rest⟩
      cases hthread : action.hasThread with
      | false =>
          rcases eager_main hrunning hpending hread hthread with ⟨hempty, hservable⟩
          exact ⟨⟨action, rest, hread, hservable⟩, hempty⟩
      | true =>
          rw [eager_thread hrunning hpending hread hthread] at h ⊢
          have hservable : Servable root modules c.env rest action := by
            apply Classical.not_not.mp
            intro hbad
            have hpanic : handleDaemonAction root modules c.env action
                { input := rest, effects := [], companions := d.companions } =
                  Outcome.stopped Stop.panicked :=
              (panics_iff_not_servable action).mpr hbad
            simp [runRequest, hpanic] at h
          have hserved := runRequest_of_servable
            (r := { action := action, input := rest, env := c.env })
            { d with pending := [{ action := action, input := rest, env := c.env }] }
            0 hservable
          exact ⟨⟨action, rest, hread, hservable⟩, hserved.right⟩

theorem good_of_eager_run {connections : List Connection} {d : Daemon}
    (hrunning : d.phase = Phase.running) (hpending : d.pending = [])
    (h : (run lp root modules d (connections.flatMap eager)).phase =
      Phase.running) :
    forall c, c ∈ connections -> GoodClient root modules c := by
  induction connections generalizing d with
  | nil =>
      intro c hc
      cases hc
  | cons c rest ih =>
      have hsplit : run lp root modules d ((c :: rest).flatMap eager) =
          run lp root modules (run lp root modules d (eager c))
            (rest.flatMap eager) := by
        rw [List.flatMap_cons, run, List.foldl_append]
        rfl
      rw [hsplit] at h
      have hstill : (run lp root modules d (eager c)).phase = Phase.running := by
        apply Classical.not_not.mp
        intro hended
        rw [run_of_ended hended] at h
        exact hended h
      rcases good_of_running hrunning hpending hstill with ⟨hgood, hempty⟩
      intro c' hc'
      rcases List.mem_cons.mp hc' with heq | hrest
      · rw [heq]
        exact hgood
      · exact ih hstill hempty h c' hrest

theorem good_of_keepsServing {connections : List Connection}
    (h : KeepsServing lp root modules connections) :
    forall c, c ∈ connections -> GoodClient root modules c :=
  good_of_eager_run rfl rfl
    (h (connections.flatMap eager) (accepted_eager connections)).left

end Survival

end Zygiskd
end ReZygisk
