import ReZygisk.Monitor.Daemons
import ReZygisk.Monitor.Tracees
import ReZygisk.Monitor.ZygoteStarts

/-!
# Mounts of the status file

On `SYSTEM_SERVER_STARTED` the monitor binds its status file over the module's
`module.prop`, and when a zygote starts it takes the mount off again.  Only
`ensure_daemon_created` does the latter, for the 64-bit zygote, and an exec gets
there only while the monitor traces and below the restart limit.
-/

namespace ReZygisk
namespace InitMonitor

open Foundation
open Kernel
open SigChldHandler

/-!
# The stack of mounts
-/

/-- The number of mounts on `module.prop` after these calls, from `depth` on.
A `mount` puts one on top if it succeeds, which `outcomes` says for one after the
other; a `umount2` takes the topmost off, and fails if there is none. -/
def stacked : Nat -> List Bool -> List Effect -> Nat
  | depth, _, [] => depth
  | depth, outcomes, Effect.mountProp :: rest =>
      stacked (if outcomes.headD true then depth + 1 else depth) outcomes.tail rest
  | depth, outcomes, Effect.umountProp :: rest => stacked (depth - 1) outcomes rest
  | depth, outcomes, _ :: rest => stacked depth outcomes rest

/-- At no time since the monitor was started was there more than one mount. -/
def AtMostOneStacked (m : Monitor) : Prop :=
  forall outcomes effects, effects <+: m.effects -> stacked 0 outcomes effects ≤ 1

def Effect.onProp : Effect -> Bool
  | Effect.mountProp => true
  | Effect.umountProp => true
  | _ => false

def propCalls (m : Monitor) : List Effect :=
  m.effects.filter Effect.onProp

/-- Each mount is made with none there; `mounted` says whether there is one. -/
def Alternates : Bool -> List Effect -> Prop
  | _, [] => True
  | mounted, Effect.mountProp :: rest => mounted = false ∧ Alternates true rest
  | _, Effect.umountProp :: rest => Alternates false rest
  | mounted, _ :: rest => Alternates mounted rest

theorem stacked_le_of_alternates {es effects : List Effect} {mounted : Bool}
    {depth : Nat} (h : Alternates mounted es) (hdepth : depth ≤ mounted.toNat)
    (outcomes : List Bool) (hpre : effects <+: es) :
    stacked depth outcomes effects ≤ 1 := by
  induction es generalizing effects mounted depth outcomes with
  | nil =>
      rw [List.prefix_nil.mp hpre]
      exact hdepth.trans (Bool.toNat_le mounted)
  | cons e rest ih =>
      rcases List.prefix_cons_iff.mp hpre with hnil | ⟨effects', heq, hrest⟩
      · rw [hnil]
        exact hdepth.trans (Bool.toNat_le mounted)
      · rw [heq]
        cases e with
        | mountProp =>
            rcases h with ⟨hfree, hnext⟩
            rw [hfree] at hdepth
            have hzero : depth = 0 := Nat.le_zero.mp hdepth
            refine ih hnext ?_ outcomes.tail hrest
            rw [hzero]
            split
            · exact Nat.le_refl 1
            · exact Nat.zero_le 1
        | umountProp =>
            have hone : depth ≤ 1 := hdepth.trans (Bool.toNat_le mounted)
            exact ih h (Nat.sub_le_of_le_add hone) outcomes hrest
        | _ =>
            have hnext := ih h hdepth outcomes hrest
            exact hnext

theorem alternates_of_stacked {es : List Effect} {mounted : Bool}
    (h : forall effects, effects <+: es -> stacked mounted.toNat [] effects ≤ 1) :
    Alternates mounted es := by
  induction es generalizing mounted with
  | nil => trivial
  | cons e rest ih =>
      have hnext : forall effects, effects <+: rest ->
          stacked mounted.toNat [] (e :: effects) ≤ 1 := by
        intro effects heffects
        exact h (e :: effects) (List.prefix_cons_inj e |>.mpr heffects)
      cases e with
      | mountProp =>
          cases mounted with
          | false => exact ⟨rfl, ih hnext⟩
          | true => exact absurd (hnext [] List.nil_prefix) (by decide)
      | umountProp =>
          cases mounted with
          | false => exact ih hnext
          | true => exact ih hnext
      | _ => exact ih hnext

theorem alternates_filter (mounted : Bool) (es : List Effect) :
    Alternates mounted (es.filter Effect.onProp) <-> Alternates mounted es := by
  induction es generalizing mounted with
  | nil => rfl
  | cons e rest ih =>
      cases e with
      | mountProp => exact and_congr_right (fun _ => ih true)
      | umountProp => exact ih false
      | _ => exact ih mounted

theorem atMostOneStacked_iff_alternates (m : Monitor) :
    AtMostOneStacked m <-> Alternates false (propCalls m) := by
  rw [propCalls, alternates_filter]
  constructor
  · intro h
    exact alternates_of_stacked (h [])
  · intro h outcomes effects hpre
    exact stacked_le_of_alternates h (Nat.le_refl 0) outcomes hpre

/-!
# What a run is about
-/

/-- What the monitor is told: that a system server has started, or that a zygote
has.  `passes` says that the monitor traces then and that the restart limit is
not reached. -/
inductive PropMark where
  | systemServerStarted
  | zygoteStart (abi : Abi) (passes : Bool)
  deriving DecidableEq

def passesGuards (m : Monitor) (abi : Abi) (e : WaitEvent) : Bool :=
  decide (m.tracingState = TracingState.tracing) && !(shouldStopInject m abi e.now).1

def propMark (lp : Lp) (m : Monitor) : Event -> List PropMark
  | Event.datagram d =>
      if SocketHandler.accepted lp d = true ∧
          Command.ofCode (SocketHandler.peekHead d).cmd =
            some Command.systemServerStarted then
        [PropMark.systemServerStarted]
      else []
  | Event.wait e =>
      if SeesExec m e (appProcess Abi.abi64) then
        [PropMark.zygoteStart Abi.abi64 (passesGuards m Abi.abi64 e)]
      else if SeesExec m e (appProcess Abi.abi32) then
        [PropMark.zygoteStart Abi.abi32 (passesGuards m Abi.abi32 e)]
      else []

/-- The marks of a run, in order. -/
def propMarks (lp : Lp) (sysSigname : Nat -> List Byte) :
    Monitor -> List Event -> List PropMark :=
  (system lp sysSigname).history (fun marks m event => marks ++ propMark lp m event) []

/-- Between any two starts of a system server there is a zygote start of the
given kind. -/
def Separated (start : PropMark -> Bool) (marks : List PropMark) : Prop :=
  forall before between after,
    marks = before ++ PropMark.systemServerStarted ::
      (between ++ PropMark.systemServerStarted :: after) ->
    exists x, x ∈ between ∧ start x = true

def PropMark.isZygoteStart : PropMark -> Bool
  | PropMark.zygoteStart _ _ => true
  | PropMark.systemServerStarted => false

/-- The start of a 64-bit zygote that passes both guards. -/
def PropMark.unmounts : PropMark -> Bool
  | PropMark.zygoteStart Abi.abi64 passes => passes
  | _ => false

/-- The call on `module.prop` that follows. -/
def PropMark.call : PropMark -> Option Effect
  | PropMark.systemServerStarted => some Effect.mountProp
  | PropMark.zygoteStart Abi.abi64 true => some Effect.umountProp
  | PropMark.zygoteStart _ _ => none

/-- With a mount there, the next start of a system server has to be separated
from it as well. -/
def SeparatedFrom (mounted : Bool) (marks : List PropMark) : Prop :=
  Separated PropMark.unmounts marks ∧
    (mounted = true -> forall between after,
      marks = between ++ PropMark.systemServerStarted :: after ->
      exists x, x ∈ between ∧ x.unmounts = true)

section Marks

variable {mounted : Bool} {marks : List PropMark}

theorem separated_tail {x : PropMark} (h : Separated PropMark.unmounts (x :: marks)) :
    Separated PropMark.unmounts marks := by
  intro before between after heq
  exact h (x :: before) between after (by rw [heq, List.cons_append])

theorem separatedFrom_started :
    SeparatedFrom mounted (PropMark.systemServerStarted :: marks) <->
      mounted = false ∧ SeparatedFrom true marks := by
  constructor
  · intro h
    rcases h with ⟨hseparated, hmounted⟩
    constructor
    · cases mounted with
      | false => rfl
      | true =>
          rcases hmounted rfl [] marks rfl with ⟨x, hx, _⟩
          cases hx
    · constructor
      · exact separated_tail hseparated
      · intro _ between after heq
        exact hseparated [] between after (by rw [heq, List.nil_append])
  · intro h
    rcases h with ⟨hfree, hseparated, hnext⟩
    constructor
    · intro before between after heq
      cases before with
      | nil =>
          injection heq with _ heq
          exact hnext rfl between after heq
      | cons y before =>
          injection heq with _ heq
          exact hseparated before between after heq
    · intro hmounted
      rw [hfree] at hmounted
      cases hmounted

theorem separatedFrom_unmounts {x : PropMark} (hx : x.unmounts = true) :
    SeparatedFrom mounted (x :: marks) <-> SeparatedFrom false marks := by
  constructor
  · intro h
    exact ⟨separated_tail h.left, fun hno => by cases hno⟩
  · intro h
    constructor
    · intro before between after heq
      cases before with
      | nil =>
          injection heq with hhead _
          rw [hhead] at hx
          cases hx
      | cons y before =>
          injection heq with _ heq
          exact h.left before between after heq
    · intro _ between after heq
      cases between with
      | nil =>
          injection heq with hhead _
          rw [hhead] at hx
          cases hx
      | cons y between =>
          injection heq with hhead _
          exact ⟨y, List.mem_cons_self, by rw [← hhead]; exact hx⟩

theorem separatedFrom_other {x : PropMark} (hstart : x.isZygoteStart = true)
    (hx : x.unmounts = false) :
    SeparatedFrom mounted (x :: marks) <-> SeparatedFrom mounted marks := by
  have hhead : x ≠ PropMark.systemServerStarted := by
    intro heq
    rw [heq] at hstart
    cases hstart
  constructor
  · intro h
    constructor
    · exact separated_tail h.left
    · intro hmounted between after heq
      rcases h.right hmounted (x :: between) after (by rw [heq, List.cons_append]) with
        ⟨y, hy, hunmounts⟩
      rcases List.mem_cons.mp hy with hyx | hy
      · rw [hyx, hx] at hunmounts
        cases hunmounts
      · exact ⟨y, hy, hunmounts⟩
  · intro h
    constructor
    · intro before between after heq
      cases before with
      | nil =>
          injection heq with hno _
          exact absurd hno hhead
      | cons y before =>
          injection heq with _ heq
          exact h.left before between after heq
    · intro hmounted between after heq
      cases between with
      | nil =>
          injection heq with hno _
          exact absurd hno hhead
      | cons y between =>
          injection heq with _ heq
          rcases h.right hmounted between after heq with ⟨z, hz, hunmounts⟩
          exact ⟨z, List.mem_cons_of_mem y hz, hunmounts⟩

theorem alternates_iff_separatedFrom :
    Alternates mounted (marks.filterMap PropMark.call) <-> SeparatedFrom mounted marks := by
  induction marks generalizing mounted with
  | nil =>
      have hnone : SeparatedFrom mounted [] := by
        constructor
        · intro before between after heq
          cases before <;> cases heq
        · intro _ between after heq
          cases between <;> cases heq
      exact iff_of_true trivial hnone
  | cons x rest ih =>
      cases x with
      | systemServerStarted =>
          rw [separatedFrom_started, ← ih]
          rfl
      | zygoteStart abi passes =>
          cases abi with
          | abi64 =>
              cases passes with
              | true =>
                  rw [separatedFrom_unmounts rfl, ← ih]
                  rfl
              | false =>
                  rw [separatedFrom_other rfl rfl, ← ih]
                  rfl
          | abi32 =>
              rw [separatedFrom_other rfl rfl, ← ih]
              cases passes <;> rfl

end Marks

/-!
# The calls of one event
-/

section Calls

variable (m : Monitor) (abi : Abi)

theorem propCalls_of_effects {m m' : Monitor} (h : m'.effects = m.effects) :
    propCalls m' = propCalls m := by
  unfold propCalls
  rw [h]

theorem propCalls_emit (e : Effect) :
    propCalls (m.emit e) = propCalls m ++ [e].filter Effect.onProp := by
  unfold propCalls
  rw [Monitor.effects_emit, List.filter_append]

theorem propCalls_emit_other {e : Effect} (h : e.onProp = false) :
    propCalls (m.emit e) = propCalls m := by
  rw [propCalls_emit, List.filter_cons_of_neg (by rw [h]; decide), List.filter_nil,
    List.append_nil]

theorem propCalls_updateStatus : propCalls (updateStatus m) = propCalls m :=
  propCalls_emit_other m rfl

theorem propCalls_setStatus (s : Status) : propCalls (m.setStatus abi s) = propCalls m :=
  propCalls_of_effects (Monitor.effects_setStatus m abi s)

theorem propCalls_stopInjecting (reason : String) :
    propCalls (stopInjecting m reason) = propCalls m :=
  propCalls_emit_other _ rfl

theorem propCalls_takeWait (e : WaitEvent) : propCalls (takeWait m e) = propCalls m := by
  unfold takeWait
  split
  · rfl
  · exact propCalls_emit_other m rfl

theorem propCalls_resumeInit (pid : Int) (status : Nat) :
    propCalls (resumeInit m pid status) = propCalls m := by
  unfold resumeInit
  repeat' split
  all_goals first | exact propCalls_emit_other m rfl | rfl

theorem propCalls_handleInit (pid : Int) (status : Nat) :
    propCalls (handleInit m pid status) = propCalls m := by
  unfold handleInit
  split
  · rw [propCalls_resumeInit]
    exact propCalls_emit_other m rfl
  · split
    · exact propCalls_emit_other m rfl
    · exact propCalls_resumeInit m pid status

theorem propCalls_attach (pid : Int) : propCalls (attach m pid) = propCalls m := by
  have hcont := propCalls_emit_other (m.emit (Effect.setOptions pid))
    (e := Effect.cont pid 0) rfl
  exact hcont.trans (propCalls_emit_other m rfl)

theorem propCalls_release (pid : Int) : propCalls (release m pid) = propCalls m := by
  unfold release
  split
  · exact propCalls_emit_other m rfl
  · rfl

theorem propCalls_stopZygote (e : WaitEvent) : propCalls (stopZygote m e) = propCalls m := by
  have hkill := propCalls_emit_other m (e := Effect.kill e.pid SIGSTOP) rfl
  have hcont := propCalls_emit_other (m.emit (Effect.kill e.pid SIGSTOP))
    (e := Effect.cont e.pid 0) rfl
  exact (propCalls_emit_other _ rfl).trans (hcont.trans hkill)

theorem propCalls_launchTracer (e : WaitEvent) :
    propCalls (launchTracer m abi e) = propCalls m := by
  unfold launchTracer
  split
  · have hlaunch : (if e.tracerFork then Effect.launchTracer abi e.pid
        else Effect.kill e.pid SIGKILL).onProp = false := by
      split <;> rfl
    have hdetach := propCalls_emit_other (stopZygote m e)
      (e := Effect.detach e.pid SIGSTOP) rfl
    exact (propCalls_emit_other _ hlaunch).trans
      (hdetach.trans (propCalls_stopZygote m e))
  · exact propCalls_stopZygote m e

/-- The daemon is asked for with the mount taken off, for the 64-bit zygote. -/
theorem propCalls_ensureDaemonCreated (fork : Option ChildPid) :
    propCalls (ensureDaemonCreated m abi fork).2 =
      propCalls m ++ [PropMark.zygoteStart abi true].filterMap PropMark.call := by
  have hstarted : forall s, propCalls ((umountProp m abi).setStatus abi s) =
      propCalls m ++ [PropMark.zygoteStart abi true].filterMap PropMark.call := by
    intro s
    rw [propCalls_setStatus]
    unfold umountProp
    cases abi with
    | abi64 =>
        rw [if_pos rfl, propCalls_emit]
        rfl
    | abi32 => exact (List.append_nil _).symm
  unfold ensureDaemonCreated
  split
  · cases fork with
    | none => exact hstarted _
    | some pid => exact (propCalls_emit_other _ rfl).trans (hstarted _)
  · exact hstarted _

theorem propCalls_preInject (e : WaitEvent) :
    propCalls (preInject m abi e).2 = propCalls m ++
      [PropMark.zygoteStart abi (!(shouldStopInject m abi e.now).1)].filterMap
        PropMark.call := by
  have hcounted : propCalls (shouldStopInject m abi e.now).2 = propCalls m :=
    propCalls_of_effects (Monitor.effects_setCounter m abi _)
  unfold preInject
  cases hstop : shouldStopInject m abi e.now with
  | mk stop m1 =>
      rw [hstop] at hcounted
      cases stop with
      | true =>
          have hnone : [PropMark.zygoteStart abi (!true)].filterMap PropMark.call = [] := by
            cases abi <;> rfl
          rw [hnone, List.append_nil]
          exact (propCalls_stopInjecting m1 _).trans hcounted
      | false =>
          have hcreated := propCalls_ensureDaemonCreated m1 abi e.daemonFork
          rw [hcounted] at hcreated
          simp only
          cases hensure : ensureDaemonCreated m1 abi e.daemonFork with
          | mk created m2 =>
              rw [hensure] at hcreated
              cases created with
              | true => exact hcreated
              | false => exact (propCalls_stopInjecting m2 _).trans hcreated

theorem propCalls_handleZygote (e : WaitEvent) :
    propCalls (handleZygote m abi e) = propCalls m ++
      [PropMark.zygoteStart abi (!(shouldStopInject m abi e.now).1)].filterMap
        PropMark.call := by
  rw [← propCalls_preInject]
  unfold handleZygote
  cases hpre : preInject m abi e with
  | mk go m1 =>
      cases go with
      | true => exact propCalls_launchTracer m1 abi e
      | false => rfl

end Calls

section Exec

variable {m : Monitor} {e : WaitEvent}

theorem shouldStopInject_takeWait (abi : Abi) (now : Int) :
    (shouldStopInject (takeWait m e) abi now).1 = (shouldStopInject m abi now).1 := by
  unfold shouldStopInject takeWait
  split <;> cases abi <;> rfl

theorem tracingState_takeWait : (takeWait m e).tracingState = m.tracingState := by
  unfold takeWait
  split <;> rfl

/-- The mark of an exec is that of the program's ABI. -/
theorem propMark_of_sees {lp : Lp} {abi : Abi} (h : SeesExec m e (appProcess abi)) :
    propMark lp m (Event.wait e) =
      [PropMark.zygoteStart abi (passesGuards m abi e)] := by
  rw [propMark]
  cases abi with
  | abi64 => rw [if_pos h]
  | abi32 =>
      have hother : ¬ SeesExec m e (appProcess Abi.abi64) := by
        intro hno
        cases appProcess_injective (h.program_eq hno)
      rw [if_neg hother, if_pos h]

theorem propMark_of_not_sees {lp : Lp}
    (h : forall abi, ¬ SeesExec m e (appProcess abi)) :
    propMark lp m (Event.wait e) = [] := by
  rw [propMark, if_neg (h Abi.abi64), if_neg (h Abi.abi32)]

theorem propCalls_handleExec {lp : Lp} {program : List Byte}
    (h : SeesExec m e program) :
    propCalls (handleExec (takeWait m e) e program) =
      propCalls m ++ (propMark lp m (Event.wait e)).filterMap PropMark.call := by
  have hzygote : forall abi, program = appProcess abi ->
      m.tracingState = TracingState.tracing ->
      propCalls (handleZygote (takeWait m e) abi e) =
        propCalls m ++ (propMark lp m (Event.wait e)).filterMap PropMark.call := by
    intro abi hprogram htracing
    rw [hprogram] at h
    rw [propCalls_handleZygote, propCalls_takeWait, shouldStopInject_takeWait,
      propMark_of_sees h, passesGuards, decide_eq_true htracing, Bool.true_and]
  by_cases htracing : m.tracingState = TracingState.tracing
  · unfold handleExec
    rw [tracingState_takeWait, if_neg (not_not_intro htracing)]
    by_cases h64 : program = appProcess Abi.abi64
    · rw [if_pos h64]
      exact hzygote Abi.abi64 h64 htracing
    · rw [if_neg h64]
      by_cases h32 : program = appProcess Abi.abi32
      · rw [if_pos h32]
        exact hzygote Abi.abi32 h32 htracing
      · have hnone : forall abi, ¬ SeesExec m e (appProcess abi) := by
          intro abi hno
          cases abi with
          | abi64 => exact h64 (h.program_eq hno)
          | abi32 => exact h32 (h.program_eq hno)
        rw [if_neg h32, propMark_of_not_sees hnone, List.filterMap_nil, List.append_nil]
        exact propCalls_takeWait m e
  · have hnone : (propMark lp m (Event.wait e)).filterMap PropMark.call = [] := by
      by_cases hsees : exists abi, SeesExec m e (appProcess abi)
      · rcases hsees with ⟨abi, hsees⟩
        rw [propMark_of_sees hsees, passesGuards, decide_eq_false htracing, Bool.false_and]
        cases abi <;> rfl
      · rw [propMark_of_not_sees (fun abi hno => hsees ⟨abi, hno⟩)]
        rfl
    unfold handleExec
    rw [tracingState_takeWait, if_pos htracing, hnone, List.append_nil]
    exact propCalls_takeWait m e

end Exec

section Step

variable {lp : Lp} {sysSigname : Nat -> List Byte} {m m' : Monitor}

/-- Every command but `SYSTEM_SERVER_STARTED` leaves the mounts alone. -/
theorem propCalls_command {cmd : Option Command} (h : CommandStep m cmd m') :
    propCalls m' = propCalls m ++
      if cmd = some Command.systemServerStarted then [Effect.mountProp] else [] := by
  have hstatus : forall abi s, propCalls (updateStatus (m.setStatus abi s)) =
      propCalls m ++ [] := by
    intro abi s
    rw [propCalls_updateStatus, propCalls_setStatus, List.append_nil]
  cases h with
  | unknown => exact (List.append_nil _).symm
  | nothingToStop _ => exact (List.append_nil _).symm
  | nothingToStart _ =>
      exact (propCalls_updateStatus m).trans (List.append_nil _).symm
  | cancelStop _ =>
      exact (propCalls_updateStatus _).trans (List.append_nil _).symm
  | exit => exact (propCalls_updateStatus _).trans (List.append_nil _).symm
  | seizeInit _ =>
      rw [propCalls_updateStatus]
      exact (propCalls_emit_other m rfl).trans (List.append_nil _).symm
  | requestStop _ =>
      rw [propCalls_updateStatus]
      exact (propCalls_emit_other m rfl).trans (List.append_nil _).symm
  | injected abi => exact hstatus abi _
  | info abi block => exact hstatus abi _
  | errorInfo abi block => exact hstatus abi _
  | mount => exact propCalls_emit m Effect.mountProp

theorem propCalls_datagram {d : Datagram} (h : Step lp m (Event.datagram d) m') :
    propCalls m' = propCalls m ++
      (propMark lp m (Event.datagram d)).filterMap PropMark.call := by
  cases h with
  | rejected _ hrejected =>
      have hnone : propMark lp m (Event.datagram d) = [] := by
        rw [propMark, if_neg]
        intro hno
        rw [hrejected] at hno
        cases hno.left
      rw [hnone, List.filterMap_nil, List.append_nil]
  | command _ _ haccepted hcommand =>
      rw [propCalls_command hcommand, propMark]
      by_cases hcmd : Command.ofCode (SocketHandler.peekHead d).cmd =
          some Command.systemServerStarted
      · rw [if_pos hcmd, if_pos ⟨haccepted, hcmd⟩]
        rfl
      · rw [if_neg hcmd, if_neg (fun hno => hcmd hno.right)]
        rfl

theorem propCalls_daemonExit {abi : Abi}
    (h : SigChldHandler.daemonExit sysSigname m abi = Except.ok m') :
    propCalls m' = propCalls m := by
  rcases (daemonExit_ok_iff sysSigname).mp h with ⟨block, filled, _, _, hm'⟩
  rw [← hm', propCalls_updateStatus, propCalls_setStatus]

theorem propCalls_handleProcess {e : WaitEvent} (hstays : ¬ leaves m e)
    (hpid : e.pid ≠ 1) (hcaught : forall abi, caughtBy m abi e.pid = false) :
    propCalls (handleProcess (takeWait m e) e) = propCalls m ++
      (propMark lp m (Event.wait e)).filterMap PropMark.call := by
  have hkept : propCalls (takeWait m e) = propCalls m ++ [] :=
    (propCalls_takeWait m e).trans (List.append_nil _).symm
  unfold handleProcess
  rw [process_takeWait]
  split
  · rename_i hnew
    rw [propMark_of_not_sees (fun _ hsees => hnew hsees.known)]
    exact (propCalls_attach _ e.pid).trans hkept
  · rename_i hknown
    split
    · rename_i hstopped
      cases hread : e.program with
      | none =>
          have hunseen : forall abi, ¬ SeesExec m e (appProcess abi) := by
            intro abi hsees
            rw [hsees.read] at hread
            cases hread
          rw [propMark_of_not_sees hunseen]
          exact hkept
      | some program =>
          have hsees : SeesExec m e program :=
            ⟨hstays, not_not.mp hknown, hstopped, hread, hpid, hcaught⟩
          rw [← propCalls_handleExec hsees]
          exact (propCalls_release _ e.pid).trans (propCalls_updateStatus _)
    · rename_i hstopped
      rw [propMark_of_not_sees (fun _ hsees => hstopped hsees.stopped)]
      exact (propCalls_release _ e.pid).trans hkept

theorem propCalls_wait {e : WaitEvent} (h : waitStep sysSigname m e = some m') :
    propCalls m' = propCalls m ++
      (propMark lp m (Event.wait e)).filterMap PropMark.call := by
  have hunseen : (forall abi, ¬ SeesExec m e (appProcess abi)) ->
      propCalls m' = propCalls m -> propCalls m' = propCalls m ++
        (propMark lp m (Event.wait e)).filterMap PropMark.call := by
    intro hno hkept
    rw [propMark_of_not_sees hno, List.filterMap_nil, List.append_nil]
    exact hkept
  have hexit : forall abi, caughtBy (takeWait m e) abi e.pid = true ->
      SigChldHandler.daemonExit sysSigname (takeWait m e) abi = Except.ok m' ->
      propCalls m' = propCalls m ++
        (propMark lp m (Event.wait e)).filterMap PropMark.call := by
    intro abi hcaught hexit
    rw [caughtBy_takeWait] at hcaught
    apply hunseen
    · intro abi' hsees
      have hfree := hsees.notDaemon abi
      rw [hcaught] at hfree
      cases hfree
    · exact (propCalls_daemonExit hexit).trans (propCalls_takeWait m e)
  rcases waitStep_cases h with ⟨hleaves, heq⟩ | ⟨hstays, hresult⟩
  · exact hunseen (fun _ hsees => hsees.stays hleaves) (by rw [heq])
  · unfold handleResult at hresult
    split at hresult
    · rename_i hpid
      injection hresult with hresult
      apply hunseen (fun _ hsees => hsees.notInit hpid)
      rw [← hresult, propCalls_handleInit]
      exact propCalls_takeWait m e
    · rename_i hpid
      split at hresult
      · rename_i h64
        exact hexit Abi.abi64 h64 hresult
      · rename_i h64
        split at hresult
        · rename_i h32
          exact hexit Abi.abi32 h32 hresult
        · rename_i h32
          injection hresult with hresult
          rw [← hresult]
          apply propCalls_handleProcess hstays hpid
          intro abi
          cases abi with
          | abi64 => simpa [caughtBy_takeWait] using h64
          | abi32 => simpa [caughtBy_takeWait] using h32

/-- An event makes the calls that its marks stand for. -/
theorem propCalls_step {event : Event} (h : step lp sysSigname m event = some m') :
    propCalls m' = propCalls m ++ (propMark lp m event).filterMap PropMark.call := by
  cases event with
  | datagram d => exact propCalls_datagram (step_cases h)
  | wait e =>
      simp only [step] at h
      split at h
      · exact propCalls_wait h
      · cases h

end Step

/-!
# Every run
-/

section Run

variable (lp : Lp) (sysSigname : Nat -> List Byte) (preSection postSection : List Byte)

theorem propCalls_of_run {events : List Event} {m : Monitor}
    (hrun : (system lp sysSigname).run (initial preSection postSection) events = some m) :
    propCalls m = (propMarks lp sysSigname (initial preSection postSection)
      events).filterMap PropMark.call := by
  refine TransitionSystem.history_invariant
    (I := fun (marks : List PropMark) m => propCalls m = marks.filterMap PropMark.call) ?_ rfl
    (TransitionSystem.alongRun_true _ _) hrun
  intro marks s event s' hs _ hstep
  rw [propCalls_step hstep, hs, List.filterMap_append]

/-- At most one mount is stacked throughout a run exactly if a 64-bit zygote is
started between any two starts of a system server, while the monitor traces and
below the restart limit. -/
theorem atMostOneStacked_iff_separated {events : List Event} {m : Monitor}
    (hrun : (system lp sysSigname).run (initial preSection postSection) events = some m) :
    AtMostOneStacked m <-> Separated PropMark.unmounts
      (propMarks lp sysSigname (initial preSection postSection) events) := by
  rw [atMostOneStacked_iff_alternates,
    propCalls_of_run lp sysSigname preSection postSection hrun,
    alternates_iff_separatedFrom]
  constructor
  · intro h
    exact h.left
  · intro h
    exact ⟨h, fun hno => by cases hno⟩

end Run

def systemServerStarted : Event :=
  Event.datagram [10, 0, 0, 0]

/-- A device with both zygotes, whose framework is restarted once. -/
def restartedFramework : List Event :=
  zygoteStarts Abi.abi64 (some ⟨301, by decide⟩) 200 [20] ++
    zygoteStarts Abi.abi32 (some ⟨302, by decide⟩) 210 [20] ++ [systemServerStarted] ++
    zygoteStarts Abi.abi32 (some ⟨302, by decide⟩) 410 [100] ++
    zygoteStarts Abi.abi64 (some ⟨301, by decide⟩) 420 [100] ++ [systemServerStarted]

theorem atMostOneStacked_restarted :
    exists m, (system Lp.lp64 (fun _ => [])).run (initial [] []) restartedFramework = some m ∧
      AtMostOneStacked m := by
  have hiff : exists m,
      (system Lp.lp64 (fun _ => [])).run (initial [] []) restartedFramework = some m ∧
      (AtMostOneStacked m <-> Separated PropMark.unmounts
        (propMarks Lp.lp64 (fun _ => []) (initial [] []) restartedFramework)) :=
    ⟨_, rfl, atMostOneStacked_iff_separated Lp.lp64 (fun _ => []) [] [] rfl⟩
  have hmarks : propMarks Lp.lp64 (fun _ => []) (initial [] []) restartedFramework =
      [PropMark.zygoteStart Abi.abi64 true, PropMark.zygoteStart Abi.abi32 true,
        PropMark.systemServerStarted, PropMark.zygoteStart Abi.abi32 true,
        PropMark.zygoteStart Abi.abi64 true, PropMark.systemServerStarted] := by
    decide
  have hseparated : SeparatedFrom false
      (propMarks Lp.lp64 (fun _ => []) (initial [] []) restartedFramework) := by
    rw [hmarks, ← alternates_iff_separatedFrom]
    exact ⟨rfl, rfl, trivial⟩
  rcases hiff with ⟨m, hrun, hiff⟩
  exact ⟨m, hrun, hiff.mpr hseparated.left⟩

/-- A device with a 32-bit zygote only, whose framework is restarted once. -/
def restartedFramework32 : List Event :=
  zygoteStarts Abi.abi32 (some ⟨301, by decide⟩) 200 [20] ++ [systemServerStarted] ++
    zygoteStarts Abi.abi32 (some ⟨301, by decide⟩) 400 [100] ++ [systemServerStarted]

/-- The mount of the first start is still there at the second one. -/
theorem not_atMostOneStacked_restarted32 :
    exists m, (system Lp.lp32 (fun _ => [])).run (initial [] []) restartedFramework32 =
        some m ∧
      Separated PropMark.isZygoteStart
        (propMarks Lp.lp32 (fun _ => []) (initial [] []) restartedFramework32) ∧
      ¬ AtMostOneStacked m := by
  have hmarks : propMarks Lp.lp32 (fun _ => []) (initial [] []) restartedFramework32 =
      [PropMark.zygoteStart Abi.abi32 true, PropMark.systemServerStarted,
        PropMark.zygoteStart Abi.abi32 true, PropMark.systemServerStarted] := by
    decide
  refine ⟨_, rfl, ?_, ?_⟩
  · rw [hmarks]
    intro before between after heq
    rcases before with _ | ⟨x, _ | ⟨y, _ | ⟨z, before⟩⟩⟩
    · cases heq
    · rcases between with _ | ⟨z, between⟩
      · cases heq
      · injection heq with _ heq
        injection heq with _ heq
        injection heq with hz _
        exact ⟨z, List.mem_cons_self, by rw [← hz]; rfl⟩
    · cases heq
    · have hlength := congrArg List.length heq
      simp at hlength
      omega
  · intro h
    exact absurd (h [] _ List.prefix_rfl) (by decide)

end InitMonitor
end ReZygisk
