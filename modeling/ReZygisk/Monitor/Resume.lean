import ReZygisk.Monitor.System

/-!
# Resuming stopped processes

Every ptrace-stop that `waitpid` reports has to be answered by one
`PTRACE_CONT` or `PTRACE_DETACH` before the next result is asked for.  A small
automaton over the recorded effects keeps the one process that is stopped and
not yet resumed.
-/

namespace ReZygisk
namespace InitMonitor

open Foundation
open Kernel

/-- Follow recorded effects from a state in which `pending` is stopped.  A
second stop before the resume, or a resume of a process that is not the stopped
one, has no result. -/
def track : Option Int -> List Effect -> Option (Option Int)
  | pending, [] => some pending
  | pending, Effect.waited pid status :: rest =>
      if WIFSTOPPED status then
        if pending = none then track (some pid) rest else none
      else
        track pending rest
  | pending, Effect.cont pid _ :: rest =>
      if pending = some pid then track none rest else none
  | pending, Effect.detach pid _ :: rest =>
      if pending = some pid then track none rest else none
  | pending, _ :: rest => track pending rest

theorem track_append (pending : Option Int) (xs ys : List Effect) :
    track pending (xs ++ ys) =
      (track pending xs).bind (fun pending' => track pending' ys) := by
  induction xs generalizing pending with
  | nil => rfl
  | cons x rest ih =>
      cases x with
      | waited pid status =>
          simp only [List.cons_append, track, ih]
          by_cases hstop : WIFSTOPPED status = true
          · rw [if_pos hstop, if_pos hstop]
            split <;> rfl
          · rw [if_neg hstop, if_neg hstop]
      | cont pid sig =>
          simp only [List.cons_append, track, ih]
          split <;> rfl
      | detach pid sig =>
          simp only [List.cons_append, track, ih]
          split <;> rfl
      | _ => simp only [List.cons_append, track, ih]

/-- `m'` has recorded more than `m`, and the new effects lead the automaton
from `p` to `q`. -/
def Tracks (p q : Option Int) (m m' : Monitor) : Prop :=
  exists new, m'.effects = m.effects ++ new ∧ track p new = some q

/-!
# Composition
-/

section Compose

variable {p q r : Option Int} {m m1 m2 : Monitor}

theorem tracks_refl (p : Option Int) (m : Monitor) : Tracks p p m m :=
  ⟨[], (List.append_nil _).symm, rfl⟩

theorem tracks_trans (h1 : Tracks p q m m1) (h2 : Tracks q r m1 m2) :
    Tracks p r m m2 := by
  rcases h1 with ⟨new1, heffects1, htrack1⟩
  rcases h2 with ⟨new2, heffects2, htrack2⟩
  refine ⟨new1 ++ new2, ?_, ?_⟩
  · rw [heffects2, heffects1, List.append_assoc]
  · rw [track_append, htrack1]
    exact htrack2

theorem tracks_unique (h : Tracks p q m m1) (h' : Tracks p r m m1) :
    q = r := by
  rcases h with ⟨new, heffects, htrack⟩
  rcases h' with ⟨new', heffects', htrack'⟩
  rw [heffects] at heffects'
  rw [List.append_cancel_left heffects', htrack'] at htrack
  injection htrack with hqr
  exact hqr.symm

theorem tracks_of_effects_eq (h : Tracks p q m m1)
    (heq : m2.effects = m1.effects) : Tracks p q m m2 := by
  rcases h with ⟨new, heffects, htrack⟩
  exact ⟨new, heq.trans heffects, htrack⟩

theorem tracks_emit {e : Effect} (h : track p [e] = some q) (m : Monitor) :
    Tracks p q m (m.emit e) :=
  ⟨[e], rfl, h⟩

theorem tracks_emit_of_tracks {e : Effect} (h1 : Tracks p q m m1)
    (h2 : track q [e] = some r) : Tracks p r m (m1.emit e) :=
  tracks_trans h1 (tracks_emit h2 m1)

theorem tracks_updateStatus (h : Tracks p q m m1) :
    Tracks p q m (updateStatus m1) :=
  tracks_emit_of_tracks h rfl

theorem track_waited {pid : Int} {status : Nat}
    (h : WIFSTOPPED status = true) :
    track none [Effect.waited pid status] = some (some pid) := by
  simp [track, h]

theorem track_waited_of_not_stopped {pid : Int} {status : Nat}
    (h : WIFSTOPPED status = false) :
    track none [Effect.waited pid status] = some none := by
  simp [track, h]

theorem track_cont (pid : Int) (sig : Nat) :
    track (some pid) [Effect.cont pid sig] = some none := by
  simp [track]

theorem track_detach (pid : Int) (sig : Nat) :
    track (some pid) [Effect.detach pid sig] = some none := by
  simp [track]

end Compose

namespace SigChldHandler

variable (sysSigname : Nat -> List Byte)

/-- One pass handles the result, and its stop and every stop reported during
the pass is answered exactly once, on its own process. -/
def AnswersStop (m : Monitor) (e : WaitEvent) : Prop :=
  exists m', handleWait sysSigname m e = WaitStep.next m' ∧
    Tracks none none m m'

/-- The result reaches the code that resumes its process: it is init's, or it
is neither taken for the exit of the recorded 64-bit daemon nor the exec stop
of a known process whose program cannot be read. -/
def Resumable (m : Monitor) (e : WaitEvent) : Prop :=
  e.pid = 1 ∨
    (¬ (((m.status Abi.abi64).supported = true ∨
          (m.status Abi.abi32).supported = true) ∧
        e.pid = m.status64.daemonPid) ∧
      ¬ (e.pid ∈ m.process ∧
        stoppedWith e.status SIGTRAP PTRACE_EVENT_EXEC = true ∧
        e.program = none))

def IsStop (e : WaitEvent) : Prop :=
  0 < e.pid ∧ WIFSTOPPED e.status = true

/-!
# The branches

Each branch is followed from the point where its process is stopped.
-/

theorem pid_ne_of_isStop {e : WaitEvent} (h : IsStop e) : e.pid ≠ -1 := by
  have hpos := h.left
  omega

theorem tracks_takeWait {e : WaitEvent} (h : IsStop e) (m : Monitor) :
    Tracks none (some e.pid) m (takeWait m e) := by
  unfold takeWait
  rw [if_neg (pid_ne_of_isStop h)]
  exact tracks_emit (track_waited h.right) m

theorem tracks_resumeInit {status : Nat} (h : WIFSTOPPED status = true)
    (m : Monitor) (pid : Int) :
    Tracks (some pid) none m (resumeInit m pid status) := by
  unfold resumeInit
  rw [if_pos h]
  split
  · split
    · exact tracks_emit (track_cont pid _) m
    · exact tracks_emit (track_cont pid 0) m
  · exact tracks_emit (track_cont pid 0) m

theorem tracks_handleInit {status : Nat} (h : WIFSTOPPED status = true)
    (m : Monitor) : Tracks (some 1) none m (handleInit m 1 status) := by
  unfold handleInit
  split
  · exact tracks_trans (tracks_emit rfl m) (tracks_resumeInit h _ 1)
  · split
    · exact tracks_of_effects_eq (tracks_emit (track_detach 1 0) m) rfl
    · exact tracks_resumeInit h m 1

/-- The process is still stopped exactly when the last status says so. -/
def Held (pid : Int) (m : Monitor) : Option Int :=
  if WIFSTOPPED m.waitStatus then some pid else none

theorem held_of_stopped {pid : Int} {m : Monitor}
    (h : WIFSTOPPED m.waitStatus = true) : Held pid m = some pid := by
  unfold Held
  rw [if_pos h]

theorem tracks_release (m : Monitor) (pid : Int) :
    Tracks (Held pid m) none m (release m pid) := by
  unfold release Held
  by_cases h : WIFSTOPPED m.waitStatus = true
  · rw [if_pos h, if_pos h]
    exact tracks_of_effects_eq (tracks_emit (track_detach pid 0) m) rfl
  · rw [if_neg h, if_neg h]
    exact tracks_of_effects_eq (tracks_refl none m) rfl

theorem tracks_attach (m : Monitor) (pid : Int) :
    Tracks (some pid) none m (attach m pid) := by
  have hoptions : Tracks (some pid) (some pid) m
      (m.emit (Effect.setOptions pid)) :=
    tracks_emit rfl m
  exact tracks_of_effects_eq
    (tracks_emit_of_tracks hoptions (track_cont pid 0)) rfl

def Quiet (m m' : Monitor) : Prop :=
  (forall p, Tracks p p m m') ∧ m'.waitStatus = m.waitStatus

theorem quiet_trans {m m1 m2 : Monitor} (h1 : Quiet m m1)
    (h2 : Quiet m1 m2) : Quiet m m2 :=
  ⟨fun p => tracks_trans (h1.left p) (h2.left p), h2.right.trans h1.right⟩

theorem quiet_of_eq {m m' : Monitor} (heffects : m'.effects = m.effects)
    (hstatus : m'.waitStatus = m.waitStatus) : Quiet m m' :=
  ⟨fun p => tracks_of_effects_eq (tracks_refl p m) heffects, hstatus⟩

theorem quiet_emit {e : Effect} (h : forall p, track p [e] = some p)
    (m : Monitor) : Quiet m (m.emit e) :=
  ⟨fun p => tracks_emit (h p) m, rfl⟩

theorem quiet_setStatus (m : Monitor) (abi : Abi) (s : Status) :
    Quiet m (m.setStatus abi s) := by
  cases abi <;> exact quiet_of_eq rfl rfl

theorem quiet_setCounter (m : Monitor) (abi : Abi) (c : ZygoteStartCounter) :
    Quiet m (m.setCounter abi c) := by
  cases abi <;> exact quiet_of_eq rfl rfl

theorem quiet_stopInjecting (m : Monitor) (reason : String) :
    Quiet m (stopInjecting m reason) :=
  quiet_trans (quiet_of_eq rfl rfl) (quiet_emit (fun _ => rfl) _)

theorem quiet_ensureDaemonCreated (m : Monitor) (abi : Abi)
    (fork : Option ChildPid) : Quiet m (ensureDaemonCreated m abi fork).2 := by
  have humount : Quiet m (umountProp m abi) := by
    unfold umountProp
    split
    · exact quiet_emit (fun _ => rfl) m
    · exact quiet_of_eq rfl rfl
  have hstarted := quiet_trans humount
    (quiet_setStatus _ abi (startStatus (m.status abi) fork))
  unfold ensureDaemonCreated
  split
  · cases fork with
    | none => exact hstarted
    | some pid => exact quiet_trans hstarted (quiet_emit (fun _ => rfl) _)
  · exact hstarted

theorem quiet_preInject (m : Monitor) (abi : Abi) (e : WaitEvent) :
    Quiet m (preInject m abi e).2 := by
  unfold preInject
  have hcount : Quiet m (shouldStopInject m abi e.now).2 :=
    quiet_setCounter m abi _
  cases hstop : shouldStopInject m abi e.now with
  | mk stop m1 =>
      rw [hstop] at hcount
      cases stop with
      | true => exact quiet_trans hcount (quiet_stopInjecting m1 _)
      | false =>
          have hdaemon :=
            quiet_trans hcount (quiet_ensureDaemonCreated m1 abi e.daemonFork)
          cases hcreated : ensureDaemonCreated m1 abi e.daemonFork with
          | mk created m2 =>
              rw [hcreated] at hdaemon
              cases created with
              | true => simpa [hcreated] using hdaemon
              | false =>
                  simpa [hcreated] using
                    quiet_trans hdaemon (quiet_stopInjecting m2 _)

/-- Handing a zygote over answers the exec stop and, when the process is
detached for the tracer, the stop of the round trip. -/
theorem tracks_launchTracer (m : Monitor) (abi : Abi) (e : WaitEvent) :
    Tracks (some e.pid) (Held e.pid (launchTracer m abi e)) m
      (launchTracer m abi e) := by
  have hcont : Tracks (some e.pid) none m
      ((m.emit (Effect.kill e.pid SIGSTOP)).emit (Effect.cont e.pid 0)) :=
    tracks_emit_of_tracks (tracks_emit rfl m) (track_cont e.pid 0)
  unfold launchTracer
  by_cases hsig : stoppedWith e.stopStatus SIGSTOP 0 = true
  · have hstopped : WIFSTOPPED e.stopStatus = true := by
      unfold stoppedWith at hsig
      exact (Bool.and_eq_true_iff.mp hsig).left
    have hwaited : Tracks (some e.pid) (some e.pid) m (stopZygote m e) :=
      tracks_of_effects_eq
        (tracks_emit_of_tracks hcont (track_waited hstopped)) rfl
    have hdetached : Tracks (some e.pid) none m
        { (stopZygote m e).emit (Effect.detach e.pid SIGSTOP) with
          waitStatus := 0 } :=
      tracks_of_effects_eq
        (tracks_emit_of_tracks hwaited (track_detach e.pid SIGSTOP)) rfl
    rw [if_pos hsig]
    unfold detachZygote
    -- The reset status keeps the process from being detached again.
    change Tracks (some e.pid) none m _
    split
    · exact tracks_emit_of_tracks hdetached rfl
    · exact tracks_emit_of_tracks hdetached rfl
  · rw [if_neg hsig]
    unfold Held
    change Tracks (some e.pid)
      (if WIFSTOPPED e.stopStatus then some e.pid else none) m (stopZygote m e)
    by_cases hstopped : WIFSTOPPED e.stopStatus = true
    · rw [if_pos hstopped]
      exact tracks_of_effects_eq
        (tracks_emit_of_tracks hcont (track_waited hstopped)) rfl
    · rw [if_neg hstopped]
      exact tracks_of_effects_eq
        (tracks_emit_of_tracks hcont
          (track_waited_of_not_stopped (by simpa using hstopped))) rfl

/-- After the loop over an executed program, what is left to resume is what the
last status says. -/
theorem tracks_handleZygote {m : Monitor} (h : WIFSTOPPED m.waitStatus = true)
    (abi : Abi) (e : WaitEvent) :
    Tracks (some e.pid) (Held e.pid (handleZygote m abi e)) m
      (handleZygote m abi e) := by
  have hquiet := quiet_preInject m abi e
  unfold handleZygote
  cases hpre : preInject m abi e with
  | mk go m1 =>
      rw [hpre] at hquiet
      cases go with
      | true =>
          exact tracks_trans (hquiet.left (some e.pid))
            (tracks_launchTracer m1 abi e)
      | false =>
          have hheld : Held e.pid m1 = some e.pid :=
            held_of_stopped (by rw [hquiet.right]; exact h)
          rw [hheld]
          exact hquiet.left (some e.pid)

theorem tracks_handleExec {m : Monitor} (h : WIFSTOPPED m.waitStatus = true)
    (e : WaitEvent) (program : List Byte) :
    Tracks (some e.pid) (Held e.pid (handleExec m e program)) m
      (handleExec m e program) := by
  have hsame : Tracks (some e.pid) (Held e.pid m) m m := by
    rw [held_of_stopped h]
    exact tracks_refl _ m
  unfold handleExec
  split
  · exact hsame
  · split
    · exact tracks_handleZygote h Abi.abi64 e
    · split
      · exact tracks_handleZygote h Abi.abi32 e
      · exact hsame

theorem handleProcess_of_unreadable {m : Monitor} {e : WaitEvent}
    (hmem : e.pid ∈ m.process)
    (hexec : stoppedWith m.waitStatus SIGTRAP PTRACE_EVENT_EXEC = true)
    (hread : e.program = none) : handleProcess m e = m := by
  unfold handleProcess
  rw [if_neg (not_not_intro hmem), if_pos hexec, hread]

theorem tracks_handleProcess {m : Monitor} {e : WaitEvent}
    (h : WIFSTOPPED m.waitStatus = true)
    (hprogram : ¬ (e.pid ∈ m.process ∧
      stoppedWith m.waitStatus SIGTRAP PTRACE_EVENT_EXEC = true ∧
      e.program = none)) :
    Tracks (some e.pid) none m (handleProcess m e) := by
  unfold handleProcess
  by_cases hmem : e.pid ∈ m.process
  · rw [if_neg (not_not_intro hmem)]
    by_cases hexec : stoppedWith m.waitStatus SIGTRAP PTRACE_EVENT_EXEC = true
    · rw [if_pos hexec]
      cases hread : e.program with
      | none => exact absurd ⟨hmem, hexec, hread⟩ hprogram
      | some program =>
          have hexecuted := tracks_updateStatus (tracks_handleExec h e program)
          exact tracks_trans hexecuted
            (tracks_release (updateStatus (handleExec m e program)) e.pid)
    · rw [if_neg hexec]
      have hrelease := tracks_release m e.pid
      rw [held_of_stopped h] at hrelease
      exact hrelease
  · rw [if_pos hmem]
    exact tracks_attach m e.pid

/-!
# One wait result
-/

theorem not_tracks_daemonExit {m m1 m' : Monitor} {pid : Int} {abi : Abi}
    (hstop : Tracks none (some pid) m m1)
    (hexit : daemonExit sysSigname m1 abi = Except.ok m') :
    ¬ Tracks none none m m' := by
  intro hanswered
  unfold daemonExit at hexit
  cases hblock : (m1.status abi).daemonErrorInfo with
  | none =>
      rw [hblock] at hexit
      cases hexit
  | some block =>
      rw [hblock] at hexit
      cases hfill : fillErrorInfo block
          (parseStatus sysSigname m1.waitStatus 64) with
      | error f =>
          simp only [hfill] at hexit
          cases hexit
      | ok block' =>
          simp only [hfill] at hexit
          injection hexit with hexit
          rw [← hexit] at hanswered
          have hopen := tracks_updateStatus
            (tracks_trans hstop ((quiet_setStatus m1 abi
              { m1.status abi with
                daemonRunning := false
                daemonErrorInfo := some block' }).left (some pid)))
          cases tracks_unique hanswered hopen

theorem answersStop_of_resumable {m : Monitor} {e : WaitEvent}
    (h : IsStop e) (hresumable : Resumable m e) :
    AnswersStop sysSigname m e := by
  have hstop := tracks_takeWait h m
  have hpid := pid_ne_of_isStop h
  have hstatus := waitStatus_takeWait hpid m
  have hstopped : WIFSTOPPED (takeWait m e).waitStatus = true := by
    rw [hstatus]
    exact h.right
  simp only [AnswersStop, handleWait_eq_next_iff sysSigname hpid]
  unfold handleResult
  by_cases hinit : e.pid = 1
  · rw [if_pos hinit]
    rw [hinit] at hstop ⊢
    exact ⟨_, rfl, tracks_trans hstop (tracks_handleInit hstopped _)⟩
  · rcases hresumable with hone | ⟨hdaemon, hprogram⟩
    · exact absurd hone hinit
    · have hnot : forall abi, caughtBy (takeWait m e) abi e.pid = false := by
        intro abi
        rw [caughtBy_takeWait]
        by_contra hcaught
        have hboth := Bool.and_eq_true_iff.mp (Bool.of_not_eq_false hcaught)
        apply hdaemon
        refine ⟨?_, of_decide_eq_true hboth.right⟩
        cases abi with
        | abi64 => exact Or.inl hboth.left
        | abi32 => exact Or.inr hboth.left
      rw [if_neg hinit, if_neg (by simp [hnot]), if_neg (by simp [hnot])]
      refine ⟨_, rfl, tracks_trans hstop (tracks_handleProcess hstopped ?_)⟩
      rw [hstatus, process_takeWait]
      exact hprogram

theorem resumable_of_answersStop {m : Monitor} {e : WaitEvent}
    (h : IsStop e) (hanswers : AnswersStop sysSigname m e) :
    Resumable m e := by
  rcases hanswers with ⟨m', hwait, hanswered⟩
  have hstop := tracks_takeWait h m
  have hpid := pid_ne_of_isStop h
  rw [handleWait_eq_next_iff sysSigname hpid] at hwait
  unfold handleResult at hwait
  by_cases hinit : e.pid = 1
  · exact Or.inl hinit
  apply Or.inr
  rw [if_neg hinit] at hwait
  by_cases h64 : caughtBy (takeWait m e) Abi.abi64 e.pid = true
  · rw [if_pos h64] at hwait
    exact absurd hanswered (not_tracks_daemonExit sysSigname hstop hwait)
  rw [if_neg h64] at hwait
  by_cases h32 : caughtBy (takeWait m e) Abi.abi32 e.pid = true
  · rw [if_pos h32] at hwait
    exact absurd hanswered (not_tracks_daemonExit sysSigname hstop hwait)
  rw [if_neg h32] at hwait
  injection hwait with hwait
  rw [caughtBy_takeWait] at h64 h32
  constructor
  · intro h
    rcases h with ⟨hsupported, hdaemon⟩
    rcases hsupported with hsupported | hsupported
    · exact h64 (Bool.and_eq_true_iff.mpr
        ⟨hsupported, decide_eq_true hdaemon⟩)
    · exact h32 (Bool.and_eq_true_iff.mpr
        ⟨hsupported, decide_eq_true hdaemon⟩)
  · intro h
    rcases h with ⟨hmem, hexec, hread⟩
    -- The pass goes on to the next result with the process still stopped.
    have hsame : handleProcess (takeWait m e) e = takeWait m e := by
      apply handleProcess_of_unreadable _ _ hread
      · rw [process_takeWait]
        exact hmem
      · rw [waitStatus_takeWait hpid]
        exact hexec
    rw [← hwait, hsame] at hanswered
    cases tracks_unique hanswered hstop

end SigChldHandler

/-!
# Whole runs
-/

section Runs

open SigChldHandler

variable (sysSigname : Nat -> List Byte)

def StepAnswers (m : Monitor) : Event -> Prop
  | Event.datagram _ => True
  | Event.wait e => AnswersStop sysSigname m e

def StepResumable (m : Monitor) : Event -> Prop
  | Event.datagram _ => True
  | Event.wait e => Resumable m e

/-- Along every run of datagrams and stops, from any state, every reported stop
is answered exactly once before the next result is asked for if and only if
every stop of the run is resumable in the state in which it is reported. -/
theorem run_answers_iff_run_resumable (lp : Lp) (m : Monitor)
    (events : List Event)
    (hstops : forall e, Event.wait e ∈ events -> IsStop e) :
    (system lp sysSigname).AlongRun (StepAnswers sysSigname) m events <->
      (system lp sysSigname).AlongRun StepResumable m events := by
  apply TransitionSystem.alongRun_iff (I := fun _ => True)
  · intro _ _ _ _ _
    trivial
  · intro m' event _ hmem
    cases event with
    | datagram d => rfl
    | wait e =>
        have hstop := hstops e hmem
        exact ⟨resumable_of_answersStop sysSigname hstop,
          answersStop_of_resumable sysSigname hstop⟩
  · trivial

theorem run_answers_first_stop_and_signal :
    (forall e, Event.wait e ∈
      [Event.wait { pid := 100, status := stoppedStatus SIGSTOP PTRACE_EVENT_STOP },
        Event.wait { pid := 1, status := stoppedStatus SIGCONT 0 }] ->
      IsStop e) ∧
    ((system Lp.lp64 (fun _ => [])).AlongRun (StepAnswers (fun _ => []))
        (initial [] [])
        [Event.wait { pid := 100, status := stoppedStatus SIGSTOP PTRACE_EVENT_STOP },
          Event.wait { pid := 1, status := stoppedStatus SIGCONT 0 }] <->
      (system Lp.lp64 (fun _ => [])).AlongRun StepResumable (initial [] [])
        [Event.wait { pid := 100, status := stoppedStatus SIGSTOP PTRACE_EVENT_STOP },
          Event.wait { pid := 1, status := stoppedStatus SIGCONT 0 }]) := by
  have hstops : forall e, Event.wait e ∈
      [Event.wait { pid := 100, status := stoppedStatus SIGSTOP PTRACE_EVENT_STOP },
        Event.wait { pid := 1, status := stoppedStatus SIGCONT 0 }] ->
      IsStop e := by
    intro e he
    simp at he
    rcases he with he | he <;> rw [he] <;> exact ⟨by decide, by decide⟩
  exact ⟨hstops, run_answers_iff_run_resumable _ _ _ _ hstops⟩

/-- A process whose program cannot be read at its exec stop stays stopped. -/
theorem not_run_answers_unreadable_exec :
    ¬ (system Lp.lp64 (fun _ => [])).AlongRun (StepAnswers (fun _ => []))
      (initial [] [])
      [Event.wait
          { pid := 100, status := stoppedStatus SIGSTOP PTRACE_EVENT_STOP },
        Event.wait
          { pid := 100, status := stoppedStatus SIGTRAP PTRACE_EVENT_EXEC,
            program := none }] := by
  intro h
  have hexec := (h.right _ rfl).left
  have hresumable := resumable_of_answersStop _ ⟨by decide, by decide⟩ hexec
  rcases hresumable with hone | ⟨_, hread⟩
  · exact absurd hone (by decide)
  · exact hread ⟨by decide, by decide, rfl⟩

end Runs

end InitMonitor
end ReZygisk
