import ReZygisk.Tracer.Restore

/-!
# Tracing a zygote

`trace_zygote` seizes the zygote, injects into it and lets it go through three
stops before it detaches.  The zygote is seized with `PTRACE_O_EXITKILL` and
the tracer exits right afterwards, so a success that is reported without a
detach kills the zygote that has just been injected.
-/

namespace ReZygisk
namespace Tracer

open Foundation
open Kernel

/-- The outcomes of the steps of one `trace_zygote`.  A run detaches at most
once, so one field covers every `PTRACE_DETACH`. -/
structure TraceOutcome where
  seize : Bool
  firstWait : Waitpid
  inject : InjectOutcome
  kill : Bool
  firstCont : Bool
  firstRan : Memory -> Memory
  secondWait : Waitpid
  secondCont : Bool
  secondRan : Memory -> Memory
  thirdWait : Waitpid
  detach : Bool

def StoppedWith (status sig event : Nat) : Prop :=
  WIFSTOPPED status = true ∧ WSTOPSIG status = sig ∧ WPTEVENT status = event

instance (status sig event : Nat) : Decidable (StoppedWith status sig event) :=
  inferInstanceAs (Decidable (_ ∧ _))

/-- `PTRACE_DETACH`, which counts only when the kernel accepts it. -/
def detach (o : TraceOutcome) (sig : Nat) (t : Tracee) : Tracee :=
  if o.detach then t.request (Request.detach sig) else t

section Trace

variable (arch : Arch) (tmpPath : List Byte) (o : TraceOutcome)

def libPath : List Byte :=
  tmpPath ++ bytesOf "/lib" ++
    (match arch.lp with
      | Lp.lp64 => bytesOf "64"
      | Lp.lp32 => []) ++
    bytesOf "/libzygisk.so"

/-- The third stop.  Whatever it is, the source falls through to
`return true`. -/
def lastStop (status : Nat) (t : Tracee) : Ending :=
  if StoppedWith status SIGCONT 0 then Ending.returned true (detach o SIGCONT t)
  else Ending.returned true t

def secondStop (status : Nat) (t : Tracee) : Ending :=
  if StoppedWith status SIGTRAP PTRACE_EVENT_STOP then
    if o.secondCont then
      match waitForTrace o.thirdWait with
      | none => Ending.exited
      | some status' => lastStop o status' (t.cont o.secondRan)
    else Ending.returned false t
  else Ending.returned false (detach o 0 t)

def afterInject (t : Tracee) : Ending :=
  if o.kill then
    if o.firstCont then
      match waitForTrace o.secondWait with
      | none => Ending.exited
      | some status =>
          secondStop o status
            ((t.request (Request.kill SIGCONT)).cont o.firstRan)
    else Ending.returned false (t.request (Request.kill SIGCONT))
  else Ending.returned false t

def afterInjectEnding (ending : Ending) : Ending :=
  match ending with
  | Ending.exited => Ending.exited
  | Ending.returned true t => afterInject o t
  | Ending.returned false t => Ending.returned false t

def seized (memory : Memory) : Tracee :=
  { memory := memory, requests := [Request.seize] }

/-- `trace_zygote`; without enough fuel the injection has not ended. -/
def traceZygote (fuel : Nat) (memory : Memory) : Option Ending :=
  if o.seize then
    match waitForTrace o.firstWait with
    | none => some Ending.exited
    | some status =>
        if StoppedWith status SIGSTOP PTRACE_EVENT_STOP then
          (injectOnMain arch (libPath arch tmpPath) tmpPath o.inject fuel
            (seized memory)).map (afterInjectEnding o)
        else some (Ending.returned false (detach o 0 (seized memory)))
  else some (Ending.returned false { memory := memory, requests := [] })

end Trace

/-!
# Reporting success
-/

variable {arch : Arch} {tmpPath : List Byte} {o : TraceOutcome}
  {memory : Memory}

structure StartsInjection (o : TraceOutcome) : Prop where
  seized : o.seize = true
  stopped : exists status, waitForTrace o.firstWait = some status ∧
    StoppedWith status SIGSTOP PTRACE_EVENT_STOP

/-- The steps between the injection and the last wait all succeed, and that
wait reports `status`. -/
structure ReachesLastStop (o : TraceOutcome) (status : Nat) : Prop where
  killed : o.kill = true
  continued : o.firstCont = true
  trapped : exists status', waitForTrace o.secondWait = some status' ∧
    StoppedWith status' SIGTRAP PTRACE_EVENT_STOP
  continuedAgain : o.secondCont = true
  last : waitForTrace o.thirdWait = some status

theorem afterInject_of_reaches {status : Nat} (h : ReachesLastStop o status)
    (t : Tracee) :
    afterInject o t =
      lastStop o status
        (((t.request (Request.kill SIGCONT)).cont o.firstRan).cont
          o.secondRan) := by
  rcases h.trapped with ⟨status', hwait, hstop⟩
  simp only [afterInject, secondStop, h.killed, h.continued, hwait, hstop,
    h.continuedAgain, h.last, if_true]

theorem reaches_of_afterInject {t t' : Tracee}
    (h : afterInject o t = Ending.returned true t') :
    exists status, ReachesLastStop o status := by
  simp only [afterInject] at h
  split at h
  · rename_i hkill
    split at h
    · rename_i hcont
      split at h
      · simp at h
      · rename_i status' hwait
        simp only [secondStop] at h
        split at h
        · rename_i hstop
          split at h
          · rename_i hcont'
            split at h
            · simp at h
            · rename_i status hlast
              exact ⟨status, hkill, hcont, ⟨status', hwait, hstop⟩, hcont', hlast⟩
          · simp at h
        · simp at h
    · simp at h
  · simp at h

theorem traceZygote_of_starts (h : StartsInjection o) (fuel : Nat) :
    traceZygote arch tmpPath o fuel memory =
      (injectOnMain arch (libPath arch tmpPath) tmpPath o.inject fuel
        (seized memory)).map (afterInjectEnding o) := by
  rcases h.stopped with ⟨status, hwait, hstop⟩
  simp only [traceZygote, h.seized, hwait, hstop, if_true]

theorem traceZygote_of_not_starts (h : ¬ StartsInjection o) (fuel : Nat) :
    traceZygote arch tmpPath o fuel memory = some Ending.exited ∨
      exists t, traceZygote arch tmpPath o fuel memory =
        some (Ending.returned false t) := by
  simp only [traceZygote]
  split
  · rename_i hseize
    split
    · exact Or.inl rfl
    · rename_i status hwait
      split
      · rename_i hstop
        exact absurd ⟨hseize, status, hwait, hstop⟩ h
      · exact Or.inr ⟨_, rfl⟩
  · exact Or.inr ⟨_, rfl⟩

/-!
# Success and detach
-/

def Detached (t : Tracee) : Prop :=
  exists requests sig, t.requests = requests ++ [Request.detach sig]

/-- `trace_zygote` ends, and reports success only with the zygote detached. -/
def SuccessDetaches (arch : Arch) (tmpPath : List Byte) (o : TraceOutcome)
    (memory : Memory) : Prop :=
  exists fuel ending, traceZygote arch tmpPath o fuel memory = some ending ∧
    forall t', ending = Ending.returned true t' -> Detached t'

/-- The injection ends once it is started.  If it succeeds and the zygote
reaches the last wait, that wait reports a plain `SIGCONT` stop and the kernel
accepts the detach. -/
def EndsInSigcont (arch : Arch) (tmpPath : List Byte) (o : TraceOutcome)
    (memory : Memory) : Prop :=
  StartsInjection o -> exists fuel ending,
    injectOnMain arch (libPath arch tmpPath) tmpPath o.inject fuel
        (seized memory) = some ending ∧
      forall t status, ending = Ending.returned true t ->
        ReachesLastStop o status -> StoppedWith status SIGCONT 0 ∧ o.detach = true

theorem detached_request (t : Tracee) (sig : Nat) :
    Detached (t.request (Request.detach sig)) :=
  ⟨t.requests, sig, rfl⟩

theorem not_detached_cont (t : Tracee) (ran : Memory -> Memory) :
    ¬ Detached (t.cont ran) := by
  intro h
  rcases h with ⟨requests, sig, hrequests⟩
  have hlast := congrArg List.getLast? hrequests
  simp [Tracee.cont] at hlast

theorem lastStop_detaches_iff (status : Nat) (t : Tracee)
    (ran : Memory -> Memory) :
    (forall t', lastStop o status (t.cont ran) = Ending.returned true t' ->
        Detached t') <->
      StoppedWith status SIGCONT 0 ∧ o.detach = true := by
  have hnot := not_detached_cont t ran
  simp only [lastStop, detach]
  split
  · rename_i hstop
    cases hdetach : o.detach with
    | false => simp [hnot]
    | true => simp [hstop, detached_request]
  · rename_i hstop
    simp [hstop, hnot]

theorem endsInSigcont_of_successDetaches
    (h : SuccessDetaches arch tmpPath o memory) :
    EndsInSigcont arch tmpPath o memory := by
  intro hstart
  rcases h with ⟨fuel, ending, htrace, hsafe⟩
  rw [traceZygote_of_starts hstart, Option.map_eq_some_iff] at htrace
  rcases htrace with ⟨injected, hinject, hending⟩
  refine ⟨fuel, injected, hinject, ?_⟩
  intro t status htrue hreaches
  rw [htrue] at hending
  have hlast : ending = _ := hending.symm.trans (afterInject_of_reaches hreaches t)
  rw [← lastStop_detaches_iff status _ o.secondRan]
  intro t' ht'
  exact hsafe t' (hlast.trans ht')

theorem successDetaches_of_endsInSigcont
    (h : EndsInSigcont arch tmpPath o memory) :
    SuccessDetaches arch tmpPath o memory := by
  by_cases hstart : StartsInjection o
  · rcases h hstart with ⟨fuel, injected, hinject, hlast⟩
    refine ⟨fuel, afterInjectEnding o injected,
      by rw [traceZygote_of_starts hstart, hinject]; rfl, ?_⟩
    intro t' ht'
    cases injected with
    | exited => simp [afterInjectEnding] at ht'
    | returned value t =>
        cases value with
        | false => simp [afterInjectEnding] at ht'
        | true =>
            have htrue : afterInject o t = Ending.returned true t' := ht'
            rcases reaches_of_afterInject htrue with ⟨status, hreaches⟩
            rw [afterInject_of_reaches hreaches] at htrue
            exact (lastStop_detaches_iff status _ o.secondRan).mpr
              (hlast t status rfl hreaches) t' htrue
  · rcases traceZygote_of_not_starts hstart 0 with hexit | hfalse
    · refine ⟨0, Ending.exited, hexit, ?_⟩
      intro t' ht'
      cases ht'
    · rcases hfalse with ⟨t, hreturned⟩
      refine ⟨0, Ending.returned false t, hreturned, ?_⟩
      intro t' ht'
      simp at ht'

/-- For every sequence of wait statuses and every outcome of the other steps,
`trace_zygote` ends and reports success only for a detached zygote if and only
if the last stop on the path to success is a plain `SIGCONT` whose detach the
kernel accepts. -/
theorem successDetaches_iff_endsInSigcont :
    SuccessDetaches arch tmpPath o memory <->
      EndsInSigcont arch tmpPath o memory :=
  ⟨endsInSigcont_of_successDetaches, successDetaches_of_endsInSigcont⟩

/-- A run in which every step succeeds, but the zygote's last stop is for a
`SIGCHLD` that arrived before the `SIGCONT`. -/
def sigchldRun : TraceOutcome :=
  { seize := true,
    firstWait := Waitpid.reported (stoppedStatus SIGSTOP PTRACE_EVENT_STOP),
    inject := sampleInjection 8, kill := true, firstCont := true, firstRan := id,
    secondWait := Waitpid.reported (stoppedStatus SIGTRAP PTRACE_EVENT_STOP),
    secondCont := true, secondRan := id,
    thirdWait := Waitpid.reported (stoppedStatus 17 0), detach := true }

theorem not_successDetaches_sigchld :
    ¬ SuccessDetaches Arch.x86_64 sampleTmpPath sigchldRun (fun _ => 0) := by
  intro h
  have hstart : StartsInjection sigchldRun :=
    ⟨rfl, stoppedStatus SIGSTOP PTRACE_EVENT_STOP, rfl, by decide⟩
  have hreaches : ReachesLastStop sigchldRun (stoppedStatus 17 0) :=
    ⟨rfl, rfl, ⟨stoppedStatus SIGTRAP PTRACE_EVENT_STOP, rfl, by decide⟩, rfl, rfl⟩
  have hplain : ¬ StoppedWith (stoppedStatus 17 0) SIGCONT 0 := by
    decide
  rcases endsInSigcont_of_successDetaches h hstart with
    ⟨fuel, ending, hinject, hlast⟩
  rcases sample_reports_success (by decide) hinject with ⟨t, ht⟩
  exact hplain (hlast t _ ht hreaches).left

end Tracer
end ReZygisk
