import ReZygisk.Monitor.Transitions

/-!
# The daemon records

What one handled event does to the `Status` of each ABI, the invariant that
ties `supported` to the recorded pid, and how the exit of a daemon reaches its
record.
-/

namespace ReZygisk
namespace InitMonitor

open Foundation
open Kernel

namespace SigChldHandler

/-!
# Zygote starts
-/

def startedZygote (m : Monitor) (e : WaitEvent) : Option Abi :=
  if m.tracingState = TracingState.tracing ∧ e.pid ∈ m.process ∧
      stoppedWith m.waitStatus SIGTRAP PTRACE_EVENT_EXEC = true then
    if e.program = some (appProcess Abi.abi64) then
      if (shouldStopInject m Abi.abi64 e.now).1 then none else some Abi.abi64
    else if e.program = some (appProcess Abi.abi32) then
      if (shouldStopInject m Abi.abi32 e.now).1 then none else some Abi.abi32
    else
      none
  else
    none

def startedStatus (m : Monitor) (e : WaitEvent) (abi : Abi) : Status :=
  if startedZygote m e = some abi then startStatus (m.status abi) e.daemonFork
  else m.status abi

theorem status_ensureDaemonCreated (m : Monitor) (abi abi' : Abi)
    (fork : Option ChildPid) :
    (ensureDaemonCreated m abi fork).2.status abi' =
      if abi' = abi then startStatus (m.status abi) fork
      else m.status abi' := by
  have hstarted : ((umountProp m abi).setStatus abi
      (startStatus (m.status abi) fork)).status abi' =
        if abi' = abi then startStatus (m.status abi) fork
        else m.status abi' := by
    cases abi <;> cases abi' <;> rfl
  unfold ensureDaemonCreated
  split
  · cases fork with
    | none => exact hstarted
    | some pid =>
        rw [Monitor.status_emit]
        exact hstarted
  · exact hstarted

theorem status_stopInjecting (m : Monitor) (reason : String) (abi : Abi) :
    (stopInjecting m reason).status abi = m.status abi := by
  cases abi <;> rfl

theorem status_preInject (m : Monitor) (abi abi' : Abi) (e : WaitEvent) :
    (preInject m abi e).2.status abi' =
      if abi' = abi ∧ (shouldStopInject m abi e.now).1 = false then
        startStatus (m.status abi) e.daemonFork
      else
        m.status abi' := by
  have hcount : forall abi'',
      (shouldStopInject m abi e.now).2.status abi'' = m.status abi'' := by
    intro abi''
    exact Monitor.status_setCounter m abi _ abi''
  unfold preInject
  cases hstop : shouldStopInject m abi e.now with
  | mk stop m1 =>
      rw [hstop] at hcount
      cases stop with
      | true =>
          rw [if_neg (by simp)]
          exact (status_stopInjecting m1 _ abi').trans (hcount abi')
      | false =>
          have hcreated := status_ensureDaemonCreated m1 abi abi' e.daemonFork
          rw [hcount, hcount] at hcreated
          have hgoal : (if abi' = abi ∧ (false, m1).1 = false then
              startStatus (m.status abi) e.daemonFork else m.status abi') =
              if abi' = abi then startStatus (m.status abi) e.daemonFork
              else m.status abi' := by
            simp
          rw [hgoal]
          cases hensure : ensureDaemonCreated m1 abi e.daemonFork with
          | mk created m2 =>
              rw [hensure] at hcreated
              cases created with
              | true => simpa [hensure] using hcreated
              | false =>
                  simpa [hensure, status_stopInjecting] using hcreated

theorem status_launchTracer (m : Monitor) (abi abi' : Abi) (e : WaitEvent) :
    (launchTracer m abi e).status abi' = m.status abi' := by
  have hstop : (stopZygote m e).status abi' = m.status abi' := by
    cases abi' <;> rfl
  unfold launchTracer
  split
  · unfold detachZygote
    rw [Monitor.status_emit]
    cases abi' <;> exact hstop
  · exact hstop

theorem status_handleZygote (m : Monitor) (abi abi' : Abi) (e : WaitEvent) :
    (handleZygote m abi e).status abi' =
      if abi' = abi ∧ (shouldStopInject m abi e.now).1 = false then
        startStatus (m.status abi) e.daemonFork
      else
        m.status abi' := by
  rw [← status_preInject]
  unfold handleZygote
  cases hpre : preInject m abi e with
  | mk go m1 =>
      cases go with
      | true => exact status_launchTracer m1 abi abi' e
      | false => rfl

theorem status_release (m : Monitor) (pid : Int) (abi : Abi) :
    (release m pid).status abi = m.status abi := by
  unfold release
  split <;> cases abi <;> rfl

theorem status_handleExec {m : Monitor} {e : WaitEvent}
    (hmem : e.pid ∈ m.process)
    (hexec : stoppedWith m.waitStatus SIGTRAP PTRACE_EVENT_EXEC = true)
    {program : List Byte} (hread : e.program = some program) (abi : Abi) :
    (handleExec m e program).status abi = startedStatus m e abi := by
  by_cases htracing : m.tracingState = TracingState.tracing
  · have hstarted : startedZygote m e =
        if program = appProcess Abi.abi64 then
          if (shouldStopInject m Abi.abi64 e.now).1 then none
          else some Abi.abi64
        else if program = appProcess Abi.abi32 then
          if (shouldStopInject m Abi.abi32 e.now).1 then none
          else some Abi.abi32
        else
          none := by
      unfold startedZygote
      rw [if_pos ⟨htracing, hmem, hexec⟩, hread]
      simp only [Option.some.injEq]
    unfold handleExec startedStatus
    rw [if_neg (not_not_intro htracing), hstarted]
    by_cases h64 : program = appProcess Abi.abi64
    · rw [if_pos h64, if_pos h64, status_handleZygote]
      cases (shouldStopInject m Abi.abi64 e.now).1 <;> cases abi <;> simp
    · rw [if_neg h64, if_neg h64]
      by_cases h32 : program = appProcess Abi.abi32
      · rw [if_pos h32, if_pos h32, status_handleZygote]
        cases (shouldStopInject m Abi.abi32 e.now).1 <;> cases abi <;> simp
      · rw [if_neg h32, if_neg h32]
        simp
  · unfold handleExec startedStatus startedZygote
    rw [if_pos htracing]
    simp [htracing]

theorem status_handleProcess (m : Monitor) (e : WaitEvent) (abi : Abi) :
    (handleProcess m e).status abi = startedStatus m e abi := by
  have hnone : ¬ (m.tracingState = TracingState.tracing ∧ e.pid ∈ m.process ∧
      stoppedWith m.waitStatus SIGTRAP PTRACE_EVENT_EXEC = true) ->
      startedStatus m e abi = m.status abi := by
    intro h
    unfold startedStatus startedZygote
    rw [if_neg h]
    simp
  unfold handleProcess
  by_cases hmem : e.pid ∈ m.process
  · rw [if_neg (not_not_intro hmem)]
    by_cases hexec : stoppedWith m.waitStatus SIGTRAP PTRACE_EVENT_EXEC = true
    · rw [if_pos hexec]
      cases hread : e.program with
      | none =>
          unfold startedStatus startedZygote
          simp [hread]
      | some program =>
          rw [← status_handleExec hmem hexec hread]
          exact (status_release _ e.pid abi).trans
            (status_updateStatus (handleExec m e program) abi)
    · rw [if_neg hexec, hnone (fun h => hexec h.right.right)]
      exact status_release m e.pid abi
  · rw [if_pos hmem, hnone (fun h => hmem h.right.left)]
    cases abi <;> rfl

theorem status_handleInit (m : Monitor) (pid : Int) (status : Nat) (abi : Abi) :
    (handleInit m pid status).status abi = m.status abi := by
  have hresume : forall m' : Monitor,
      (resumeInit m' pid status).status abi = m'.status abi := by
    intro m'
    unfold resumeInit
    repeat' split
    all_goals first | exact Monitor.status_emit m' abi _ | rfl
  unfold handleInit
  split
  · rw [hresume, Monitor.status_emit]
  · split
    · cases abi <;> rfl
    · exact hresume m

/-!
# Daemon exits
-/

def Reported (s : Status) : Prop :=
  exists block, s.daemonErrorInfo = some block ∧ cstr block ≠ []

/-- There is a block for the text of an exit, and if no text has been reported
yet the new one fits into it and meets its terminator. -/
def TextFits (s : Status) (text : List Byte) : Prop :=
  exists block, s.daemonErrorInfo = some block ∧
    (cstr block ≠ [] ∨
      (text.length < block.length ∧ block[text.length]? = some 0))

/-- `after` records the exit of the daemon of `before`. -/
structure ExitNoted (before after : Status) (text : List Byte) : Prop where
  notRunning : after.daemonRunning = false
  kept : Reported before -> after.daemonErrorInfo = before.daemonErrorInfo
  filled : ¬ Reported before ->
    exists block, after.daemonErrorInfo = some block ∧ cstr block = text

theorem fillErrorInfo_reported {block : List Byte} (h : cstr block ≠ [])
    (text : List Byte) : fillErrorInfo block text = Except.ok block := by
  rw [ne_eq, cstr_eq_nil_iff, not_or] at h
  cases block with
  | nil => exact absurd rfl h.left
  | cons b rest =>
      have hb : ¬ b = 0 := by
        intro hzero
        exact h.right (by rw [hzero]; rfl)
      simp only [fillErrorInfo]
      rw [if_neg hb]

theorem fillErrorInfo_empty {block text : List Byte} (h : cstr block = []) :
    fillErrorInfo block text =
      if text.length < block.length then
        Except.ok (text ++ block.drop text.length)
      else
        Except.error Fault.heapOverrun := by
  rw [cstr_eq_nil_iff] at h
  cases block with
  | nil => rfl
  | cons b rest =>
      have hb : b = 0 := by
        rcases h with h | h
        · cases h
        · injection h
      simp only [fillErrorInfo]
      rw [if_pos hb]
      by_cases hlen : (b :: rest).length ≤ text.length
      · rw [if_pos hlen, if_neg (Nat.not_lt.mpr hlen)]
      · rw [if_neg hlen, if_pos (Nat.lt_of_not_le hlen)]

section Exit

variable (sysSigname : Nat -> List Byte)

/-- A daemon exit is handled exactly when there is a block and the text can be
filled into it. -/
theorem daemonExit_ok_iff {m m' : Monitor} {abi : Abi} :
    daemonExit sysSigname m abi = Except.ok m' <->
      exists block filled, (m.status abi).daemonErrorInfo = some block ∧
        fillErrorInfo block (parseStatus sysSigname m.waitStatus 64) =
          Except.ok filled ∧
        updateStatus (m.setStatus abi
          { m.status abi with
            daemonRunning := false, daemonErrorInfo := some filled }) = m' := by
  rw [daemonExit]
  cases hblock : (m.status abi).daemonErrorInfo with
  | none => simp
  | some block =>
      cases hfill : fillErrorInfo block (parseStatus sysSigname m.waitStatus 64) with
      | error f => simp [hfill]
      | ok filled => simp [hfill]

theorem reported_iff {s : Status} {block : List Byte}
    (hblock : s.daemonErrorInfo = some block) :
    Reported s <-> cstr block ≠ [] := by
  simp [Reported, hblock]

/-- The exit that is handled is noted, unless the text it was given had no
terminator to meet. -/
theorem exitNoted_iff {m : Monitor} {abi : Abi} {block filled text : List Byte}
    (hblock : (m.status abi).daemonErrorInfo = some block)
    (hfill : fillErrorInfo block text = Except.ok filled)
    (hfree : (0 : Byte) ∉ text) :
    ExitNoted (m.status abi)
        { m.status abi with
          daemonRunning := false, daemonErrorInfo := some filled } text <->
      TextFits (m.status abi) text := by
  have hfits : TextFits (m.status abi) text <->
      cstr block ≠ [] ∨
        text.length < block.length ∧ block[text.length]? = some 0 := by
    simp [TextFits, hblock]
  rw [hfits]
  rcases Decidable.em (cstr block = []) with hempty | hfull
  · have hunreported : ¬ Reported (m.status abi) := by
      rw [reported_iff hblock]
      exact not_not_intro hempty
    rw [fillErrorInfo_empty hempty] at hfill
    split at hfill
    · rename_i hlen
      injection hfill with hfill
      rw [or_iff_right (not_not_intro hempty), ← cstr_overwrite_iff hfree hlen,
        hfill]
      constructor
      · intro h
        rcases h.filled hunreported with ⟨block', hsome, htext⟩
        injection hsome with hsome
        rw [hsome]
        exact ⟨hlen, htext⟩
      · intro h
        exact ⟨rfl, fun hr => absurd hr hunreported,
          fun _ => ⟨filled, rfl, h.right⟩⟩
    · cases hfill
  · rw [fillErrorInfo_reported hfull] at hfill
    injection hfill with hfill
    rw [← hfill, ← hblock]
    constructor
    · intro _
      exact Or.inl hfull
    · intro _
      exact ⟨rfl, fun _ => rfl,
        fun hr => absurd ((reported_iff hblock).mpr hfull) hr⟩

theorem daemonExit_noted_iff (m : Monitor) (abi : Abi) :
    (exists m', daemonExit sysSigname m abi = Except.ok m' ∧
      ExitNoted (m.status abi) (m'.status abi)
        (parseStatus sysSigname m.waitStatus 64) ∧
      m'.status abi.other = m.status abi.other) <->
    TextFits (m.status abi) (parseStatus sysSigname m.waitStatus 64) := by
  have hfree : (0 : Byte) ∉ parseStatus sysSigname m.waitStatus 64 :=
    not_mem_cstr _
  constructor
  · intro h
    rcases h with ⟨m', hexit, hnoted, _⟩
    rcases (daemonExit_ok_iff sysSigname).mp hexit with
      ⟨block, filled, hblock, hfill, hm'⟩
    rw [← hm', status_updateStatus, Monitor.status_setStatus] at hnoted
    exact (exitNoted_iff hblock hfill hfree).mp hnoted
  · intro h
    rcases h with ⟨block, hblock, hroom⟩
    have hfill : exists filled, fillErrorInfo block
        (parseStatus sysSigname m.waitStatus 64) = Except.ok filled := by
      rcases hroom with hfull | ⟨hlen, _⟩
      · exact ⟨block, fillErrorInfo_reported hfull _⟩
      · rcases Decidable.em (cstr block = []) with hempty | hfull
        · exact ⟨_, (fillErrorInfo_empty hempty).trans (if_pos hlen)⟩
        · exact ⟨block, fillErrorInfo_reported hfull _⟩
    rcases hfill with ⟨filled, hfill⟩
    refine ⟨_, (daemonExit_ok_iff sysSigname).mpr
      ⟨block, filled, hblock, hfill, rfl⟩, ?_, by simp⟩
    rw [status_updateStatus, Monitor.status_setStatus]
    exact (exitNoted_iff hblock hfill hfree).mpr ⟨block, hblock, hroom⟩

end Exit

end SigChldHandler

open SigChldHandler

/-!
# The recorded pids
-/

/-- An ABI is supported exactly when a daemon has been forked for it. -/
def Recorded (m : Monitor) : Prop :=
  forall abi,
    ((m.status abi).supported = true ∧ 1 < (m.status abi).daemonPid) ∨
      ((m.status abi).supported = false ∧ (m.status abi).daemonPid = -1)

/-- Everything a handled event can do to one record. -/
inductive StatusStep (before : Status) : Status -> Prop where
  | same : StatusStep before before
  | injected : StatusStep before { before with zygoteInjected := true }
  | info (block : List Byte) :
      StatusStep before { before with daemonInfo := some block }
  | errorInfo (block : List Byte) :
      StatusStep before
        { before with daemonRunning := false, daemonErrorInfo := some block }
  | started (fork : Option ChildPid) : StatusStep before (startStatus before fork)

theorem statusStep_setStatus {m : Monitor} {abi : Abi} {s : Status}
    (h : StatusStep (m.status abi) s) (abi' : Abi) :
    StatusStep (m.status abi') ((updateStatus (m.setStatus abi s)).status abi') := by
  rw [status_updateStatus]
  cases abi <;> cases abi'
  · exact h
  · exact StatusStep.same
  · exact StatusStep.same
  · exact h

theorem statusStep_command {m m' : Monitor} {cmd : Option Command}
    (h : CommandStep m cmd m') (abi : Abi) :
    StatusStep (m.status abi) (m'.status abi) := by
  have hchange := h.recordChange abi
  generalize m'.status abi = s at hchange
  cases hchange with
  | kept _ => exact StatusStep.same
  | injected => exact StatusStep.injected
  | info block => exact StatusStep.info block
  | errorInfo block => exact StatusStep.errorInfo block

theorem statusStep_daemonExit {sysSigname : Nat -> List Byte} {m m' : Monitor}
    {abi : Abi} (h : daemonExit sysSigname m abi = Except.ok m')
    (abi' : Abi) : StatusStep (m.status abi') (m'.status abi') := by
  rcases (daemonExit_ok_iff sysSigname).mp h with ⟨block, filled, _, _, hm'⟩
  rw [← hm']
  exact statusStep_setStatus (StatusStep.errorInfo filled) abi'

theorem statusStep_handleResult {sysSigname : Nat -> List Byte}
    {m m' : Monitor} {e : WaitEvent}
    (h : handleResult sysSigname m e = Except.ok m') (abi : Abi) :
    StatusStep (m.status abi) (m'.status abi) := by
  unfold handleResult at h
  split at h
  · injection h with h
    rw [← h, status_handleInit]
    exact StatusStep.same
  · split at h
    · exact statusStep_daemonExit h abi
    · split at h
      · exact statusStep_daemonExit h abi
      · injection h with h
        rw [← h, status_handleProcess]
        unfold startedStatus
        split
        · exact StatusStep.started e.daemonFork
        · exact StatusStep.same

theorem statusStep_waitStep {sysSigname : Nat -> List Byte} {m m' : Monitor}
    {e : WaitEvent} (h : waitStep sysSigname m e = some m') (abi : Abi) :
    StatusStep (m.status abi) (m'.status abi) := by
  unfold waitStep handleWait at h
  by_cases hleave : e.pid = -1 ∧ m.tracingState = TracingState.stopped ∧
      e.echild = true
  · rw [if_pos hleave] at h
    injection h with h
    rw [h]
    exact StatusStep.same
  · rw [if_neg hleave] at h
    cases hresult : handleResult sysSigname (takeWait m e) e with
    | ok m1 =>
        rw [hresult] at h
        injection h with h
        have hstep := statusStep_handleResult hresult abi
        rw [status_takeWait, h] at hstep
        exact hstep
    | error f =>
        rw [hresult] at h
        cases h

theorem statusStep_step {lp : Lp} {sysSigname : Nat -> List Byte}
    {m m' : Monitor} {event : Event} (h : step lp sysSigname m event = some m')
    (abi : Abi) : StatusStep (m.status abi) (m'.status abi) := by
  cases event with
  | datagram d =>
      cases step_cases h with
      | rejected _ _ => exact StatusStep.same
      | command _ _ _ hcommand => exact statusStep_command hcommand abi
  | wait e =>
      unfold step at h
      simp only at h
      split at h
      · exact statusStep_waitStep h abi
      · cases h

theorem recorded_of_reachable {lp : Lp} {sysSigname : Nat -> List Byte}
    {m : Monitor} (h : (system lp sysSigname).Reachable m) : Recorded m := by
  apply TransitionSystem.reachable_invariant _ _ h
  · intro m hinit abi
    rcases hinit with ⟨preSection, postSection, hm⟩
    rw [hm]
    cases abi <;> exact Or.inr ⟨rfl, rfl⟩
  · intro m event m' hm hstep abi
    have hcases := statusStep_step hstep abi
    generalize m'.status abi = after at hcases
    cases hcases with
    | same => exact hm abi
    | injected => exact hm abi
    | info block => exact hm abi
    | errorInfo block => exact hm abi
    | started fork =>
        unfold startStatus
        rcases hm abi with ⟨hsupported, hpid⟩ | ⟨hsupported, hpid⟩
        · rw [if_neg (by simp; omega)]
          exact Or.inl ⟨hsupported, hpid⟩
        · rw [if_pos (by simpa using hpid)]
          cases fork with
          | none => exact Or.inr ⟨hsupported, hpid⟩
          | some pid => exact Or.inl ⟨rfl, pid.property⟩

/-!
# Attributing an exit
-/

section Attribution

variable (sysSigname : Nat -> List Byte)

def StartsDaemon (m : Monitor) (e : WaitEvent) (abi : Abi) : Prop :=
  startedZygote (takeWait m e) e = some abi ∧
    (m.status abi).daemonPid = -1 ∧ e.daemonFork ≠ none

/-- A result for the recorded daemon of one ABI is noted in the record of that
ABI and leaves the other record alone; a result for any other process changes
no error text, and changes `daemon_running` only where it starts a daemon. -/
def AttributesExit (m : Monitor) (e : WaitEvent) : Prop :=
  (forall abi, e.pid = (m.status abi).daemonPid ->
    e.pid ≠ (m.status abi.other).daemonPid ->
    exists m', handleWait sysSigname m e = WaitStep.next m' ∧
      ExitNoted (m.status abi) (m'.status abi)
        (parseStatus sysSigname e.status 64) ∧
      m'.status abi.other = m.status abi.other) ∧
  ((forall abi, e.pid ≠ (m.status abi).daemonPid) ->
    exists m', handleWait sysSigname m e = WaitStep.next m' ∧
      forall abi,
        (m'.status abi).daemonErrorInfo = (m.status abi).daemonErrorInfo ∧
        (¬ StartsDaemon m e abi ->
          (m'.status abi).daemonRunning = (m.status abi).daemonRunning))

/-- When the code attributes an exit: the text of a 64-bit exit has a block to
go to, and a 32-bit exit finds its record already closed. -/
def ExitHandled (m : Monitor) (e : WaitEvent) : Prop :=
  (e.pid = m.status64.daemonPid -> e.pid ≠ m.status32.daemonPid ->
    TextFits m.status64 (parseStatus sysSigname e.status 64)) ∧
  (e.pid = m.status32.daemonPid -> e.pid ≠ m.status64.daemonPid ->
    m.status32.daemonRunning = false ∧ Reported m.status32 ∧
      startedStatus (takeWait m e) e Abi.abi64 = m.status64)

theorem startStatus_of_recorded {s : Status} (h : s.daemonPid ≠ -1)
    (fork : Option ChildPid) :
    startStatus s fork = { s with zygoteInjected := false } := by
  unfold startStatus
  rw [if_neg h]

/-- The error text survives a zygote start, and so does `daemon_running` unless
the daemon is started by it. -/
theorem startedStatus_keeps (m : Monitor) (e : WaitEvent) (abi : Abi) :
    (startedStatus (takeWait m e) e abi).daemonErrorInfo =
        (m.status abi).daemonErrorInfo ∧
      (¬ StartsDaemon m e abi ->
        (startedStatus (takeWait m e) e abi).daemonRunning =
          (m.status abi).daemonRunning) := by
  unfold startedStatus StartsDaemon
  rw [status_takeWait]
  by_cases hstarted : startedZygote (takeWait m e) e = some abi
  · rw [if_pos hstarted]
    by_cases hpid : (m.status abi).daemonPid = -1
    · unfold startStatus
      cases hfork : e.daemonFork with
      | none => simp [hpid]
      | some pid => simp [hpid, hstarted]
    · rw [startStatus_of_recorded hpid]
      simp
  · rw [if_neg hstarted]
    simp

theorem handleResult_of_daemon64 {m : Monitor} (hm : Recorded m)
    {e : WaitEvent} (hpid : 0 < e.pid) (h : e.pid = m.status64.daemonPid) :
    handleResult sysSigname (takeWait m e) e =
      daemonExit sysSigname (takeWait m e) Abi.abi64 := by
  have hrecorded := hm Abi.abi64
  change (m.status64.supported = true ∧ 1 < m.status64.daemonPid) ∨
    (m.status64.supported = false ∧ m.status64.daemonPid = -1) at hrecorded
  have hsupported : m.status64.supported = true ∧ 1 < m.status64.daemonPid := by
    rcases hrecorded with hyes | ⟨_, hno⟩
    · exact hyes
    · omega
  have hcaught : caughtBy (takeWait m e) Abi.abi64 e.pid = true := by
    rw [caughtBy_takeWait]
    exact Bool.and_eq_true_iff.mpr ⟨hsupported.left, decide_eq_true h⟩
  unfold handleResult
  rw [if_neg (by omega), if_pos hcaught]

theorem handleResult_of_other {m : Monitor} {e : WaitEvent} (hone : e.pid ≠ 1)
    (h : e.pid ≠ m.status64.daemonPid) :
    handleResult sysSigname (takeWait m e) e =
      Except.ok (handleProcess (takeWait m e) e) := by
  have hcaught : forall abi, ¬ caughtBy (takeWait m e) abi e.pid = true := by
    intro abi hyes
    rw [caughtBy_takeWait] at hyes
    exact h (of_decide_eq_true (Bool.and_eq_true_iff.mp hyes).right)
  unfold handleResult
  rw [if_neg hone, if_neg (hcaught Abi.abi64), if_neg (hcaught Abi.abi32)]

theorem noted64_iff {m : Monitor} (hm : Recorded m) {e : WaitEvent}
    (hpid : 0 < e.pid) (h : e.pid = m.status64.daemonPid) :
    (exists m', handleWait sysSigname m e = WaitStep.next m' ∧
      ExitNoted (m.status Abi.abi64) (m'.status Abi.abi64)
        (parseStatus sysSigname e.status 64) ∧
      m'.status Abi.abi64.other = m.status Abi.abi64.other) <->
    TextFits m.status64 (parseStatus sysSigname e.status 64) := by
  have hne : e.pid ≠ -1 := by omega
  have hexit := daemonExit_noted_iff sysSigname (takeWait m e) Abi.abi64
  rw [waitStatus_takeWait hne, status_takeWait, status_takeWait] at hexit
  simp only [handleWait_eq_next_iff sysSigname hne,
    handleResult_of_daemon64 sysSigname hm hpid h]
  exact hexit

theorem noted32_iff {m : Monitor} (hm : Recorded m) {e : WaitEvent}
    (hpid : 0 < e.pid) (h : e.pid = m.status32.daemonPid)
    (hother : e.pid ≠ m.status64.daemonPid) :
    (exists m', handleWait sysSigname m e = WaitStep.next m' ∧
      ExitNoted (m.status Abi.abi32) (m'.status Abi.abi32)
        (parseStatus sysSigname e.status 64) ∧
      m'.status Abi.abi32.other = m.status Abi.abi32.other) <->
    (m.status32.daemonRunning = false ∧ Reported m.status32 ∧
      startedStatus (takeWait m e) e Abi.abi64 = m.status64) := by
  have hne : e.pid ≠ -1 := by omega
  have hrecorded := hm Abi.abi32
  change (m.status32.supported = true ∧ 1 < m.status32.daemonPid) ∨
    (m.status32.supported = false ∧ m.status32.daemonPid = -1) at hrecorded
  have hone : e.pid ≠ 1 := by
    rcases hrecorded with ⟨_, hyes⟩ | ⟨_, hno⟩ <;> omega
  -- The exit is not recognised: the result goes to the process set.
  have hresult := handleResult_of_other sysSigname hone hother
  have hkept := startedStatus_keeps m e Abi.abi32
  have hrunning := hkept.right (by
    intro h
    rcases h with ⟨_, hno, _⟩
    change m.status32.daemonPid = -1 at hno
    omega)
  simp only [handleWait_eq_next_iff sysSigname hne, hresult]
  constructor
  · intro h
    rcases h with ⟨m', hnext, hnoted, hsame⟩
    injection hnext with hnext
    rw [← hnext, status_handleProcess] at hnoted hsame
    refine ⟨hrunning.symm.trans hnoted.notRunning, ?_, hsame⟩
    by_contra hunreported
    rcases hnoted.filled hunreported with ⟨block, hsome, htext⟩
    rw [hkept.left] at hsome
    apply hunreported
    refine ⟨block, hsome, ?_⟩
    rw [htext]
    exact parseStatus_ne_nil sysSigname (by decide) e.status
  · intro h
    rcases h with ⟨hstopped, hreported, hsame⟩
    refine ⟨_, rfl, ⟨?_, ?_, fun hno => absurd hreported hno⟩, ?_⟩
    · rw [status_handleProcess, hrunning]
      exact hstopped
    · intro _
      rw [status_handleProcess]
      exact hkept.left
    · rw [status_handleProcess]
      exact hsame

theorem others_kept {m : Monitor} {e : WaitEvent} (hpid : 0 < e.pid)
    (h : e.pid ≠ m.status64.daemonPid) :
    exists m', handleWait sysSigname m e = WaitStep.next m' ∧
      forall abi,
        (m'.status abi).daemonErrorInfo = (m.status abi).daemonErrorInfo ∧
        (¬ StartsDaemon m e abi ->
          (m'.status abi).daemonRunning = (m.status abi).daemonRunning) := by
  have hne : e.pid ≠ -1 := by omega
  simp only [handleWait_eq_next_iff sysSigname hne]
  by_cases hone : e.pid = 1
  · refine ⟨handleInit (takeWait m e) e.pid (takeWait m e).waitStatus, ?_, ?_⟩
    · unfold handleResult
      rw [if_pos hone]
    · intro abi
      rw [status_handleInit, status_takeWait]
      exact ⟨rfl, fun _ => rfl⟩
  · refine ⟨_, handleResult_of_other sysSigname hone h, ?_⟩
    intro abi
    rw [status_handleProcess]
    exact startedStatus_keeps m e abi

end Attribution

end InitMonitor
end ReZygisk
