import ReZygisk.Monitor.Daemons
import ReZygisk.Monitor.StopCause
import ReZygisk.Monitor.Messages

/-!
# The size of the status text

`updateStatus` puts its text together with `strcat` in an array of 1024 bytes.
Apart from a few fixed pieces, the text consists of what the daemons sent, and
nothing compares its length with the array's.
-/

namespace ReZygisk
namespace InitMonitor

open Foundation
open Kernel
open SigChldHandler

/-- `sizeof(status_text)` -/
def STATUS_TEXT_SIZE : Nat := 1024

/-- The text and its terminator are within the array. -/
def StatusTextFits (m : Monitor) : Prop :=
  (renderStatus m).length + 1 ≤ STATUS_TEXT_SIZE

instance (m : Monitor) : Decidable (StatusTextFits m) :=
  inferInstanceAs (Decidable (_ ≤ _))

/-!
# The bytes of the pieces
-/

/-- The text of a daemon that is shown, if it sent one. -/
def Status.shown (s : Status) : Option (List Byte) :=
  if s.daemonRunning then s.daemonInfo else s.daemonErrorInfo

/-- The bytes that daemons sent. -/
def sentBytes (m : Monitor) (abi : Abi) : Nat :=
  if (m.status abi).supported then (cstr ((m.status abi).shown.getD [])).length else 0

def reasonBytes (m : Monitor) : Nat :=
  if m.monitorStopReason = [] then 0 else m.monitorStopReason.length + 2

def headBytes (m : Monitor) : Nat :=
  match m.tracingState with
  | TracingState.tracing => 22
  | TracingState.stopping => 21 + reasonBytes m
  | TracingState.stopped => 21 + reasonBytes m
  | TracingState.exiting => 20 + reasonBytes m

def abiBytes (m : Monitor) (abi : Abi) : Nat :=
  if (m.status abi).supported then
    20 +
      (if m.tracingState ≠ TracingState.tracing then 13
        else if (m.status abi).zygoteInjected then 15 else 18) +
      (if (m.status abi).daemonRunning then 11 else 12) +
      (if (m.status abi).shown.isSome then 2 else 0)
  else 0

/-- The bytes of the text that no daemon sent. -/
def fixedBytes (m : Monitor) : Nat :=
  headBytes m + abiBytes m Abi.abi64 + abiBytes m Abi.abi32

section Length

variable (m : Monitor)

theorem writeStatusAbi_length (abi : Abi) :
    (writeStatusAbi m abi).length = abiBytes m abi + sentBytes m abi := by
  have hzygote : (bytesOf (" zygote" ++ abi.suffix ++ ":")).length = 10 := by
    cases abi <;> decide
  have hdaemon : (bytesOf (" daemon" ++ abi.suffix ++ ":")).length = 10 := by
    cases abi <;> decide
  have hopen : (bytesOf "(").length = 1 := by decide
  have hclose : (bytesOf ")").length = 1 := by decide
  have hinjection : (if m.tracingState ≠ TracingState.tracing then bytesOf "❓ unknown, "
      else if (m.status abi).zygoteInjected then bytesOf "😋 injected, "
      else bytesOf "❌ not injected, ").length =
        if m.tracingState ≠ TracingState.tracing then 13
        else if (m.status abi).zygoteInjected then 15 else 18 := by
    split
    · decide
    · split <;> decide
  unfold writeStatusAbi abiBytes sentBytes Status.shown
  cases hsupported : (m.status abi).supported with
  | false => simp only [hsupported, Bool.false_eq_true, if_false, List.length_nil]
  | true =>
      cases hrunning : (m.status abi).daemonRunning with
      | false =>
          have hstate : (bytesOf "❌ crashed ").length = 12 := by decide
          simp only [hsupported, hrunning, if_true, Bool.false_eq_true, if_false,
            List.length_append, hzygote, hdaemon, hinjection, hstate]
          cases (m.status abi).daemonErrorInfo with
          | none =>
              simp [cstr]
              omega
          | some info =>
              simp [hopen, hclose]
              omega
      | true =>
          have hstate : (bytesOf "😋running").length = 11 := by decide
          simp only [hsupported, hrunning, if_true, List.length_append, hzygote, hdaemon,
            hinjection, hstate]
          cases (m.status abi).daemonInfo with
          | none =>
              simp [cstr]
              omega
          | some info =>
              simp [hopen, hclose]
              omega

theorem renderStatus_length :
    (renderStatus m).length =
      fixedBytes m + sentBytes m Abi.abi64 + sentBytes m Abi.abi32 := by
  have hname : (bytesOf "monitor: ").length = 9 := by decide
  have htracing : (bytesOf "😋 tracing").length = 12 := by decide
  have hstopped : (bytesOf "❌ stopped").length = 11 := by decide
  have hexited : (bytesOf "❌ exited").length = 10 := by decide
  have hopen : (bytesOf "(").length = 1 := by decide
  have hclose : (bytesOf ")").length = 1 := by decide
  have hcomma : (bytesOf ",").length = 1 := by decide
  unfold renderStatus fixedBytes headBytes reasonBytes
  simp only [List.length_append, writeStatusAbi_length, hname, hcomma]
  cases m.tracingState <;> by_cases hreason : m.monitorStopReason = [] <;>
    simp [hreason, htracing, hstopped, hexited, hopen, hclose] <;> omega

/-- In any state, the text fits exactly if the bytes that the daemons sent are
no more than the fixed pieces leave. -/
theorem statusTextFits_iff :
    StatusTextFits m <->
      sentBytes m Abi.abi64 + sentBytes m Abi.abi32 + fixedBytes m ≤ 1023 := by
  unfold StatusTextFits STATUS_TEXT_SIZE
  rw [renderStatus_length]
  omega

end Length

/-!
# Brief texts

A text of at most 444 bytes from each daemon leaves room for the rest in every
state that a run reaches.
-/

/-- A heap block of at most `n` bytes that ends with a terminator. -/
structure BriefBlock (n : Nat) (block : List Byte) : Prop where
  bound : block.length ≤ n
  terminated : block.getLast? = some 0

theorem BriefBlock.cstr_lt {n : Nat} {block : List Byte} (h : BriefBlock n block) :
    (cstr block).length < n := by
  have hlast : (0 : Byte) ∈ block := List.mem_of_getLast? h.terminated
  have hle : (cstr block).length ≤ block.length := (List.takeWhile_prefix _).length_le
  apply Nat.lt_of_lt_of_le (Nat.lt_of_le_of_ne hle ?_) h.bound
  intro heq
  have hall : cstr block = block := (List.takeWhile_prefix _).eq_of_length heq
  rw [← hall] at hlast
  exact not_mem_cstr block hlast

theorem briefBlock_copyText {n : Nat} {length : Int} {data block : List Byte}
    (hlength : length ≤ n) (h : SocketHandler.copyText length data = Except.ok block) :
    BriefBlock n block := by
  unfold SocketHandler.copyText at h
  split at h
  · cases h
  · injection h with h
    rw [← h]
    constructor
    · rw [List.length_append, List.length_singleton, List.length_take]
      omega
    · exact List.getLast?_concat

/-- The text of an exit is put over a part of the block that is there. -/
theorem briefBlock_fillErrorInfo {n : Nat} {block text filled : List Byte}
    (hblock : BriefBlock n block)
    (h : SigChldHandler.fillErrorInfo block text = Except.ok filled) :
    BriefBlock n filled := by
  unfold SigChldHandler.fillErrorInfo at h
  split at h
  · cases h
  · rename_i b rest
    split at h
    · split at h
      · cases h
      · rename_i hfits
        injection h with h
        have hlength : text.length < (b :: rest).length := Nat.lt_of_not_le hfits
        have hrest : (b :: rest).drop text.length ≠ [] := by
          rw [ne_eq, List.drop_eq_nil_iff]
          exact Nat.not_le.mpr hlength
        rw [← h]
        constructor
        · rw [List.length_append, List.length_drop]
          have hbound := hblock.bound
          omega
        · rw [List.getLast?_append_of_ne_nil _ hrest, List.getLast?_drop,
            if_neg hfits]
          exact hblock.terminated
    · injection h with h
      rw [← h]
      exact hblock

def BriefTexts (n : Nat) (s : Status) : Prop :=
  forall block, s.daemonInfo = some block ∨ s.daemonErrorInfo = some block ->
    BriefBlock n block

/-- An accepted text is at most `n` bytes with its terminator. -/
def BriefEvent (lp : Lp) (n : Nat) (event : Event) : Prop :=
  forall d, event = Event.datagram d -> SocketHandler.accepted lp d = true ->
    (exists abi,
      Command.ofCode (SocketHandler.peekHead d).cmd = some (Command.daemonSetInfo abi) ∨
      Command.ofCode (SocketHandler.peekHead d).cmd =
        some (Command.daemonSetErrorInfo abi)) ->
    (SocketHandler.peekHead d).length ≤ n

section Steps

variable {n : Nat} {m m' : Monitor}

theorem briefTexts_setStatus {abi : Abi} {s : Status}
    (h : forall abi, BriefTexts n (m.status abi)) (hs : BriefTexts n s) (abi' : Abi) :
    BriefTexts n ((updateStatus (m.setStatus abi s)).status abi') := by
  rw [status_updateStatus]
  cases abi <;> cases abi'
  · exact hs
  · exact h Abi.abi32
  · exact h Abi.abi64
  · exact hs

theorem BriefTexts.setInfo {s : Status} {block : List Byte} (h : BriefTexts n s)
    (hblock : BriefBlock n block) : BriefTexts n { s with daemonInfo := some block } := by
  intro block' hshown
  rcases hshown with hinfo | herror
  · cases hinfo
    exact hblock
  · exact h block' (Or.inr herror)

theorem BriefTexts.setErrorInfo {s : Status} {block : List Byte} (h : BriefTexts n s)
    (hblock : BriefBlock n block) :
    BriefTexts n { s with daemonRunning := false, daemonErrorInfo := some block } := by
  intro block' hshown
  rcases hshown with hinfo | herror
  · exact h block' (Or.inl hinfo)
  · cases herror
    exact hblock

theorem BriefTexts.startStatus {s : Status} (h : BriefTexts n s)
    (fork : Option ChildPid) : BriefTexts n (startStatus s fork) := by
  have hkept : (SigChldHandler.startStatus s fork).daemonInfo = s.daemonInfo ∧
      (SigChldHandler.startStatus s fork).daemonErrorInfo = s.daemonErrorInfo := by
    by_cases hpid : s.daemonPid = -1
    · cases fork <;> simp [SigChldHandler.startStatus, hpid]
    · simp [SigChldHandler.startStatus, hpid]
  intro block hshown
  rw [hkept.left, hkept.right] at hshown
  exact h block hshown

theorem briefTexts_daemonExit {sysSigname : Nat -> List Byte} {abi : Abi}
    (hm : forall abi, BriefTexts n (m.status abi))
    (h : daemonExit sysSigname m abi = Except.ok m') (abi' : Abi) :
    BriefTexts n (m'.status abi') := by
  rcases (daemonExit_ok_iff sysSigname).mp h with ⟨block, filled, hblock, hfill, hm'⟩
  rw [← hm']
  apply briefTexts_setStatus hm
  exact (hm abi).setErrorInfo
    (briefBlock_fillErrorInfo (hm abi block (Or.inr hblock)) hfill)

theorem briefTexts_handleResult {sysSigname : Nat -> List Byte} {e : WaitEvent}
    (hm : forall abi, BriefTexts n (m.status abi))
    (h : handleResult sysSigname m e = Except.ok m') (abi : Abi) :
    BriefTexts n (m'.status abi) := by
  unfold handleResult at h
  split at h
  · injection h with h
    rw [← h, status_handleInit]
    exact hm abi
  · split at h
    · exact briefTexts_daemonExit hm h abi
    · split at h
      · exact briefTexts_daemonExit hm h abi
      · injection h with h
        rw [← h, status_handleProcess]
        unfold startedStatus
        split
        · exact (hm abi).startStatus e.daemonFork
        · exact hm abi

theorem briefTexts_waitStep {sysSigname : Nat -> List Byte} {e : WaitEvent}
    (hm : forall abi, BriefTexts n (m.status abi))
    (h : waitStep sysSigname m e = some m') (abi : Abi) : BriefTexts n (m'.status abi) := by
  unfold waitStep handleWait at h
  by_cases hleave : e.pid = -1 ∧ m.tracingState = TracingState.stopped ∧
      e.echild = true
  · rw [if_pos hleave] at h
    injection h with h
    rw [← h]
    exact hm abi
  · rw [if_neg hleave] at h
    cases hresult : handleResult sysSigname (takeWait m e) e with
    | ok m1 =>
        rw [hresult] at h
        injection h with h
        rw [← h]
        apply briefTexts_handleResult _ hresult
        intro abi'
        rw [status_takeWait]
        exact hm abi'
    | error f =>
        rw [hresult] at h
        cases h

/-- Only the two text commands change a text. -/
theorem briefTexts_command {cmd : Option Command}
    (hm : forall abi, BriefTexts n (m.status abi)) (h : CommandStep m cmd m')
    (hcmd : forall abi, cmd ≠ some (Command.daemonSetInfo abi) ∧
      cmd ≠ some (Command.daemonSetErrorInfo abi)) (abi : Abi) :
    BriefTexts n (m'.status abi) := by
  have hchange := h.recordChange abi
  generalize m'.status abi = s at hchange
  cases hchange with
  | kept _ => exact hm abi
  | injected =>
      intro block hshown
      exact hm abi block hshown
  | info block => exact absurd rfl (hcmd abi).left
  | errorInfo block => exact absurd rfl (hcmd abi).right

theorem briefTexts_handleMsg {head : SocketHandler.MsgHead} {data : List Byte}
    (hm : forall abi, BriefTexts n (m.status abi))
    (hlength : (exists abi,
      Command.ofCode head.cmd = some (Command.daemonSetInfo abi) ∨
      Command.ofCode head.cmd = some (Command.daemonSetErrorInfo abi)) -> head.length ≤ n)
    (h : SocketHandler.handleMsg m head data = Except.ok m') (abi : Abi) :
    BriefTexts n (m'.status abi) := by
  by_cases htext : exists abi,
      Command.ofCode head.cmd = some (Command.daemonSetInfo abi) ∨
      Command.ofCode head.cmd = some (Command.daemonSetErrorInfo abi)
  · have hbrief : forall block, SocketHandler.copyText head.length data =
        Except.ok block -> BriefBlock n block :=
      fun block hcopy => briefBlock_copyText (hlength htext) hcopy
    unfold SocketHandler.handleMsg at h
    cases hcopy : SocketHandler.copyText head.length data with
    | error f =>
        rcases htext with ⟨abi', hcmd | hcmd⟩ <;> simp [hcmd, hcopy] at h
    | ok block =>
        rcases htext with ⟨abi', hcmd | hcmd⟩
        · simp only [hcmd, hcopy] at h
          cases h
          exact briefTexts_setStatus hm ((hm abi').setInfo (hbrief block hcopy)) abi
        · simp only [hcmd, hcopy] at h
          cases h
          exact briefTexts_setStatus hm ((hm abi').setErrorInfo (hbrief block hcopy)) abi
  · apply briefTexts_command hm (commandStep_of_handleMsg h)
    intro abi'
    exact ⟨fun hinfo => htext ⟨abi', Or.inl hinfo⟩,
      fun herror => htext ⟨abi', Or.inr herror⟩⟩

theorem briefTexts_step {lp : Lp} {sysSigname : Nat -> List Byte} {event : Event}
    (hm : forall abi, BriefTexts n (m.status abi)) (hevent : BriefEvent lp n event)
    (h : step lp sysSigname m event = some m') (abi : Abi) :
    BriefTexts n (m'.status abi) := by
  cases event with
  | datagram d =>
      rcases act_of_datagramStep h with ⟨haccepted, hact⟩ | ⟨_, heq⟩
      · exact briefTexts_handleMsg hm (hevent d rfl haccepted) hact abi
      · rw [heq]
        exact hm abi
  | wait e =>
      unfold step at h
      simp only at h
      split at h
      · exact briefTexts_waitStep hm h abi
      · cases h

end Steps

/-!
# Every run
-/

/-- Outside of tracing, the reason is one of the three. -/
def ReasonKnown (m : Monitor) : Prop :=
  m.tracingState ≠ TracingState.tracing ->
    exists cause : StopCause, m.monitorStopReason = cause.reason

theorem reasonKnown_step {lp : Lp} {sysSigname : Nat -> List Byte} {m m' : Monitor}
    {event : Event} (hm : ReasonKnown m) (h : step lp sysSigname m event = some m') :
    ReasonKnown m' := by
  intro hnot
  have hcause := causeStep_step h
  cases hc : stopCause lp m event with
  | some c => exact ⟨c, (hcause.some c hc).right⟩
  | none =>
      rcases hcause.none hc with ⟨hstays, hreason⟩
      rcases hm (fun htracing => hnot (hstays htracing)) with ⟨c, htext⟩
      exact ⟨c, hreason.trans htext⟩

theorem reasonBytes_le {m : Monitor} (h : ReasonKnown m)
    (hnot : m.tracingState ≠ TracingState.tracing) : reasonBytes m ≤ 20 := by
  rcases h hnot with ⟨cause, hcause⟩
  have hlength : cause.reason.length ≤ 18 := by
    cases cause <;> decide
  unfold reasonBytes
  rw [hcause]
  split
  · exact Nat.zero_le 20
  · omega

theorem fixedBytes_le {m : Monitor} (h : ReasonKnown m) : fixedBytes m ≤ 135 := by
  have habi : forall abi, abiBytes m abi ≤
      if m.tracingState = TracingState.tracing then 52 else 47 := by
    intro abi
    unfold abiBytes
    repeat' split
    all_goals first | omega | contradiction
  have h64 := habi Abi.abi64
  have h32 := habi Abi.abi32
  unfold fixedBytes
  by_cases htracing : m.tracingState = TracingState.tracing
  · have hhead : headBytes m = 22 := by
      unfold headBytes
      rw [htracing]
    rw [if_pos htracing] at h64 h32
    omega
  · have hhead : headBytes m ≤ 41 := by
      have hreason := reasonBytes_le h htracing
      unfold headBytes
      split <;> omega
    rw [if_neg htracing] at h64 h32
    omega

theorem sentBytes_lt {n : Nat} {m : Monitor} {abi : Abi} (hn : 0 < n)
    (h : BriefTexts n (m.status abi)) : sentBytes m abi < n := by
  unfold sentBytes Status.shown
  split
  · split
    · cases hinfo : (m.status abi).daemonInfo with
      | none => exact hn
      | some block => exact (h block (Or.inl hinfo)).cstr_lt
    · cases hinfo : (m.status abi).daemonErrorInfo with
      | none => exact hn
      | some block => exact (h block (Or.inr hinfo)).cstr_lt
  · exact hn


section Run

variable (lp : Lp) (sysSigname : Nat -> List Byte) (preSection postSection : List Byte)

/-- In every state that a run reaches, the text fits exactly if the bytes of the
daemons are no more than the fixed pieces leave; and it does in every run that
accepts no text of more than 444 bytes. -/
theorem statusTextFits_iff_sent {events : List Event} {m : Monitor}
    (hrun : (system lp sysSigname).run (initial preSection postSection) events =
      some m) :
    (StatusTextFits m <->
      sentBytes m Abi.abi64 + sentBytes m Abi.abi32 ≤ 1023 - fixedBytes m) ∧
    888 ≤ 1023 - fixedBytes m ∧
    ((system lp sysSigname).AlongRun (fun _ event => BriefEvent lp 445 event)
        (initial preSection postSection) events ->
      StatusTextFits m) := by
  have hreason : ReasonKnown m := by
    refine TransitionSystem.run_invariant (I := ReasonKnown) ?_
      (fun hno => absurd rfl hno) (TransitionSystem.alongRun_true _ _) hrun
    intro s event s' hs _ hstep
    exact reasonKnown_step hs hstep
  have hfixed := fixedBytes_le hreason
  have hiff := statusTextFits_iff m
  refine ⟨?_, by omega, ?_⟩
  · rw [hiff]
    omega
  · intro hbrief
    have htexts : forall abi, BriefTexts 445 (m.status abi) := by
      refine TransitionSystem.run_invariant
        (I := fun s => forall abi, BriefTexts 445 (s.status abi)) ?_ ?_ hbrief hrun
      · intro s event s' hs hevent hstep
        exact briefTexts_step hs hevent hstep
      · intro abi block hshown
        cases abi <;> rcases hshown with hno | hno <;> cases hno
    have h64 := sentBytes_lt (by decide) (htexts Abi.abi64)
    have h32 := sentBytes_lt (by decide) (htexts Abi.abi32)
    rw [hiff]
    omega

end Run

/-- A zygote starts, and with it the daemon, which reports a text. -/
def daemonReports (info : List Byte) : List Event :=
  [ Event.wait { pid := 200, status := stoppedStatus SIGSTOP PTRACE_EVENT_STOP },
    Event.wait
      { pid := 200, status := stoppedStatus SIGTRAP PTRACE_EVENT_EXEC,
        program := some (appProcess Abi.abi64),
        now := 100,
        daemonFork := some ⟨305, by decide⟩,
        stopStatus := stoppedStatus SIGSTOP 0 },
    Event.datagram (Zygiskd.infoMessage (Zygiskd.DAEMON_SET_INFO Lp.lp64) info) ]

theorem step_of_delivered {lp : Lp} {sysSigname : Nat -> List Byte} {m m' : Monitor}
    {d : Datagram} (h : Delivered lp m d m') :
    (system lp sysSigname).step m (Event.datagram d) = some m' := by
  show datagramStep lp m d = some m'
  unfold datagramStep SocketHandler.SocketState.start
  rw [h [] []]
  rfl

theorem run_daemonReports {info : List Byte} (hfree : (0 : Byte) ∉ info)
    (hsize : info.length < 2 ^ 31 - 9) :
    exists m, (system Lp.lp64 (fun _ => [])).run (initial [] []) (daemonReports info) =
        some m ∧ sentBytes m Abi.abi64 = info.length ∧ sentBytes m Abi.abi32 = 0 := by
  have hstarted : exists m1, (system Lp.lp64 (fun _ => [])).run (initial [] [])
      ((daemonReports info).take 2) = some m1 ∧ m1.status64.supported = true ∧
        m1.status64.daemonRunning = true ∧ m1.status32.supported = false :=
    ⟨_, rfl, rfl, rfl, rfl⟩
  rcases hstarted with ⟨m1, hrun, hsupported, hrunning, hother⟩
  rcases performed_info Lp.lp64 Lp.lp64 m1 hfree hsize with ⟨m, hdelivered, hperformed⟩
  rcases hperformed.info Abi.abi64 info rfl rfl with ⟨hstatus, htext⟩
  have hstep : (system Lp.lp64 (fun _ => [])).step m1 (Event.datagram
      (Zygiskd.infoMessage (Zygiskd.DAEMON_SET_INFO Lp.lp64) info)) = some m :=
    step_of_delivered hdelivered
  refine ⟨m, ?_, ?_, ?_⟩
  · have hsplit : daemonReports info = (daemonReports info).take 2 ++
        [Event.datagram (Zygiskd.infoMessage (Zygiskd.DAEMON_SET_INFO Lp.lp64) info)] :=
      rfl
    rw [hsplit, TransitionSystem.run_append, hrun, Option.bind_some,
      TransitionSystem.run, hstep, Option.bind_some, TransitionSystem.run]
  · have h64 : m1.status Abi.abi64 = m1.status64 := rfl
    unfold sentBytes Status.shown
    simp only [hstatus, h64, hsupported, hrunning, if_true, Option.getD_some, htext]
  · have h32 : m.status Abi.abi32 = m1.status32 :=
      hperformed.otherAbi Abi.abi32 (fun hno => by cases hno)
    unfold sentBytes
    rw [h32, hother]
    rfl

theorem statusTextFits_one_module :
    exists m, (system Lp.lp64 (fun _ => [])).run (initial [] [])
        (daemonReports (Zygiskd.rootInfo Zygiskd.RootImpl.kernelSU
          [bytesOf "zygisk_lsposed"])) = some m ∧
      sentBytes m Abi.abi64 = 40 ∧ StatusTextFits m := by
  have hfree : (0 : Byte) ∉ Zygiskd.rootInfo Zygiskd.RootImpl.kernelSU
      [bytesOf "zygisk_lsposed"] := by decide
  rcases run_daemonReports hfree (by decide) with ⟨m, hrun, h64, h32⟩
  have hlength : (Zygiskd.rootInfo Zygiskd.RootImpl.kernelSU
      [bytesOf "zygisk_lsposed"]).length = 40 := by decide
  rw [hlength] at h64
  rcases statusTextFits_iff_sent Lp.lp64 (fun _ => []) [] [] hrun with ⟨hiff, hroom, _⟩
  exact ⟨m, hrun, h64, hiff.mpr (by omega)⟩

/-- With seventy modules the text runs over the end of its array. -/
theorem not_statusTextFits_seventy_modules :
    exists m, (system Lp.lp64 (fun _ => [])).run (initial [] [])
        (daemonReports (Zygiskd.rootInfo Zygiskd.RootImpl.kernelSU
          (List.replicate 70 (bytesOf "zygisk_lsposed")))) = some m ∧
      ¬ StatusTextFits m := by
  have hlength : (Zygiskd.rootInfo Zygiskd.RootImpl.kernelSU
      (List.replicate 70 (bytesOf "zygisk_lsposed"))).length = 1076 := by
    decide +kernel
  have hfree : (0 : Byte) ∉ Zygiskd.rootInfo Zygiskd.RootImpl.kernelSU
      (List.replicate 70 (bytesOf "zygisk_lsposed")) := by
    decide +kernel
  rcases run_daemonReports hfree (by rw [hlength]; decide) with ⟨m, hrun, h64, _⟩
  refine ⟨m, hrun, ?_⟩
  rw [statusTextFits_iff, h64, hlength]
  omega

end InitMonitor
end ReZygisk
