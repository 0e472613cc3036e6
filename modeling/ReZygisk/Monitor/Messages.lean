import ReZygisk.Monitor.Transitions
import ReZygisk.Zygiskd.Announce

/-!
# Messages to the monitor

Who sends what to the control socket, and what the handler makes of it.  The
daemon writes its datagrams in Rust, `ctl` writes a bare command in C++, and the
handler tells the two shapes apart by the number of the command.
-/

namespace ReZygisk
namespace InitMonitor

open Foundation
open Kernel
open SocketHandler
open Zygiskd (infoMessage announcement rootInfo rootErrorInfo DAEMON_SET_INFO
  DAEMON_SET_ERROR_INFO ZYGOTE_INJECTED SYSTEM_SERVER_STARTED)

/-!
# Senders
-/

/-- The word after `ctl` on the command line of the tracer. -/
def ctlCommand (arg : List Byte) : Option Command :=
  if arg = bytesOf "start" then some Command.start
  else if arg = bytesOf "stop" then some Command.stop
  else if arg = bytesOf "exit" then some Command.exit
  else none

def sendControlCommand (cmd : Command) : Datagram :=
  leBytes 4 cmd.code

def senderAbi : Lp -> Abi
  | Lp.lp64 => Abi.abi64
  | Lp.lp32 => Abi.abi32

/-- The datagrams that the monitor is sent, with the command each of them
stands for and the text it carries. -/
inductive Sent : Datagram -> Command -> Option (List Byte) -> Prop where
  | ctl {arg : List Byte} {cmd : Command} (h : ctlCommand arg = some cmd) :
      Sent (sendControlCommand cmd) cmd none
  | injected (sender : Lp) :
      Sent (leBytes 4 (ZYGOTE_INJECTED sender))
        (Command.zygoteInjected (senderAbi sender)) none
  | systemServerStarted :
      Sent (leBytes 4 SYSTEM_SERVER_STARTED) Command.systemServerStarted none
  | info (sender : Lp) {info : List Byte} (hfree : (0 : Byte) ∉ info)
      (hsize : info.length < 2 ^ 31 - 9) :
      Sent (infoMessage (DAEMON_SET_INFO sender) info)
        (Command.daemonSetInfo (senderAbi sender)) (some info)
  | errorInfo (sender : Lp) {info : List Byte} (hfree : (0 : Byte) ∉ info)
      (hsize : info.length < 2 ^ 31 - 9) :
      Sent (infoMessage (DAEMON_SET_ERROR_INFO sender) info)
        (Command.daemonSetErrorInfo (senderAbi sender)) (some info)

def Command.abi : Command -> Option Abi
  | Command.zygoteInjected abi => some abi
  | Command.daemonSetInfo abi => some abi
  | Command.daemonSetErrorInfo abi => some abi
  | _ => none

/-- The transition that a command and its text ask for. -/
structure Performed (m : Monitor) (cmd : Command) (text : Option (List Byte))
    (m' : Monitor) : Prop where
  command : CommandStep m (some cmd) m'
  info : forall abi info, cmd = Command.daemonSetInfo abi -> text = some info ->
    m'.status abi = { m.status abi with daemonInfo := some (info ++ [0]) } ∧
      cstr (info ++ [0]) = info
  errorInfo : forall abi info, cmd = Command.daemonSetErrorInfo abi ->
    text = some info ->
    m'.status abi = { m.status abi with
        daemonRunning := false
        daemonErrorInfo := some (info ++ [0]) } ∧
      cstr (info ++ [0]) = info
  otherAbi : forall abi, cmd.abi ≠ some abi -> m'.status abi = m.status abi

/-- One pass takes the datagram off the queue, whatever is behind it, and
leaves the monitor in `m'`. -/
def Delivered (lp : Lp) (m : Monitor) (d : Datagram) (m' : Monitor) : Prop :=
  forall rest taken,
    handleEventBody lp ⟨d :: rest, taken, m⟩ =
      LoopStep.again ⟨rest, taken ++ [d], m'⟩

/-!
# The senders' code sends these and no others
-/

/-- Whatever an accepted connection makes the daemon send, it is one of its two
bare commands. -/
theorem acceptAction_sends (sender : Lp) (daemon : Zygiskd.Daemon)
    (action : Zygiskd.DaemonSocketAction) (rest : List Byte)
    (env : Zygiskd.RequestEnv) {d : Datagram}
    (h : (Zygiskd.acceptAction sender daemon action rest env).datagrams =
      daemon.datagrams ++ [d]) :
    exists cmd, Sent d cmd none := by
  rcases Zygiskd.acceptAction_datagrams sender daemon action rest env with
    hnone | hping | hstarted
  · simp [hnone] at h
  · rw [hping] at h
    have hd := List.append_cancel_left h
    rw [List.cons_eq_cons] at hd
    rw [← hd.left]
    exact ⟨_, Sent.injected sender⟩
  · rw [hstarted] at h
    have hd := List.append_cancel_left h
    rw [List.cons_eq_cons] at hd
    rw [← hd.left]
    exact ⟨_, Sent.systemServerStarted⟩

/-- The report of `main` is one of the two texts, for module names that make a
C string short enough to be received. -/
theorem announcement_sent (sender : Lp) (impl : Zygiskd.RootImpl)
    (names : List (List Byte))
    (hfree : (0 : Byte) ∉ rootInfo impl names ++ rootErrorInfo impl)
    (hsize : (announcement sender impl names).length < 2 ^ 31) :
    exists cmd info, Sent (announcement sender impl names) cmd (some info) := by
  rw [List.mem_append, not_or] at hfree
  rcases Zygiskd.announcement_cases sender impl names with hinfo | herror
  · rw [hinfo, Zygiskd.infoMessage_length] at hsize
    rw [hinfo]
    exact ⟨_, _, Sent.info sender hfree.left (by omega)⟩
  · rw [herror, Zygiskd.infoMessage_length] at hsize
    rw [herror]
    exact ⟨_, _, Sent.errorInfo sender hfree.right (by omega)⟩

/-!
# Heads
-/

theorem peekHead_bare {cmd : Nat} (h : cmd < 2 ^ 32) :
    peekHead (leBytes 4 cmd) = ⟨cmd, 0⟩ := by
  have htake : (leBytes 4 cmd).take sizeofMsgHead = leBytes 4 cmd :=
    List.take_of_length_le (by simp [sizeofMsgHead])
  have hvalue : leValue (leBytes 4 cmd) = cmd := leValue_leBytes_of_lt h
  rw [peekHead, htake, msgHead]
  simp [sizeofMsgHead, hvalue, leValue, int32]

theorem peekHead_infoMessage {cmd : Nat} {info : List Byte} (hcmd : cmd < 2 ^ 32)
    (hsize : info.length < 2 ^ 31 - 9) :
    peekHead (infoMessage cmd info) = ⟨cmd, info.length + 1⟩ := by
  have hcode : leValue (leBytes 4 cmd) = cmd := leValue_leBytes_of_lt hcmd
  have hlen : (info.length % 2 ^ 32 + 1) % 2 ^ 32 = info.length + 1 := by omega
  have hvalue : leValue (leBytes 4 (info.length + 1)) = info.length + 1 :=
    leValue_leBytes_of_lt (by omega)
  have htake : (infoMessage cmd info).take sizeofMsgHead =
      leBytes 4 cmd ++ leBytes 4 (info.length + 1) := by
    rw [infoMessage, hlen, List.append_assoc (leBytes 4 cmd ++ _)]
    exact List.take_left' (by simp [sizeofMsgHead])
  have hsecond : (leBytes 4 (info.length + 1)).take 4 = leBytes 4 (info.length + 1) :=
    List.take_of_length_le (by simp)
  have hint : int32 (info.length + 1) = info.length + 1 := by
    rw [int32, if_pos (by omega)]
    omega
  rw [peekHead, htake, msgHead]
  simp [sizeofMsgHead, hcode, hsecond, hvalue, hint]

theorem bytes_infoMessage (cmd : Nat) (info : List Byte) :
    (infoMessage cmd info).drop sizeofMsgHead = info ++ [0] := by
  rw [infoMessage, List.append_assoc (leBytes 4 cmd ++ _)]
  exact List.drop_left' (by simp [sizeofMsgHead])

/-!
# Delivery
-/

theorem delivered_of_act {lp : Lp} {m m' : Monitor} {d : Datagram}
    (h : Drainable lp d) (haccepted : accepted lp d = true)
    (hact : act lp m d = Except.ok m') : Delivered lp m d m' := by
  intro rest taken
  rcases handleEventBody_drainable h rest taken m with ⟨m1, hstep, hm1⟩
  rw [haccepted, if_pos rfl, hact] at hm1
  injection hm1 with hm1
  rw [hstep, ← hm1]

theorem delivered_bare {lp : Lp} {m m' : Monitor} {cmd : Nat}
    (hcmd : hasText cmd = false) (hsmall : cmd < 2 ^ 32)
    (h : handleMsg m ⟨cmd, 0⟩ [] = Except.ok m') :
    Delivered lp m (leBytes 4 cmd) m' := by
  have hhead := peekHead_bare hsmall
  have hshape : wellShaped (leBytes 4 cmd) = true := by
    simp [wellShaped, hhead, hcmd, sizeofCommand]
  have hsize : realSize lp (leBytes 4 cmd) = sizeofCommand := by
    simp [realSize, hhead, hcmd]
  apply delivered_of_act
  · refine ⟨hshape, ?_⟩
    intro htext
    rw [hhead, hcmd] at htext
    cases htext
  · simp [accepted, hshape, hsize, sizeofCommand]
  · have hdata : ((leBytes 4 cmd).take sizeofCommand).drop sizeofMsgHead = [] := by
      rw [List.drop_eq_nil_iff, List.length_take]
      exact Nat.le_trans (Nat.min_le_left _ _) (by decide)
    rw [act, hhead, hsize, hdata]
    exact h

theorem delivered_infoMessage {lp : Lp} {m m' : Monitor} {cmd : Nat}
    {info : List Byte} (hcmd : hasText cmd = true) (hsmall : cmd < 2 ^ 32)
    (hsize : info.length < 2 ^ 31 - 9)
    (h : handleMsg m ⟨cmd, info.length + 1⟩ (info ++ [0]) = Except.ok m') :
    Delivered lp m (infoMessage cmd info) m' := by
  have hhead := peekHead_infoMessage hsmall hsize
  have hmax := lp.int_le_ptrdiffMax
  have hshape : wellShaped (infoMessage cmd info) = true := by
    simp [wellShaped, hhead, hcmd, sizeofMsgHead]
  have hreal : realSize lp (infoMessage cmd info) = info.length + 9 := by
    have hsum : (sizeofMsgHead : Int) + ((info.length : Int) + 1) =
        (info.length + 9 : Nat) := by
      simp [sizeofMsgHead]
      omega
    rw [realSize, hhead, if_pos hcmd, hsum, Lp.sizeT_of_fits (by omega) (by omega)]
    rfl
  apply delivered_of_act
  · refine ⟨hshape, ?_⟩
    intro _
    rw [hhead]
    simp only [sizeofMsgHead]
    omega
  · simp [accepted, hshape, hreal]
  · have htake : (infoMessage cmd info).take (info.length + 9) =
        infoMessage cmd info :=
      List.take_of_length_le (by simp)
    rw [act, hhead, hreal, htake, bytes_infoMessage]
    exact h

theorem copyText_terminated (info : List Byte) :
    copyText (info.length + 1) (info ++ [0]) = Except.ok (info ++ [0]) := by
  have hlen : ((info.length : Int) + 1 - 1).toNat = info.length := by omega
  rw [copyText, if_neg (by omega), hlen, List.take_left]

/-!
# What a sent message does
-/

theorem CommandStep.status_otherAbi {m m' : Monitor} {cmd : Command}
    (h : CommandStep m (some cmd) m') {abi : Abi} (hne : cmd.abi ≠ some abi) :
    m'.status abi = m.status abi := by
  have hchange := h.recordChange abi
  generalize m'.status abi = s at hchange
  cases hchange with
  | kept _ => rfl
  | injected => exact absurd rfl hne
  | info block => exact absurd rfl hne
  | errorInfo block => exact absurd rfl hne

/-- A bare command without a text is delivered and performed. -/
theorem performed_bare (lp : Lp) (m : Monitor) {cmd : Command}
    (hbare : hasText cmd.code = false) :
    exists m', Delivered lp m (leBytes 4 cmd.code) m' ∧
      Performed m cmd none m' := by
  have hsmall : cmd.code < 2 ^ 32 := by
    rcases cmd with _ | _ | _ | abi | abi | abi | _ <;>
      first | decide | (cases abi <;> decide)
  have hnone : ¬ (6 ≤ cmd.code ∧ cmd.code ≤ 9) := by
    intro hrange
    have htext : hasText cmd.code = true := (hasText_iff _).mpr (by omega)
    rw [hbare] at htext
    cases htext
  rcases (handleMsg_ok_iff m ⟨cmd.code, 0⟩ []).mpr
    (fun hlow hhigh => absurd ⟨hlow, hhigh⟩ hnone) with ⟨m', hm'⟩
  have hcommand : CommandStep m (some cmd) m' := by
    have hof := (Command.ofCode_eq_some_iff cmd.code cmd).mpr rfl
    have hstep := commandStep_of_handleMsg hm'
    rw [hof] at hstep
    exact hstep
  refine ⟨m', delivered_bare hbare hsmall hm', ?_⟩
  exact {
    command := hcommand
    info := by
      intro abi info _ htext
      cases htext
    errorInfo := by
      intro abi info _ htext
      cases htext
    otherAbi := fun abi hne => hcommand.status_otherAbi hne }

theorem performed_info (lp sender : Lp) (m : Monitor) {info : List Byte}
    (hfree : (0 : Byte) ∉ info) (hsize : info.length < 2 ^ 31 - 9) :
    exists m', Delivered lp m (infoMessage (DAEMON_SET_INFO sender) info) m' ∧
      Performed m (Command.daemonSetInfo (senderAbi sender)) (some info) m' := by
  have hcode : Command.ofCode (DAEMON_SET_INFO sender) =
      some (Command.daemonSetInfo (senderAbi sender)) := by
    cases sender <;> rfl
  have hmsg : handleMsg m ⟨DAEMON_SET_INFO sender, info.length + 1⟩ (info ++ [0]) =
      Except.ok (updateStatus (m.setStatus (senderAbi sender)
        { m.status (senderAbi sender) with daemonInfo := some (info ++ [0]) })) := by
    simp only [handleMsg, hcode, copyText_terminated]
  have hcommand := commandStep_of_handleMsg hmsg
  rw [hcode] at hcommand
  refine ⟨_, delivered_infoMessage ?_ ?_ hsize hmsg, ?_⟩
  · cases sender <;> decide
  · cases sender <;> decide
  · exact {
      command := hcommand
      info := by
        intro abi text habi htext
        injection habi with habi
        injection htext with htext
        rw [← habi, ← htext, status_updateStatus, Monitor.status_setStatus]
        exact ⟨rfl, cstr_terminated hfree⟩
      errorInfo := by
        intro abi text habi _
        cases habi
      otherAbi := fun abi hne => hcommand.status_otherAbi hne }

theorem performed_errorInfo (lp sender : Lp) (m : Monitor) {info : List Byte}
    (hfree : (0 : Byte) ∉ info) (hsize : info.length < 2 ^ 31 - 9) :
    exists m',
      Delivered lp m (infoMessage (DAEMON_SET_ERROR_INFO sender) info) m' ∧
      Performed m (Command.daemonSetErrorInfo (senderAbi sender)) (some info) m' := by
  have hcode : Command.ofCode (DAEMON_SET_ERROR_INFO sender) =
      some (Command.daemonSetErrorInfo (senderAbi sender)) := by
    cases sender <;> rfl
  have hmsg : handleMsg m ⟨DAEMON_SET_ERROR_INFO sender, info.length + 1⟩
      (info ++ [0]) =
      Except.ok (updateStatus (m.setStatus (senderAbi sender)
        { m.status (senderAbi sender) with
          daemonRunning := false
          daemonErrorInfo := some (info ++ [0]) })) := by
    simp only [handleMsg, hcode, copyText_terminated]
  have hcommand := commandStep_of_handleMsg hmsg
  rw [hcode] at hcommand
  refine ⟨_, delivered_infoMessage ?_ ?_ hsize hmsg, ?_⟩
  · cases sender <;> decide
  · cases sender <;> decide
  · exact {
      command := hcommand
      info := by
        intro abi text habi _
        cases habi
      errorInfo := by
        intro abi text habi htext
        injection habi with habi
        injection htext with htext
        rw [← habi, ← htext, status_updateStatus, Monitor.status_setStatus]
        exact ⟨rfl, cstr_terminated hfree⟩
      otherAbi := fun abi hne => hcommand.status_otherAbi hne }

/-- Whatever the daemons and `ctl` send, a monitor of either width takes it off
the queue and performs its command, on the record of the sender's ABI only. -/
theorem sent_is_performed (lp : Lp) (m : Monitor) {d : Datagram} {cmd : Command}
    {text : Option (List Byte)} (h : Sent d cmd text) :
    exists m', Delivered lp m d m' ∧ Performed m cmd text m' := by
  cases h with
  | ctl hctl =>
      apply performed_bare
      unfold ctlCommand at hctl
      split at hctl
      · injection hctl with hctl
        rw [← hctl]
        rfl
      · split at hctl
        · injection hctl with hctl
          rw [← hctl]
          rfl
        · split at hctl
          · injection hctl with hctl
            rw [← hctl]
            rfl
          · cases hctl
  | injected sender =>
      have hbare : hasText (Command.zygoteInjected (senderAbi sender)).code =
          false := by
        cases sender <;> rfl
      have hcode : ZYGOTE_INJECTED sender =
          (Command.zygoteInjected (senderAbi sender)).code := by
        cases sender <;> rfl
      rw [hcode]
      exact performed_bare lp m hbare
  | systemServerStarted =>
      have hbare : hasText Command.systemServerStarted.code = false := rfl
      have hcode : SYSTEM_SERVER_STARTED = Command.systemServerStarted.code := rfl
      rw [hcode]
      exact performed_bare lp m hbare
  | info sender hfree hsize => exact performed_info lp sender m hfree hsize
  | errorInfo sender hfree hsize =>
      exact performed_errorInfo lp sender m hfree hsize

/-- A 32-bit daemon reports an error to a 64-bit monitor that holds an older
text of both daemons. -/
theorem sent_is_performed_daemon32 :
    exists m',
      Delivered Lp.lp64
        { status64 := { daemonInfo := some (bytesOf "a" ++ [0]) }
          status32 := { daemonErrorInfo := some (bytesOf "old" ++ [0]) } }
        (infoMessage 9 (bytesOf "new")) m' ∧
      Performed
        { status64 := { daemonInfo := some (bytesOf "a" ++ [0]) }
          status32 := { daemonErrorInfo := some (bytesOf "old" ++ [0]) } }
        (Command.daemonSetErrorInfo Abi.abi32) (some (bytesOf "new")) m' :=
  sent_is_performed Lp.lp64 _ (Sent.errorInfo Lp.lp32 (by decide) (by decide))

/-!
# Bounds of a received text

The four text commands share one body: allocate `length` bytes, copy
`length - 1` of them and write the terminator at `length - 1`.
-/

/-- Both checks of the sizes passed and the buffer was resized, so the pass
enters the `switch`. -/
def entersSwitch (lp : Lp) (d : Datagram) : Bool :=
  wellShaped d && decide (realSize lp d ≤ lp.ptrdiffMax) &&
    decide ((d.take (realSize lp d)).length = realSize lp d)

def ReachesText (lp : Lp) (d : Datagram) : Prop :=
  entersSwitch lp d = true ∧
    exists abi,
      Command.ofCode (peekHead d).cmd = some (Command.daemonSetInfo abi) ∨
      Command.ofCode (peekHead d).cmd = some (Command.daemonSetErrorInfo abi)

/-- The sizes that the text commands compute are those of the datagram. -/
structure TextInBounds (lp : Lp) (d : Datagram) : Prop where
  length_pos : 1 ≤ (peekHead d).length
  received : sizeofMsgHead + (peekHead d).length =
    ((d.take (realSize lp d)).length : Int)
  not_wrapped : (realSize lp d : Int) = sizeofMsgHead + (peekHead d).length
  copied : sizeofMsgHead + lp.sizeT ((peekHead d).length - 1) ≤ d.length
  terminator : lp.sizeT ((peekHead d).length - 1) < lp.sizeT (peekHead d).length

/-- One of the four commands with a length that the head alone already uses up:
zero, or negative by no more than the size of the head. -/
def ShortText (d : Datagram) : Prop :=
  sizeofMsgHead ≤ d.length ∧
    (6 ≤ (peekHead d).cmd ∧ (peekHead d).cmd ≤ 9) ∧
    -(sizeofMsgHead : Int) ≤ (peekHead d).length ∧ (peekHead d).length ≤ 0

/-- A pass that enters the `switch` does what the `switch` does. -/
theorem handleEventBody_of_entersSwitch {lp : Lp} {d : Datagram}
    (h : entersSwitch lp d = true) (rest taken : List Datagram) (m : Monitor) :
    handleEventBody lp ⟨d :: rest, taken, m⟩ =
      (act lp m d).casesOn (fun f => LoopStep.done (Except.error f))
        (fun m' => LoopStep.again ⟨rest, taken ++ [d], m'⟩) := by
  simp only [entersSwitch, Bool.and_eq_true, decide_eq_true_eq] at h
  rcases h with ⟨⟨hshape, hfits⟩, hlen⟩
  rw [handleEventBody_of_wellShaped hshape, receive, act,
    if_neg (Nat.not_lt.mpr hfits)]
  simp only [hlen, ne_eq, not_true_eq_false, if_false]
  cases handleMsg m (peekHead d) ((d.take (realSize lp d)).drop sizeofMsgHead) <;>
    rfl

/-- A pass that does not enter it leaves the monitor as it was, or kills it. -/
theorem handleEventBody_of_not_entersSwitch {lp : Lp} {d : Datagram}
    (h : entersSwitch lp d = false) (rest taken : List Datagram) (m : Monitor) :
    handleEventBody lp ⟨d :: rest, taken, m⟩ =
        LoopStep.done (Except.error Fault.lengthError) ∨
      exists queue taken', handleEventBody lp ⟨d :: rest, taken, m⟩ =
        LoopStep.again ⟨queue, taken', m⟩ := by
  cases hshape : wellShaped d with
  | false =>
      exact Or.inr ⟨_, _, handleEventBody_of_not_wellShaped hshape lp rest taken m⟩
  | true =>
      rw [handleEventBody_of_wellShaped hshape, receive]
      by_cases hfits : realSize lp d ≤ lp.ptrdiffMax
      · have hlen : (d.take (realSize lp d)).length ≠ realSize lp d := by
          simpa [entersSwitch, hshape, hfits] using h
        rw [if_neg (Nat.not_lt.mpr hfits)]
        simp only [hlen, ne_eq, not_false_eq_true, if_true]
        exact Or.inr ⟨rest, taken ++ [d], rfl⟩
      · rw [if_pos (Nat.lt_of_not_le hfits)]
        exact Or.inl rfl

theorem textCommand_iff (cmd : Nat) :
    (exists abi, Command.ofCode cmd = some (Command.daemonSetInfo abi) ∨
      Command.ofCode cmd = some (Command.daemonSetErrorInfo abi)) <->
      6 ≤ cmd ∧ cmd ≤ 9 := by
  constructor
  · intro h
    rcases h with ⟨abi, hinfo | herror⟩
    · have hcode := (Command.ofCode_eq_some_iff _ _).mp hinfo
      cases abi <;> simp [Command.code] at hcode <;> omega
    · have hcode := (Command.ofCode_eq_some_iff _ _).mp herror
      cases abi <;> simp [Command.code] at hcode <;> omega
  · intro h
    have hcases : cmd = 6 ∨ cmd = 7 ∨ cmd = 8 ∨ cmd = 9 := by omega
    rcases hcases with h6 | h7 | h8 | h9
    · exact ⟨Abi.abi64, Or.inl (by rw [h6]; rfl)⟩
    · exact ⟨Abi.abi32, Or.inl (by rw [h7]; rfl)⟩
    · exact ⟨Abi.abi64, Or.inr (by rw [h8]; rfl)⟩
    · exact ⟨Abi.abi32, Or.inr (by rw [h9]; rfl)⟩

/-- What the checks leave for a text command: a full head, and a size that is
the sum of the head and the length and no more than what was received. -/
theorem reachesText_iff (lp : Lp) (d : Datagram) :
    ReachesText lp d <->
      sizeofMsgHead ≤ d.length ∧ (6 ≤ (peekHead d).cmd ∧ (peekHead d).cmd ≤ 9) ∧
        0 ≤ sizeofMsgHead + (peekHead d).length ∧
        sizeofMsgHead + (peekHead d).length ≤ (lp.ptrdiffMax : Int) ∧
        sizeofMsgHead + (peekHead d).length ≤ (d.length : Int) := by
  unfold ReachesText
  rw [textCommand_iff]
  constructor
  · intro h
    rcases h with ⟨henters, hcmd⟩
    simp only [entersSwitch, Bool.and_eq_true, decide_eq_true_eq] at henters
    rcases henters with ⟨⟨hshape, hfits⟩, hlen⟩
    have htext : hasText (peekHead d).cmd = true := (hasText_iff _).mpr (by omega)
    have hlong : sizeofMsgHead ≤ d.length := by
      simpa [wellShaped, htext] using hshape
    rcases size_in_range htext hfits with ⟨hlow, hhigh⟩
    rw [realSize, if_pos htext, Lp.sizeT_of_fits hlow hhigh, List.length_take] at hlen
    exact ⟨hlong, hcmd, hlow, hhigh, by omega⟩
  · intro h
    rcases h with ⟨hlong, hcmd, hlow, hhigh, hle⟩
    have htext : hasText (peekHead d).cmd = true := (hasText_iff _).mpr (by omega)
    refine ⟨?_, hcmd⟩
    simp only [entersSwitch, Bool.and_eq_true, decide_eq_true_eq]
    rw [realSize, if_pos htext, Lp.sizeT_of_fits hlow hhigh]
    refine ⟨⟨?_, by omega⟩, List.length_take_of_le (by omega)⟩
    simpa [wellShaped, htext] using hlong

end InitMonitor
end ReZygisk
