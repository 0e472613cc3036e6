import ReZygisk.Foundation.Loop
import ReZygisk.Monitor.State

/-!
# The control socket

`SocketHandler::HandleEvent` drains the datagrams waiting on the monitor
socket.  Each pass peeks at the head of the first datagram, checks its shape,
and only then receives it.  The source reads the message through a reference
taken before the buffer is resized; the model takes it to denote the buffer
after the resize.
-/

namespace ReZygisk
namespace InitMonitor

open Foundation
open Kernel

abbrev Datagram := List Byte

namespace SocketHandler

def sizeofCommand : Nat := 4

def sizeofMsgHead : Nat := 8

structure MsgHead where
  cmd : Nat
  length : Int
  deriving DecidableEq, Repr

/-- The head as it lies in a zero-filled buffer after `received` came in.
`enum Command` has no negative member, so its values compare unsigned. -/
def msgHead (received : List Byte) : MsgHead :=
  let buf := received ++ List.replicate (sizeofMsgHead - received.length) 0
  { cmd := leValue (buf.take 4)
    length := int32 (leValue ((buf.drop 4).take 4)) }

def hasText (cmd : Nat) : Bool :=
  decide ((Command.daemonSetInfo Abi.abi64).code ≤ cmd) &&
    decide (cmd ≠ Command.systemServerStarted.code)

/-- The block that `malloc`, `memcpy` and the terminator build from a received
text.  A length below one makes the copied size wrap, and the copy faults. -/
def copyText (length : Int) (data : List Byte) : Except Fault (List Byte) :=
  if length < 1 then
    Except.error Fault.badCopy
  else
    Except.ok (data.take (length - 1).toNat ++ [0])

def handleMsg (m : Monitor) (head : MsgHead) (data : List Byte) :
    Except Fault Monitor :=
  match Command.ofCode head.cmd with
  | none => Except.ok m
  | some Command.start =>
      let m :=
        match m.tracingState with
        | TracingState.stopping =>
            { m with tracingState := TracingState.tracing }
        | TracingState.stopped =>
            { m.emit (Effect.seize 1) with
              tracingState := TracingState.tracing }
        | _ => m
      Except.ok (updateStatus m)
  | some Command.stop =>
      if m.tracingState = TracingState.tracing then
        let m := { m with
          tracingState := TracingState.stopping
          monitorStopReason := bytesOf "user requested" }
        Except.ok (updateStatus (m.emit (Effect.interrupt 1)))
      else
        Except.ok m
  | some Command.exit =>
      let m := { m with
        tracingState := TracingState.exiting
        monitorStopReason := bytesOf "user requested" }
      Except.ok { updateStatus m with running := false }
  | some (Command.zygoteInjected abi) =>
      Except.ok (updateStatus
        (m.setStatus abi { m.status abi with zygoteInjected := true }))
  | some (Command.daemonSetInfo abi) =>
      match copyText head.length data with
      | Except.error f => Except.error f
      | Except.ok block =>
          Except.ok (updateStatus
            (m.setStatus abi { m.status abi with daemonInfo := some block }))
  | some (Command.daemonSetErrorInfo abi) =>
      match copyText head.length data with
      | Except.error f => Except.error f
      | Except.ok block =>
          Except.ok (updateStatus
            (m.setStatus abi { m.status abi with
              daemonRunning := false
              daemonErrorInfo := some block }))
  | some Command.systemServerStarted =>
      Except.ok (m.emit Effect.mountProp)

/-!
# One call of the handler
-/

structure SocketState where
  queue : List Datagram
  taken : List Datagram
  monitor : Monitor

/-- The second half of a pass: resize the buffer to `realSize` bytes, receive,
compare the sizes and act. -/
def receive (lp : Lp) (s : SocketState) (d : Datagram) (rest : List Datagram)
    (head : MsgHead) (realSize : Nat) :
    LoopStep SocketState (Except Fault SocketState) :=
  -- `std::vector::resize` throws past its largest size, and nothing catches.
  if lp.ptrdiffMax < realSize then
    LoopStep.done (Except.error Fault.lengthError)
  else
    let received := d.take realSize
    let s := { s with queue := rest, taken := s.taken ++ [d] }
    if received.length ≠ realSize then
      LoopStep.again s
    else
      match handleMsg s.monitor head (received.drop sizeofMsgHead) with
      | Except.error f => LoopStep.done (Except.error f)
      | Except.ok m => LoopStep.again { s with monitor := m }

def handleEventBody (lp : Lp) (s : SocketState) :
    LoopStep SocketState (Except Fault SocketState) :=
  match s.queue with
  | [] => LoopStep.done (Except.ok s)
  | d :: rest =>
      let peeked := d.take sizeofMsgHead
      let head := msgHead peeked
      if peeked.length < sizeofCommand then
        LoopStep.again s
      else if hasText head.cmd then
        if peeked.length ≠ sizeofMsgHead then
          LoopStep.again s
        else
          receive lp s d rest head (lp.sizeT (sizeofMsgHead + head.length))
      else if peeked.length ≠ sizeofCommand then
        LoopStep.again s
      else
        receive lp s d rest head sizeofCommand

def SocketState.start (queue : List Datagram) (m : Monitor) : SocketState :=
  { queue := queue, taken := [], monitor := m }

def HandleEventReturns (lp : Lp) (queue : List Datagram) (m : Monitor)
    (final : SocketState) : Prop :=
  LoopReturns (handleEventBody lp) (SocketState.start queue m)
    (Except.ok final)

/-!
# Datagrams on their own

What the checks say about one datagram, without the loop around them.
-/

def peekHead (d : Datagram) : MsgHead :=
  msgHead (d.take sizeofMsgHead)

def realSize (lp : Lp) (d : Datagram) : Nat :=
  if hasText (peekHead d).cmd then
    lp.sizeT (sizeofMsgHead + (peekHead d).length)
  else
    sizeofCommand

def wellShaped (d : Datagram) : Bool :=
  if hasText (peekHead d).cmd then decide (sizeofMsgHead ≤ d.length)
  else decide (d.length = sizeofCommand)

def accepted (lp : Lp) (d : Datagram) : Bool :=
  wellShaped d && decide (realSize lp d ≤ d.length)

def act (lp : Lp) (m : Monitor) (d : Datagram) : Except Fault Monitor :=
  handleMsg m (peekHead d) ((d.take (realSize lp d)).drop sizeofMsgHead)

def actAll (lp : Lp) (m : Monitor) : List Datagram -> Except Fault Monitor
  | [] => Except.ok m
  | d :: rest =>
      match act lp m d with
      | Except.error f => Except.error f
      | Except.ok m' => actAll lp m' rest

/-- A datagram that a pass takes off the queue without killing the monitor: a
bare command of four bytes, or a full head whose length gives a size that a
buffer can have and, for the four text commands, is at least one. -/
def Drainable (lp : Lp) (d : Datagram) : Prop :=
  wellShaped d = true ∧
    (hasText (peekHead d).cmd = true ->
      -(sizeofMsgHead : Int) ≤ (peekHead d).length ∧
      sizeofMsgHead + (peekHead d).length ≤ (lp.ptrdiffMax : Int) ∧
      ((peekHead d).cmd ≤ (Command.daemonSetErrorInfo Abi.abi32).code ->
        1 ≤ (peekHead d).length))

/-!
# What one pass does
-/

theorem hasText_iff (cmd : Nat) : hasText cmd = true <-> 6 ≤ cmd ∧ cmd ≠ 10 := by
  unfold hasText
  rw [Bool.and_eq_true, decide_eq_true_eq, decide_eq_true_eq]
  rfl

/-- The switch faults exactly on a text command whose length is below one. -/
theorem handleMsg_ok_iff (m : Monitor) (head : MsgHead) (data : List Byte) :
    (exists m', handleMsg m head data = Except.ok m') <->
      (6 ≤ head.cmd -> head.cmd ≤ 9 -> 1 ≤ head.length) := by
  unfold handleMsg
  cases hcmd : Command.ofCode head.cmd with
  | none =>
      have hne : ¬ (6 ≤ head.cmd ∧ head.cmd ≤ 9) := by
        intro h
        rcases h with ⟨hlow, hhigh⟩
        have hmem : head.cmd = 6 ∨ head.cmd = 7 ∨ head.cmd = 8 ∨ head.cmd = 9 := by
          omega
        rcases hmem with h | h | h | h <;> rw [h] at hcmd <;> cases hcmd
      simp
      intro hlow hhigh
      exact absurd ⟨hlow, hhigh⟩ hne
  | some cmd =>
      have hcode := (Command.ofCode_eq_some_iff head.cmd cmd).mp hcmd
      rcases cmd with _ | _ | _ | abi | abi | abi | _
      case daemonSetInfo =>
        have hrange : 6 ≤ head.cmd ∧ head.cmd ≤ 9 := by
          cases abi <;> simp [Command.code] at hcode <;> omega
        by_cases hlen : head.length < 1 <;> simp [copyText, hlen, hrange]
        omega
      case daemonSetErrorInfo =>
        have hrange : 6 ≤ head.cmd ∧ head.cmd ≤ 9 := by
          cases abi <;> simp [Command.code] at hcode <;> omega
        by_cases hlen : head.length < 1 <;> simp [copyText, hlen, hrange]
        omega
      case stop =>
        have hout : ¬ 6 ≤ head.cmd := by
          simp [Command.code] at hcode
          omega
        by_cases htracing : m.tracingState = TracingState.tracing <;>
          simp [htracing, hout]
      case zygoteInjected =>
        have hout : ¬ 6 ≤ head.cmd := by
          cases abi <;> simp [Command.code] at hcode <;> omega
        simp [hout]
      all_goals
        simp [Command.code] at hcode
        simp [hcode]

theorem handleEventBody_of_not_wellShaped {d : Datagram}
    (h : wellShaped d = false) (lp : Lp) (rest taken : List Datagram)
    (m : Monitor) :
    handleEventBody lp ⟨d :: rest, taken, m⟩ =
      LoopStep.again ⟨d :: rest, taken, m⟩ := by
  unfold wellShaped peekHead at h
  unfold handleEventBody
  by_cases htext : hasText (msgHead (d.take sizeofMsgHead)).cmd = true
  · have hlen : ¬ (d.take sizeofMsgHead).length = sizeofMsgHead := by
      simp [htext] at h
      simp [sizeofMsgHead] at *
      omega
    simp only [htext, hlen, ne_eq, not_false_eq_true, if_true, ite_self]
  · have hlen : (d.take sizeofMsgHead).length ≠ sizeofCommand := by
      simp [htext] at h
      simp [sizeofMsgHead, sizeofCommand] at *
      omega
    simp only [htext, hlen, ne_eq, not_false_eq_true, if_true, if_false,
      Bool.false_eq_true, ite_self]

theorem handleEventBody_of_wellShaped {d : Datagram}
    (h : wellShaped d = true) (lp : Lp) (rest taken : List Datagram)
    (m : Monitor) :
    handleEventBody lp ⟨d :: rest, taken, m⟩ =
      receive lp ⟨d :: rest, taken, m⟩ d rest (peekHead d) (realSize lp d) := by
  unfold wellShaped peekHead at h
  unfold handleEventBody realSize peekHead
  by_cases htext : hasText (msgHead (d.take sizeofMsgHead)).cmd = true
  · have hlen : (d.take sizeofMsgHead).length = sizeofMsgHead := by
      simp [htext] at h
      exact List.length_take_of_le h
    have hlow : ¬ sizeofMsgHead < sizeofCommand := by decide
    simp [htext, hlen, hlow]
  · have hlen : (d.take sizeofMsgHead).length = sizeofCommand := by
      simp [htext] at h
      simp [h, sizeofMsgHead, sizeofCommand]
    simp [htext, hlen]

theorem receive_spec {lp : Lp} {d : Datagram} {head : MsgHead} {size : Nat}
    {m : Monitor} (hsize : size ≤ lp.ptrdiffMax)
    (hmsg : exists m',
      handleMsg m head ((d.take size).drop sizeofMsgHead) = Except.ok m')
    (queue rest taken : List Datagram) :
    exists m',
      receive lp ⟨queue, taken, m⟩ d rest head size =
        LoopStep.again ⟨rest, taken ++ [d], m'⟩ ∧
      (if size ≤ d.length then
        handleMsg m head ((d.take size).drop sizeofMsgHead) = Except.ok m'
      else m' = m) := by
  unfold receive
  rw [if_neg (Nat.not_lt.mpr hsize)]
  by_cases hle : size ≤ d.length
  · have hlen : (d.take size).length = size := List.length_take_of_le hle
    rcases hmsg with ⟨m', hm'⟩
    refine ⟨m', ?_, ?_⟩
    · simp [hlen, hm']
    · rw [if_pos hle]
      exact hm'
  · have hlen : (d.take size).length ≠ size := by
      simp
      omega
    refine ⟨m, ?_, ?_⟩
    · simp only [hlen, ne_eq, not_false_eq_true, if_true]
    · rw [if_neg hle]

theorem realSize_le_of_drainable {lp : Lp} {d : Datagram}
    (h : Drainable lp d) : realSize lp d ≤ lp.ptrdiffMax := by
  unfold realSize
  by_cases htext : hasText (peekHead d).cmd = true
  · rcases h.right htext with ⟨hlow, hhigh, _⟩
    rw [if_pos htext, Lp.sizeT_of_fits (by omega) hhigh]
    omega
  · rw [if_neg htext]
    cases lp <;> decide

/-- A drainable datagram leaves the queue, and only an accepted one has an
effect. -/
theorem handleEventBody_drainable {lp : Lp} {d : Datagram}
    (h : Drainable lp d) (rest taken : List Datagram) (m : Monitor) :
    exists m',
      handleEventBody lp ⟨d :: rest, taken, m⟩ =
        LoopStep.again ⟨rest, taken ++ [d], m'⟩ ∧
      (if accepted lp d then act lp m d = Except.ok m' else m' = m) := by
  have hmsg : exists m', act lp m d = Except.ok m' := by
    apply (handleMsg_ok_iff m (peekHead d) _).mpr
    intro hlow hhigh
    have htext : hasText (peekHead d).cmd = true := by
      rw [hasText_iff]
      omega
    exact (h.right htext).right.right hhigh
  rw [handleEventBody_of_wellShaped h.left]
  rcases receive_spec (realSize_le_of_drainable h) hmsg (d :: rest) rest taken with
    ⟨m', hstep, hact⟩
  refine ⟨m', hstep, ?_⟩
  simpa [accepted, h.left, act] using hact

theorem peekHead_length_bounds (d : Datagram) :
    -2 ^ 31 ≤ (peekHead d).length ∧ (peekHead d).length < 2 ^ 31 :=
  int32_bounds _

/-- A size that a buffer can have is the sum of the head and the length: nothing
was wrapped to get it. -/
theorem size_in_range {lp : Lp} {d : Datagram}
    (htext : hasText (peekHead d).cmd = true)
    (hfits : realSize lp d ≤ lp.ptrdiffMax) :
    0 ≤ sizeofMsgHead + (peekHead d).length ∧
      sizeofMsgHead + (peekHead d).length ≤ (lp.ptrdiffMax : Int) := by
  have hbounds := peekHead_length_bounds d
  rw [realSize, if_pos htext] at hfits
  by_contra hout
  have hlt : lp.ptrdiffMax < lp.sizeT (sizeofMsgHead + (peekHead d).length) :=
    Lp.ptrdiffMax_lt_sizeT (by simp [sizeofMsgHead]; omega)
      (by simp [sizeofMsgHead]; omega) (by omega)
  exact absurd hfits (Nat.not_le.mpr hlt)

theorem receive_faults {lp : Lp} {d : Datagram} (hshape : wellShaped d = true)
    (htext : hasText (peekHead d).cmd = true)
    (hfits : realSize lp d ≤ lp.ptrdiffMax) (h : ¬ Drainable lp d)
    (rest taken : List Datagram) (m : Monitor) :
    exists f, receive lp ⟨d :: rest, taken, m⟩ d rest (peekHead d)
      (realSize lp d) = LoopStep.done (Except.error f) := by
  have hrange := size_in_range htext hfits
  have hbad : (peekHead d).cmd ≤ 9 ∧ (peekHead d).length < 1 := by
    by_contra hgood
    apply h
    refine ⟨hshape, fun _ => ⟨by omega, hrange.right, ?_⟩⟩
    intro hcmd
    change (peekHead d).cmd ≤ 9 at hcmd
    omega
  have hlong : sizeofMsgHead ≤ d.length := by
    simpa [wellShaped, htext] using hshape
  have hle : realSize lp d ≤ d.length := by
    rw [realSize, if_pos htext, Lp.sizeT_of_fits hrange.left hrange.right]
    omega
  have hlen : (d.take (realSize lp d)).length = realSize lp d :=
    List.length_take_of_le hle
  have hcmd : 6 ≤ (peekHead d).cmd := ((hasText_iff _).mp htext).left
  cases hmsg : handleMsg m (peekHead d)
      ((d.take (realSize lp d)).drop sizeofMsgHead) with
  | ok m' =>
      have hpos := (handleMsg_ok_iff m (peekHead d) _).mp ⟨m', hmsg⟩ hcmd
        hbad.left
      omega
  | error f =>
      refine ⟨f, ?_⟩
      unfold receive
      rw [if_neg (Nat.not_lt.mpr hfits)]
      simp [hlen, hmsg]

/-- Any other datagram is peeked at for ever or kills the monitor. -/
theorem handleEventBody_not_drainable {lp : Lp} {d : Datagram}
    (h : ¬ Drainable lp d) (rest taken : List Datagram) (m : Monitor) :
    handleEventBody lp ⟨d :: rest, taken, m⟩ =
        LoopStep.again ⟨d :: rest, taken, m⟩ ∨
      exists f, handleEventBody lp ⟨d :: rest, taken, m⟩ =
        LoopStep.done (Except.error f) := by
  cases hshape : wellShaped d with
  | false =>
      exact Or.inl (handleEventBody_of_not_wellShaped hshape lp rest taken m)
  | true =>
      apply Or.inr
      rw [handleEventBody_of_wellShaped hshape]
      have htext : hasText (peekHead d).cmd = true := by
        by_contra hno
        exact h ⟨hshape, fun hyes => absurd hyes hno⟩
      by_cases hfits : realSize lp d ≤ lp.ptrdiffMax
      · exact receive_faults hshape htext hfits h rest taken m
      · refine ⟨Fault.lengthError, ?_⟩
        unfold receive
        rw [if_pos (Nat.lt_of_not_le hfits)]

/-!
# Draining the queue
-/

/-- One call takes every datagram off the queue exactly once and in order, and
leaves the monitor where acting on the accepted ones alone leads, as if the
rejected ones had not been sent. -/
def Drains (lp : Lp) (queue : List Datagram) (m : Monitor) : Prop :=
  exists final, HandleEventReturns lp queue m final ∧
    final.queue = [] ∧ final.taken = queue ∧
    actAll lp m (queue.filter (accepted lp)) = Except.ok final.monitor

theorem loopReturns_of_drainable {lp : Lp} (queue : List Datagram)
    (h : forall d, d ∈ queue -> Drainable lp d) (taken : List Datagram)
    (m : Monitor) :
    exists m',
      LoopReturns (handleEventBody lp) ⟨queue, taken, m⟩
        (Except.ok ⟨[], taken ++ queue, m'⟩) ∧
      actAll lp m (queue.filter (accepted lp)) = Except.ok m' := by
  induction queue generalizing taken m with
  | nil =>
      refine ⟨m, ?_, rfl⟩
      rw [List.append_nil]
      exact loopReturns_of_done rfl
  | cons d rest ih =>
      rcases handleEventBody_drainable (h d List.mem_cons_self) rest taken m with
        ⟨m1, hstep, hact⟩
      rcases ih (fun d' hd' => h d' (List.mem_cons_of_mem d hd'))
        (taken ++ [d]) m1 with ⟨m2, hreturns, hall⟩
      refine ⟨m2, ?_, ?_⟩
      · rw [loopReturns_again_iff hstep]
        simpa [List.append_assoc] using hreturns
      · cases haccepted : accepted lp d with
        | true =>
            rw [haccepted, if_pos rfl] at hact
            rw [List.filter_cons_of_pos haccepted]
            unfold actAll
            rw [hact]
            exact hall
        | false =>
            rw [haccepted, if_neg (by decide)] at hact
            rw [List.filter_cons_of_neg (by simp [haccepted]), ← hact]
            exact hall

theorem drainable_of_loopReturns {lp : Lp} (queue taken : List Datagram)
    (m : Monitor) {final : SocketState}
    (h : LoopReturns (handleEventBody lp) ⟨queue, taken, m⟩
      (Except.ok final)) :
    forall d, d ∈ queue -> Drainable lp d := by
  induction queue generalizing taken m with
  | nil =>
      intro d hd
      cases hd
  | cons d rest ih =>
      have hd : Drainable lp d := by
        by_contra hnot
        rcases handleEventBody_not_drainable hnot rest taken m with
          hspin | ⟨f, hdead⟩
        · exact not_loopReturns_of_again_self hspin h
        · cases (loopReturns_done_iff hdead).mp h
      rcases handleEventBody_drainable hd rest taken m with ⟨m1, hstep, _⟩
      have hrest := ih (taken ++ [d]) m1 ((loopReturns_again_iff hstep).mp h)
      intro d' hd'
      cases hd' with
      | head => exact hd
      | tail _ htail => exact hrest d' htail

end SocketHandler
end InitMonitor
end ReZygisk
