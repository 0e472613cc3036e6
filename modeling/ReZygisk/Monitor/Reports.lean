import ReZygisk.Foundation.Text
import ReZygisk.Monitor.InjectedReport
import ReZygisk.Monitor.Messages
import ReZygisk.Monitor.PropMounts

/-!
# Reports from the zygotes

A zygote reports to the daemon of its word size, the daemon passes the report on to
the control socket, and the monitor takes it from there some time later.  In between,
the other daemon, `ctl` and init do what they like.  This module puts the three
programs together and follows the reports through every interleaving.
-/

namespace ReZygisk
namespace InitMonitor

open Foundation
open Kernel
open SigChldHandler
open Zygiskd (announcement rootInfo rootErrorInfo ZYGOTE_INJECTED SYSTEM_SERVER_STARTED)

namespace Reports

/-- The settings that a daemon starts with: the names of its modules are those of
directories, and the announcement fits an `int`. -/
structure Boot where
  root : Zygiskd.Root
  modules : List Zygiskd.Module
  name_nulFree : forall m, m ∈ modules -> (0 : Byte) ∉ m.name
  short : forall sender,
    (announcement sender root.impl (modules.map Zygiskd.Module.name)).length < 2 ^ 31

def Boot.names (boot : Boot) : List (List Byte) :=
  boot.modules.map Zygiskd.Module.name

structure DaemonProcess where
  boot : Boot
  daemon : Zygiskd.Daemon

/-- The daemons by word size, the control socket, and what the monitor has taken
from it. -/
structure Network where
  daemons : Lp -> Option DaemonProcess
  queue : List Datagram
  taken : List Datagram
  monitor : Monitor

inductive NetEvent where
  | boot (sender : Lp) (boot : Boot)
  | daemon (sender : Lp) (event : Zygiskd.Event)
  | ctl (arg : List Byte)
  | deliver
  | wait (e : WaitEvent)

section Step

variable (lp : Lp) (sysSigname : Nat -> List Byte)

/-- A daemon announces itself before it accepts anyone. -/
def netStep (net : Network) : NetEvent -> Option Network
  | NetEvent.boot sender boot =>
      match net.daemons sender with
      | some _ => none
      | none => some
          { net with
            daemons := Function.update net.daemons sender
              (some ⟨boot, Zygiskd.Daemon.start⟩)
            queue := net.queue ++ [announcement sender boot.root.impl boot.names] }
  | NetEvent.daemon sender event =>
      match net.daemons sender with
      | none => none
      | some p =>
          let daemon := Zygiskd.step sender p.boot.root p.boot.modules p.daemon event
          some
            { net with
              daemons := Function.update net.daemons sender (some { p with daemon := daemon })
              queue := net.queue ++ daemon.datagrams.drop p.daemon.datagrams.length }
  | NetEvent.ctl arg =>
      match ctlCommand arg with
      | none => none
      | some cmd => some { net with queue := net.queue ++ [sendControlCommand cmd] }
  | NetEvent.deliver =>
      match net.queue with
      | [] => none
      | d :: rest => (step lp sysSigname net.monitor (Event.datagram d)).map (fun monitor =>
          { net with queue := rest, taken := net.taken ++ [d], monitor := monitor })
  | NetEvent.wait e =>
      (step lp sysSigname net.monitor (Event.wait e)).map (fun monitor =>
        { net with monitor := monitor })

def start (preSection postSection : List Byte) : Network :=
  { daemons := fun _ => none, queue := [], taken := [],
    monitor := initial preSection postSection }

def network : TransitionSystem Network NetEvent where
  init net := exists preSection postSection, net = start preSection postSection
  step := netStep lp sysSigname

end Step

def injectedReport (sender : Lp) : Datagram :=
  leBytes 4 (ZYGOTE_INJECTED sender)

def startedReport : Datagram :=
  leBytes 4 SYSTEM_SERVER_STARTED

/-- Which daemon accepts a connection, and what it is asked for. -/
def heard (net : Network) : NetEvent -> Option (Lp × Zygiskd.DaemonSocketAction)
  | NetEvent.daemon sender (Zygiskd.Event.accept c) =>
      if (net.daemons sender).any (fun p => decide (p.daemon.phase = Zygiskd.Phase.running)) then
        (Zygiskd.readAction c.input).map (fun request => (sender, request.1))
      else none
  | _ => none

/-- How often the daemons have been asked for such a thing. -/
def heardCount (lp : Lp) (sysSigname : Nat -> List Byte)
    (p : Lp × Zygiskd.DaemonSocketAction -> Bool) : Network -> List NetEvent -> Nat :=
  (network lp sysSigname).history
    (fun n net event => n + ((heard net event).filter p).toList.length) 0

def pings (lp : Lp) (sysSigname : Nat -> List Byte) (sender : Lp) :
    Network -> List NetEvent -> Nat :=
  heardCount lp sysSigname
    (fun request => request == (sender, Zygiskd.DaemonSocketAction.pingHeartbeat))

def serverStarts (lp : Lp) (sysSigname : Nat -> List Byte) :
    Network -> List NetEvent -> Nat :=
  heardCount lp sysSigname
    (fun request => request.2 == Zygiskd.DaemonSocketAction.systemServerStarted)

/-!
# The texts have no NUL
-/

section Texts

theorem not_mem_intersperse {sep : List Byte} {b : Byte} {texts : List (List Byte)}
    (hsep : b ∉ sep) (htexts : forall text, text ∈ texts -> b ∉ text) :
    b ∉ (texts.intersperse sep).flatten := by
  induction texts with
  | nil => exact List.not_mem_nil
  | cons first rest ih =>
      have hfirst := htexts first List.mem_cons_self
      have hrest := ih (fun text htext => htexts text (List.mem_cons_of_mem first htext))
      cases rest with
      | nil =>
          show b ∉ first ++ []
          rw [List.append_nil]
          exact hfirst
      | cons second rest =>
          show b ∉ first ++ (sep ++ ((second :: rest).intersperse sep).flatten)
          rw [List.mem_append, List.mem_append, not_or, not_or]
          exact ⟨hfirst, hsep, hrest⟩

variable (boot : Boot)

theorem rootInfo_nulFree : (0 : Byte) ∉ rootInfo boot.root.impl boot.names := by
  have hdigit : forall d, d < 10 -> digitByte d ≠ 0 := by decide
  have hcount : (0 : Byte) ∉ bytesOf (toString boot.names.length) := by
    rcases decText_digits boot.names.length with ⟨ds, htext, _, hds, _⟩
    change (0 : Byte) ∉ decText boot.names.length
    rw [htext]
    intro hno
    rcases List.mem_map.mp hno with ⟨d, hd, hzero⟩
    exact hdigit d (hds d hd) hzero
  have hnames : (0 : Byte) ∉ (boot.names.intersperse (bytesOf ",")).flatten := by
    apply not_mem_intersperse (by decide)
    intro name hname hzero
    rcases List.mem_map.mp hname with ⟨m, hm, heq⟩
    rw [← heq] at hzero
    exact boot.name_nulFree m hm hzero
  have himpl : (0 : Byte) ∉ bytesOf boot.root.impl.debug := by
    cases boot.root.impl <;> decide
  unfold rootInfo
  simp only [List.mem_append, not_or]
  exact ⟨⟨⟨⟨⟨by decide, himpl⟩, by decide⟩, hcount⟩, by decide⟩, hnames⟩

theorem rootErrorInfo_nulFree : (0 : Byte) ∉ rootErrorInfo boot.root.impl := by
  cases boot.root.impl <;> decide

/-- What a daemon announces is one of the messages that the monitor knows. -/
theorem sent_announcement (sender : Lp) :
    exists cmd info, Sent (announcement sender boot.root.impl boot.names) cmd (some info) := by
  apply announcement_sent sender boot.root.impl boot.names _ (boot.short sender)
  rw [List.mem_append, not_or]
  exact ⟨rootInfo_nulFree boot, rootErrorInfo_nulFree boot⟩

end Texts

/-!
# Every message is taken
-/

section Delivery

variable {lp : Lp} {sysSigname : Nat -> List Byte} {m m' : Monitor} {d : Datagram} {cmd : Command}

theorem sent_bare (h : Sent d cmd none) :
    SocketHandler.hasText cmd.code = false ∧ d = leBytes 4 cmd.code := by
  cases h with
  | ctl hctl =>
      unfold ctlCommand at hctl
      split_ifs at hctl <;> cases hctl <;> exact ⟨rfl, rfl⟩
  | injected sender => cases sender <;> exact ⟨rfl, rfl⟩
  | systemServerStarted => exact ⟨rfl, rfl⟩

theorem sent_text {info : List Byte} (h : Sent d cmd (some info)) :
    SocketHandler.hasText cmd.code = true := by
  cases h with
  | info sender _ _ => cases sender <;> rfl
  | errorInfo sender _ _ => cases sender <;> rfl

theorem datagramStep_of_delivered (h : Delivered lp m d m') : datagramStep lp m d = some m' := by
  unfold datagramStep SocketHandler.SocketState.start
  rw [h [] []]
  rfl

theorem sent_delivered (lp : Lp) (m : Monitor) {text : Option (List Byte)} (h : Sent d cmd text) :
    exists m', datagramStep lp m d = some m' ∧ Performed m cmd text m' := by
  cases text with
  | none =>
      rcases sent_bare h with ⟨hbare, hd⟩
      rcases performed_bare lp m hbare with ⟨m', hdelivered, hperformed⟩
      rw [hd]
      exact ⟨m', datagramStep_of_delivered hdelivered, hperformed⟩
  | some info =>
      cases h with
      | info sender hfree hsize =>
          rcases performed_info lp sender m hfree hsize with ⟨m', hdelivered, hperformed⟩
          exact ⟨m', datagramStep_of_delivered hdelivered, hperformed⟩
      | errorInfo sender hfree hsize =>
          rcases performed_errorInfo lp sender m hfree hsize with ⟨m', hdelivered, hperformed⟩
          exact ⟨m', datagramStep_of_delivered hdelivered, hperformed⟩

theorem code_lt (cmd : Command) : cmd.code < 256 ^ 4 := by
  rcases cmd with _ | _ | _ | abi | abi | abi | _ <;> first | decide | (cases abi <;> decide)

theorem code_injective {cmd cmd' : Command} (h : cmd.code = cmd'.code) : cmd = cmd' := by
  have hof := (Command.ofCode_eq_some_iff cmd.code cmd).mpr rfl
  rw [h, (Command.ofCode_eq_some_iff cmd'.code cmd').mpr rfl] at hof
  injection hof with hof
  exact hof.symm

/-- A report is told from the other messages by its bytes. -/
theorem sent_eq_bare_iff {text : Option (List Byte)} (h : Sent d cmd text) {cmd' : Command}
    (hbare : SocketHandler.hasText cmd'.code = false) :
    d = leBytes 4 cmd'.code <-> cmd = cmd' := by
  cases text with
  | none =>
      rw [(sent_bare h).right]
      constructor
      · intro heq
        have hvalue := congrArg leValue heq
        rw [leValue_leBytes_of_lt (code_lt cmd), leValue_leBytes_of_lt (code_lt cmd')] at hvalue
        exact code_injective hvalue
      · intro heq
        rw [heq]
  | some info =>
      have hlong : 9 ≤ d.length := by
        cases h with
        | info sender _ _ =>
            rw [Zygiskd.infoMessage_length]
            exact Nat.le_add_left 9 _
        | errorInfo sender _ _ =>
            rw [Zygiskd.infoMessage_length]
            exact Nat.le_add_left 9 _
      constructor
      · intro heq
        rw [heq, leBytes_length] at hlong
        exact absurd hlong (by decide)
      · intro heq
        have htext := sent_text h
        rw [heq, hbare] at htext
        cases htext

end Delivery

/-!
# What a step sends
-/

/-- The report that follows from what a daemon is asked for. -/
def reportOf : Lp × Zygiskd.DaemonSocketAction -> List Datagram
  | (sender, Zygiskd.DaemonSocketAction.pingHeartbeat) => [injectedReport sender]
  | (_, Zygiskd.DaemonSocketAction.systemServerStarted) => [startedReport]
  | _ => []

/-- Messages that are no reports. -/
def Unrelated (d : Datagram) : Prop :=
  exists cmd text, Sent d cmd text ∧ cmd ≠ Command.systemServerStarted ∧
    forall abi, cmd ≠ Command.zygoteInjected abi

section Sends

variable {lp : Lp} {sysSigname : Nat -> List Byte} {net net' : Network} {event : NetEvent}

theorem heard_accept {sender : Lp} {p : DaemonProcess} (hp : net.daemons sender = some p)
    (c : Zygiskd.Connection) :
    heard net (NetEvent.daemon sender (Zygiskd.Event.accept c)) =
      if p.daemon.phase = Zygiskd.Phase.running then
        (Zygiskd.readAction c.input).map (fun request => (sender, request.1))
      else none := by
  show (if (net.daemons sender).any _ = true then _ else _) = _
  simp only [hp, Option.any_some, decide_eq_true_eq]

theorem datagrams_serve (root : Zygiskd.Root) (modules : List Zygiskd.Module) (d : Zygiskd.Daemon)
    (i : Nat) (r : Zygiskd.Request) :
    (Zygiskd.runRequest root modules d i r).datagrams = d.datagrams := by
  unfold Zygiskd.runRequest
  split <;> rfl

theorem datagrams_daemon {sender : Lp} {p : DaemonProcess} (hp : net.daemons sender = some p)
    (e : Zygiskd.Event) :
    (Zygiskd.step sender p.boot.root p.boot.modules p.daemon e).datagrams =
      p.daemon.datagrams ++ ((heard net (NetEvent.daemon sender e)).map reportOf).getD [] := by
  unfold Zygiskd.step
  cases e with
  | serve i =>
      show _ = p.daemon.datagrams ++ []
      rw [List.append_nil]
      split
      · simp only [Zygiskd.handleEvent]
        split
        · exact datagrams_serve _ _ _ _ _
        · rfl
      · rfl
  | accept c =>
      rw [heard_accept hp]
      by_cases hrunning : p.daemon.phase = Zygiskd.Phase.running
      · rw [if_pos hrunning, if_pos hrunning, Option.map_map]
        show (Zygiskd.acceptConnection sender p.daemon c).datagrams = _
        unfold Zygiskd.acceptConnection
        cases Zygiskd.readAction c.input with
        | none => exact (List.append_nil _).symm
        | some request =>
            rcases request with ⟨action, rest⟩
            cases action with
            | pingHeartbeat => rfl
            | systemServerStarted => rfl
            | _ => exact (List.append_nil _).symm
      · rw [if_neg hrunning, if_neg hrunning]
        exact (List.append_nil _).symm

theorem unrelated_announcement (boot : Boot) (sender : Lp) :
    Unrelated (announcement sender boot.root.impl boot.names) := by
  rcases sent_announcement boot sender with ⟨cmd, info, hsent⟩
  have htext := sent_text hsent
  refine ⟨cmd, some info, hsent, ?_, ?_⟩
  · intro hno
    rw [hno] at htext
    cases htext
  · intro abi hno
    rw [hno] at htext
    cases abi <;> cases htext

theorem unrelated_ctl {arg : List Byte} {cmd : Command} (h : ctlCommand arg = some cmd) :
    Unrelated (sendControlCommand cmd) := by
  have hcmd : cmd = Command.start ∨ cmd = Command.stop ∨ cmd = Command.exit := by
    unfold ctlCommand at h
    split_ifs at h <;> cases h
    · exact Or.inl rfl
    · exact Or.inr (Or.inl rfl)
    · exact Or.inr (Or.inr rfl)
  refine ⟨cmd, none, Sent.ctl h, ?_, ?_⟩
  · intro hno
    rw [hno] at hcmd
    exact absurd hcmd (by decide)
  · intro abi hno
    rw [hno] at hcmd
    cases abi <;> exact absurd hcmd (by decide)

/-- A step takes nothing back, and puts on the socket the report that it causes and
perhaps one other message. -/
theorem netStep_sends (h : netStep lp sysSigname net event = some net') :
    exists other, net'.taken ++ net'.queue =
        net.taken ++ net.queue ++ (((heard net event).map reportOf).getD [] ++ other) ∧
      forall d, d ∈ other -> Unrelated d := by
  have hnone : forall d : Datagram, d ∈ [] -> Unrelated d := by
    intro d hd
    cases hd
  cases event with
  | boot sender boot =>
      simp only [netStep] at h
      split at h
      · cases h
      · cases h
        refine ⟨[announcement sender boot.root.impl boot.names], ?_, ?_⟩
        · exact (List.append_assoc _ _ _).symm
        · intro d hd
          rw [List.mem_singleton.mp hd]
          exact unrelated_announcement boot sender
  | daemon sender e =>
      simp only [netStep] at h
      split at h
      · cases h
      · rename_i p hp
        cases h
        refine ⟨[], ?_, hnone⟩
        show net.taken ++ (net.queue ++ List.drop _ _) = _
        rw [datagrams_daemon hp, List.drop_left, List.append_nil, List.append_assoc]
  | ctl arg =>
      simp only [netStep] at h
      split at h
      · cases h
      · rename_i cmd hcmd
        cases h
        refine ⟨[sendControlCommand cmd], ?_, ?_⟩
        · exact (List.append_assoc _ _ _).symm
        · intro d hd
          rw [List.mem_singleton.mp hd]
          exact unrelated_ctl hcmd
  | deliver =>
      simp only [netStep] at h
      split at h
      · cases h
      · rename_i d rest hqueue
        rcases Option.map_eq_some_iff.mp h with ⟨monitor, _, heq⟩
        rw [← heq, hqueue]
        refine ⟨[], ?_, hnone⟩
        show net.taken ++ [d] ++ rest = net.taken ++ d :: rest ++ ([] ++ [])
        simp
  | wait e =>
      rcases Option.map_eq_some_iff.mp h with ⟨monitor, _, heq⟩
      rw [← heq]
      exact ⟨[], (List.append_nil _).symm, hnone⟩

/-- A report is on the socket as often as a daemon has been asked to send it. -/
theorem count_of_run {x : Datagram} {p : Lp × Zygiskd.DaemonSocketAction -> Bool}
    (hreport : forall request, (reportOf request).count x = ([request].filter p).length)
    (hother : forall d, Unrelated d -> d ≠ x) {preSection postSection : List Byte}
    {events : List NetEvent}
    (hrun : (network lp sysSigname).run (start preSection postSection) events = some net) :
    (net.taken ++ net.queue).count x =
      heardCount lp sysSigname p (start preSection postSection) events := by
  refine TransitionSystem.history_invariant
    (I := fun n (net : Network) => (net.taken ++ net.queue).count x = n) ?_ rfl
    (TransitionSystem.alongRun_true _ _) hrun
  intro n net event net' hn _ hstep
  rcases netStep_sends hstep with ⟨other, hsent, hunrelated⟩
  have hzero : other.count x = 0 :=
    List.count_eq_zero.mpr (fun hx => hother x (hunrelated x hx) rfl)
  rw [hsent, List.count_append, hn, List.count_append, hzero, Nat.add_zero]
  cases heard net event with
  | none => rfl
  | some request =>
      show n + (reportOf request).count x = n + ((some request).filter p).toList.length
      rw [hreport, Option.toList_filter]
      rfl

end Sends

/-!
# What the monitor makes of them
-/

section Monitor

variable {lp : Lp} {sysSigname : Nat -> List Byte} {m m' : Monitor} {abi : Abi}

theorem daemonInfo_setStatus_same (abi abi' : Abi) {s : Status}
    (h : s.daemonInfo = (m.status abi').daemonInfo) :
    ((m.setStatus abi' s).status abi).daemonInfo = (m.status abi).daemonInfo := by
  rcases Decidable.em (abi = abi') with heq | hne
  · rw [heq, Monitor.status_setStatus]
    exact h
  · rw [Monitor.status_setStatus_of_ne _ _ hne]

theorem daemonInfo_daemonStep {abi' : Abi} {fork : Option ChildPid} {created : Bool}
    (h : DaemonStep m abi' fork created m') :
    (m'.status abi).daemonInfo = (m.status abi).daemonInfo := by
  cases h with
  | forkFailed _ _ => exact daemonInfo_setStatus_same abi abi' rfl
  | forked _ pid _ =>
      rw [Monitor.status_emit]
      exact daemonInfo_setStatus_same abi abi' rfl
  | known _ => exact daemonInfo_setStatus_same abi abi' rfl

theorem daemonInfo_execStep {e : WaitEvent} {program : List Byte} (h : ExecStep m e program m') :
    (m'.status abi).daemonInfo = (m.status abi).daemonInfo := by
  have hcounted : forall abi', (countedStart m abi' e.now).status abi = m.status abi :=
    fun abi' => Monitor.status_setCounter m abi' _ abi
  have hstopped : forall (m1 : Monitor) reason,
      ((stopInjecting m1 reason).status abi).daemonInfo = (m1.status abi).daemonInfo := by
    intro m1 reason
    cases abi <;> rfl
  cases h with
  | notTracing _ => rfl
  | otherProgram _ => rfl
  | crashed abi' _ _ _ => rw [hstopped, hcounted]
  | daemonDown abi' m1 m2 _ _ _ hkeep hdaemon =>
      rw [hstopped, daemonInfo_daemonStep hdaemon, hkeep.status, hcounted]
  | injecting abi' m1 m2 _ _ _ _ hkeep hdaemon hstop =>
      rw [hstop.status, daemonInfo_daemonStep hdaemon, hkeep.status, hcounted]
  | launched abi' m1 m2 m3 _ _ _ hkeep hdaemon hstop =>
      rw [Monitor.status_emit, hstop.status, daemonInfo_daemonStep hdaemon, hkeep.status, hcounted]

theorem daemonInfo_result {e : WaitEvent} (h : ResultStep m e m') :
    (m'.status abi).daemonInfo = (m.status abi).daemonInfo := by
  cases h with
  | housekeeping _ hkeep _ => rw [hkeep.status]
  | detachInit m1 hkeep _ _ =>
      rw [← hkeep.status abi]
      cases abi <;> rfl
  | daemonExit abi' block m1 hkeep _ =>
      rw [status_updateStatus, ← hkeep.status abi]
      exact daemonInfo_setStatus_same abi abi' rfl
  | exec program m1 m2 _ _ hkeep hexec hreleased =>
      rw [hreleased.status, status_updateStatus, daemonInfo_execStep hexec, hkeep.status]

def mounts (m : Monitor) : Nat :=
  m.effects.count Effect.mountProp

theorem mounts_eq (m : Monitor) : mounts m = (propCalls m).count Effect.mountProp :=
  (List.count_filter rfl).symm

theorem call_zygoteStart (abi : Abi) (passes : Bool) :
    (PropMark.zygoteStart abi passes).call ≠ some Effect.mountProp := by
  cases abi <;> cases passes <;> decide

/-- What init and the zygotes do themselves reports nothing. -/
structure Quiet (m m' : Monitor) : Prop where
  injected : forall abi, (m'.status abi).zygoteInjected = true ->
    (m.status abi).zygoteInjected = true
  info : forall abi, (m'.status abi).daemonInfo = (m.status abi).daemonInfo
  mounted : mounts m' = mounts m

theorem quiet_wait {e : WaitEvent} (h : step lp sysSigname m (Event.wait e) = some m') :
    Quiet m m' := by
  constructor
  · intro abi hset
    by_cases hskips : SkipsClearing abi m (Event.wait e)
    · rcases hskips with ⟨_, _, _, hbefore, _⟩
      exact hbefore
    · rcases injected_step lp sysSigname abi h hset hskips with hno | ⟨hbefore, _⟩
      · cases hno
      · exact hbefore
  · intro abi
    cases step_cases h with
    | result _ _ _ hresult => exact daemonInfo_result hresult
  · rw [mounts_eq, mounts_eq, propCalls_step h, List.count_append]
    have hnone : Effect.mountProp ∉ (propMark lp m (Event.wait e)).filterMap PropMark.call := by
      intro hno
      rcases List.mem_filterMap.mp hno with ⟨mark, hmark, hcall⟩
      simp only [propMark] at hmark
      split_ifs at hmark
      · rw [List.mem_singleton.mp hmark] at hcall
        exact call_zygoteStart _ _ hcall
      · rw [List.mem_singleton.mp hmark] at hcall
        exact call_zygoteStart _ _ hcall
      · cases hmark
    rw [List.count_eq_zero.mpr hnone, Nat.add_zero]

theorem mounts_performed {cmd : Command} {text : Option (List Byte)}
    (h : Performed m cmd text m') :
    mounts m' = mounts m + if cmd = Command.systemServerStarted then 1 else 0 := by
  rw [mounts_eq, mounts_eq, propCalls_command h.command, List.count_append]
  by_cases hcmd : cmd = Command.systemServerStarted
  · rw [if_pos hcmd, if_pos (congrArg some hcmd)]
    rfl
  · rw [if_neg hcmd, if_neg (fun hno => hcmd (Option.some.inj hno))]
    rfl

end Monitor

/-!
# Every run
-/

def bootOf (net : Network) (sender : Lp) : Option Boot :=
  (net.daemons sender).map DaemonProcess.boot

/-- A message that the monitor has not taken yet. -/
def Queued (net : Network) (d : Datagram) : Prop :=
  (exists cmd, Sent d cmd none) ∨ exists sender boot, bootOf net sender = some boot ∧
    d = announcement sender boot.root.impl boot.names

/-- The text that is shown of a daemon is what this daemon has announced. -/
def InfoGenuine (net : Network) (m : Monitor) : Prop :=
  forall sender block, (m.status (senderAbi sender)).daemonInfo = some block ->
    exists boot, bootOf net sender = some boot ∧
      block = rootInfo boot.root.impl boot.names ++ [0]

structure Faithful (net : Network) : Prop where
  queued : forall d, d ∈ net.queue -> Queued net d
  injected : forall sender, (net.monitor.status (senderAbi sender)).zygoteInjected = true ->
    injectedReport sender ∈ net.taken
  mounted : mounts net.monitor = net.taken.count startedReport
  info : InfoGenuine net net.monitor

section Run

variable {lp : Lp} {sysSigname : Nat -> List Byte} {net net' : Network}

theorem senderAbi_injective {sender sender' : Lp} (h : senderAbi sender = senderAbi sender') :
    sender = sender' := by
  cases sender <;> cases sender' <;> first | rfl | cases h

theorem faithful_start (preSection postSection : List Byte) :
    Faithful (start preSection postSection) where
  queued d hd := by cases hd
  injected sender hset := by cases sender <;> cases hset
  mounted := rfl
  info sender block hblock := by cases sender <;> cases hblock

theorem queued_of_boots (hboots : forall sender boot, bootOf net sender = some boot ->
      bootOf net' sender = some boot) {d : Datagram} (h : Queued net d) : Queued net' d := by
  rcases h with hbare | ⟨sender, boot, hboot, hd⟩
  · exact Or.inl hbare
  · exact Or.inr ⟨sender, boot, hboots sender boot hboot, hd⟩

theorem infoGenuine_of_boots (hboots : forall sender boot, bootOf net sender = some boot ->
      bootOf net' sender = some boot) {m : Monitor} (h : InfoGenuine net m) :
    InfoGenuine net' m := by
  intro sender block hblock
  rcases h sender block hblock with ⟨boot, hboot, heq⟩
  exact ⟨boot, hboots sender boot hboot, heq⟩

/-- Messages that are put on the socket do not reach the monitor yet. -/
theorem faithful_sends (h : Faithful net) {daemons : Lp -> Option DaemonProcess}
    (hboots : forall sender boot, bootOf net sender = some boot ->
      (daemons sender).map DaemonProcess.boot = some boot)
    {new : List Datagram}
    (hnew : forall d, d ∈ new -> Queued { net with daemons := daemons } d) :
    Faithful { net with daemons := daemons, queue := net.queue ++ new } where
  queued d hd := by
    rcases List.mem_append.mp hd with hd | hd
    · exact queued_of_boots hboots (h.queued d hd)
    · exact hnew d hd
  injected := h.injected
  mounted := h.mounted
  info := infoGenuine_of_boots hboots h.info

/-- The monitor takes the next message, whatever its own state is. -/
theorem monitor_takes (h : Faithful net) {d : Datagram} (hd : Queued net d) :
    exists m' cmd text, datagramStep lp net.monitor d = some m' ∧ Sent d cmd text ∧
      Performed net.monitor cmd text m' ∧ InfoGenuine net m' := by
  rcases hd with ⟨cmd, hsent⟩ | ⟨sender, boot, hboot, heq⟩
  · rcases sent_delivered lp net.monitor hsent with ⟨m', hstep, hperformed⟩
    refine ⟨m', cmd, none, hstep, hsent, hperformed, ?_⟩
    have hbare := (sent_bare hsent).left
    intro sender block hblock
    apply h.info sender block
    rw [← hblock]
    have hchange := hperformed.command.recordChange (senderAbi sender)
    generalize (m'.status (senderAbi sender)) = s at hchange
    cases hchange with
    | kept _ => rfl
    | injected => rfl
    | info block => cases sender <;> cases hbare
    | errorInfo block => rfl
  · rw [heq]
    have hshort := boot.short sender
    rcases Zygiskd.announcement_cases sender boot.root.impl boot.names with hinfo | herror
    · change (announcement sender boot.root.impl boot.names).length < 2 ^ 31 at hshort
      rw [hinfo, Zygiskd.infoMessage_length] at hshort
      have hsize : (rootInfo boot.root.impl boot.names).length < 2 ^ 31 - 9 := by
        omega
      have hsent := Sent.info sender (rootInfo_nulFree boot) hsize
      rcases sent_delivered lp net.monitor hsent with ⟨m', hstep, hperformed⟩
      rw [hinfo]
      refine ⟨m', _, _, hstep, hsent, hperformed, ?_⟩
      intro sender' block hblock
      by_cases hsender : sender' = sender
      · rw [hsender] at hblock ⊢
        rw [(hperformed.info _ _ rfl rfl).left] at hblock
        cases hblock
        exact ⟨boot, hboot, rfl⟩
      · rw [hperformed.otherAbi (senderAbi sender')
          (fun hno => hsender (senderAbi_injective (Option.some.inj hno)).symm)] at hblock
        exact h.info sender' block hblock
    · change (announcement sender boot.root.impl boot.names).length < 2 ^ 31 at hshort
      rw [herror, Zygiskd.infoMessage_length] at hshort
      have hsize : (rootErrorInfo boot.root.impl).length < 2 ^ 31 - 9 := by
        omega
      have hsent := Sent.errorInfo sender (rootErrorInfo_nulFree boot) hsize
      rcases sent_delivered lp net.monitor hsent with ⟨m', hstep, hperformed⟩
      rw [herror]
      refine ⟨m', _, _, hstep, hsent, hperformed, ?_⟩
      intro sender' block hblock
      apply h.info sender' block
      rw [← hblock]
      by_cases hsender : sender' = sender
      · rw [hsender, (hperformed.errorInfo _ _ rfl rfl).left]
      · rw [hperformed.otherAbi (senderAbi sender')
          (fun hno => hsender (senderAbi_injective (Option.some.inj hno)).symm)]

theorem faithful_deliver (h : Faithful net) {d : Datagram} {rest : List Datagram}
    (hqueue : net.queue = d :: rest) {m' : Monitor}
    (hstep : datagramStep lp net.monitor d = some m') :
    Faithful { net with queue := rest, taken := net.taken ++ [d], monitor := m' } := by
  have hd : d ∈ net.queue := by
    rw [hqueue]
    exact List.mem_cons_self
  rcases @monitor_takes lp net h d (h.queued d hd) with
    ⟨m1, cmd, text, hstep1, hsent, hperformed, hinfo⟩
  rw [hstep] at hstep1
  cases hstep1
  constructor
  · intro d' hd'
    apply h.queued d'
    rw [hqueue]
    exact List.mem_cons_of_mem d hd'
  · intro sender hset
    by_cases hcmd : cmd = Command.zygoteInjected (senderAbi sender)
    · have hreport : d = injectedReport sender := by
        have hcode : injectedReport sender =
            leBytes 4 (Command.zygoteInjected (senderAbi sender)).code := by
          cases sender <;> rfl
        rw [hcode]
        exact (sent_eq_bare_iff hsent (by cases sender <;> rfl)).mpr hcmd
      exact List.mem_append_right _ (hreport ▸ List.mem_singleton_self _)
    · change (m'.status (senderAbi sender)).zygoteInjected = true at hset
      rw [injected_command hperformed.command (fun hno => hcmd (Option.some.inj hno))] at hset
      exact List.mem_append_left _ (h.injected sender hset)
  · show mounts m' = (net.taken ++ [d]).count startedReport
    have hreport : d = startedReport <-> cmd = Command.systemServerStarted :=
      @sent_eq_bare_iff d cmd text hsent Command.systemServerStarted rfl
    rw [mounts_performed hperformed, h.mounted, List.count_append, List.count_singleton]
    by_cases hcmd : cmd = Command.systemServerStarted
    · rw [if_pos hcmd, if_pos (beq_iff_eq.mpr (hreport.mpr hcmd))]
    · rw [if_neg hcmd, if_neg (fun hno => hcmd (hreport.mp (beq_iff_eq.mp hno)))]
  · exact hinfo

theorem faithful_step {event : NetEvent} (h : Faithful net)
    (hstep : netStep lp sysSigname net event = some net') : Faithful net' := by
  cases event with
  | boot sender boot =>
      simp only [netStep] at hstep
      split at hstep
      · cases hstep
      · rename_i hnone
        cases hstep
        apply faithful_sends h
        · intro sender' boot' hboot
          by_cases hsame : sender' = sender
          · rw [hsame, bootOf, hnone] at hboot
            cases hboot
          · rw [Function.update_of_ne hsame]
            exact hboot
        · intro d hd
          refine Or.inr ⟨sender, boot, ?_, List.mem_singleton.mp hd⟩
          show (Function.update net.daemons sender _ sender).map DaemonProcess.boot = some boot
          rw [Function.update_self]
          rfl
  | daemon sender e =>
      simp only [netStep] at hstep
      split at hstep
      · cases hstep
      · rename_i p hp
        cases hstep
        apply faithful_sends h
        · intro sender' boot' hboot
          by_cases hsame : sender' = sender
          · rw [hsame, bootOf, hp] at hboot
            rw [hsame, Function.update_self]
            exact hboot
          · rw [Function.update_of_ne hsame]
            exact hboot
        · intro d hd
          rw [datagrams_daemon hp, List.drop_left] at hd
          left
          cases hheard : heard net (NetEvent.daemon sender e) with
          | none =>
              rw [hheard] at hd
              cases hd
          | some request =>
              rw [hheard] at hd
              change d ∈ reportOf request at hd
              rcases request with ⟨sender', action⟩
              cases action with
              | pingHeartbeat =>
                  rw [List.mem_singleton.mp hd]
                  exact ⟨_, Sent.injected sender'⟩
              | systemServerStarted =>
                  rw [List.mem_singleton.mp hd]
                  exact ⟨_, Sent.systemServerStarted⟩
              | _ => cases hd
  | ctl arg =>
      simp only [netStep] at hstep
      split at hstep
      · cases hstep
      · rename_i cmd hcmd
        cases hstep
        apply faithful_sends h (fun _ _ hboot => hboot)
        intro d hd
        rw [List.mem_singleton.mp hd]
        exact Or.inl ⟨cmd, Sent.ctl hcmd⟩
  | deliver =>
      simp only [netStep] at hstep
      split at hstep
      · cases hstep
      · rename_i d rest hqueue
        rcases Option.map_eq_some_iff.mp hstep with ⟨m', hm', heq⟩
        rw [← heq]
        exact faithful_deliver h hqueue hm'
  | wait e =>
      rcases Option.map_eq_some_iff.mp hstep with ⟨m', hm', heq⟩
      rw [← heq]
      have hquiet := quiet_wait hm'
      constructor
      · exact h.queued
      · intro sender hset
        exact h.injected sender (hquiet.injected _ hset)
      · exact hquiet.mounted.trans h.mounted
      · intro sender block hblock
        apply h.info sender block
        rw [← hblock]
        exact (hquiet.info (senderAbi sender)).symm

theorem count_injected (sender : Lp) (request : Lp × Zygiskd.DaemonSocketAction) :
    (reportOf request).count (injectedReport sender) = ([request].filter (fun request =>
      request == (sender, Zygiskd.DaemonSocketAction.pingHeartbeat))).length := by
  rcases request with ⟨sender', action⟩
  cases sender <;> cases sender' <;> cases action <;> decide

theorem count_started (request : Lp × Zygiskd.DaemonSocketAction) :
    (reportOf request).count startedReport = ([request].filter (fun request =>
      request.2 == Zygiskd.DaemonSocketAction.systemServerStarted)).length := by
  rcases request with ⟨sender, action⟩
  cases sender <;> cases action <;> decide

end Run

def plainBoot : Boot where
  root := Zygiskd.plainRoot
  modules := []
  name_nulFree m hm := by cases hm
  short sender := by cases sender <;> decide

/-- A zygote reports to its daemon before the announcement is taken. -/
def oneZygote : List NetEvent :=
  [NetEvent.boot Lp.lp64 plainBoot,
    NetEvent.daemon Lp.lp64 (Zygiskd.Event.accept ⟨leBytes 1 0, Zygiskd.plainEnv⟩),
    NetEvent.ctl (bytesOf "stop"), NetEvent.deliver, NetEvent.deliver]

end Reports

end InitMonitor
end ReZygisk
