import ReZygisk.Foundation.Bytes
import ReZygisk.Foundation.Prog
import ReZygisk.Foundation.System

/-!
# The companion process

`companion::entry` answers the daemon and then serves client descriptors one
after the other: it polls the control socket, receives a descriptor, writes one
byte to the client and leaves the rest to a thread.  A failed write panics, and
the build sets `panic = "abort"`.
-/

namespace ReZygisk
namespace Zygiskd

open Foundation

inductive CompanionPhase where
  | polling
  | receiving
  | replying (client : Nat)
  | spawning (client : Nat)
  | ended (how : Stop)
  deriving DecidableEq

/-- A companion: the name and the library it was started with, where its loop
stands, the client descriptors waiting on the control socket, oldest first, and
those it has taken. -/
structure Companion where
  name : List Byte
  libFd : Nat
  phase : CompanionPhase
  inbox : List Nat := []
  taken : List Nat := []
  deriving DecidableEq

inductive LoadResult where
  | failed
  | noEntry
  | entry
  deriving DecidableEq

/-- `entry` up to its loop, and the byte it answers the daemon with. -/
def Companion.start (name : List Byte) (libFd : Nat) :
    LoadResult -> Companion × Option Nat
  | LoadResult.failed =>
      ({ name, libFd, phase := CompanionPhase.ended Stop.panicked }, none)
  | LoadResult.noEntry =>
      ({ name, libFd, phase := CompanionPhase.ended (Stop.exited 0) }, some 0)
  | LoadResult.entry => ({ name, libFd, phase := CompanionPhase.polling }, some 1)

/-- Clients that have been passed to the companion and not been replied to. -/
def Companion.pending (c : Companion) : List Nat :=
  match c.phase with
  | CompanionPhase.replying client => client :: c.inbox
  | _ => c.inbox

/-- One step of the loop: the companion after it, and the client that was sent
the byte 1 by it.  `daemonOpen` and `closed` say which peers still have their
end open; there is no step while the companion blocks. -/
def Companion.step (daemonOpen : Bool) (closed : List Nat) (c : Companion) :
    Option (Companion × Option Nat) :=
  match c.phase with
  | CompanionPhase.polling =>
      -- A hang-up is reported even when descriptors are still waiting.
      if daemonOpen = false then
        some ({ c with phase := CompanionPhase.ended (Stop.exited 0) }, none)
      else if c.inbox = [] then
        none
      else
        some ({ c with phase := CompanionPhase.receiving }, none)
  | CompanionPhase.receiving =>
      match c.inbox with
      | [] =>
          if daemonOpen then none
          else some ({ c with phase := CompanionPhase.ended Stop.panicked }, none)
      | client :: rest =>
          some ({ c with
            phase := CompanionPhase.replying client
            inbox := rest
            taken := c.taken ++ [client] }, none)
  | CompanionPhase.replying client =>
      if client ∈ closed then
        some ({ c with phase := CompanionPhase.ended Stop.panicked }, none)
      else
        some ({ c with phase := CompanionPhase.spawning client }, some client)
  | CompanionPhase.spawning _ =>
      some ({ c with phase := CompanionPhase.polling }, none)
  | CompanionPhase.ended _ => none

/-- Everything that one step of the loop can do to a companion, and the client
that it sends the byte to. -/
inductive CompanionStep (closed : List Nat) (c : Companion) :
    Companion -> Option Nat -> Prop where
  | moved (phase : CompanionPhase)
      (hphase : forall client, phase ≠ CompanionPhase.replying client) :
      CompanionStep closed c { c with phase } none
  | took (client : Nat) (rest : List Nat) (hinbox : c.inbox = client :: rest) :
      CompanionStep closed c
        { c with
          phase := CompanionPhase.replying client
          inbox := rest
          taken := c.taken ++ [client] } none
  | replied (client : Nat) (hphase : c.phase = CompanionPhase.replying client)
      (hthere : client ∉ closed) :
      CompanionStep closed c
        { c with phase := CompanionPhase.spawning client } (some client)

theorem Companion.step_cases {daemonOpen : Bool} {closed : List Nat}
    {c : Companion} {r : Companion × Option Nat}
    (h : c.step daemonOpen closed = some r) : CompanionStep closed c r.1 r.2 := by
  unfold Companion.step at h
  split at h
  · split at h
    · cases h
      exact CompanionStep.moved _ (fun _ hno => by cases hno)
    · split at h
      · cases h
      · cases h
        exact CompanionStep.moved _ (fun _ hno => by cases hno)
  · split at h
    · split at h
      · cases h
      · cases h
        exact CompanionStep.moved _ (fun _ hno => by cases hno)
    · rename_i client rest hinbox
      cases h
      exact CompanionStep.took client rest hinbox
  · rename_i client hphase
    split at h
    · cases h
      exact CompanionStep.moved _ (fun _ hno => by cases hno)
    · rename_i hthere
      cases h
      exact CompanionStep.replied client hphase hthere
  · cases h
    exact CompanionStep.moved _ (fun _ hno => by cases hno)
  · cases h

/-!
# A companion and its peers
-/

structure Session where
  companion : Companion
  daemonOpen : Bool
  closed : List Nat
  answered : List Nat

inductive SessionEvent where
  | send (client : Nat)
  | close (client : Nat)
  | daemonClose
  | companion
  deriving DecidableEq

namespace Session

def step (s : Session) : SessionEvent -> Option Session
  | SessionEvent.send client =>
      if s.daemonOpen then
        some { s with companion :=
          { s.companion with inbox := s.companion.inbox ++ [client] } }
      else none
  | SessionEvent.close client => some { s with closed := client :: s.closed }
  | SessionEvent.daemonClose => some { s with daemonOpen := false }
  | SessionEvent.companion =>
      (s.companion.step s.daemonOpen s.closed).map (fun r =>
        { s with companion := r.1, answered := s.answered ++ r.2.toList })

/-- A companion that has just answered 1. -/
def initial (name : List Byte) (libFd : Nat) (closed : List Nat) : Session :=
  { companion := (Companion.start name libFd LoadResult.entry).1
    daemonOpen := true
    closed := closed
    answered := [] }

def system : TransitionSystem Session SessionEvent where
  init s := exists name libFd closed, s = initial name libFd closed
  step := step

/-- Left to itself, the companion answers every client that has been passed to
it, in order, and goes back to polling. -/
def Serves (s : Session) : Prop :=
  exists n s', system.run s (List.replicate n SessionEvent.companion) = some s' ∧
    s'.companion.phase = CompanionPhase.polling ∧ s'.companion.inbox = [] ∧
    s'.answered = s.answered ++ s.companion.pending

/-- What the daemon counts on while it keeps its end open. -/
def Alive (s : Session) : Prop :=
  s.daemonOpen = true ->
    (forall how, s.companion.phase ≠ CompanionPhase.ended how) ∧ Serves s

/-- No client's end is closed from the time its descriptor is passed to the
companion's reply. -/
def ClientWaits (s : Session) : SessionEvent -> Prop
  | SessionEvent.send client => s.daemonOpen = true -> client ∉ s.closed
  | SessionEvent.close client =>
      s.daemonOpen = true -> client ∉ s.companion.pending
  | _ => True

/-!
# Steps of the loop
-/

section Loop

variable {s : Session}

theorem step_polling (hopen : s.daemonOpen = true)
    (hphase : s.companion.phase = CompanionPhase.polling)
    (hinbox : s.companion.inbox ≠ []) :
    s.step SessionEvent.companion =
      some { s with companion :=
        { s.companion with phase := CompanionPhase.receiving } } := by
  simp only [step, Companion.step, hphase, hopen, Bool.true_eq_false, if_false,
    hinbox, Option.map_some, Option.toList_none, List.append_nil]

theorem step_receiving {client : Nat} {rest : List Nat}
    (hphase : s.companion.phase = CompanionPhase.receiving)
    (hinbox : s.companion.inbox = client :: rest) :
    s.step SessionEvent.companion =
      some { s with companion := { s.companion with
        phase := CompanionPhase.replying client
        inbox := rest
        taken := s.companion.taken ++ [client] } } := by
  simp only [step, Companion.step, hphase, hinbox, Option.map_some,
    Option.toList_none, List.append_nil]

theorem step_replying {client : Nat}
    (hphase : s.companion.phase = CompanionPhase.replying client)
    (hclient : client ∉ s.closed) :
    s.step SessionEvent.companion =
      some { s with
        companion := { s.companion with phase := CompanionPhase.spawning client }
        answered := s.answered ++ [client] } := by
  simp only [step, Companion.step, hphase, hclient, if_false, Option.map_some,
    Option.toList_some]

theorem step_spawning {client : Nat}
    (hphase : s.companion.phase = CompanionPhase.spawning client) :
    s.step SessionEvent.companion =
      some { s with companion :=
        { s.companion with phase := CompanionPhase.polling } } := by
  simp only [step, Companion.step, hphase, Option.map_some, Option.toList_none,
    List.append_nil]

end Loop

/-!
# Serving what is pending
-/

section Serving

theorem run_companion_succ {s s1 s' : Session} {n : Nat}
    (hstep : s.step SessionEvent.companion = some s1)
    (hrun : system.run s1 (List.replicate n SessionEvent.companion) = some s') :
    system.run s (List.replicate (n + 1) SessionEvent.companion) = some s' := by
  rw [List.replicate_succ]
  exact Option.bind_eq_some_iff.mpr ⟨s1, hstep, hrun⟩

/-- A step that the companion makes anyway, towards serving. -/
theorem serves_of_step {s s1 : Session}
    (hstep : s.step SessionEvent.companion = some s1)
    (hanswered : s1.answered ++ s1.companion.pending =
      s.answered ++ s.companion.pending)
    (h : Serves s1) : Serves s := by
  rcases h with ⟨n, s', hrun, hphase, hinbox, hdone⟩
  exact ⟨n + 1, s', run_companion_succ hstep hrun, hphase, hinbox,
    hdone.trans hanswered⟩

theorem serves_spawning {s : Session} {client : Nat}
    (hphase : s.companion.phase = CompanionPhase.spawning client)
    (h : Serves { s with companion :=
      { s.companion with phase := CompanionPhase.polling } }) : Serves s := by
  refine serves_of_step (step_spawning hphase) ?_ h
  simp only [Companion.pending, hphase]

theorem serves_replying {s : Session} {client : Nat}
    (hphase : s.companion.phase = CompanionPhase.replying client)
    (hclient : client ∉ s.closed)
    (h : Serves { s with
      companion := { s.companion with phase := CompanionPhase.polling }
      answered := s.answered ++ [client] }) : Serves s := by
  refine serves_of_step (step_replying hphase hclient) ?_ (serves_spawning rfl h)
  simp only [Companion.pending, hphase, List.append_assoc, List.singleton_append]

theorem serves_receiving {s : Session} {client : Nat} {rest : List Nat}
    (hphase : s.companion.phase = CompanionPhase.receiving)
    (hinbox : s.companion.inbox = client :: rest) (hclient : client ∉ s.closed)
    (h : Serves { s with
      companion := { s.companion with
        phase := CompanionPhase.polling
        inbox := rest
        taken := s.companion.taken ++ [client] }
      answered := s.answered ++ [client] }) : Serves s := by
  refine serves_of_step (step_receiving hphase hinbox) ?_
    (serves_replying rfl hclient h)
  simp only [Companion.pending, hphase, hinbox]

theorem serves_polling {s : Session} {inbox : List Nat}
    (hopen : s.daemonOpen = true)
    (hphase : s.companion.phase = CompanionPhase.polling)
    (hinbox : s.companion.inbox = inbox)
    (hclients : forall client, client ∈ inbox -> client ∉ s.closed) :
    Serves s := by
  induction inbox generalizing s with
  | nil =>
      refine ⟨0, s, rfl, hphase, hinbox, ?_⟩
      simp only [Companion.pending, hphase, hinbox, List.append_nil]
  | cons client rest ih =>
      have hne : s.companion.inbox ≠ [] := by
        rw [hinbox]
        exact List.cons_ne_nil client rest
      refine serves_of_step (step_polling hopen hphase hne) ?_ ?_
      · simp only [Companion.pending, hphase]
      · refine serves_receiving rfl hinbox (hclients client List.mem_cons_self) ?_
        refine ih hopen rfl rfl ?_
        intro client' hmem
        exact hclients client' (List.mem_cons_of_mem client hmem)

/-- The states of a companion whose daemon and pending clients are there. -/
structure Live (s : Session) : Prop where
  running : forall how, s.companion.phase ≠ CompanionPhase.ended how
  received : s.companion.phase = CompanionPhase.receiving -> s.companion.inbox ≠ []
  waiting : forall client, client ∈ s.companion.pending -> client ∉ s.closed

theorem serves_of_live {s : Session} (hopen : s.daemonOpen = true) (h : Live s) :
    Serves s := by
  have hwaiting := h.waiting
  cases hphase : s.companion.phase with
  | polling =>
      simp only [Companion.pending, hphase] at hwaiting
      exact serves_polling hopen hphase rfl hwaiting
  | receiving =>
      simp only [Companion.pending, hphase] at hwaiting
      cases hinbox : s.companion.inbox with
      | nil => exact absurd hinbox (h.received hphase)
      | cons client rest =>
          rw [hinbox] at hwaiting
          apply serves_receiving hphase hinbox (hwaiting client List.mem_cons_self)
          refine serves_polling hopen rfl rfl ?_
          intro client' hmem
          exact hwaiting client' (List.mem_cons_of_mem client hmem)
  | replying client =>
      simp only [Companion.pending, hphase] at hwaiting
      apply serves_replying hphase (hwaiting client List.mem_cons_self)
      refine serves_polling hopen rfl rfl ?_
      intro client' hmem
      exact hwaiting client' (List.mem_cons_of_mem client hmem)
  | spawning client =>
      simp only [Companion.pending, hphase] at hwaiting
      apply serves_spawning hphase
      exact serves_polling hopen rfl rfl hwaiting
  | ended how => exact absurd hphase (h.running how)

/-- A step of the companion answers only clients that are there. -/
theorem answered_step {s s' : Session}
    (h : s.step SessionEvent.companion = some s') :
    s'.closed = s.closed ∧ exists new, s'.answered = s.answered ++ new ∧
      forall client, client ∈ new -> client ∉ s.closed := by
  rcases Option.map_eq_some_iff.mp h with ⟨r, hr, heq⟩
  rw [← heq]
  refine ⟨rfl, r.2.toList, rfl, ?_⟩
  intro client hmem
  rcases r with ⟨c', answered⟩
  cases Companion.step_cases hr with
  | moved phase hphase => cases hmem
  | took client' rest hinbox => cases hmem
  | replied client' hphase hthere =>
      rw [List.mem_singleton.mp hmem]
      exact hthere

theorem answered_run {s s' : Session} {n : Nat}
    (h : system.run s (List.replicate n SessionEvent.companion) = some s') :
    exists new, s'.answered = s.answered ++ new ∧
      forall client, client ∈ new -> client ∉ s.closed := by
  induction n generalizing s with
  | zero =>
      cases h
      exact ⟨[], (List.append_nil _).symm, fun _ hno => by cases hno⟩
  | succ n ih =>
      rw [List.replicate_succ] at h
      rcases Option.bind_eq_some_iff.mp h with ⟨s1, hstep, hrest⟩
      rcases answered_step hstep with ⟨hclosed, new, heq, hnew⟩
      rcases ih hrest with ⟨new', heq', hnew'⟩
      refine ⟨new ++ new', by rw [heq', heq, List.append_assoc], ?_⟩
      intro client hmem
      rcases List.mem_append.mp hmem with hmem | hmem
      · exact hnew client hmem
      · rw [← hclosed]
        exact hnew' client hmem

theorem waiting_of_serves {s : Session} (h : Serves s) (client : Nat)
    (hmem : client ∈ s.companion.pending) : client ∉ s.closed := by
  rcases h with ⟨n, s', hrun, _, _, hdone⟩
  rcases answered_run hrun with ⟨new, heq, hnew⟩
  rw [hdone] at heq
  rw [List.append_cancel_left heq] at hmem
  exact hnew client hmem

end Serving

/-!
# Every run
-/

section Runs

theorem live_step {s s' : Session} (hopen : s.daemonOpen = true) (hs : Live s)
    (h : s.step SessionEvent.companion = some s') : Live s' := by
  have hwaiting := hs.waiting
  cases hphase : s.companion.phase with
  | polling =>
      simp only [Companion.pending, hphase] at hwaiting
      rcases Decidable.em (s.companion.inbox = []) with hempty | hne
      · simp only [step, Companion.step, hphase, hopen, Bool.true_eq_false,
          if_false, hempty, if_true, Option.map_none] at h
        cases h
      · rw [step_polling hopen hphase hne] at h
        cases h
        exact ⟨(fun how hno => by cases hno), (fun _ => hne), hwaiting⟩
  | receiving =>
      simp only [Companion.pending, hphase] at hwaiting
      cases hinbox : s.companion.inbox with
      | nil => exact absurd hinbox (hs.received hphase)
      | cons client rest =>
          rw [hinbox] at hwaiting
          rw [step_receiving hphase hinbox] at h
          cases h
          exact ⟨(fun how hno => by cases hno), (fun hno => by cases hno), hwaiting⟩
  | replying client =>
      simp only [Companion.pending, hphase] at hwaiting
      rw [step_replying hphase (hwaiting client List.mem_cons_self)] at h
      cases h
      refine ⟨(fun how hno => by cases hno), (fun hno => by cases hno), ?_⟩
      intro client' hmem
      exact hwaiting client' (List.mem_cons_of_mem client hmem)
  | spawning client =>
      simp only [Companion.pending, hphase] at hwaiting
      rw [step_spawning hphase] at h
      cases h
      exact ⟨(fun how hno => by cases hno), (fun hno => by cases hno), hwaiting⟩
  | ended how => exact absurd hphase (hs.running how)

theorem mem_pending_send {c : Companion} {client client' : Nat} :
    client' ∈ Companion.pending { c with inbox := c.inbox ++ [client] } <->
      client' ∈ c.pending ∨ client' = client := by
  cases hphase : c.phase with
  | replying other =>
      simp only [Companion.pending, hphase, List.mem_cons, List.mem_append,
        List.not_mem_nil, or_false, or_assoc]
  | _ =>
      simp only [Companion.pending, hphase, List.mem_append, List.mem_singleton]

/-- What is kept while the daemon's end is open. -/
def LiveWhileOpen (s : Session) : Prop :=
  s.daemonOpen = true -> Live s

theorem liveWhileOpen_step {s s' : Session} {e : SessionEvent}
    (hs : LiveWhileOpen s) (hwaits : ClientWaits s e) (h : s.step e = some s') :
    LiveWhileOpen s' := by
  intro hopen'
  cases e with
  | send client =>
      simp only [step] at h
      split at h
      · rename_i hopen
        have hlive := hs hopen
        cases h
        refine ⟨hlive.running, ?_, ?_⟩
        · intro _
          simp only [ne_eq, List.append_eq_nil_iff, List.cons_ne_self, and_false,
            not_false_eq_true]
        · intro client' hmem
          rcases mem_pending_send.mp hmem with hold | hnew
          · exact hlive.waiting client' hold
          · rw [hnew]
            exact hwaits hopen
      · cases h
  | close client =>
      cases h
      have hlive := hs hopen'
      refine ⟨hlive.running, hlive.received, ?_⟩
      intro client' hmem hclosed
      rcases List.mem_cons.mp hclosed with heq | hbefore
      · rw [heq] at hmem
        exact hwaits hopen' hmem
      · exact hlive.waiting client' hmem hbefore
  | daemonClose =>
      cases h
      cases hopen'
  | companion =>
      have hopen : s.daemonOpen = true := by
        rcases Option.map_eq_some_iff.mp h with ⟨r, _, heq⟩
        rw [← heq] at hopen'
        exact hopen'
      exact live_step hopen (hs hopen) h

theorem alive_of_live {s : Session} (h : LiveWhileOpen s) : Alive s := by
  intro hopen
  exact ⟨(h hopen).running, serves_of_live hopen (h hopen)⟩

theorem clientWaits_of_alive {s : Session} {e : SessionEvent}
    (h : forall s', s.step e = some s' -> Alive s') : ClientWaits s e := by
  cases e with
  | send client =>
      intro hopen
      have halive := h _ (if_pos hopen) hopen
      exact waiting_of_serves halive.right client (mem_pending_send.mpr (Or.inr rfl))
  | close client =>
      intro hopen hmem
      have halive := h _ rfl hopen
      exact waiting_of_serves halive.right client hmem List.mem_cons_self
  | daemonClose => trivial
  | companion => trivial

/-- Along a run the companion lives and serves in every state with the daemon's
end open exactly when every client waits for its reply. -/
theorem alive_along_iff_clients_wait (name : List Byte) (libFd : Nat)
    (closed : List Nat) (events : List SessionEvent) :
    system.AlongRun (fun s e => forall s', s.step e = some s' -> Alive s')
        (initial name libFd closed) events <->
      system.AlongRun ClientWaits (initial name libFd closed) events := by
  apply TransitionSystem.alongRun_iff_of_step (I := LiveWhileOpen)
  · intro s e s' hs halive hstep
    exact liveWhileOpen_step hs (clientWaits_of_alive halive) hstep
  · intro s e hs
    constructor
    · exact clientWaits_of_alive
    · intro hwaits s' hstep
      exact alive_of_live (liveWhileOpen_step hs hwaits hstep)
  · intro _
    exact ⟨(fun how hno => by cases hno), (fun hno => by cases hno),
      (fun _ hno => by cases hno)⟩

/-- The client leaves after its descriptor has been passed: the reply ends the
companion, with the daemon still there. -/
theorem not_alive_client_left :
    ¬ system.AlongRun (fun s e => forall s', s.step e = some s' -> Alive s')
      (initial (bytesOf "module") 10 [])
      [SessionEvent.send 5, SessionEvent.close 5, SessionEvent.companion,
        SessionEvent.companion, SessionEvent.companion] := by
  intro h
  have hreplied := (((h.right _ rfl).right _ rfl).right _ rfl).right _ rfl
  have halive := hreplied.left _ rfl rfl
  exact halive.left Stop.panicked rfl

end Runs

end Session

end Zygiskd
end ReZygisk
