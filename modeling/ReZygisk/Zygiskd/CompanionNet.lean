import Mathlib.Data.List.Nodup
import Mathlib.Logic.Function.Basic
import ReZygisk.Zygiskd.CompanionEntry
import ReZygisk.Zygiskd.Frame
import ReZygisk.Zygiskd.SpawnCompanion

/-!
# Clients, daemon and companions

Requests, restarts of zygote and the loops of the companions take their steps in
any order.  What a request does in its critical section is one step.  Sockets and
clients are numbered as they appear, so that a number stands for one socket or one
connection in the whole run.
-/

namespace ReZygisk
namespace Zygiskd

open Foundation

/-!
# The daemon's ends of control sockets
-/

inductive SocketOp where
  | opened (sock : Nat)
  | closed (sock : Nat)
  deriving DecidableEq

def heldStep (socks : List Nat) : SocketOp -> List Nat
  | SocketOp.opened sock => sock :: socks
  | SocketOp.closed sock => socks.erase sock

/-- The sockets that are open after a list of operations. -/
def held (ops : List SocketOp) : List Nat :=
  ops.foldl heldStep []

def socketOf (entry : Option (Option Nat)) : List Nat :=
  entry.join.toList

/-- `companion.take()` drops the socket of the entry. -/
def takeOps (entry : Option (Option Nat)) : List SocketOp :=
  (socketOf entry).map SocketOp.closed

section Ops

variable (env : RequestEnv)

/-- `spawn_companion` drops the daemon's end of its pair unless it returns it. -/
def spawnOps : List SocketOp :=
  match env.spawn.pair with
  | none => []
  | some daemon =>
      if spawnedEntry env = some (some daemon) then [SocketOp.opened daemon]
      else [SocketOp.opened daemon, SocketOp.closed daemon]

def entryOps (entry : Option (Option Nat)) : List SocketOp :=
  match pollCompanion env entry with
  | some _ => []
  | none => takeOps entry ++ spawnOps env

def requestOps (modules : List Module) (w : World) : List SocketOp :=
  if env.lp.bytes ≤ w.input.length ∧ requestIndex env w < modules.length then
    entryOps env (w.companions (requestIndex env w))
  else
    []

end Ops

/-!
# The parties
-/

/-- The daemon's entries and what it did with sockets, by module; the companions
by the daemon's end of their control socket; and for each client the module it
asked for and the status bytes that it was sent. -/
structure Net where
  up : Bool
  entries : Nat -> Option (Option Nat)
  sockets : Nat -> List SocketOp
  companions : Nat -> Option Companion
  nextSocket : Nat
  nextClient : Nat
  requested : Nat -> Option Nat
  status : Nat -> List Byte
  closed : List Nat

/-- A request and what happens to it; `load` is how the companion fares when it
is started. -/
structure CompanionRequest where
  input : List Byte
  env : RequestEnv
  forked : Bool
  load : LoadResult

inductive NetEvent where
  | request (r : CompanionRequest)
  | restart (index : Nat)
  | companion (sock : Nat)
  | die (sock : Nat) (how : Stop)
  | close (client : Nat)
  | other (root : Root) (action : DaemonSocketAction) (input : List Byte)
      (env : RequestEnv)

def LoadResult.answer (load : LoadResult) : Option Nat :=
  (Companion.start [] 0 load).2

/-- What the request meets: the pair is a new one, and the answer is that of the
companion. -/
def CompanionRequest.envIn (r : CompanionRequest) (sock : Nat) : RequestEnv :=
  RequestEnv.daemonSide
    { r.env with spawn :=
      { r.env.spawn with
        pair := r.env.spawn.pair.map (fun _ => sock)
        answer := r.load.answer } }
    r.forked

/-- The effects of the forked child on the client it shares with the daemon. -/
def childEffects (modules : List Module) (env : RequestEnv) (forked : Bool)
    (w : World) : List Effect :=
  if forksChild modules env forked w then
    (finalWorld (requestCompanionSocket modules env.childSide w)).elim []
      World.effects
  else
    []

namespace Net

def apply (load : LoadResult) (client : Nat) (net : Net) : Effect -> Net
  | Effect.startedCompanion sock name libFd =>
      { net with
        companions := Function.update net.companions sock
          (some (Companion.start name libFd load).1) }
  | Effect.passedClient sock =>
      { net with
        companions := Function.update net.companions sock
          ((net.companions sock).map (fun c =>
            { c with inbox := c.inbox ++ [client] })) }
  | Effect.wrote bytes =>
      { net with
        status := Function.update net.status client (net.status client ++ bytes) }
  | _ => net

/-- The module that a request is about. -/
def indexOf (net : Net) (r : CompanionRequest) : Nat :=
  requestIndex (r.envIn net.nextSocket) (requestWorld r.input net.entries)

/-- The net with what a request has done. -/
def record (net : Net) (r : CompanionRequest) (entries : Nat -> Option (Option Nat))
    (ops : List SocketOp) (effects : List Effect) : Net :=
  { effects.foldl (apply r.load net.nextClient) net with
    entries := entries
    sockets := Function.update net.sockets (net.indexOf r)
      (net.sockets (net.indexOf r) ++ ops)
    nextSocket := net.nextSocket + 1
    nextClient := net.nextClient + 1
    requested :=
      Function.update net.requested net.nextClient (some (net.indexOf r)) }

def served (modules : List Module) (net : Net) (r : CompanionRequest) (w' : World) :
    Net :=
  net.record r w'.companions
    (requestOps (r.envIn net.nextSocket) modules (requestWorld r.input net.entries))
    (w'.effects ++ childEffects modules (r.envIn net.nextSocket) r.forked
      (requestWorld r.input net.entries))

/-- A request; its panic ends the daemon. -/
def request (modules : List Module) (net : Net) (r : CompanionRequest) : Net :=
  (finalWorld (requestCompanionSocket modules (r.envIn net.nextSocket)
    (requestWorld r.input net.entries))).elim { net with up := false }
      (net.served modules r)

def restart (net : Net) (index : Nat) : Net :=
  { net with
    entries := Function.update net.entries index none
    sockets := Function.update net.sockets index
      (net.sockets index ++ takeOps (net.entries index)) }

/-- A request of another kind. -/
def serveOther (modules : List Module) (net : Net) (root : Root)
    (action : DaemonSocketAction) (input : List Byte) (env : RequestEnv) : Net :=
  (finalWorld (handleDaemonAction root modules env action
    (requestWorld input net.entries))).elim { net with up := false }
      (fun w' => { net with entries := w'.companions })

/-- The daemon's end of a control socket is open. -/
def holds (modules : List Module) (net : Net) (sock : Nat) : Bool :=
  net.up && (List.range modules.length).any (fun index =>
    decide (net.entries index = some (some sock)))

def replied (net : Net) (sock : Nat) (r : Companion × Option Nat) : Net :=
  { net with
    companions := Function.update net.companions sock (some r.1)
    status := r.2.elim net.status (fun client =>
      Function.update net.status client (net.status client ++ leBytes 1 1)) }

def step (modules : List Module) (net : Net) : NetEvent -> Option Net
  | NetEvent.request r => if net.up then some (net.request modules r) else none
  | NetEvent.restart index =>
      if net.up = true ∧ index < modules.length then some (net.restart index)
      else none
  | NetEvent.companion sock =>
      (net.companions sock).bind (fun c =>
        (c.step (net.holds modules sock) net.closed).map (net.replied sock))
  | NetEvent.die sock how =>
      (net.companions sock).map (fun c =>
        { net with
          companions := Function.update net.companions sock
            (some { c with phase := CompanionPhase.ended how }) })
  | NetEvent.close client => some { net with closed := client :: net.closed }
  | NetEvent.other root action input env =>
      if net.up = true ∧ action ≠ DaemonSocketAction.requestCompanionSocket then
        some (net.serveOther modules root action input env)
      else none

/-- Everything that a step of the net can do. -/
inductive NetStep (modules : List Module) (net : Net) : NetEvent -> Net -> Prop where
  | request (r : CompanionRequest) (hup : net.up = true) :
      NetStep modules net (NetEvent.request r) (net.request modules r)
  | restart (index : Nat) (hup : net.up = true) (hindex : index < modules.length) :
      NetStep modules net (NetEvent.restart index) (net.restart index)
  | companion (sock : Nat) (c : Companion) (r : Companion × Option Nat)
      (hc : net.companions sock = some c)
      (hr : c.step (net.holds modules sock) net.closed = some r) :
      NetStep modules net (NetEvent.companion sock) (net.replied sock r)
  | die (sock : Nat) (how : Stop) (c : Companion) (hc : net.companions sock = some c) :
      NetStep modules net (NetEvent.die sock how)
        (net.replied sock ({ c with phase := CompanionPhase.ended how }, none))
  | close (client : Nat) :
      NetStep modules net (NetEvent.close client)
        { net with closed := client :: net.closed }
  | other (root : Root) (action : DaemonSocketAction) (input : List Byte)
      (env : RequestEnv) (hup : net.up = true)
      (hother : action ≠ DaemonSocketAction.requestCompanionSocket) :
      NetStep modules net (NetEvent.other root action input env)
        (net.serveOther modules root action input env)

theorem step_cases {modules : List Module} {net net' : Net} {e : NetEvent}
    (h : net.step modules e = some net') : NetStep modules net e net' := by
  cases e with
  | request r =>
      simp only [step] at h
      split at h
      · rename_i hup
        cases h
        exact NetStep.request r hup
      · cases h
  | restart index =>
      simp only [step] at h
      split at h
      · rename_i hguard
        cases h
        exact NetStep.restart index hguard.left hguard.right
      · cases h
  | companion sock =>
      rcases Option.bind_eq_some_iff.mp h with ⟨c, hc, h⟩
      rcases Option.map_eq_some_iff.mp h with ⟨r, hr, heq⟩
      rw [← heq]
      exact NetStep.companion sock c r hc hr
  | die sock how =>
      rcases Option.map_eq_some_iff.mp h with ⟨c, hc, heq⟩
      rw [← heq]
      exact NetStep.die sock how c hc
  | close client =>
      cases h
      exact NetStep.close client
  | other root action input env =>
      simp only [step] at h
      split at h
      · rename_i hguard
        cases h
        exact NetStep.other root action input env hguard.left hguard.right
      · cases h

def initial : Net :=
  { up := true, entries := fun _ => none, sockets := fun _ => [],
    companions := fun _ => none, nextSocket := 0, nextClient := 0,
    requested := fun _ => none, status := fun _ => [], closed := [] }

def system (modules : List Module) : TransitionSystem Net NetEvent where
  init net := net = initial
  step := step modules

/-- The calls made by the forked child succeed. -/
def ChildStarts (_ : Net) : NetEvent -> Prop
  | NetEvent.request r => r.env.spawn.setFd = true ∧ r.env.spawn.spawned = true
  | _ => True

/-!
# What must hold
-/

/-- The companion was started with the name and the library of the module that
the client asked for. -/
def ServesModuleOf (modules : List Module) (requested : Nat -> Option Nat)
    (c : Companion) (client : Nat) : Prop :=
  exists index m, requested client = some index ∧ modules[index]? = some m ∧
    c.name = m.name ∧ c.libFd = m.libFd

structure Safe (modules : List Module) (net : Net) : Prop where
  oneStatus : forall client, (net.status client).length ≤ 1
  granted : forall client, 1 ∈ net.status client ->
    exists sock c, net.companions sock = some c ∧ client ∈ c.taken ∧
      ServesModuleOf modules net.requested c client
  passed : forall sock c client, net.companions sock = some c ->
    client ∈ c.taken ++ c.inbox -> ServesModuleOf modules net.requested c client
  oneSocket : forall index ops, ops <+: net.sockets index -> (held ops).length ≤ 1
  entrySocket : forall index,
    held (net.sockets index) = socketOf (net.entries index)

/-- What a step of the net may do: the byte 1 comes from the companion that has
the client in its hands, and a request that finds no live companion stores what
`spawn_companion` returns, nothing when that fails. -/
structure StepSafe (modules : List Module) (net : Net) (e : NetEvent) (net' : Net) :
    Prop where
  granted : forall client, 1 ∈ net'.status client -> 1 ∉ net.status client ->
    exists sock c, e = NetEvent.companion sock ∧ net.companions sock = some c ∧
      c.phase = CompanionPhase.replying client ∧
      ServesModuleOf modules net.requested c client
  tried : forall r m, e = NetEvent.request r ->
    (r.envIn net.nextSocket).lp.bytes ≤ r.input.length ->
    modules[net.indexOf r]? = some m ->
    pollCompanion (r.envIn net.nextSocket) (net.entries (net.indexOf r)) = none ->
    forall w, exists w',
      Prog.attempt (spawnCompanion (r.envIn net.nextSocket) m) w =
        Outcome.ok (net'.entries (net.indexOf r)) w'
  kept : forall r, e = NetEvent.request r ->
    forall index, index ≠ net.indexOf r -> net'.entries index = net.entries index

end Net

/-!
# One socket for a module
-/

section Sockets

/-- The operations leave these sockets open, and never more than one before. -/
def Single (ops : List SocketOp) (socks : List Nat) : Prop :=
  held ops = socks ∧ forall ops', ops' <+: ops -> (held ops').length ≤ 1

theorem single_nil : Single [] [] := by
  refine ⟨rfl, ?_⟩
  intro ops h
  rw [List.prefix_nil.mp h]
  exact Nat.zero_le 1

theorem single_snoc {ops : List SocketOp} {socks : List Nat} (h : Single ops socks)
    (op : SocketOp) (hle : (heldStep socks op).length ≤ 1) :
    Single (ops ++ [op]) (heldStep socks op) := by
  have hheld : held (ops ++ [op]) = heldStep socks op := by
    unfold held
    rw [List.foldl_append, List.foldl_cons, List.foldl_nil]
    exact congrArg (fun socks => heldStep socks op) h.left
  refine ⟨hheld, ?_⟩
  intro ops' hprefix
  rcases List.prefix_concat_iff.mp hprefix with heq | hbefore
  · rw [heq, hheld]
    exact hle
  · exact h.right ops' hbefore

theorem single_takeOps {ops : List SocketOp} {entry : Option (Option Nat)}
    (h : Single ops (socketOf entry)) : Single (ops ++ takeOps entry) [] := by
  rcases entry with _ | _ | sock
  · show Single (ops ++ []) []
    rw [List.append_nil]
    exact h
  · show Single (ops ++ []) []
    rw [List.append_nil]
    exact h
  · have hclosed := single_snoc h (SocketOp.closed sock) (by simp [heldStep, socketOf])
    simpa [heldStep, socketOf, takeOps] using hclosed

theorem pollCompanion_some {env : RequestEnv} {entry : Option (Option Nat)}
    {companion : Option Nat} (h : pollCompanion env entry = some companion) :
    entry = some companion := by
  rcases entry with _ | _ | sock
  · cases h
  · exact h
  · unfold pollCompanion at h
    simp only at h
    split at h
    · exact h
    · cases h

theorem spawnedEntry_some {env : RequestEnv} {sock : Nat}
    (h : spawnedEntry env = some (some sock)) :
    handshakes env = true ∧ env.spawn.pair = some sock := by
  unfold spawnedEntry at h
  split at h
  · rename_i hshakes
    split at h
    · cases h
    · exact ⟨hshakes, Option.some.inj h⟩
    · cases h
  · cases h

theorem single_spawnOps {ops : List SocketOp} (env : RequestEnv)
    (h : Single ops []) :
    Single (ops ++ spawnOps env) (socketOf (spawnedEntry env)) := by
  have hnone : (forall sock, spawnedEntry env ≠ some (some sock)) ->
      socketOf (spawnedEntry env) = [] := by
    intro hne
    cases hentry : spawnedEntry env with
    | none => rfl
    | some companion =>
        cases companion with
        | none => rfl
        | some sock => exact absurd hentry (hne sock)
  unfold spawnOps
  cases hpair : env.spawn.pair with
  | none =>
      rw [hnone]
      · simpa using h
      · intro sock hsock
        cases hpair.symm.trans (spawnedEntry_some hsock).right
  | some daemon =>
      have hopened := single_snoc h (SocketOp.opened daemon) (Nat.le_refl 1)
      by_cases hentry : spawnedEntry env = some (some daemon)
      · simp only [hentry, if_true]
        exact hopened
      · have hclosed := single_snoc hopened (SocketOp.closed daemon)
          (by simp [heldStep])
        simp only [hentry, if_false]
        rw [hnone]
        · simpa [heldStep] using hclosed
        · intro sock hsock
          cases hpair.symm.trans (spawnedEntry_some hsock).right
          exact hentry hsock

theorem single_entryOps {ops : List SocketOp} {entry : Option (Option Nat)}
    (env : RequestEnv) (h : Single ops (socketOf entry)) :
    Single (ops ++ entryOps env entry) (socketOf (entryAfter env entry)) := by
  unfold entryOps entryAfter
  cases hpoll : pollCompanion env entry with
  | some companion =>
      rw [pollCompanion_some hpoll] at h
      simpa using h
  | none =>
      have hspawn := single_spawnOps env (single_takeOps h)
      rw [List.append_assoc] at hspawn
      exact hspawn

end Sockets

/-!
# Clients and the companions they are passed to
-/

namespace Net

/-- Every client is with at most one companion, that of its module, and has no
status byte while the companion still has to answer it. -/
structure Clients (modules : List Module) (companions : Nat -> Option Companion)
    (requested : Nat -> Option Nat) (status : Nat -> List Byte) (next : Nat) :
    Prop where
  known : forall sock c client, companions sock = some c ->
    client ∈ c.taken ++ c.inbox -> client < next
  served : forall sock c client, companions sock = some c ->
    client ∈ c.taken ++ c.inbox -> ServesModuleOf modules requested c client
  once : forall sock sock' c c' client, companions sock = some c ->
    companions sock' = some c' -> client ∈ c.taken ++ c.inbox ->
    client ∈ c'.taken ++ c'.inbox -> sock = sock'
  nodup : forall sock c, companions sock = some c -> (c.taken ++ c.inbox).Nodup
  replying : forall sock c client, companions sock = some c ->
    c.phase = CompanionPhase.replying client -> client ∈ c.taken ∧ status client = []
  waiting : forall sock c client, companions sock = some c -> client ∈ c.inbox ->
    status client = []
  oneStatus : forall client, (status client).length ≤ 1
  fresh : forall client, next ≤ client -> status client = []
  granted : forall client, 1 ∈ status client ->
    exists sock c, companions sock = some c ∧ client ∈ c.taken

section Clients

variable {modules : List Module} {companions : Nat -> Option Companion}
  {requested : Nat -> Option Nat} {status : Nat -> List Byte} {next : Nat}

theorem clients_initial (modules : List Module) :
    Clients modules initial.companions initial.requested initial.status
      initial.nextClient := by
  constructor
  · intro sock c client hno
    cases hno
  · intro sock c client hno
    cases hno
  · intro sock sock' c c' client hno
    cases hno
  · intro sock c hno
    cases hno
  · intro sock c client hno
    cases hno
  · intro sock c client hno
    cases hno
  · intro client
    exact Nat.zero_le 1
  · intro client _
    rfl
  · intro client hno
    cases hno

/-- What a socket leads to after one was put in place. -/
theorem update_eq_some {sock sock' : Nat} {c c' : Companion}
    (h : Function.update companions sock (some c) sock' = some c') :
    companions sock' = some c' ∨ sock' = sock ∧ c' = c := by
  by_cases heq : sock' = sock
  · rw [heq, Function.update_self] at h
    cases h
    exact Or.inr ⟨heq, rfl⟩
  · rw [Function.update_of_ne heq] at h
    exact Or.inl h

/-- One companion is put in the place of what its socket led to. -/
theorem clients_put {sock : Nat} {c : Companion}
    (h : Clients modules companions requested status next)
    (hknown : forall client, client ∈ c.taken ++ c.inbox -> client < next)
    (hserved : forall client, client ∈ c.taken ++ c.inbox ->
      ServesModuleOf modules requested c client)
    (honce : forall sock' c' client, companions sock' = some c' ->
      client ∈ c'.taken ++ c'.inbox -> client ∈ c.taken ++ c.inbox -> sock' = sock)
    (hnodup : (c.taken ++ c.inbox).Nodup)
    (hreply : forall client, c.phase = CompanionPhase.replying client ->
      client ∈ c.taken ∧ status client = [])
    (hwait : forall client, client ∈ c.inbox -> status client = [])
    (hkept : forall c' client, companions sock = some c' -> client ∈ c'.taken ->
      client ∈ c.taken) :
    Clients modules (Function.update companions sock (some c)) requested status
      next := by
  constructor
  · intro sock1 c1 client h1 hmem
    rcases update_eq_some h1 with h1 | ⟨_, heq⟩
    · exact h.known sock1 c1 client h1 hmem
    · rw [heq] at hmem
      exact hknown client hmem
  · intro sock1 c1 client h1 hmem
    rcases update_eq_some h1 with h1 | ⟨_, heq⟩
    · exact h.served sock1 c1 client h1 hmem
    · rw [heq] at hmem ⊢
      exact hserved client hmem
  · intro sock1 sock2 c1 c2 client h1 h2 hmem1 hmem2
    rcases update_eq_some h1 with h1 | ⟨hsock1, heq1⟩
    · rcases update_eq_some h2 with h2 | ⟨hsock2, heq2⟩
      · exact h.once sock1 sock2 c1 c2 client h1 h2 hmem1 hmem2
      · rw [heq2] at hmem2
        rw [hsock2]
        exact honce sock1 c1 client h1 hmem1 hmem2
    · rcases update_eq_some h2 with h2 | ⟨hsock2, _⟩
      · rw [heq1] at hmem1
        rw [hsock1]
        exact (honce sock2 c2 client h2 hmem2 hmem1).symm
      · rw [hsock1, hsock2]
  · intro sock1 c1 h1
    rcases update_eq_some h1 with h1 | ⟨_, heq⟩
    · exact h.nodup sock1 c1 h1
    · rw [heq]
      exact hnodup
  · intro sock1 c1 client h1 hphase
    rcases update_eq_some h1 with h1 | ⟨_, heq⟩
    · exact h.replying sock1 c1 client h1 hphase
    · rw [heq] at hphase ⊢
      exact hreply client hphase
  · intro sock1 c1 client h1 hmem
    rcases update_eq_some h1 with h1 | ⟨_, heq⟩
    · exact h.waiting sock1 c1 client h1 hmem
    · rw [heq] at hmem
      exact hwait client hmem
  · exact h.oneStatus
  · exact h.fresh
  · intro client hmem
    rcases h.granted client hmem with ⟨sock1, c1, h1, htaken1⟩
    by_cases heq : sock1 = sock
    · rw [heq] at h1
      exact ⟨sock, c, Function.update_self _ _ _, hkept c1 client h1 htaken1⟩
    · exact ⟨sock1, c1, (Function.update_of_ne heq _ _).trans h1, htaken1⟩

/-- A client that no companion has still to answer gets its status. -/
theorem clients_write {client : Nat} {bytes : List Byte}
    (h : Clients modules companions requested status next) (hknown : client < next)
    (hle : bytes.length ≤ 1)
    (hreplied : forall sock c, companions sock = some c ->
      c.phase ≠ CompanionPhase.replying client)
    (htook : forall sock c, companions sock = some c -> client ∉ c.inbox)
    (hgranted : 1 ∈ bytes ->
      exists sock c, companions sock = some c ∧ client ∈ c.taken) :
    Clients modules companions requested (Function.update status client bytes)
      next := by
  have hother : forall client', client' ≠ client ->
      Function.update status client bytes client' = status client' := by
    intro client' hne
    exact Function.update_of_ne hne _ _
  constructor
  · exact h.known
  · exact h.served
  · exact h.once
  · exact h.nodup
  · intro sock c client' hc hphase
    rcases h.replying sock c client' hc hphase with ⟨htaken, hempty⟩
    refine ⟨htaken, ?_⟩
    rw [hother client']
    · exact hempty
    · intro heq
      rw [heq] at hphase
      exact hreplied sock c hc hphase
  · intro sock c client' hc hmem
    rw [hother client']
    · exact h.waiting sock c client' hc hmem
    · intro heq
      rw [heq] at hmem
      exact htook sock c hc hmem
  · intro client'
    by_cases heq : client' = client
    · rw [heq, Function.update_self]
      exact hle
    · rw [hother client' heq]
      exact h.oneStatus client'
  · intro client' hnext
    rw [hother client']
    · exact h.fresh client' hnext
    · intro heq
      rw [heq] at hnext
      exact absurd hknown (Nat.not_lt.mpr hnext)
  · intro client' hmem
    by_cases heq : client' = client
    · rw [heq, Function.update_self] at hmem
      rw [heq]
      exact hgranted hmem
    · rw [hother client' heq] at hmem
      exact h.granted client' hmem

/-- A companion is replaced by one that has been passed the same clients. -/
theorem clients_replace {sock : Nat} {c c' : Companion}
    (h : Clients modules companions requested status next)
    (hc : companions sock = some c) (hname : c'.name = c.name)
    (hlib : c'.libFd = c.libFd)
    (hclients : c'.taken ++ c'.inbox = c.taken ++ c.inbox)
    (htaken : forall client, client ∈ c.taken -> client ∈ c'.taken)
    (hinbox : forall client, client ∈ c'.inbox -> client ∈ c.inbox)
    (hreply : forall client, c'.phase = CompanionPhase.replying client ->
      client ∈ c'.taken ∧ status client = []) :
    Clients modules (Function.update companions sock (some c')) requested status
      next := by
  apply clients_put h
  · intro client hmem
    rw [hclients] at hmem
    exact h.known sock c client hc hmem
  · intro client hmem
    rw [hclients] at hmem
    rcases h.served sock c client hc hmem with ⟨index, m, hreq, hm, hn, hl⟩
    exact ⟨index, m, hreq, hm, hname.trans hn, hlib.trans hl⟩
  · intro sock1 c1 client h1 hmem1 hmem
    rw [hclients] at hmem
    exact h.once sock1 sock c1 c client h1 hc hmem1 hmem
  · rw [hclients]
    exact h.nodup sock c hc
  · exact hreply
  · intro client hmem
    exact h.waiting sock c client hc (hinbox client hmem)
  · intro c1 client h1 hmem
    cases hc.symm.trans h1
    exact htaken client hmem

/-- A client with the companion gets its byte, once it does not wait any more. -/
theorem clients_grant {sock client : Nat} {c : Companion}
    (h : Clients modules companions requested status next)
    (hc : companions sock = some c) (htaken : client ∈ c.taken)
    (hphase : c.phase ≠ CompanionPhase.replying client)
    (hstatus : status client = []) :
    Clients modules companions requested
      (Function.update status client (status client ++ leBytes 1 1)) next := by
  have hone : status client ++ leBytes 1 1 = [1] := by
    rw [hstatus]
    rfl
  rw [hone]
  have hmem : client ∈ c.taken ++ c.inbox := List.mem_append_left _ htaken
  -- No other companion has the client.
  have hsame : forall sock1 c1, companions sock1 = some c1 ->
      client ∈ c1.taken ++ c1.inbox -> c1 = c := by
    intro sock1 c1 h1 hmem1
    rw [h.once sock1 sock c1 c client h1 hc hmem1 hmem, hc] at h1
    cases h1
    rfl
  apply clients_write h (h.known sock c client hc hmem)
  · exact Nat.le_refl 1
  · intro sock1 c1 h1 hphase1
    have htaken1 := (h.replying sock1 c1 client h1 hphase1).left
    rw [hsame sock1 c1 h1 (List.mem_append_left _ htaken1)] at hphase1
    exact hphase hphase1
  · intro sock1 c1 h1 hinbox1
    rw [hsame sock1 c1 h1 (List.mem_append_right _ hinbox1)] at hinbox1
    exact List.disjoint_of_nodup_append (h.nodup sock c hc) htaken hinbox1
  · intro _
    exact ⟨sock, c, hc, htaken⟩

theorem clients_companionStep {sock : Nat} {c : Companion} {closed : List Nat}
    {r : Companion × Option Nat}
    (h : Clients modules companions requested status next)
    (hc : companions sock = some c) (hstep : CompanionStep closed c r.1 r.2) :
    Clients modules (Function.update companions sock (some r.1)) requested
      (r.2.elim status (fun client =>
        Function.update status client (status client ++ leBytes 1 1))) next := by
  rcases r with ⟨c', answered⟩
  cases hstep with
  | moved phase hphase =>
      refine clients_replace h hc rfl rfl rfl (fun _ hmem => hmem)
        (fun _ hmem => hmem) ?_
      intro client hreply
      exact absurd hreply (hphase client)
  | took client rest hinbox =>
      refine clients_replace h hc rfl rfl ?_ ?_ ?_ ?_
      · simp only [hinbox, List.append_assoc, List.singleton_append]
      · intro client' hmem
        exact List.mem_append_left _ hmem
      · intro client' hmem
        rw [hinbox]
        exact List.mem_cons_of_mem client hmem
      · intro client' hreply
        cases hreply
        refine ⟨List.mem_append_right _ (List.mem_singleton_self client), ?_⟩
        apply h.waiting sock c client hc
        rw [hinbox]
        exact List.mem_cons_self
  | replied client hphase hthere =>
      rcases h.replying sock c client hc hphase with ⟨htaken, hstatus⟩
      have hreplaced : Clients modules
          (Function.update companions sock
            (some { c with phase := CompanionPhase.spawning client }))
          requested status next :=
        clients_replace h hc rfl rfl rfl (fun _ hmem => hmem) (fun _ hmem => hmem)
          (fun _ hno => by cases hno)
      refine clients_grant hreplaced (Function.update_self _ _ _) htaken ?_ hstatus
      intro hno
      cases hno

/-- A new companion, on a socket of its own. -/
theorem clients_start {sock : Nat} {c : Companion}
    (h : Clients modules companions requested status next)
    (hfree : companions sock = none) (htaken : c.taken = []) (hinbox : c.inbox = [])
    (hphase : forall client, c.phase ≠ CompanionPhase.replying client) :
    Clients modules (Function.update companions sock (some c)) requested status
      next := by
  have hnone : forall client, client ∉ c.taken ++ c.inbox := by
    intro client hmem
    rw [htaken, hinbox] at hmem
    cases hmem
  apply clients_put h
  · intro client hmem
    exact absurd hmem (hnone client)
  · intro client hmem
    exact absurd hmem (hnone client)
  · intro sock1 c1 client _ _ hmem
    exact absurd hmem (hnone client)
  · rw [htaken, hinbox]
    exact List.nodup_nil
  · intro client hreply
    exact absurd hreply (hphase client)
  · intro client hmem
    exact absurd (List.mem_append_right _ hmem) (hnone client)
  · intro c1 client h1
    cases hfree.symm.trans h1

/-- A new connection. -/
theorem clients_accept (h : Clients modules companions requested status next)
    (index : Nat) :
    Clients modules companions (Function.update requested next (some index)) status
      (next + 1) := by
  constructor
  · intro sock c client hc hmem
    exact Nat.lt_succ_of_lt (h.known sock c client hc hmem)
  · intro sock c client hc hmem
    rcases h.served sock c client hc hmem with ⟨index', m, hreq, hm⟩
    refine ⟨index', m, ?_, hm⟩
    rw [Function.update_of_ne]
    · exact hreq
    · exact Nat.ne_of_lt (h.known sock c client hc hmem)
  · exact h.once
  · exact h.nodup
  · exact h.replying
  · exact h.waiting
  · exact h.oneStatus
  · intro client hnext
    exact h.fresh client (Nat.le_of_succ_le hnext)
  · exact h.granted

/-- The client's descriptor goes to a companion. -/
theorem clients_pass {sock client : Nat} {c : Companion}
    (h : Clients modules companions requested status next)
    (hc : companions sock = some c) (hknown : client < next)
    (hnew : forall sock' c', companions sock' = some c' ->
      client ∉ c'.taken ++ c'.inbox)
    (hserves : ServesModuleOf modules requested c client)
    (hstatus : status client = []) :
    Clients modules
      (Function.update companions sock
        (some { c with inbox := c.inbox ++ [client] })) requested status next := by
  -- A client of the companion was there before, or is the new one.
  have hclient : forall client', client' ∈ c.taken ++ (c.inbox ++ [client]) ->
      client' ∈ c.taken ++ c.inbox ∨ client' = client := by
    intro client' hmem
    rw [← List.append_assoc] at hmem
    exact (List.mem_append.mp hmem).imp_right List.mem_singleton.mp
  apply clients_put h
  · intro client' hmem
    rcases hclient client' hmem with hmem | heq
    · exact h.known sock c client' hc hmem
    · rw [heq]
      exact hknown
  · intro client' hmem
    rcases hclient client' hmem with hmem | heq
    · exact h.served sock c client' hc hmem
    · rw [heq]
      exact hserves
  · intro sock1 c1 client' h1 hmem1 hmem
    rcases hclient client' hmem with hmem | heq
    · exact h.once sock1 sock c1 c client' h1 hc hmem1 hmem
    · rw [heq] at hmem1
      exact absurd hmem1 (hnew sock1 c1 h1)
  · show (c.taken ++ (c.inbox ++ [client])).Nodup
    rw [← List.append_assoc]
    refine List.nodup_append.mpr ⟨h.nodup sock c hc, List.nodup_singleton client, ?_⟩
    intro client' hmem client'' hlast heq
    rw [heq, List.mem_singleton.mp hlast] at hmem
    exact hnew sock c hc hmem
  · intro client' hphase
    exact h.replying sock c client' hc hphase
  · intro client' hmem
    rcases List.mem_append.mp hmem with hmem | hmem
    · exact h.waiting sock c client' hc hmem
    · rw [List.mem_singleton.mp hmem]
      exact hstatus
  · intro c1 client' h1 hmem
    cases hc.symm.trans h1
    exact hmem

/-- The daemon refuses a client that it has not passed on. -/
theorem clients_refuse {client : Nat}
    (h : Clients modules companions requested status next) (hknown : client < next)
    (hnew : forall sock c, companions sock = some c -> client ∉ c.taken ++ c.inbox)
    (hstatus : status client = []) :
    Clients modules companions requested
      (Function.update status client (status client ++ leBytes 1 0)) next := by
  have hzero : status client ++ leBytes 1 0 = [0] := by
    rw [hstatus]
    rfl
  rw [hzero]
  apply clients_write h hknown
  · exact Nat.le_refl 1
  · intro sock c hc hphase
    have htaken := (h.replying sock c client hc hphase).left
    exact hnew sock c hc (List.mem_append_left _ htaken)
  · intro sock c hc hmem
    exact hnew sock c hc (List.mem_append_right _ hmem)
  · intro hmem
    cases List.mem_singleton.mp hmem

end Clients

end Net

end Zygiskd
end ReZygisk
