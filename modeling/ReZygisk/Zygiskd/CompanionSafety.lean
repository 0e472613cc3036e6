import ReZygisk.Zygiskd.CompanionNet

/-!
# Companions are safe

The steps of a request are taken one after the other: the start of a companion,
the answer to the client, the entry that stays.  Each keeps the invariant of the
net, and so does every other event.
-/

namespace ReZygisk
namespace Zygiskd

open Foundation

namespace Net

/-!
# One request
-/

/-- The invariant of the net. -/
structure Inv (modules : List Module) (net : Net) : Prop where
  clients : Clients modules net.companions net.requested net.status net.nextClient
  free : forall sock, net.nextSocket ≤ sock -> net.companions sock = none
  started : forall index sock, net.entries index = some (some sock) ->
    exists c m, net.companions sock = some c ∧ modules[index]? = some m ∧
      c.name = m.name ∧ c.libFd = m.libFd
  single : forall index,
    Single (net.sockets index) (socketOf (net.entries index))

theorem inv_initial (modules : List Module) : Inv modules initial := by
  constructor
  · exact clients_initial modules
  · intro sock _
    rfl
  · intro index sock hno
    cases hno
  · intro index
    exact single_nil

section Request

variable {modules : List Module} {net : Net} {r : CompanionRequest}

theorem envIn_returns (r : CompanionRequest) (sock : Nat) :
    SpawnReturns (r.envIn sock) :=
  Or.inl (daemonSide_fork _ r.forked)

theorem envIn_pair {sock sock' : Nat} (h : (r.envIn sock).spawn.pair = some sock') :
    sock' = sock := by
  have hpair : r.env.spawn.pair.map (fun _ => sock) = some sock' := h
  rcases Option.map_eq_some_iff.mp hpair with ⟨_, _, heq⟩
  exact heq.symm

theorem childEffects_eq {e : RequestEnv} {forked : Bool} {w : World}
    (hstarts : e.spawn.setFd = true ∧ e.spawn.spawned = true) :
    childEffects modules e forked w = [] := by
  unfold childEffects
  split
  · rename_i hforks
    rw [requestCompanionSocket_childSide hforks hstarts]
    rfl
  · rfl

/-- The effects of a request that is about a module of the daemon. -/
def effectsOf (net : Net) (r : CompanionRequest) (m : Module) : List Effect :=
  let env := r.envIn net.nextSocket
  let entry := net.entries (net.indexOf r)
  entryEffects env entry m ++
    clientEffects env (entryAfter env entry) (entryEffects env entry m).length

/-- The entries after a request that is about a module of the daemon. -/
def entriesAfter (net : Net) (r : CompanionRequest) : Nat -> Option (Option Nat) :=
  fun index =>
    if index = net.indexOf r then
      entryAfter (r.envIn net.nextSocket) (net.entries (net.indexOf r))
    else net.entries index

theorem request_served {m : Module}
    (hthere : (r.envIn net.nextSocket).lp.bytes ≤ r.input.length)
    (hm : modules[net.indexOf r]? = some m) :
    net.request modules r =
      net.record r (net.entriesAfter r)
        (entryOps (r.envIn net.nextSocket) (net.entries (net.indexOf r)))
        (net.effectsOf r m ++ childEffects modules (r.envIn net.nextSocket) r.forked
          (requestWorld r.input net.entries)) := by
  have hindex : net.indexOf r < modules.length :=
    (List.getElem?_eq_some_iff.mp hm).choose
  have hops : requestOps (r.envIn net.nextSocket) modules
      (requestWorld r.input net.entries) =
        entryOps (r.envIn net.nextSocket) (net.entries (net.indexOf r)) :=
    if_pos ⟨hthere, hindex⟩
  have hfinal := finalWorld_request modules (r.envIn net.nextSocket)
    (envIn_returns r _) (w := requestWorld r.input net.entries) hthere hm
  unfold request
  rw [hfinal, Option.elim_some, served, hops]
  rfl

theorem request_served_once {m : Module}
    (hstarts : ChildStarts net (NetEvent.request r))
    (hthere : (r.envIn net.nextSocket).lp.bytes ≤ r.input.length)
    (hm : modules[net.indexOf r]? = some m) :
    net.request modules r =
      net.record r (net.entriesAfter r)
        (entryOps (r.envIn net.nextSocket) (net.entries (net.indexOf r)))
        (net.effectsOf r m) := by
  rw [request_served hthere hm,
    childEffects_eq (e := r.envIn net.nextSocket) hstarts, List.append_nil]

theorem request_panicked
    (hthere : (r.envIn net.nextSocket).lp.bytes ≤ r.input.length)
    (hm : modules[net.indexOf r]? = none) :
    net.request modules r = { net with up := false } := by
  have hstops : requestCompanionSocket modules (r.envIn net.nextSocket)
      (requestWorld r.input net.entries) = Outcome.stopped Stop.panicked := by
    rw [requestCompanionSocket_eq modules _ (envIn_returns r _)]
    apply (if_pos hthere).trans
    unfold indexOf at hm
    rw [hm]
  unfold request
  rw [hstops]
  rfl

theorem request_unread
    (hshort : ¬ (r.envIn net.nextSocket).lp.bytes ≤ r.input.length) :
    net.request modules r = net.record r net.entries [] [] := by
  have hops : requestOps (r.envIn net.nextSocket) modules
      (requestWorld r.input net.entries) = [] := by
    apply if_neg
    intro hno
    exact hshort hno.left
  have hends : requestCompanionSocket modules (r.envIn net.nextSocket)
      (requestWorld r.input net.entries) =
        Outcome.err Error.unexpectedEof (requestWorld [] net.entries) := by
    rw [requestCompanionSocket_eq modules _ (envIn_returns r _)]
    exact if_neg hshort
  have hchild : childEffects modules (r.envIn net.nextSocket) r.forked
      (requestWorld r.input net.entries) = [] := by
    apply if_neg
    intro hforks
    unfold forksChild at hforks
    simp only [Bool.and_eq_true, decide_eq_true_eq] at hforks
    exact hshort hforks.left.left.left.left
  unfold request
  rw [hends]
  show net.served modules r (requestWorld [] net.entries) = _
  rw [served, hops, hchild]
  rfl

/-!
# The invariant along a request
-/

/-- What the start of a companion leaves for the answer to the client. -/
structure AfterStart (modules : List Module) (net : Net) (r : CompanionRequest)
    (entry : Option (Option Nat)) (m : Module) (net1 : Net) : Prop where
  clients : Clients modules net1.companions
    (Function.update net.requested net.nextClient (some (net.indexOf r)))
    net1.status (net.nextClient + 1)
  free : forall sock, net.nextSocket + 1 ≤ sock -> net1.companions sock = none
  kept : forall sock c, net.companions sock = some c ->
    net1.companions sock = some c
  entry : forall sock, entry = some (some sock) ->
    exists c, net1.companions sock = some c ∧ c.name = m.name ∧ c.libFd = m.libFd
  status : net1.status = net.status
  new : forall sock c, net1.companions sock = some c ->
    net.nextClient ∉ c.taken ++ c.inbox

theorem start_fresh (name : List Byte) (libFd : Nat) (load : LoadResult) :
    (Companion.start name libFd load).1.name = name ∧
      (Companion.start name libFd load).1.libFd = libFd ∧
      (Companion.start name libFd load).1.taken = [] ∧
      (Companion.start name libFd load).1.inbox = [] ∧
      forall client, (Companion.start name libFd load).1.phase ≠
        CompanionPhase.replying client := by
  cases load with
  | failed => exact ⟨rfl, rfl, rfl, rfl, (fun _ hno => by cases hno)⟩
  | noEntry => exact ⟨rfl, rfl, rfl, rfl, (fun _ hno => by cases hno)⟩
  | entry => exact ⟨rfl, rfl, rfl, rfl, (fun _ hno => by cases hno)⟩

theorem afterStart_kept {m : Module} {entry : Option (Option Nat)}
    (h : Inv modules net)
    (hentry : forall sock, entry = some (some sock) ->
      exists c, net.companions sock = some c ∧ c.name = m.name ∧ c.libFd = m.libFd) :
    AfterStart modules net r entry m net := by
  constructor
  · exact clients_accept h.clients (net.indexOf r)
  · intro sock hsock
    exact h.free sock (Nat.le_of_succ_le hsock)
  · intro sock c hc
    exact hc
  · exact hentry
  · rfl
  · intro sock c hc hmem
    exact Nat.lt_irrefl _ (h.clients.known sock c net.nextClient hc hmem)

theorem afterStart_started {m : Module} {entry : Option (Option Nat)}
    (h : Inv modules net)
    (hentry : forall sock, entry = some (some sock) -> sock = net.nextSocket) :
    AfterStart modules net r entry m
      (apply r.load net.nextClient net
        (Effect.startedCompanion net.nextSocket m.name m.libFd)) := by
  rcases start_fresh m.name m.libFd r.load with
    ⟨hname, hlib, htaken, hinbox, hphase⟩
  have hfree := h.free net.nextSocket (Nat.le_refl _)
  constructor
  · exact clients_start (clients_accept h.clients (net.indexOf r)) hfree htaken
      hinbox hphase
  · intro sock hsock
    refine (Function.update_of_ne ?_ _ _).trans (h.free sock (Nat.le_of_succ_le hsock))
    exact Nat.ne_of_gt hsock
  · intro sock c hc
    refine (Function.update_of_ne ?_ _ _).trans hc
    intro heq
    rw [heq, hfree] at hc
    cases hc
  · intro sock hsock
    rw [hentry sock hsock]
    exact ⟨_, Function.update_self _ _ _, hname, hlib⟩
  · rfl
  · intro sock c hc hmem
    rcases update_eq_some hc with hold | ⟨_, hnew⟩
    · exact Nat.lt_irrefl _ (h.clients.known sock c net.nextClient hold hmem)
    · rw [hnew, htaken, hinbox] at hmem
      cases hmem

theorem afterStart_entryEffects {m : Module} (h : Inv modules net)
    (hm : modules[net.indexOf r]? = some m) :
    AfterStart modules net r
      (entryAfter (r.envIn net.nextSocket) (net.entries (net.indexOf r))) m
      ((entryEffects (r.envIn net.nextSocket) (net.entries (net.indexOf r)) m).foldl
        (apply r.load net.nextClient) net) := by
  unfold entryAfter entryEffects
  cases hpoll : pollCompanion (r.envIn net.nextSocket)
      (net.entries (net.indexOf r)) with
  | some companion =>
      apply afterStart_kept h
      intro sock hsock
      rcases h.started (net.indexOf r) sock ((pollCompanion_some hpoll).trans hsock)
        with ⟨c, m', hc, hm', hname, hlib⟩
      cases hm.symm.trans hm'
      exact ⟨c, hc, hname, hlib⟩
  | none =>
      show AfterStart modules net r (spawnedEntry (r.envIn net.nextSocket)) m
        ((spawnEffects (r.envIn net.nextSocket) m).foldl _ net)
      cases hshakes : handshakes (r.envIn net.nextSocket) with
      | false =>
          unfold spawnEffects
          rw [hshakes]
          apply afterStart_kept h
          intro sock hsock
          cases hshakes.symm.trans (spawnedEntry_some hsock).left
      | true =>
          have hpair : (r.envIn net.nextSocket).spawn.pair = some net.nextSocket := by
            cases hpair : (r.envIn net.nextSocket).spawn.pair with
            | none =>
                unfold handshakes at hshakes
                rw [hpair] at hshakes
                cases hshakes
            | some sock => rw [envIn_pair hpair]
          unfold spawnEffects
          rw [hshakes, hpair]
          apply afterStart_started h
          intro sock hsock
          exact envIn_pair (spawnedEntry_some hsock).right

theorem clientEffects_cases (env : RequestEnv) (entry : Option (Option Nat))
    (n : Nat) :
    clientEffects env entry n = [] ∨ clientEffects env entry n = [refusal] ∨
      exists sock, entry = some (some sock) ∧
        clientEffects env entry n = [Effect.passedClient sock] := by
  have hrefused : (if env.writes n then [refusal] else []) = [] ∨
      (if env.writes n then [refusal] else []) = [refusal] := by
    cases env.writes n with
    | true => exact Or.inr rfl
    | false => exact Or.inl rfl
  have hnotPassed : clientEffects env entry n =
      (if env.writes n then [refusal] else []) ->
      clientEffects env entry n = [] ∨ clientEffects env entry n = [refusal] := by
    intro heq
    rw [heq]
    exact hrefused
  rcases entry with _ | _ | sock
  · exact (hnotPassed rfl).imp_right Or.inl
  · exact (hnotPassed rfl).imp_right Or.inl
  · cases hpassed : env.clientPassed with
    | true =>
        refine Or.inr (Or.inr ⟨sock, rfl, ?_⟩)
        simp only [clientEffects, hpassed, if_true]
    | false =>
        refine (hnotPassed ?_).imp_right Or.inl
        simp only [clientEffects, hpassed, Bool.false_eq_true, if_false]

/-- What the answer leaves in the net. -/
structure AfterAnswer (modules : List Module) (net : Net) (r : CompanionRequest)
    (entry : Option (Option Nat)) (m : Module) (net2 : Net) : Prop where
  clients : Clients modules net2.companions
    (Function.update net.requested net.nextClient (some (net.indexOf r)))
    net2.status (net.nextClient + 1)
  free : forall sock, net.nextSocket + 1 ≤ sock -> net2.companions sock = none
  kept : forall sock c, net.companions sock = some c ->
    exists c', net2.companions sock = some c' ∧ c'.name = c.name ∧
      c'.libFd = c.libFd
  entry : forall sock, entry = some (some sock) ->
    exists c, net2.companions sock = some c ∧ c.name = m.name ∧ c.libFd = m.libFd
  ungranted : forall client, 1 ∈ net2.status client -> 1 ∈ net.status client

theorem afterAnswer_of_start {m : Module} {entry : Option (Option Nat)} {net1 : Net}
    (h : AfterStart modules net r entry m net1) :
    AfterAnswer modules net r entry m net1 := by
  constructor
  · exact h.clients
  · exact h.free
  · intro sock c hc
    exact ⟨c, h.kept sock c hc, rfl, rfl⟩
  · exact h.entry
  · intro client hmem
    rw [h.status] at hmem
    exact hmem

theorem afterAnswer_refused {m : Module} {entry : Option (Option Nat)} {net1 : Net}
    (h : AfterStart modules net r entry m net1)
    (hempty : net1.status net.nextClient = []) :
    AfterAnswer modules net r entry m
      (apply r.load net.nextClient net1 refusal) := by
  constructor
  · exact clients_refuse h.clients (Nat.lt_succ_self _) h.new hempty
  · exact h.free
  · intro sock c hc
    exact ⟨c, h.kept sock c hc, rfl, rfl⟩
  · exact h.entry
  · intro client hmem
    have hstatus : 1 ∈ Function.update net1.status net.nextClient
        (net1.status net.nextClient ++ leBytes 1 0) client := hmem
    by_cases heq : client = net.nextClient
    · rw [heq, Function.update_self, hempty] at hstatus
      cases List.mem_singleton.mp hstatus
    · rw [Function.update_of_ne heq, h.status] at hstatus
      exact hstatus

theorem afterAnswer_passed {m : Module} {sock : Nat} {net1 : Net}
    (hm : modules[net.indexOf r]? = some m)
    (h : AfterStart modules net r (some (some sock)) m net1)
    (hempty : net1.status net.nextClient = []) :
    AfterAnswer modules net r (some (some sock)) m
      (apply r.load net.nextClient net1 (Effect.passedClient sock)) := by
  rcases h.entry sock rfl with ⟨c, hc, hname, hlib⟩
  have hcompanions : (apply r.load net.nextClient net1
      (Effect.passedClient sock)).companions =
        Function.update net1.companions sock
          (some { c with inbox := c.inbox ++ [net.nextClient] }) := by
    simp only [apply, hc, Option.map_some]
  have hsame : forall sock' c', net1.companions sock' = some c' ->
      exists c'', (apply r.load net.nextClient net1
          (Effect.passedClient sock)).companions sock' = some c'' ∧
        c''.name = c'.name ∧ c''.libFd = c'.libFd := by
    intro sock' c' hc'
    rw [hcompanions]
    by_cases heq : sock' = sock
    · rw [heq, hc] at hc'
      cases hc'
      rw [heq]
      exact ⟨_, Function.update_self _ _ _, rfl, rfl⟩
    · exact ⟨c', (Function.update_of_ne heq _ _).trans hc', rfl, rfl⟩
  constructor
  · rw [hcompanions]
    refine clients_pass h.clients hc (Nat.lt_succ_self _) h.new ?_ hempty
    exact ⟨net.indexOf r, m, Function.update_self _ _ _, hm, hname, hlib⟩
  · intro sock' hsock'
    rw [hcompanions, Function.update_of_ne]
    · exact h.free sock' hsock'
    · intro heq
      rw [heq] at hsock'
      cases hc.symm.trans (h.free sock hsock')
  · intro sock' c' hc'
    exact hsame sock' c' (h.kept sock' c' hc')
  · intro sock' hsock'
    rcases h.entry sock' hsock' with ⟨c', hc', hname', hlib'⟩
    rcases hsame sock' c' hc' with ⟨c'', hc'', hname'', hlib''⟩
    exact ⟨c'', hc'', hname''.trans hname', hlib''.trans hlib'⟩
  · intro client hmem
    have hstatus : 1 ∈ net1.status client := hmem
    rw [h.status] at hstatus
    exact hstatus

theorem afterAnswer_clientEffects {m : Module} {entry : Option (Option Nat)}
    {net1 : Net} (hinv : Inv modules net) (hm : modules[net.indexOf r]? = some m)
    (h : AfterStart modules net r entry m net1) (env : RequestEnv) (n : Nat) :
    AfterAnswer modules net r entry m
      ((clientEffects env entry n).foldl (apply r.load net.nextClient) net1) := by
  have hempty : net1.status net.nextClient = [] := by
    rw [h.status]
    exact hinv.clients.fresh net.nextClient (Nat.le_refl _)
  rcases clientEffects_cases env entry n with hnone | hrefused | ⟨sock, hsock, hpassed⟩
  · rw [hnone]
    exact afterAnswer_of_start h
  · rw [hrefused]
    exact afterAnswer_refused h hempty
  · rw [hpassed]
    rw [hsock] at h ⊢
    exact afterAnswer_passed hm h hempty

theorem afterAnswer_effectsOf {m : Module} (h : Inv modules net)
    (hm : modules[net.indexOf r]? = some m) :
    AfterAnswer modules net r
      (entryAfter (r.envIn net.nextSocket) (net.entries (net.indexOf r))) m
      ((net.effectsOf r m).foldl (apply r.load net.nextClient) net) := by
  unfold effectsOf
  rw [List.foldl_append]
  exact afterAnswer_clientEffects h hm (afterStart_entryEffects h hm) _ _

theorem inv_served {m : Module} (h : Inv modules net)
    (hm : modules[net.indexOf r]? = some m) :
    Inv modules (net.record r (net.entriesAfter r)
      (entryOps (r.envIn net.nextSocket) (net.entries (net.indexOf r)))
      (net.effectsOf r m)) := by
  have hafter := afterAnswer_effectsOf h hm
  constructor
  · exact hafter.clients
  · exact hafter.free
  · intro index sock hentry
    by_cases heq : index = net.indexOf r
    · have hsock : entryAfter (r.envIn net.nextSocket) (net.entries (net.indexOf r)) =
          some (some sock) := (if_pos heq).symm.trans hentry
      rcases hafter.entry sock hsock with ⟨c, hc, hname, hlib⟩
      rw [heq]
      exact ⟨c, m, hc, hm, hname, hlib⟩
    · have hsock : net.entries index = some (some sock) :=
        (if_neg heq).symm.trans hentry
      rcases h.started index sock hsock with ⟨c, m', hc, hm', hname, hlib⟩
      rcases hafter.kept sock c hc with ⟨c', hc', hname', hlib'⟩
      exact ⟨c', m', hc', hm', hname'.trans hname, hlib'.trans hlib⟩
  · intro index
    simp only [record, entriesAfter]
    by_cases heq : index = net.indexOf r
    · rw [heq, Function.update_self, if_pos rfl]
      exact single_entryOps _ (h.single (net.indexOf r))
    · rw [Function.update_of_ne heq, if_neg heq]
      exact h.single index

theorem inv_unread (h : Inv modules net) :
    Inv modules (net.record r net.entries [] []) := by
  constructor
  · exact clients_accept h.clients (net.indexOf r)
  · intro sock hsock
    exact h.free sock (Nat.le_of_succ_le hsock)
  · exact h.started
  · intro index
    simp only [record, List.append_nil, Function.update_eq_self]
    exact h.single index

theorem inv_request (h : Inv modules net)
    (hstarts : ChildStarts net (NetEvent.request r)) :
    Inv modules (net.request modules r) := by
  by_cases hthere : (r.envIn net.nextSocket).lp.bytes ≤ r.input.length
  · cases hm : modules[net.indexOf r]? with
    | none =>
        rw [request_panicked hthere hm]
        exact ⟨h.clients, h.free, h.started, h.single⟩
    | some m =>
        rw [request_served_once hstarts hthere hm]
        exact inv_served h hm
  · rw [request_unread hthere]
    exact inv_unread h

/-- A request gives no client the byte 1. -/
theorem request_ungranted (h : Inv modules net)
    (hstarts : ChildStarts net (NetEvent.request r)) {client : Nat}
    (hmem : 1 ∈ (net.request modules r).status client) :
    1 ∈ net.status client := by
  by_cases hthere : (r.envIn net.nextSocket).lp.bytes ≤ r.input.length
  · cases hm : modules[net.indexOf r]? with
    | none =>
        rw [request_panicked hthere hm] at hmem
        exact hmem
    | some m =>
        rw [request_served_once hstarts hthere hm] at hmem
        exact (afterAnswer_effectsOf h hm).ungranted client hmem
  · rw [request_unread hthere] at hmem
    exact hmem

theorem request_kept (hstarts : ChildStarts net (NetEvent.request r)) {index : Nat}
    (hne : index ≠ net.indexOf r) :
    (net.request modules r).entries index = net.entries index := by
  by_cases hthere : (r.envIn net.nextSocket).lp.bytes ≤ r.input.length
  · cases hm : modules[net.indexOf r]? with
    | none => rw [request_panicked hthere hm]
    | some m =>
        rw [request_served_once hstarts hthere hm]
        exact if_neg hne
  · rw [request_unread hthere]
    rfl

/-- Without a live companion, the entry is what `spawn_companion` returns. -/
theorem request_tried {m : Module} (hstarts : ChildStarts net (NetEvent.request r))
    (hthere : (r.envIn net.nextSocket).lp.bytes ≤ r.input.length)
    (hm : modules[net.indexOf r]? = some m)
    (hpoll : pollCompanion (r.envIn net.nextSocket) (net.entries (net.indexOf r)) =
      none) (w : World) :
    exists w', Prog.attempt (spawnCompanion (r.envIn net.nextSocket) m) w =
      Outcome.ok ((net.request modules r).entries (net.indexOf r)) w' := by
  have hentry : (net.request modules r).entries (net.indexOf r) =
      spawnedEntry (r.envIn net.nextSocket) := by
    rw [request_served_once hstarts hthere hm]
    simp only [record, entriesAfter, if_true, entryAfter, hpoll]
  rw [hentry]
  exact ⟨_, attempt_spawnCompanion _ (envIn_returns r _) m w⟩

end Request

/-!
# Every run
-/

section Runs

variable {modules : List Module} {net net' : Net} {e : NetEvent}

theorem inv_restart {index : Nat} (h : Inv modules net) :
    Inv modules (net.restart index) := by
  constructor
  · exact h.clients
  · exact h.free
  · intro index' sock hentry
    by_cases heq : index' = index
    · rw [heq] at hentry
      cases (Function.update_self index _ net.entries).symm.trans hentry
    · exact h.started index' sock
        ((Function.update_of_ne heq _ net.entries).symm.trans hentry)
  · intro index'
    simp only [restart]
    by_cases heq : index' = index
    · rw [heq, Function.update_self, Function.update_self]
      exact single_takeOps (h.single index)
    · rw [Function.update_of_ne heq, Function.update_of_ne heq]
      exact h.single index'

/-- The other requests change nothing that the net keeps, unless they panic. -/
theorem serveOther_eq {root : Root} {action : DaemonSocketAction}
    {input : List Byte} {env : RequestEnv}
    (h : action ≠ DaemonSocketAction.requestCompanionSocket) :
    net.serveOther modules root action input env = net ∨
      net.serveOther modules root action input env = { net with up := false } := by
  have hkeeps := keeps_handleDaemonAction root modules env h
    (requestWorld input net.entries)
  unfold serveOther
  cases hrun : handleDaemonAction root modules env action
      (requestWorld input net.entries) with
  | ok a w' =>
      have hentries : w'.companions = net.entries := hkeeps.left a w' hrun
      left
      simp only [finalWorld, Option.elim_some, hentries]
  | err e w' =>
      have hentries : w'.companions = net.entries := hkeeps.right e w' hrun
      left
      simp only [finalWorld, Option.elim_some, hentries]
  | stopped how => exact Or.inr rfl

/-- A companion takes a step, or ends. -/
theorem inv_companionStep {sock : Nat} {c : Companion} {closed : List Nat}
    {r : Companion × Option Nat} (h : Inv modules net)
    (hc : net.companions sock = some c) (hstep : CompanionStep closed c r.1 r.2) :
    Inv modules (net.replied sock r) := by
  have hstarted : r.1.name = c.name ∧ r.1.libFd = c.libFd := by
    rcases r with ⟨c', answered⟩
    cases hstep with
    | moved phase hphase => exact ⟨rfl, rfl⟩
    | took client rest hinbox => exact ⟨rfl, rfl⟩
    | replied client hphase hthere => exact ⟨rfl, rfl⟩
  constructor
  · exact clients_companionStep h.clients hc hstep
  · intro sock' hsock'
    refine (Function.update_of_ne ?_ _ _).trans (h.free sock' hsock')
    intro heq
    rw [heq] at hsock'
    cases hc.symm.trans (h.free sock hsock')
  · intro index sock' hentry
    rcases h.started index sock' hentry with ⟨c', m, hc', hm, hname, hlib⟩
    by_cases heq : sock' = sock
    · rw [heq, hc] at hc'
      cases hc'
      rw [heq]
      exact ⟨r.1, m, Function.update_self _ _ _, hm, hstarted.left.trans hname,
        hstarted.right.trans hlib⟩
    · exact ⟨c', m, (Function.update_of_ne heq _ _).trans hc', hm, hname, hlib⟩
  · exact h.single

theorem inv_step (h : Inv modules net) (hstarts : ChildStarts net e)
    (hstep : net.step modules e = some net') : Inv modules net' := by
  cases step_cases hstep with
  | request r hup => exact inv_request h hstarts
  | restart index hup hindex => exact inv_restart h
  | companion sock c r hc hr =>
      exact inv_companionStep h hc (Companion.step_cases hr)
  | die sock how c hc =>
      have hends : CompanionStep net.closed c
          { c with phase := CompanionPhase.ended how } none :=
        CompanionStep.moved _ (fun _ hno => by cases hno)
      exact inv_companionStep (r := (_, none)) h hc hends
  | close client => exact ⟨h.clients, h.free, h.started, h.single⟩
  | other root action input env hup hother =>
      rcases serveOther_eq hother with heq | heq
      · rw [heq]
        exact h
      · rw [heq]
        exact ⟨h.clients, h.free, h.started, h.single⟩

theorem safe_of_inv (h : Inv modules net) : Safe modules net := by
  constructor
  · exact h.clients.oneStatus
  · intro client hmem
    rcases h.clients.granted client hmem with ⟨sock, c, hc, htaken⟩
    exact ⟨sock, c, hc, htaken,
      h.clients.served sock c client hc (List.mem_append_left _ htaken)⟩
  · exact h.clients.served
  · intro index
    exact (h.single index).right
  · intro index
    exact (h.single index).left

/-- A companion answers the client that it has in its hands. -/
theorem granted_replied {sock client : Nat} {c : Companion}
    {r : Companion × Option Nat} (h : Inv modules net)
    (hc : net.companions sock = some c)
    (hstep : CompanionStep net.closed c r.1 r.2)
    (hmem : 1 ∈ (net.replied sock r).status client) (hbefore : 1 ∉ net.status client) :
    c.phase = CompanionPhase.replying client ∧
      ServesModuleOf modules net.requested c client := by
  rcases r with ⟨c', answered⟩
  cases hstep with
  | moved phase hphase => exact absurd hmem hbefore
  | took client' rest hinbox => exact absurd hmem hbefore
  | replied client' hphase hthere =>
      have hclient : client = client' := by
        by_contra hne
        apply hbefore
        have hstatus : 1 ∈ Function.update net.status client'
            (net.status client' ++ leBytes 1 1) client := hmem
        rw [Function.update_of_ne hne] at hstatus
        exact hstatus
      have htaken := (h.clients.replying sock c client' hc hphase).left
      rw [hclient]
      exact ⟨hphase,
        h.clients.served sock c client' hc (List.mem_append_left _ htaken)⟩

theorem stepSafe_of_inv (h : Inv modules net) (hstarts : ChildStarts net e)
    (hstep : net.step modules e = some net') : StepSafe modules net e net' := by
  have hrequest : forall r, e = NetEvent.request r ->
      net' = net.request modules r := by
    intro r he
    rw [he] at hstep
    cases step_cases hstep with
    | request r hup => rfl
  constructor
  · intro client hmem hbefore
    cases step_cases hstep with
    | request r hup => exact absurd (request_ungranted h hstarts hmem) hbefore
    | restart index hup hindex => exact absurd hmem hbefore
    | companion sock c r hc hr =>
        have hgranted := granted_replied h hc (Companion.step_cases hr) hmem hbefore
        exact ⟨sock, c, rfl, hc, hgranted⟩
    | die sock how c hc => exact absurd hmem hbefore
    | close client' => exact absurd hmem hbefore
    | other root action input env hup hother =>
        rcases serveOther_eq hother with heq | heq
        · rw [heq] at hmem
          exact absurd hmem hbefore
        · rw [heq] at hmem
          exact absurd hmem hbefore
  · intro r m he hthere hm hpoll w
    rw [hrequest r he]
    rw [he] at hstarts
    exact request_tried hstarts hthere hm hpoll w
  · intro r he index hne
    rw [hrequest r he]
    rw [he] at hstarts
    exact request_kept hstarts hne

/-- However requests, restarts and companions interleave, the net is safe after
every run and at every further step, as long as the forked children do their
part. -/
theorem companions_safe (modules : List Module) (events : List NetEvent) (net : Net)
    (hstarts : (system modules).AlongRun ChildStarts initial events)
    (hrun : (system modules).run initial events = some net) :
    Safe modules net ∧
      forall e net', ChildStarts net e -> net.step modules e = some net' ->
        StepSafe modules net e net' := by
  have hinv : Inv modules net :=
    TransitionSystem.run_invariant (T := system modules)
      (fun _ _ _ hs hP hstep => inv_step hs hP hstep) (inv_initial modules) hstarts hrun
  constructor
  · exact safe_of_inv hinv
  · intro e net' hchild hstep
    exact stepSafe_of_inv hinv hchild hstep

/-- A request for the first module, whose companion loads. -/
def askFirst : CompanionRequest :=
  { input := leBytes 8 0, env := plainEnv, forked := true, load := LoadResult.entry }

/-- The companion is started, takes the client and answers it. -/
theorem companions_safe_client_served :
    exists net,
      (system [⟨bytesOf "module", 10⟩]).run initial
        [NetEvent.request askFirst, NetEvent.companion 0, NetEvent.companion 0,
          NetEvent.companion 0] = some net ∧
      net.status 0 = [1] ∧ Safe [⟨bytesOf "module", 10⟩] net := by
  have hstarts : (system [⟨bytesOf "module", 10⟩]).AlongRun ChildStarts initial
      [NetEvent.request askFirst, NetEvent.companion 0, NetEvent.companion 0,
        NetEvent.companion 0] :=
    ⟨⟨rfl, rfl⟩, (fun _ _ => ⟨trivial, (fun _ _ => ⟨trivial, (fun _ _ =>
      ⟨trivial, (fun _ _ => trivial)⟩)⟩)⟩)⟩
  refine ⟨_, rfl, rfl, ?_⟩
  exact (companions_safe _ _ _ hstarts rfl).left

end Runs

end Net

end Zygiskd
end ReZygisk
