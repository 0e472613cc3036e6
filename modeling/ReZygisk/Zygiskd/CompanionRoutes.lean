import ReZygisk.Zygiskd.CompanionSafety

/-!
# Clients reach the companion of their module

Which companion a client is passed to does not depend on the forked children.
A child that comes back from `spawn_companion` writes to the client and nothing
else, so every run has a counterpart in which all children do their part and
which differs in status bytes alone.
-/

namespace ReZygisk
namespace Zygiskd

open Foundation

namespace Net

/-!
# Stray children only refuse
-/

section Children

variable {modules : List Module} {env : RequestEnv} {forked : Bool}

theorem childEffects_refuse {input : List Byte}
    {entries : Nat -> Option (Option Nat)} {effect : Effect}
    (h : effect ∈ childEffects modules env forked (requestWorld input entries)) :
    effect = refusal := by
  unfold childEffects at h
  split at h
  · rename_i hforks
    by_cases hstarts : env.spawn.setFd = true ∧ env.spawn.spawned = true
    · rw [requestCompanionSocket_childSide hforks hstarts] at h
      cases h
    · have hboth := hforks
      unfold forksChild at hboth
      simp only [Bool.and_eq_true, decide_eq_true_eq] at hboth
      rcases hboth with ⟨⟨⟨⟨hthere, hindex⟩, hpoll⟩, _⟩, _⟩
      have hfinal := finalWorld_request modules env.childSide (Or.inr hstarts)
        (w := requestWorld input entries) hthere (List.getElem?_eq_getElem hindex)
      have hpoll' : pollCompanion env.childSide
          (entries (requestIndex env (requestWorld input entries))) = none :=
        Option.isNone_iff_eq_none.mp hpoll
      have hshakes : handshakes env.childSide = false :=
        handshakes_child env.childSide rfl
      have hentry : entryAfter env.childSide
          (entries (requestIndex env (requestWorld input entries))) = none := by
        simp only [entryAfter, hpoll', spawnedEntry, hshakes, Bool.false_eq_true,
          if_false]
      have hstarted : forall m, entryEffects env.childSide
          (entries (requestIndex env (requestWorld input entries))) m = [] := by
        intro m
        simp only [entryEffects, hpoll', spawnEffects, hshakes, Bool.false_eq_true,
          if_false]
      rw [hfinal, Option.elim_some] at h
      simp only [World.record, servedWorld] at h
      change effect ∈ ([] ++ entryEffects env.childSide
        (entries (requestIndex env (requestWorld input entries))) _) ++
          clientEffects env.childSide (entryAfter env.childSide
            (entries (requestIndex env (requestWorld input entries)))) _ at h
      rw [hentry, hstarted] at h
      simp only [clientEffects, List.append_nil, List.nil_append] at h
      split at h
      · exact List.mem_singleton.mp h
      · cases h
  · cases h

end Children

/-!
# The run in which every child does its part
-/

def starting (r : CompanionRequest) : CompanionRequest :=
  { r with env :=
    { r.env with spawn := { r.env.spawn with setFd := true, spawned := true } } }

def startingEvent : NetEvent -> NetEvent
  | NetEvent.request r => NetEvent.request (starting r)
  | e => e

/-- The nets are the same but for what the clients were sent. -/
structure SameRoutes (net net1 : Net) : Prop where
  up : net1.up = net.up
  entries : net1.entries = net.entries
  sockets : net1.sockets = net.sockets
  companions : net1.companions = net.companions
  nextSocket : net1.nextSocket = net.nextSocket
  nextClient : net1.nextClient = net.nextClient
  requested : net1.requested = net.requested
  closed : net1.closed = net.closed

section Simulation

variable {modules : List Module} {net net1 net' : Net} {r : CompanionRequest}
  {e : NetEvent}

theorem sameRoutes_refl (net : Net) : SameRoutes net net :=
  ⟨rfl, rfl, rfl, rfl, rfl, rfl, rfl, rfl⟩

theorem sameRoutes_apply (h : SameRoutes net net1) (load : LoadResult)
    (client : Nat) (effect : Effect) :
    SameRoutes (net.apply load client effect) (net1.apply load client effect) := by
  have hkeep : forall companions companions' status status', companions' = companions ->
      SameRoutes { net with companions := companions, status := status }
        { net1 with companions := companions', status := status' } := by
    intro companions companions' status status' heq
    exact ⟨h.up, h.entries, h.sockets, heq, h.nextSocket, h.nextClient, h.requested,
      h.closed⟩
  cases effect with
  | wrote bytes => exact hkeep _ _ _ _ h.companions
  | sentFd fd => exact h
  | logged record => exact h
  | startedCompanion sock name libFd =>
      apply hkeep
      rw [h.companions]
  | passedClient sock =>
      apply hkeep
      rw [h.companions]

theorem sameRoutes_foldl (h : SameRoutes net net1) (load : LoadResult)
    (client : Nat) (effects : List Effect) :
    SameRoutes (effects.foldl (apply load client) net)
      (effects.foldl (apply load client) net1) := by
  induction effects generalizing net net1 with
  | nil => exact h
  | cons effect rest ih => exact ih (sameRoutes_apply h load client effect)

/-- Effects that only refuse do not change the routes. -/
theorem sameRoutes_refusals (h : SameRoutes net net1) (load : LoadResult)
    (client : Nat) {effects : List Effect}
    (hrefuse : forall effect, effect ∈ effects -> effect = refusal) :
    SameRoutes (effects.foldl (apply load client) net) net1 := by
  induction effects generalizing net with
  | nil => exact h
  | cons effect rest ih =>
      have hrest : forall effect', effect' ∈ rest -> effect' = refusal := by
        intro effect' hmem
        exact hrefuse effect' (List.mem_cons_of_mem effect hmem)
      refine ih ?_ hrest
      rw [hrefuse effect List.mem_cons_self]
      exact ⟨h.up, h.entries, h.sockets, h.companions, h.nextSocket, h.nextClient,
        h.requested, h.closed⟩

theorem indexOf_starting (h : SameRoutes net net1) :
    net1.indexOf (starting r) = net.indexOf r := by
  unfold indexOf
  rw [h.nextSocket, h.entries]
  rfl

theorem sameRoutes_record (h : SameRoutes net net1)
    {entries entries1 : Nat -> Option (Option Nat)} {ops ops1 : List SocketOp}
    {effects extra : List Effect} (hentries : entries1 = entries) (hops : ops1 = ops)
    (hrefuse : forall effect, effect ∈ extra -> effect = refusal) :
    SameRoutes (net.record r entries ops (effects ++ extra))
      (net1.record (starting r) entries1 ops1 effects) := by
  have heffects := sameRoutes_refusals
    (sameRoutes_foldl h r.load net.nextClient effects) r.load net.nextClient hrefuse
  rw [← List.foldl_append] at heffects
  unfold record
  rw [indexOf_starting h, h.nextClient, h.nextSocket, h.sockets, h.requested, hentries,
    hops]
  exact ⟨heffects.up, rfl, rfl, heffects.companions, rfl, rfl, rfl, heffects.closed⟩

/-- The same request, with a child that does its part. -/
theorem sameRoutes_request (h : SameRoutes net net1) :
    SameRoutes (net.request modules r) (net1.request modules (starting r)) := by
  have hindex := indexOf_starting (r := r) h
  by_cases hthere : (r.envIn net.nextSocket).lp.bytes ≤ r.input.length
  · have hthere1 : ((starting r).envIn net1.nextSocket).lp.bytes ≤
        (starting r).input.length := hthere
    cases hm : modules[net.indexOf r]? with
    | none =>
        have hm1 : modules[net1.indexOf (starting r)]? = none := by
          rw [hindex]
          exact hm
        rw [request_panicked hthere hm, request_panicked hthere1 hm1]
        exact ⟨rfl, h.entries, h.sockets, h.companions, h.nextSocket, h.nextClient,
          h.requested, h.closed⟩
    | some m =>
        have hm1 : modules[net1.indexOf (starting r)]? = some m := by
          rw [hindex]
          exact hm
        have heffects : net1.effectsOf (starting r) m = net.effectsOf r m := by
          unfold effectsOf
          rw [hindex, h.nextSocket, h.entries]
          rfl
        rw [request_served hthere hm,
          request_served_once (r := starting r) ⟨rfl, rfl⟩ hthere1 hm1, heffects]
        apply sameRoutes_record h
        · unfold entriesAfter
          rw [hindex, h.nextSocket, h.entries]
          rfl
        · rw [hindex, h.nextSocket, h.entries]
          rfl
        · intro effect hmem
          exact childEffects_refuse hmem
  · have hthere1 : ¬ ((starting r).envIn net1.nextSocket).lp.bytes ≤
        (starting r).input.length := hthere
    rw [request_unread hthere, request_unread hthere1]
    show SameRoutes (net.record r net.entries [] ([] ++ [])) _
    exact sameRoutes_record h h.entries rfl (fun _ hno => by cases hno)

/-- A companion is replaced in both nets. -/
theorem sameRoutes_replied (h : SameRoutes net net1) (sock : Nat)
    (r : Companion × Option Nat) :
    SameRoutes (net.replied sock r) (net1.replied sock r) := by
  unfold replied
  rw [h.companions]
  exact ⟨h.up, h.entries, h.sockets, rfl, h.nextSocket, h.nextClient, h.requested,
    h.closed⟩

theorem sameRoutes_serveOther (h : SameRoutes net net1) (root : Root)
    (action : DaemonSocketAction) (input : List Byte) (env : RequestEnv) :
    SameRoutes (net.serveOther modules root action input env)
      (net1.serveOther modules root action input env) := by
  unfold serveOther
  rw [h.entries]
  cases finalWorld (handleDaemonAction root modules env action
      (requestWorld input net.entries)) with
  | none =>
      exact ⟨rfl, rfl, h.sockets, h.companions, h.nextSocket, h.nextClient,
        h.requested, h.closed⟩
  | some w' =>
      exact ⟨h.up, rfl, h.sockets, h.companions, h.nextSocket, h.nextClient,
        h.requested, h.closed⟩

theorem sameRoutes_step (h : SameRoutes net net1)
    (hstep : net.step modules e = some net') :
    exists net1', net1.step modules (startingEvent e) = some net1' ∧
      SameRoutes net' net1' := by
  cases step_cases hstep with
  | request r hup => exact ⟨_, if_pos (h.up.trans hup), sameRoutes_request h⟩
  | restart index hup hindex =>
      refine ⟨_, if_pos ⟨h.up.trans hup, hindex⟩, ?_⟩
      unfold restart
      rw [h.entries, h.sockets]
      exact ⟨h.up, rfl, rfl, h.companions, h.nextSocket, h.nextClient, h.requested,
        h.closed⟩
  | companion sock c r hc hr =>
      have hholds : net1.holds modules sock = net.holds modules sock := by
        unfold holds
        rw [h.up, h.entries]
      have hstep1 : net1.step modules (NetEvent.companion sock) =
          some (net1.replied sock r) := by
        simp only [step, h.companions, hc, Option.bind_some, hholds, h.closed, hr,
          Option.map_some]
      exact ⟨_, hstep1, sameRoutes_replied h sock r⟩
  | die sock how c hc =>
      have hc1 : net1.companions sock = some c := by
        rw [h.companions]
        exact hc
      exact ⟨_, Option.map_eq_some_iff.mpr ⟨c, hc1, rfl⟩, sameRoutes_replied h sock _⟩
  | close client =>
      refine ⟨_, rfl, ?_⟩
      rw [h.closed]
      exact ⟨h.up, h.entries, h.sockets, h.companions, h.nextSocket, h.nextClient,
        h.requested, rfl⟩
  | other root action input env hup hother =>
      exact ⟨_, if_pos ⟨h.up.trans hup, hother⟩,
        sameRoutes_serveOther h root action input env⟩

/-- In every run, a client's descriptor is only with the companion of the module
that it asked for. -/
theorem servesModuleOf_of_run {events : List NetEvent}
    (hrun : (system modules).run initial events = some net) {sock client : Nat}
    {c : Companion} (hc : net.companions sock = some c)
    (hmem : client ∈ c.taken ++ c.inbox) :
    ServesModuleOf modules net.requested c client := by
  rcases TransitionSystem.run_simulation (T := system modules)
      (U := system modules) (R := SameRoutes) (f := startingEvent)
      (fun _ _ _ _ h hstep => sameRoutes_step h hstep)
      (sameRoutes_refl initial) hrun with ⟨net1, hrun1, hsame⟩
  have hstarts : (system modules).AlongRun ChildStarts initial
      (events.map startingEvent) := by
    apply TransitionSystem.alongRun_of_forall
    intro s e he
    rcases List.mem_map.mp he with ⟨e', _, heq⟩
    rw [← heq]
    cases e' with
    | request r => exact ⟨rfl, rfl⟩
    | _ => trivial
  have hinv : Inv modules net1 :=
    TransitionSystem.run_invariant (T := system modules)
      (fun _ _ _ hs hP hstep => inv_step hs hP hstep) (inv_initial modules) hstarts hrun1
  rw [← hsame.companions] at hc
  rw [← hsame.requested]
  exact hinv.clients.served sock c client hc hmem

end Simulation

end Net

end Zygiskd
end ReZygisk
