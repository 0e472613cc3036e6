import ReZygisk.Zygiskd.Panics

/-!
# Asking for a companion

What a `RequestCompanionSocket` request does to the companion entry of its
module and to its client.  `spawn_companion` forks, and the child that cannot
start the companion returns into the daemon's code, with the client's socket in
its hands.
-/

namespace ReZygisk
namespace Zygiskd

open Foundation
open Kernel

/-!
# The daemon's side
-/

section Daemon

variable (env : RequestEnv)

/-- Whether the daemon gets as far as waiting for the answer of a companion. -/
def handshakes : Bool :=
  env.spawn.pair.isSome && decide (env.spawn.fork = ForkResult.parent) &&
    WIFEXITED env.spawn.status && WEXITSTATUS env.spawn.status == 0 &&
    env.spawn.nameWritten && env.spawn.fdSent

/-- The entry that a spawn leaves, unset when it fails. -/
def spawnedEntry : Option (Option Nat) :=
  if handshakes env then
    match env.spawn.answer with
    | some 0 => some none
    | some 1 => some env.spawn.pair
    | _ => none
  else
    none

def spawnEffects (m : Module) : List Effect :=
  if handshakes env then
    (env.spawn.pair.map (fun daemon =>
      Effect.startedCompanion daemon m.name m.libFd)).toList
  else
    []

def World.record (w : World) (effects : List Effect) : World :=
  { w with effects := w.effects ++ effects }

theorem World.record_nil (w : World) : w.record [] = w := by
  unfold World.record
  rw [List.append_nil]

/-- A spawn that does not get to the handshake leaves no trace. -/
theorem attempt_fail_eq {m : Module} (h : handshakes env = false) (w : World) :
    Prog.attempt (Prog.fail Error.spawnFailed : Handler (Option Nat)) w =
      Outcome.ok (spawnedEntry env) (w.record (spawnEffects env m)) := by
  unfold spawnedEntry spawnEffects
  rw [h]
  simp only [Bool.false_eq_true, if_false]
  rw [World.record_nil]
  rfl

theorem attempt_awaitCompanion {m : Module} {daemon : Nat}
    (hpair : env.spawn.pair = some daemon)
    (hfork : env.spawn.fork = ForkResult.parent) (w : World) :
    Prog.attempt (awaitCompanion env m daemon) w =
      Outcome.ok (spawnedEntry env) (w.record (spawnEffects env m)) := by
  have hshakes : handshakes env =
      (WIFEXITED env.spawn.status && WEXITSTATUS env.spawn.status == 0 &&
        env.spawn.nameWritten && env.spawn.fdSent) := by
    unfold handshakes
    rw [hpair, hfork]
    simp only [Option.isSome_some, decide_true, Bool.true_and]
  unfold awaitCompanion
  rw [← hshakes]
  cases h : handshakes env with
  | false => exact attempt_fail_eq env h w
  | true =>
      have hentry : spawnEffects env m =
          [Effect.startedCompanion daemon m.name m.libFd] := by
        unfold spawnEffects
        rw [if_pos h, hpair]
        rfl
      unfold spawnedEntry
      rw [if_pos h, hentry, hpair]
      simp only [if_true]
      generalize env.spawn.answer = answer
      rcases answer with _ | _ | _ | n
      · rfl
      · rfl
      · rfl
      · rfl

/-- The process is the daemon, or a forked child that comes back from the spawn. -/
def SpawnReturns : Prop :=
  env.spawn.fork ≠ ForkResult.child ∨
    ¬ (env.spawn.setFd = true ∧ env.spawn.spawned = true)

theorem handshakes_child (hfork : env.spawn.fork = ForkResult.child) :
    handshakes env = false := by
  unfold handshakes
  rw [hfork]
  simp only [reduceCtorEq, decide_false, Bool.and_false, Bool.false_and]

theorem attempt_spawnCompanion (hreturns : SpawnReturns env) (m : Module)
    (w : World) :
    Prog.attempt (spawnCompanion env m) w =
      Outcome.ok (spawnedEntry env) (w.record (spawnEffects env m)) := by
  unfold spawnCompanion
  cases hpair : env.spawn.pair with
  | none =>
      apply attempt_fail_eq
      unfold handshakes
      rw [hpair]
      rfl
  | some daemon =>
      cases hresult : env.spawn.fork with
      | failed =>
          apply attempt_fail_eq
          unfold handshakes
          rw [hpair, hresult]
          rfl
      | parent => exact attempt_awaitCompanion env hpair hresult w
      | child =>
          have hfails := hreturns.resolve_left (not_not_intro hresult)
          have hstart : startCompanion env = Prog.fail Error.spawnFailed := by
            apply if_neg
            rw [Bool.and_eq_true]
            exact hfails
          simp only [hstart]
          exact attempt_fail_eq env (handshakes_child env hresult) w

end Daemon

/-!
# One request
-/

section Request

variable (modules : List Module) (env : RequestEnv)

def requestIndex (w : World) : Nat :=
  leValue (w.input.take env.lp.bytes)

/-- The companion entry that a request finds its client an answer with. -/
def entryAfter (entry : Option (Option Nat)) : Option (Option Nat) :=
  match pollCompanion env entry with
  | some companion => some companion
  | none => spawnedEntry env

def entryEffects (entry : Option (Option Nat)) (m : Module) : List Effect :=
  match pollCompanion env entry with
  | some _ => []
  | none => spawnEffects env m

theorem ensureCompanion_eq (hreturns : SpawnReturns env) (index : Nat) (m : Module)
    (w : World) :
    ensureCompanion env index m w =
      Outcome.ok (entryAfter env (w.companions index))
        (w.record (entryEffects env (w.companions index) m)) := by
  unfold ensureCompanion entryAfter entryEffects
  cases pollCompanion env (w.companions index) with
  | some companion =>
      simp only
      rw [World.record_nil]
  | none => exact attempt_spawnCompanion env hreturns m w

/-- The world in which the client is answered. -/
def servedWorld (w : World) (m : Module) : World :=
  { input := w.input.drop env.lp.bytes
    effects := w.effects ++ entryEffects env (w.companions (requestIndex env w)) m
    companions := fun i =>
      if i = requestIndex env w then
        entryAfter env (w.companions (requestIndex env w))
      else w.companions i }

/-- Every way in which a process serves a request for a companion to its end. -/
theorem requestCompanionSocket_eq (hreturns : SpawnReturns env) (w : World) :
    requestCompanionSocket modules env w =
      if env.lp.bytes ≤ w.input.length then
        match modules[requestIndex env w]? with
        | none => Outcome.stopped Stop.panicked
        | some m =>
            answerClient env (entryAfter env (w.companions (requestIndex env w)))
              (servedWorld env w m)
      else Outcome.err Error.unexpectedEof { w with input := [] } := by
  have hread := readNumber_eq env.lp.bytes w
  split
  · rename_i hthere
    rw [if_pos hthere] at hread
    unfold requestCompanionSocket readUsize
    rw [Prog.bind_of_ok hread]
    change (getModule modules (requestIndex env w) >>= _) _ = _
    cases hm : modules[requestIndex env w]? with
    | none =>
        have hpanic : forall w' : World,
            getModule modules (requestIndex env w) w' =
              Outcome.stopped Stop.panicked := by
          intro w'
          unfold getModule
          rw [hm]
          rfl
        rw [Prog.bind_run, hpanic]
    | some m =>
        have hget : forall w' : World,
            getModule modules (requestIndex env w) w' = Outcome.ok m w' := by
          intro w'
          unfold getModule
          rw [hm]
          rfl
        rw [Prog.bind_of_ok (hget _),
          Prog.bind_of_ok (ensureCompanion_eq env hreturns _ m _)]
        rfl
  · rename_i hthere
    rw [if_neg hthere] at hread
    exact Prog.bind_of_err hread

end Request

/-!
# What the client sees
-/

def finalWorld {α : Type} : Outcome World Error α -> Option World
  | Outcome.ok _ w => some w
  | Outcome.err _ w => some w
  | Outcome.stopped _ => none

section Answer

variable (modules : List Module) (env : RequestEnv)

def refusal : Effect := Effect.wrote (leBytes 1 0)

/-- What the answer adds after `n` effects. -/
def clientEffects (companion : Option (Option Nat)) (n : Nat) : List Effect :=
  let refused := if env.writes n then [refusal] else []
  match companion with
  | some (some sock) =>
      if env.clientPassed then [Effect.passedClient sock] else refused
  | _ => refused

theorem finalWorld_refuse (w : World) :
    finalWorld (writeU8 env.toSurroundings 0 w) =
      some (w.record (if env.writes w.effects.length then [refusal] else [])) := by
  unfold writeU8 writeAll tryEmit
  cases env.writes w.effects.length with
  | true => rfl
  | false =>
      simp only [Bool.false_eq_true, if_false]
      rw [World.record_nil]
      rfl

theorem finalWorld_answerClient (companion : Option (Option Nat)) (w : World) :
    finalWorld (answerClient env companion w) =
      some (w.record (clientEffects env companion w.effects.length)) := by
  rcases companion with _ | _ | sock
  · exact finalWorld_refuse env w
  · exact finalWorld_refuse env w
  · unfold answerClient clientEffects passClient
    cases env.clientPassed with
    | true => rfl
    | false => exact finalWorld_refuse env w

/-- The world that a served request leaves. -/
theorem finalWorld_request (hreturns : SpawnReturns env) {w : World}
    (hthere : env.lp.bytes ≤ w.input.length) {m : Module}
    (hm : modules[requestIndex env w]? = some m) :
    finalWorld (requestCompanionSocket modules env w) =
      some ((servedWorld env w m).record
        (clientEffects env (entryAfter env (w.companions (requestIndex env w)))
          (servedWorld env w m).effects.length)) := by
  rw [requestCompanionSocket_eq modules env hreturns, if_pos hthere, hm]
  exact finalWorld_answerClient env _ _

end Answer

/-!
# Two processes after the fork
-/

def RequestEnv.inProcess (env : RequestEnv) (result : ForkResult) : RequestEnv :=
  { env with spawn := { env.spawn with fork := result } }

/-- The daemon, which sees whether the fork succeeded. -/
def RequestEnv.daemonSide (env : RequestEnv) (forked : Bool) : RequestEnv :=
  env.inProcess (if forked then ForkResult.parent else ForkResult.failed)

def RequestEnv.childSide (env : RequestEnv) : RequestEnv :=
  env.inProcess ForkResult.child

/-- The request comes to a fork that succeeds, so that a child goes on from
there. -/
def forksChild (modules : List Module) (env : RequestEnv) (forked : Bool)
    (w : World) : Bool :=
  decide (env.lp.bytes ≤ w.input.length) &&
    decide (requestIndex env w < modules.length) &&
    (pollCompanion env (w.companions (requestIndex env w))).isNone &&
    env.spawn.pair.isSome && forked

def requestWorld (input : List Byte) (companions : Nat -> Option (Option Nat)) :
    World :=
  { input := input, effects := [], companions := companions }

/-- The failure bytes that a process has written when it is done with the
request. -/
def zeroBytes (outcome : Outcome World Error Unit) : Nat :=
  match finalWorld outcome with
  | some w => w.effects.count refusal
  | none => 0

structure SpawnContract (modules : List Module) (env : RequestEnv) (forked : Bool) :
    Prop where
  daemonReturns : forall m w how,
    spawnCompanion (env.daemonSide forked) m w ≠ Outcome.stopped how
  childEnds : env.spawn.pair.isSome = true -> forked = true -> forall m w,
    exists code, spawnCompanion env.childSide m w =
        Outcome.stopped (Stop.exited code) ∧
      (¬ (env.spawn.setFd = true ∧ env.spawn.spawned = true) -> code ≠ 0)
  oneFailureByte : forall input companions,
    zeroBytes (requestCompanionSocket modules (env.daemonSide forked)
        (requestWorld input companions)) +
      (if forksChild modules env forked (requestWorld input companions) then
        zeroBytes (requestCompanionSocket modules env.childSide
          (requestWorld input companions))
      else 0) ≤ 1

section Contract

variable {modules : List Module} {env : RequestEnv} {forked : Bool}

theorem daemonSide_fork (env : RequestEnv) (forked : Bool) :
    (env.daemonSide forked).spawn.fork ≠ ForkResult.child := by
  cases forked with
  | true =>
      intro h
      cases h
  | false =>
      intro h
      cases h

theorem count_entryEffects (env : RequestEnv) (entry : Option (Option Nat))
    (m : Module) : (entryEffects env entry m).count refusal = 0 := by
  unfold entryEffects spawnEffects
  split
  · rfl
  · split
    · cases env.spawn.pair with
      | none => rfl
      | some daemon => rfl
    · rfl

theorem count_clientEffects (env : RequestEnv) (companion : Option (Option Nat))
    (n : Nat) : (clientEffects env companion n).count refusal ≤ 1 := by
  have hrefused : (if env.writes n then [refusal] else []).count refusal ≤ 1 := by
    split
    · exact Nat.le_refl 1
    · exact Nat.zero_le 1
  rcases companion with _ | _ | sock
  · exact hrefused
  · exact hrefused
  · unfold clientEffects
    cases env.clientPassed with
    | true => exact Nat.zero_le 1
    | false => exact hrefused

theorem zeroBytes_le (hreturns : SpawnReturns env) {w : World}
    (hw : w.effects = []) :
    zeroBytes (requestCompanionSocket modules env w) ≤ 1 := by
  rcases Decidable.em (env.lp.bytes ≤ w.input.length) with hthere | hthere
  · cases hm : modules[requestIndex env w]? with
    | none =>
        rw [requestCompanionSocket_eq modules env hreturns, if_pos hthere, hm]
        exact Nat.zero_le 1
    | some m =>
        unfold zeroBytes
        rw [finalWorld_request modules env hreturns hthere hm]
        simp only [World.record, servedWorld]
        rw [hw, List.nil_append, List.count_append, count_entryEffects, Nat.zero_add]
        exact count_clientEffects env _ _
  · rw [requestCompanionSocket_eq modules env hreturns, if_neg hthere]
    simp only [zeroBytes, finalWorld]
    rw [hw]
    exact Nat.zero_le 1

theorem spawnCompanion_childSide (hpair : env.spawn.pair.isSome = true)
    (m : Module) (w : World) :
    spawnCompanion env.childSide m w = startCompanion env w := by
  rcases Option.isSome_iff_exists.mp hpair with ⟨daemon, hpair⟩
  have hchild : env.childSide.spawn.pair = some daemon := hpair
  unfold spawnCompanion
  rw [hchild]
  rfl

/-- A child that starts the companion leaves the request there. -/
theorem requestCompanionSocket_childSide {w : World}
    (hforks : forksChild modules env forked w = true)
    (hstarts : env.spawn.setFd = true ∧ env.spawn.spawned = true) :
    requestCompanionSocket modules env.childSide w =
      Outcome.stopped (Stop.exited 0) := by
  unfold forksChild at hforks
  simp only [Bool.and_eq_true, decide_eq_true_eq] at hforks
  rcases hforks with ⟨⟨⟨⟨hthere, hindex⟩, hpoll⟩, hpair⟩, _⟩
  have hread := readNumber_eq env.lp.bytes w
  rw [if_pos hthere] at hread
  have hexit : forall m w',
      spawnCompanion env.childSide m w' = Outcome.stopped (Stop.exited 0) := by
    intro m w'
    rw [spawnCompanion_childSide hpair, startCompanion, hstarts.left, hstarts.right]
    rfl
  unfold requestCompanionSocket readUsize
  change (readNumber env.lp.bytes >>= _) w = _
  rw [Prog.bind_of_ok hread]
  change (getModule modules (requestIndex env w) >>= _) _ = _
  have hget : forall w' : World, getModule modules (requestIndex env w) w' =
      Outcome.ok modules[requestIndex env w] w' := by
    intro w'
    unfold getModule
    rw [List.getElem?_eq_getElem hindex]
    rfl
  rw [Prog.bind_of_ok (hget _), Prog.bind_run]
  unfold ensureCompanion
  have hpoll' : pollCompanion env.childSide
      (w.companions (leValue (w.input.take env.lp.bytes))) = none :=
    Option.isNone_iff_eq_none.mp hpoll
  simp only [hpoll', Prog.attempt, hexit]

theorem zeroBytes_child {w : World}
    (hforks : forksChild modules env forked w = true)
    (hstarts : env.spawn.setFd = true ∧ env.spawn.spawned = true) :
    zeroBytes (requestCompanionSocket modules env.childSide w) = 0 := by
  rw [requestCompanionSocket_childSide hforks hstarts]
  rfl

/-- The contract holds unless a child is forked that cannot start the
companion. -/
theorem spawnContract_iff (modules : List Module) (env : RequestEnv)
    (forked : Bool) :
    SpawnContract modules env forked <->
      ¬ (env.spawn.pair.isSome = true ∧ forked = true ∧
        ¬ (env.spawn.setFd = true ∧ env.spawn.spawned = true)) := by
  constructor
  · intro h hstray
    rcases hstray with ⟨hpair, hforked, hfails⟩
    rcases h.childEnds hpair hforked ⟨[], 0⟩ (requestWorld [] (fun _ => none)) with
      ⟨code, hstops, _⟩
    rw [spawnCompanion_childSide hpair, startCompanion, if_neg] at hstops
    · cases hstops
    · rw [Bool.and_eq_true]
      exact hfails
  · intro h
    have hstarts : env.spawn.pair.isSome = true -> forked = true ->
        env.spawn.setFd = true ∧ env.spawn.spawned = true := by
      intro hpair hforked
      by_contra hfails
      exact h ⟨hpair, hforked, hfails⟩
    constructor
    · intro m w how
      exact never_spawnCompanion m (Or.inr (daemonSide_fork env forked)) w
    · intro hpair hforked m w
      refine ⟨0, ?_, fun hfails => absurd (hstarts hpair hforked) hfails⟩
      rw [spawnCompanion_childSide hpair, startCompanion,
        (hstarts hpair hforked).left, (hstarts hpair hforked).right]
      rfl
    · intro input companions
      have hdaemon : zeroBytes (requestCompanionSocket modules
          (env.daemonSide forked) (requestWorld input companions)) ≤ 1 :=
        zeroBytes_le (Or.inl (daemonSide_fork env forked)) rfl
      split
      · rename_i hforks
        have hboth := hforks
        unfold forksChild at hboth
        simp only [Bool.and_eq_true] at hboth
        rw [zeroBytes_child hforks (hstarts hboth.left.right hboth.right)]
        exact hdaemon
      · exact hdaemon

end Contract

/-- The child cannot clear `FD_CLOEXEC`; it writes its own failure byte to the
client, next to that of the daemon. -/
theorem not_spawnContract_child_failed :
    ¬ SpawnContract [⟨bytesOf "module", 10⟩]
      { plainEnv with spawn := { plainEnv.spawn with
          setFd := false, answer := none } } true := by
  intro h
  have htwo := h.oneFailureByte (leBytes 8 0) (fun _ => none)
  exact absurd htwo (by decide)

end Zygiskd
end ReZygisk
