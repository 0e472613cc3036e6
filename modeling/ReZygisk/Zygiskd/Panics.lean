import ReZygisk.Zygiskd.HandleAction

/-!
# Requests that end the daemon

Which requests panic, and under which state of the daemon: a length that no
buffer can be had for, an index past the modules, and a root implementation
that the request has no answer for.
-/

namespace ReZygisk
namespace Zygiskd

open Foundation
open Kernel

variable {root : Root} {modules : List Module} {env : RequestEnv} {w : World}

/-!
# Lengths of log records
-/

/-- The length fields met while a string is read at the front of `input` and
reading goes on behind it. -/
def stringLengths (lp : Lp) (input : List Byte)
    (next : List Byte -> List Byte -> List Nat) : List Nat :=
  if HasText lp input ∧ validUtf8 (textField lp input) = true then
    lengthField lp input :: next (textField lp input) (afterText lp input)
  else if lp.bytes ≤ input.length then [lengthField lp input]
  else []

def lengthsAfter (next : List Byte -> List Nat) (tag message rest : List Byte) :
    List Nat :=
  if 0 ∈ tag ∨ 0 ∈ message then [] else next rest

def logLengths (lp : Lp) : Nat -> List Byte -> List Nat
  | 0, _ => []
  | _ + 1, [] => []
  | fuel + 1, _ :: rest =>
      stringLengths lp rest (fun tag rest =>
        stringLengths lp rest (lengthsAfter (logLengths lp fuel) tag))

/-- Reading a string and going on panics exactly when a length that is met
cannot be allocated, provided the same holds of what follows. -/
theorem readString_bind_panics_iff {e : Surroundings}
    {f : List Byte -> Handler Unit} (next : List Byte -> List Byte -> List Nat)
    (hf : forall buf w', Prog.Stops Stop.panicked (f buf) w' <->
      exists len, len ∈ next buf w'.input ∧ ¬ e.Allocatable len) :
    Prog.Stops Stop.panicked (readString e >>= f) w <->
      exists len, len ∈ stringLengths e.lp w.input next ∧ ¬ e.Allocatable len := by
  rw [Prog.stops_bind_iff, readString_panics_iff, stringLengths]
  constructor
  · intro h
    rcases h with ⟨hthere, hbad⟩ | ⟨buf, w', hread, hpanic⟩
    · refine ⟨_, ?_, hbad⟩
      split
      · exact List.mem_cons_self
      · exact List.mem_singleton_self _
    · rcases readString_ok_iff.mp hread with ⟨hhas, _, hbuf, hvalid, hw'⟩
      rcases (hf buf w').mp hpanic with ⟨len, hmem, hbad⟩
      rw [← hbuf] at hvalid hmem
      rw [← hw'] at hmem
      rw [if_pos ⟨hhas, hvalid⟩]
      exact ⟨len, List.mem_cons_of_mem _ hmem, hbad⟩
  · intro h
    rcases h with ⟨len, hmem, hbad⟩
    by_cases hok : e.Allocatable (lengthField e.lp w.input)
    · refine Or.inr ?_
      split at hmem
      · rename_i hhas
        rcases List.mem_cons.mp hmem with heq | hnext
        · rw [heq] at hbad
          exact absurd hok hbad
        · refine ⟨_, _, readString_ok_iff.mpr
            ⟨hhas.left, hok, rfl, hhas.right, rfl⟩, ?_⟩
          exact (hf _ _).mpr ⟨len, hnext, hbad⟩
      · split at hmem
        · rw [List.mem_singleton] at hmem
          rw [hmem] at hbad
          exact absurd hok hbad
        · cases hmem
    · refine Or.inl ⟨?_, hok⟩
      split at hmem
      · rename_i hhas
        exact hhas.left.left
      · split at hmem
        · assumption
        · cases hmem

theorem logcatLoop_panics_iff (fuel : Nat) (w : World) :
    Prog.Stops Stop.panicked (logcatLoop env fuel) w <->
      exists len, len ∈ logLengths env.lp fuel w.input ∧
        ¬ env.Allocatable len := by
  induction fuel generalizing w with
  | zero =>
      simp only [logcatLoop, logLengths, List.not_mem_nil, false_and, exists_false,
        iff_false]
      exact Prog.never_pure _ () w
  | succ fuel ih =>
      rw [logcatLoop, Prog.stops_bind_of_never
        (Prog.never_attempt (p := readU8) (never_readNumber _ 1)), attempt_readU8]
      cases hinput : w.input with
      | nil =>
          simp only [logLengths, List.not_mem_nil, false_and, exists_false, iff_false]
          intro h
          rcases h with ⟨level, w', hread, hpanic⟩
          cases hread
          exact Prog.never_pure _ () _ hpanic
      | cons b rest =>
          have hlog : forall tag message w',
              Prog.Stops Stop.panicked (do
                logRaw b.toNat tag message
                logcatLoop env fuel) w' <->
                exists len,
                  len ∈ lengthsAfter (logLengths env.lp fuel) tag message w'.input ∧
                  ¬ env.Allocatable len := by
            intro tag message w'
            rw [logRaw, lengthsAfter]
            split
            · simp [Prog.Stops, Prog.bind_run, Prog.fail]
            · exact ih (w'.emit (Effect.logged ⟨b.toNat, tag, message⟩))
          have htag := fun tag w' => readString_bind_panics_iff (w := w')
            (lengthsAfter (logLengths env.lp fuel) tag) (hlog tag)
          have hstrings := readString_bind_panics_iff
            (w := { w with input := rest }) (fun tag rest =>
              stringLengths env.lp rest
                (lengthsAfter (logLengths env.lp fuel) tag)) htag
          constructor
          · intro h
            rcases h with ⟨level, w', hread, hpanic⟩
            cases hread
            exact hstrings.mp hpanic
          · intro h
            exact ⟨_, _, rfl, hstrings.mpr h⟩

/-!
# Root implementations
-/

theorem rootFlag_panics_iff :
    Prog.Stops Stop.panicked (rootFlag root) w <-> ¬ root.impl.Supported := by
  simp only [Prog.Stops, rootFlag, RootImpl.Supported]
  cases root.impl <;> simp [Prog.stop, pure, Prog.ret]

theorem getInfo_panics_iff :
    Prog.Stops Stop.panicked (getInfo root modules env) w <->
      ¬ root.impl.Supported := by
  rw [getInfo, Prog.stops_bind_left, rootFlag_panics_iff]
  intro impl
  refine Prog.never_bind (never_tryEmit _ _ _) (fun _ => ?_)
  refine Prog.never_bind (never_tryEmit _ _ _) (fun _ => ?_)
  refine Prog.never_bind (never_tryEmit _ _ _) (fun _ => ?_)
  exact Prog.never_forEach (fun m => never_writeString _ _ m.name) modules

def RootAnswersUid (root : Root) (a : RootAnswers) : Prop :=
  root.impl.Supported ∧ (root.impl = RootImpl.magisk -> ManagerKnown a root)

theorem uidFlags_panics_iff {uid : Int} :
    Prog.Stops Stop.panicked (uidFlags root env uid) w <->
      ¬ RootAnswersUid root env.answers := by
  rw [uidFlags, Prog.stops_bind_iff, uidIsManager_panics_iff]
  constructor
  · intro h
    rcases h with hmanager | ⟨isManager, w', _, hpanic⟩
    · exact hmanager
    · intro hok
      cases isManager with
      | true => exact Prog.never_pure _ _ _ hpanic
      | false =>
          refine Prog.never_bind (uidGrantedRoot_never_panics hok.left) (fun _ => ?_)
            _ hpanic
          exact Prog.never_bind (uidShouldUmount_never_panics hok.left)
            (fun _ => Prog.never_pure _ _)
  · exact Or.inl

theorem getProcessFlags_panics_iff :
    Prog.Stops Stop.panicked (getProcessFlags root env) w <->
      4 ≤ w.input.length ∧ ¬ RootAnswersUid root env.answers := by
  rw [getProcessFlags, readU32, Prog.stops_bind_of_never (never_readNumber _ 4)]
  constructor
  · intro h
    rcases h with ⟨uid, w', hread, hpanic⟩
    rcases readNumber_ok_iff.mp hread with ⟨hthere, _, _⟩
    refine ⟨hthere, ?_⟩
    rcases Prog.stops_bind_iff.mp hpanic with hflags | ⟨flags, w'', _, hrest⟩
    · exact uidFlags_panics_iff.mp hflags
    · have hwrite : forall impl, Prog.Never Stop.panicked
          (writeU32 env.toSurroundings (flags ||| impl)) :=
        fun impl => never_tryEmit _ _ _
      rw [Prog.stops_bind_left hwrite, rootFlag_panics_iff] at hrest
      intro hok
      exact hrest hok.left
  · intro h
    refine ⟨_, _, readNumber_ok_iff.mpr ⟨h.left, rfl, rfl⟩, ?_⟩
    exact Prog.stops_bind_iff.mpr (Or.inl (uidFlags_panics_iff.mpr h.right))

/-!
# Module indices
-/

def IndexOk (lp : Lp) (modules : List Module) (input : List Byte) : Prop :=
  lp.bytes ≤ input.length -> leValue (input.take lp.bytes) < modules.length

theorem readIndex_panics_iff {f : Nat -> Module -> Handler Unit}
    (hf : forall index m, Prog.Never Stop.panicked (f index m)) (lp : Lp) :
    Prog.Stops Stop.panicked (do
        let index ← readUsize lp
        let m ← getModule modules index
        f index m) w <-> ¬ IndexOk lp modules w.input := by
  have hmodule : forall index w',
      Prog.Stops Stop.panicked (getModule modules index >>= f index) w' <->
        modules.length ≤ index := by
    intro index w'
    rw [Prog.stops_bind_left (hf index), ← List.getElem?_eq_none_iff]
    simp only [Prog.Stops, getModule]
    cases modules[index]? <;> simp [pure, Prog.ret, Prog.stop]
  rw [readUsize, Prog.stops_bind_of_never (never_readNumber _ _), IndexOk,
    Classical.not_imp]
  constructor
  · intro h
    rcases h with ⟨index, w', hread, hpanic⟩
    rcases readNumber_ok_iff.mp hread with ⟨hthere, hvalue, _⟩
    have hout := (hmodule index w').mp hpanic
    exact ⟨hthere, by rw [hvalue]; exact Nat.not_lt.mpr hout⟩
  · intro h
    refine ⟨_, _, readNumber_ok_iff.mpr ⟨h.left, rfl, rfl⟩, ?_⟩
    exact (hmodule _ _).mpr (Nat.not_lt.mp h.right)

theorem getModuleDir_panics_iff :
    Prog.Stops Stop.panicked (getModuleDir modules env) w <->
      ¬ IndexOk env.lp modules w.input := by
  rw [getModuleDir]
  refine readIndex_panics_iff ?_ env.lp
  intro _ _
  split
  · exact never_tryEmit _ _ _
  · exact Prog.never_fail _ _

section Companion

variable {how : Stop}

theorem never_awaitCompanion (m : Module) (daemon : Nat) :
    Prog.Never how (awaitCompanion env m daemon) := by
  rw [awaitCompanion]
  split
  · refine Prog.never_bind (Prog.never_modifyWorld _ _) (fun _ => ?_)
    split
    · exact Prog.never_pure _ _
    · exact Prog.never_pure _ _
    · exact Prog.never_fail _ _
  · exact Prog.never_fail _ _

/-- Only the forked child leaves the process. -/
theorem never_spawnCompanion (m : Module)
    (h : how = Stop.panicked ∨ env.spawn.fork ≠ ForkResult.child) :
    Prog.Never how (spawnCompanion env m) := by
  unfold spawnCompanion
  split
  · exact Prog.never_fail _ _
  · exact Prog.never_fail _ _
  · exact never_awaitCompanion m _
  · rename_i hfork
    rw [startCompanion]
    split
    · apply Prog.never_stop
      rcases h with h | h
      · rw [h]
        simp
      · exact absurd hfork h
    · exact Prog.never_fail _ _

theorem never_passClient (sock : Nat) : Prog.Never how (passClient env sock) := by
  unfold passClient
  split
  · exact Prog.never_modifyWorld _ _
  · exact Prog.never_fail _ _

theorem never_answerClient (companion : Option (Option Nat)) :
    Prog.Never how (answerClient env companion) := by
  unfold answerClient
  split
  · refine Prog.never_bind (Prog.never_attempt (never_passClient _)) (fun sent => ?_)
    cases sent with
    | none => exact never_tryEmit _ _ _
    | some _ => exact Prog.never_pure _ _
  · exact never_tryEmit _ _ _

theorem never_serveCompanion (index : Nat) (m : Module)
    (h : how = Stop.panicked ∨ env.spawn.fork ≠ ForkResult.child) :
    Prog.Never how (do
      let companion ← ensureCompanion env index m
      setCompanion index companion
      answerClient env companion) := by
  refine Prog.never_bind ?_ (fun companion =>
    Prog.never_bind (Prog.never_modifyWorld _ _) (fun _ =>
      never_answerClient companion))
  intro w hstop
  simp only [Prog.Stops, ensureCompanion] at hstop
  split at hstop
  · cases hstop
  · exact Prog.never_attempt (never_spawnCompanion m h) w hstop

end Companion

theorem requestCompanionSocket_panics_iff :
    Prog.Stops Stop.panicked (requestCompanionSocket modules env) w <->
      ¬ IndexOk env.lp modules w.input :=
  readIndex_panics_iff
    (fun index m => never_serveCompanion index m (Or.inl rfl)) env.lp

theorem never_readModules (how : Stop) :
    Prog.Never how (readModules modules env) := by
  refine Prog.never_bind (never_tryEmit _ _ _) (fun _ => ?_)
  exact Prog.never_forEach (fun m =>
    Prog.never_bind (never_writeString _ _ m.name)
      (fun _ => never_tryEmit _ _ _)) modules

/-!
# Leaving the process

The daemon itself never exits from a request; only the child that
`spawn_companion` forks does.
-/

section Exit

variable (code : Nat)

theorem logcatLoop_never_exits (fuel : Nat) :
    Prog.Never (Stop.exited code) (logcatLoop env fuel) := by
  have hstring := readString_never_exits env.toSurroundings code
  induction fuel with
  | zero => exact Prog.never_pure _ ()
  | succ fuel ih =>
      refine Prog.never_bind (Prog.never_attempt (p := readU8) (never_readNumber _ 1))
        (fun level => ?_)
      cases level with
      | none => exact Prog.never_pure _ ()
      | some level =>
          refine Prog.never_bind hstring (fun tag => ?_)
          refine Prog.never_bind hstring (fun message => ?_)
          refine Prog.never_bind ?_ (fun _ => ih)
          rw [logRaw]
          split
          · exact Prog.never_fail _ _
          · exact Prog.never_modifyWorld _ _

theorem rootFlag_never_exits :
    Prog.Never (Stop.exited code) (rootFlag root) := by
  unfold rootFlag
  split
  · exact Prog.never_pure _ _
  · exact Prog.never_pure _ _
  · exact Prog.never_pure _ _
  · exact Prog.never_stop (by simp)

theorem uidFlags_never_exits (uid : Int) :
    Prog.Never (Stop.exited code) (uidFlags root env uid) := by
  refine Prog.never_bind (uidIsManager_never_exits code _ uid root)
    (fun isManager => ?_)
  cases isManager with
  | true => exact Prog.never_pure _ _
  | false =>
      refine Prog.never_bind (uidGrantedRoot_never_exits code _ uid root)
        (fun _ => ?_)
      exact Prog.never_bind (uidShouldUmount_never_exits code _ uid root)
        (fun _ => Prog.never_pure _ _)

theorem getModule_never_exits (index : Nat) :
    Prog.Never (Stop.exited code) (getModule modules index) := by
  unfold getModule
  split
  · exact Prog.never_pure _ _
  · exact Prog.never_stop (by simp)

theorem handleDaemonAction_never_exits (action : DaemonSocketAction)
    (h : env.spawn.fork ≠ ForkResult.child) :
    Prog.Never (Stop.exited code) (handleDaemonAction root modules env action) := by
  cases action with
  | requestLogcatFd => exact fun w => logcatLoop_never_exits code _ w
  | getProcessFlags =>
      refine Prog.never_bind (never_readNumber _ 4) (fun uid => ?_)
      refine Prog.never_bind (uidFlags_never_exits code (int32 uid)) (fun _ => ?_)
      exact Prog.never_bind (rootFlag_never_exits code)
        (fun _ => never_tryEmit _ _ _)
  | getInfo =>
      refine Prog.never_bind (rootFlag_never_exits code) (fun _ => ?_)
      refine Prog.never_bind (never_tryEmit _ _ _) (fun _ => ?_)
      refine Prog.never_bind (never_tryEmit _ _ _) (fun _ => ?_)
      refine Prog.never_bind (never_tryEmit _ _ _) (fun _ => ?_)
      exact Prog.never_forEach (fun m => never_writeString _ _ m.name) modules
  | readModules => exact never_readModules _
  | requestCompanionSocket =>
      refine Prog.never_bind (never_readNumber _ _) (fun index => ?_)
      refine Prog.never_bind (getModule_never_exits code index) (fun m => ?_)
      exact never_serveCompanion index m (Or.inr h)
  | getModuleDir =>
      refine Prog.never_bind (never_readNumber _ _) (fun index => ?_)
      refine Prog.never_bind (getModule_never_exits code index) (fun m => ?_)
      split
      · exact never_tryEmit _ _ _
      · exact Prog.never_fail _ _
  | pingHeartbeat => exact Prog.never_pure _ ()
  | zygoteRestart => exact Prog.never_pure _ ()
  | systemServerStarted => exact Prog.never_pure _ ()

end Exit

/-!
# Every request is answered
-/

/-- The request ends with `Ok` or `Err`.  A child that it forked may leave its
own process. -/
def Answers (root : Root) (modules : List Module) (env : RequestEnv)
    (action : DaemonSocketAction) (w : World) : Prop :=
  (exists w', handleDaemonAction root modules env action w = Outcome.ok () w') ∨
    (exists e w', handleDaemonAction root modules env action w = Outcome.err e w') ∨
    (env.spawn.fork = ForkResult.child ∧
      exists code, handleDaemonAction root modules env action w =
        Outcome.stopped (Stop.exited code))

/-- The daemon has what it takes to answer the request: buffers for the lengths
the client announces, the module it names, a root implementation with an
answer. -/
def Servable (root : Root) (modules : List Module) (env : RequestEnv)
    (input : List Byte) : DaemonSocketAction -> Prop
  | DaemonSocketAction.requestLogcatFd =>
      forall len, len ∈ logLengths env.lp (input.length + 1) input ->
        env.Allocatable len
  | DaemonSocketAction.getProcessFlags =>
      4 ≤ input.length -> RootAnswersUid root env.answers
  | DaemonSocketAction.getInfo => root.impl.Supported
  | DaemonSocketAction.requestCompanionSocket => IndexOk env.lp modules input
  | DaemonSocketAction.getModuleDir => IndexOk env.lp modules input
  | _ => True

theorem panics_iff_not_servable (action : DaemonSocketAction) :
    Prog.Stops Stop.panicked (handleDaemonAction root modules env action) w <->
      ¬ Servable root modules env w.input action := by
  have hfree : forall p : Handler Unit, Prog.Never Stop.panicked p ->
      (Prog.Stops Stop.panicked p w <-> ¬ True) := by
    intro p hp
    rw [not_true, iff_false]
    exact hp w
  cases action with
  | requestLogcatFd =>
      show Prog.Stops Stop.panicked (logcatLoop env (w.input.length + 1)) w <-> _
      rw [logcatLoop_panics_iff]
      simp [Servable]
  | getProcessFlags =>
      show Prog.Stops Stop.panicked (getProcessFlags root env) w <-> _
      rw [getProcessFlags_panics_iff]
      simp [Servable]
  | getInfo => exact getInfo_panics_iff
  | requestCompanionSocket => exact requestCompanionSocket_panics_iff
  | getModuleDir => exact getModuleDir_panics_iff
  | readModules => exact hfree _ (never_readModules _)
  | pingHeartbeat => exact hfree _ (Prog.never_pure _ ())
  | zygoteRestart => exact hfree _ (Prog.never_pure _ ())
  | systemServerStarted => exact hfree _ (Prog.never_pure _ ())

/-- A system in which every call succeeds and no manager is installed. -/
def plainEnv : RequestEnv :=
  { lp := Lp.lp64, alloc := fun _ => true, writes := fun _ => true,
    answers :=
      { stUid := fun _ => none, ksuGranted := false, ksuUmount := false,
        grantedConfig := none, umountConfig := none, requester := none,
        sqlite := fun _ => none, pmPackages := fun _ => none },
    pid := 500, companionAlive := true,
    spawn :=
      { pair := some 7, fork := ForkResult.parent, status := 0,
        nameWritten := true, fdSent := true, answer := some 1, setFd := true,
        spawned := true },
    clientPassed := true,
    moduleDir := fun _ => some 9 }

def plainRoot : Root :=
  { impl := setup none (some Version.supported) none, variant := none }

end Zygiskd
end ReZygisk
