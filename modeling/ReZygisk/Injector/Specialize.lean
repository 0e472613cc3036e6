import ReZygisk.Injector.GetInfo
import ReZygisk.Injector.Unmount
import ReZygisk.Zygiskd.Frame

/-!
# Specialising a process

Before an app is specialised the injector asks the daemon for the flags of its
uid, which settle whether modules are loaded and whether the mounts of the root
implementation are taken away.  They are taken away by the hook of `unshare`,
whenever the runtime asks for a mount namespace while the context is there.
-/

namespace ReZygisk
namespace Injector

open Foundation
open Kernel
open Zygiskd

namespace Specialize

/-!
# The injector's side
-/

/-- `GetProcessFlags` on its connection, if it gets one. -/
def getProcessFlags (conn : Option Conn) : Option Nat :=
  match conn with
  | none => some 0
  | some c => (readExactOr 4 c).map Prod.fst

def PROCESS_IS_SYS_UI : Nat := 2 ^ 31

def PRIVATE_MASK : Nat := PROCESS_IS_SYS_UI

def CLONE_NEWNS : Nat := 0x20000

structure Context where
  infoFlags : Nat := 0
  doRevertUnmount : Bool := false
  deriving DecidableEq

/-- A process that is being specialised; `reverted` are the calls of the
`revert_unmount` functions so far. -/
structure Process where
  gCtx : Option Context
  modulesLoaded : Bool
  zygiskEnabled : Bool
  reverted : List Manager
  deriving DecidableEq

def appSpecializePre (flags : Nat) : Process :=
  let isMagiskManager := flags &&& (PROCESS_IS_MANAGER ||| PROCESS_ROOT_IS_MAGISK) ==
    PROCESS_IS_MANAGER ||| PROCESS_ROOT_IS_MAGISK
  { gCtx := some
      { infoFlags := flags
        doRevertUnmount := flags &&& PROCESS_ON_DENYLIST == PROCESS_ON_DENYLIST }
    modulesLoaded := !isMagiskManager
    zygiskEnabled := isMagiskManager
    reverted := [] }

/-- `nativeForkSystemServer_pre`, which asks for no flags. -/
def serverSpecializePre : Process :=
  { gCtx := some {}, modulesLoaded := true, zygiskEnabled := false, reverted := [] }

inductive ModuleOption where
  | forceDenylistUnmount
  | dlcloseModuleLibrary
  deriving DecidableEq

def setOption (p : Process) (opt : ModuleOption) : Process :=
  match p.gCtx, opt with
  | none, _ => p
  | some ctx, ModuleOption.forceDenylistUnmount =>
      { p with gCtx := some { ctx with doRevertUnmount := true } }
  | some _, ModuleOption.dlcloseModuleLibrary => p

/-- `ZygiskModule::getFlags`; the mask leaves the lower 31 of 32 bits. -/
def getFlags (p : Process) : Nat :=
  match p.gCtx with
  | none => 0
  | some ctx => ctx.infoFlags &&& (2 ^ 32 - 1 - PRIVATE_MASK)

/-- Which of the `revert_unmount` functions the flags lead to. -/
def managerOf (flags : Nat) : Option Manager :=
  if flags &&& PROCESS_ROOT_IS_KSU ≠ 0 then some Manager.ksu
  else if flags &&& PROCESS_ROOT_IS_APATCH ≠ 0 then some Manager.apatch
  else if flags &&& PROCESS_ROOT_IS_MAGISK ≠ 0 then some Manager.magisk
  else none

/-- `new_unshare`, after `old_unshare` has returned `res`. -/
def newUnshare (p : Process) (flags : Nat) (res : Int) : Process :=
  match p.gCtx with
  | none => p
  | some ctx =>
      if flags &&& CLONE_NEWNS ≠ 0 ∧ res = 0 ∧ ctx.infoFlags &&& PROCESS_IS_SYS_UI = 0 then
        if ctx.doRevertUnmount then
          { p with reverted := p.reverted ++ (managerOf ctx.infoFlags).toList }
        else p
      else p

inductive Event where
  | setOption (opt : ModuleOption)
  | unshare (flags : Nat) (res : Int)
  | post
  deriving DecidableEq

/-- A module that was never loaded sets no option. -/
def step (p : Process) : Event -> Process
  | Event.setOption opt => if p.modulesLoaded then setOption p opt else p
  | Event.unshare flags res => newUnshare p flags res
  | Event.post => { p with gCtx := none }

def run (p : Process) (events : List Event) : Process :=
  events.foldl step p

/-!
# What a specialisation is for

A namespace is stripped of the mounts if it is unshared while they are denied:
because the daemon says so, or because a module has asked for it.
-/

/-- The namespaces to be stripped; `modules` tells whether there are modules to
ask for it. -/
def stripped (modules : Bool) : Bool -> List Event -> Nat
  | _, [] => 0
  | _, Event.post :: _ => 0
  | denied, Event.setOption ModuleOption.forceDenylistUnmount :: rest =>
      stripped modules (denied || modules) rest
  | denied, Event.setOption ModuleOption.dlcloseModuleLibrary :: rest =>
      stripped modules denied rest
  | denied, Event.unshare flags res :: rest =>
      (if denied = true ∧ flags &&& CLONE_NEWNS ≠ 0 ∧ res = 0 then 1 else 0) +
        stripped modules denied rest

theorem reverted_after_post {p : Process} (h : p.gCtx = none) (events : List Event) :
    (run p events).reverted = p.reverted := by
  induction events generalizing p with
  | nil => rfl
  | cons e events ih =>
      have hstep : (step p e).gCtx = none ∧ (step p e).reverted = p.reverted := by
        cases e with
        | setOption opt =>
            unfold step setOption
            simp only [h, ite_self, and_self]
        | unshare flags res =>
            unfold step newUnshare
            simp only [h, and_self]
        | post => exact ⟨rfl, rfl⟩
      exact (ih hstep.left).trans hstep.right

/-- The calls of a run, when the flags name `calls` and not the system UI. -/
theorem reverted_run {ctx : Context} {calls : List Manager}
    (hui : ctx.infoFlags &&& PROCESS_IS_SYS_UI = 0)
    (hcalls : (managerOf ctx.infoFlags).toList = calls) (events : List Event) {p : Process}
    (hctx : p.gCtx = some ctx) :
    (run p events).reverted =
      p.reverted ++ (List.replicate (stripped p.modulesLoaded ctx.doRevertUnmount events)
        calls).flatten := by
  induction events generalizing p ctx with
  | nil =>
      show p.reverted = p.reverted ++ []
      rw [List.append_nil]
  | cons e events ih =>
      show (run (step p e) events).reverted = _
      cases e with
      | post =>
          rw [reverted_after_post rfl]
          exact (List.append_nil p.reverted).symm
      | setOption opt =>
          cases opt with
          | dlcloseModuleLibrary =>
              have hstep : step p (Event.setOption ModuleOption.dlcloseModuleLibrary) = p := by
                unfold step setOption
                simp only [hctx, ite_self]
              rw [hstep, ih hui hcalls hctx]
              rfl
          | forceDenylistUnmount =>
              cases hmodules : p.modulesLoaded with
              | false =>
                  have hstep : step p (Event.setOption ModuleOption.forceDenylistUnmount) = p := by
                    unfold step
                    rw [hmodules]
                    rfl
                  rw [hstep, ih hui hcalls hctx, hmodules]
                  show p.reverted ++ _ = p.reverted ++ (List.replicate
                    (stripped false (ctx.doRevertUnmount || false) events) calls).flatten
                  rw [Bool.or_false]
              | true =>
                  have hstep : step p (Event.setOption ModuleOption.forceDenylistUnmount) =
                      { p with gCtx := some { ctx with doRevertUnmount := true } } := by
                    unfold step setOption
                    simp only [hctx, hmodules, if_true]
                  have hrest := @ih { ctx with doRevertUnmount := true } hui hcalls
                    { p with gCtx := some { ctx with doRevertUnmount := true } } rfl
                  rw [hstep, hrest]
                  show p.reverted ++ (List.replicate (stripped p.modulesLoaded true events)
                    calls).flatten = p.reverted ++ (List.replicate
                      (stripped true (ctx.doRevertUnmount || true) events) calls).flatten
                  rw [hmodules, Bool.or_true]
      | unshare flags res =>
          show (run (newUnshare p flags res) events).reverted = _
          unfold newUnshare stripped
          simp only [hctx, hui, and_true]
          by_cases hnamespace : flags &&& CLONE_NEWNS ≠ 0 ∧ res = 0
          · cases hdenied : ctx.doRevertUnmount with
            | true =>
                rw [if_pos hnamespace, if_pos rfl, if_pos ⟨rfl, hnamespace⟩, hcalls]
                have hrest := @ih ctx hui hcalls
                  { p with gCtx := some ctx, reverted := p.reverted ++ calls } rfl
                rw [hrest, hdenied, Nat.add_comm, List.replicate_succ, List.flatten_cons,
                  List.append_assoc]
            | false =>
                have hnot : ¬ (false = true ∧ flags &&& CLONE_NEWNS ≠ 0 ∧ res = 0) :=
                  fun h => Bool.false_ne_true h.left
                rw [if_pos hnamespace, if_neg Bool.false_ne_true, if_neg hnot, Nat.zero_add,
                  ih hui hcalls hctx, hdenied]
          · have hnot : ¬ (ctx.doRevertUnmount = true ∧ flags &&& CLONE_NEWNS ≠ 0 ∧ res = 0) :=
              fun h => hnamespace h.right
            rw [if_neg hnamespace, if_neg hnot, Nat.zero_add, ih hui hcalls hctx]

/-!
# The daemon's side
-/

/-- The `revert_unmount` function of a root implementation. -/
def implManager : RootImpl -> Option Manager
  | RootImpl.kernelSU => some Manager.ksu
  | RootImpl.magisk => some Manager.magisk
  | RootImpl.apatch => some Manager.apatch
  | _ => none

/-- What the client can read once the request thread has ended, in whatever way:
a thread that stops has written nothing. -/
def requestItems : Outcome World Error Unit -> List WireItem
  | Outcome.ok _ world => replyItems world.effects
  | Outcome.err _ world => replyItems world.effects
  | Outcome.stopped _ => []

/-- The answers about a uid. -/
structure Verdict (a : RootAnswers) (root : Root) (uid : Int) where
  isManager : Bool
  granted : Bool
  umount : Bool
  manager : Manager
  impl : implManager root.impl = some manager
  managerAnswer : forall w, Zygiskd.uidIsManager a uid root w = Outcome.ok isManager w
  umountAnswer : isManager = false ->
    forall w, Zygiskd.uidShouldUmount a uid root w = Outcome.ok umount w

namespace Verdict

variable {a : RootAnswers} {root : Root} {uid : Int} (verdict : Verdict a root uid)

/-- The mounts are denied to the apps on the list, of which the manager is none. -/
def denied : Bool :=
  !verdict.isManager && verdict.umount

/-- Modules are loaded into every process but Magisk's manager. -/
def modules : Bool :=
  !(verdict.isManager && verdict.manager == Manager.magisk)

def flags : Nat :=
  (if verdict.isManager then PROCESS_IS_MANAGER
    else (if verdict.granted then PROCESS_GRANTED_ROOT else 0) |||
      (if verdict.umount then PROCESS_ON_DENYLIST else 0)) |||
  match verdict.manager with
  | Manager.ksu => PROCESS_ROOT_IS_KSU
  | Manager.apatch => PROCESS_ROOT_IS_APATCH
  | Manager.magisk => PROCESS_ROOT_IS_MAGISK

/-- The injector takes from the flags what the daemon has put into them; in
particular, no process is the system UI. -/
theorem flags_read :
    verdict.flags < 256 ^ 4 ∧ verdict.flags &&& PROCESS_IS_SYS_UI = 0 ∧
      managerOf verdict.flags = some verdict.manager ∧
      (verdict.flags &&& PROCESS_ON_DENYLIST == PROCESS_ON_DENYLIST) = verdict.denied ∧
      (!(verdict.flags &&& (PROCESS_IS_MANAGER ||| PROCESS_ROOT_IS_MAGISK) ==
        PROCESS_IS_MANAGER ||| PROCESS_ROOT_IS_MAGISK)) = verdict.modules := by
  unfold flags denied modules
  cases verdict.manager <;> cases verdict.isManager <;> cases verdict.granted <;>
    cases verdict.umount <;> decide

end Verdict

section Request

variable {root : Root} {env : RequestEnv} {uid : Int} {w w' : World}

/-- The answers do not depend on the connection. -/
theorem uidIsManager_ok {b : Bool} (h : uidIsManager env.answers uid root w = Outcome.ok b w')
    (w1 : World) : uidIsManager env.answers uid root w1 = Outcome.ok b w1 := by
  unfold uidIsManager at h ⊢
  cases himpl : root.impl with
  | magisk =>
      rw [himpl] at h
      change Magisk.uidIsManager env.answers uid root.variant w = _ at h
      show Magisk.uidIsManager env.answers uid root.variant w1 = _
      unfold Magisk.uidIsManager at h ⊢
      cases hmanager : Magisk.requestedManager env.answers with
      | some manager =>
          rw [hmanager] at h
          cases h
          rfl
      | none =>
          cases hvariant : root.variant with
          | some variant =>
              rw [hmanager, hvariant] at h
              cases h
              rfl
          | none =>
              rw [hmanager, hvariant] at h
              cases h
  | kernelSU =>
      rw [himpl] at h
      cases h
      rfl
  | apatch =>
      rw [himpl] at h
      cases h
      rfl
  | _ =>
      rw [himpl] at h
      cases h

theorem uidShouldUmount_ok {b : Bool}
    (h : uidShouldUmount env.answers uid root w = Outcome.ok b w') (w1 : World) :
    uidShouldUmount env.answers uid root w1 = Outcome.ok b w1 := by
  unfold uidShouldUmount at h ⊢
  cases himpl : root.impl <;> rw [himpl] at h <;> cases h <;> rfl

/-- The flags of a uid are those of a verdict. -/
theorem verdict_of_ok {flags impl : Nat} {w1 w2 : World}
    (hflags : uidFlags root env uid w = Outcome.ok flags w1)
    (himpl : rootFlag root w1 = Outcome.ok impl w2) :
    exists verdict : Verdict env.answers root uid, verdict.flags = flags ||| impl := by
  have hmanagerOf : exists manager, implManager root.impl = some manager ∧
      impl = match manager with
        | Manager.ksu => PROCESS_ROOT_IS_KSU
        | Manager.apatch => PROCESS_ROOT_IS_APATCH
        | Manager.magisk => PROCESS_ROOT_IS_MAGISK := by
    unfold rootFlag at himpl
    cases hroot : root.impl <;> rw [hroot] at himpl <;> cases himpl <;> exact ⟨_, rfl, rfl⟩
  rcases hmanagerOf with ⟨manager, hmanager, himplFlag⟩
  rcases Prog.exists_of_bind_ok hflags with ⟨isManager, w3, hask, hrest⟩
  rw [himplFlag]
  cases isManager with
  | true =>
      cases hrest
      exact ⟨⟨true, false, false, manager, hmanager, uidIsManager_ok hask,
        fun h => absurd h (by decide)⟩, rfl⟩
  | false =>
      rcases Prog.exists_of_bind_ok hrest with ⟨granted, w4, hgranted, hrest⟩
      rcases Prog.exists_of_bind_ok hrest with ⟨umount, w5, humount, hrest⟩
      cases hrest
      exact ⟨⟨false, granted, umount, manager, hmanager, uidIsManager_ok hask,
        fun _ => uidShouldUmount_ok humount⟩, rfl⟩

theorem request_ok (h : Zygiskd.getProcessFlags root env w = Outcome.ok () w') :
    exists verdict : Verdict env.answers root (int32 (leValue (w.input.take 4))),
      w'.effects = w.effects ++ [Effect.wrote (leBytes 4 verdict.flags)] := by
  rcases Prog.exists_of_bind_ok h with ⟨read, w1, hread, hrest⟩
  rcases Prog.exists_of_bind_ok hrest with ⟨flags, w2, hflags, hrest⟩
  rcases Prog.exists_of_bind_ok hrest with ⟨impl, w3, himpl, hwrite⟩
  rcases readNumber_ok_iff.mp hread with ⟨_, hvalue, hw1⟩
  rcases verdict_of_ok hflags himpl with ⟨verdict, hverdict⟩
  have hw3 : w3.effects = w.effects := by
    have hflagsWorld := (keeps_uidFlags (f := World.effects) root env _ w1).left flags w2 hflags
    have himplWorld := (keeps_rootFlag (f := World.effects) root w2).left impl w3 himpl
    rw [himplWorld, hflagsWorld, ← hw1]
  rw [hvalue]
  refine ⟨verdict, ?_⟩
  rw [tryEmit_ok hwrite, hverdict]
  show w3.effects ++ _ = _
  rw [hw3]

/-- A request that fails has written nothing. -/
theorem request_err {e : Error} (h : Zygiskd.getProcessFlags root env w = Outcome.err e w') :
    w'.effects = w.effects := by
  rcases Prog.err_of_bind h with hread | ⟨read, w1, hread, hrest⟩
  · unfold readU32 at hread
    rw [readNumber_eq] at hread
    split_ifs at hread
    cases hread
    rfl
  · rcases readNumber_ok_iff.mp hread with ⟨_, _, hw1⟩
    have heffects : w1.effects = w.effects := by
      rw [← hw1]
    rw [← heffects]
    rcases Prog.err_of_bind hrest with hflags | ⟨flags, w2, hflags, hrest⟩
    · exact (keeps_uidFlags root env _ w1).right e w' hflags
    · have hflagsWorld := (keeps_uidFlags (f := World.effects) root env _ w1).left flags w2 hflags
      rw [← hflagsWorld]
      rcases Prog.err_of_bind hrest with himpl | ⟨impl, w3, himpl, hwrite⟩
      · exact (keeps_rootFlag root w2).right e w' himpl
      · have himplWorld := (keeps_rootFlag (f := World.effects) root w2).left impl w3 himpl
        rw [← himplWorld, tryEmit_err hwrite]

end Request

/-!
# Both sides
-/

section Both

variable {root : Root} {env : RequestEnv} {world : World} {uid : Nat} {reads : List ReadResult}

/-- A process without flags keeps its mounts, whatever its modules ask for: there is
no root implementation to take them away for. -/
theorem reverted_without_flags {p : Process} {ctx : Context} (hctx : p.gCtx = some ctx)
    (hflags : ctx.infoFlags = 0) (events : List Event) :
    (run p events).reverted = p.reverted := by
  have hui : ctx.infoFlags &&& PROCESS_IS_SYS_UI = 0 := by
    rw [hflags]
    rfl
  have hcalls : (managerOf ctx.infoFlags).toList = [] := by
    rw [hflags]
    rfl
  rw [reverted_run hui hcalls events hctx, List.flatten_replicate_nil, List.append_nil]

theorem reverted_of_flags {a : RootAnswers} {uid : Int} (verdict : Verdict a root uid)
    (events : List Event) :
    (run (appSpecializePre verdict.flags) events).reverted =
      List.replicate (stripped verdict.modules verdict.denied events) verdict.manager := by
  rcases verdict.flags_read with ⟨_, hui, hmanager, hdenied, hmodules⟩
  have hcalls : (managerOf verdict.flags).toList = [verdict.manager] := by
    rw [hmanager]
    rfl
  have hrun := @reverted_run { infoFlags := verdict.flags, doRevertUnmount := _ } _ hui hcalls
    events (appSpecializePre verdict.flags) rfl
  rw [hrun, List.flatten_replicate_singleton]
  show [] ++ List.replicate (stripped (!(verdict.flags &&& _ == _)) _ events) _ = _
  rw [List.nil_append, hmodules, hdenied]

/-- A client that can read nothing takes the flags for none. -/
theorem getProcessFlags_silent (hclean : ReadResult.failed ∉ reads) :
    getProcessFlags (some { items := [], reads := reads, recvs := [] }) = some 0 := by
  have hread := @readExactOr_short 4 [] { items := [], reads := reads, recvs := [] } rfl
    (by decide) hclean
  rcases hread with ⟨c, hread⟩
  show (readExactOr 4 _).map Prod.fst = some 0
  rw [hread]
  rfl

theorem getProcessFlags_flags {flags : Nat} (hfits : flags < 256 ^ 4)
    (hclean : ReadResult.failed ∉ reads) :
    getProcessFlags (some { items := dataItems (leBytes 4 flags), reads := reads, recvs := [] }) =
      some flags := by
  have hread := @readExactOr_number 4 flags
    { items := dataItems (leBytes 4 flags), reads := reads, recvs := [] } []
    (List.append_nil _).symm hclean
  rcases hread with ⟨rest, _, hread⟩
  show (readExactOr 4 _).map Prod.fst = some flags
  rw [hread, Nat.mod_eq_of_lt hfits]
  rfl

theorem int32_leBytes (n : Nat) : int32 (leValue (leBytes 4 n)) = int32 n := by
  rw [leValue_leBytes, int32, int32, Nat.mod_mod_of_dvd _ (by decide)]

/-- A client of a request that is answered can read the flags of a verdict. -/
theorem requestItems_answered {world' : World} (hfresh : world.effects = [])
    (h : Zygiskd.getProcessFlags root env world = Outcome.ok () world') :
    exists verdict : Verdict env.answers root (int32 (leValue (world.input.take 4))),
      requestItems (Zygiskd.getProcessFlags root env world) =
        dataItems (leBytes 4 verdict.flags) := by
  rcases request_ok h with ⟨verdict, heffects⟩
  refine ⟨verdict, ?_⟩
  rw [h]
  show replyItems world'.effects = _
  rw [heffects, hfresh]
  exact List.append_nil _

theorem requestItems_unanswered (hfresh : world.effects = [])
    (h : forall world', Zygiskd.getProcessFlags root env world ≠ Outcome.ok () world') :
    requestItems (Zygiskd.getProcessFlags root env world) = [] := by
  cases hrun : Zygiskd.getProcessFlags root env world with
  | ok result world' => exact absurd hrun (h world')
  | err e world' =>
      show replyItems world'.effects = _
      rw [request_err hrun, hfresh]
      rfl
  | stopped how => rfl

/-- From the uid that the injector sends to the mounts that go: if the request is
answered, every namespace that is unshared while the mounts are denied loses those of
the daemon's own root implementation, and no other; if it is not, none does. -/
theorem reverted_of_request (hinput : world.input = leBytes 4 uid)
    (hfresh : world.effects = []) (hclean : ReadResult.failed ∉ reads) :
    exists flags,
      getProcessFlags (some
        { items := requestItems (Zygiskd.getProcessFlags root env world)
          reads := reads, recvs := [] }) = some flags ∧
        ((exists world', Zygiskd.getProcessFlags root env world = Outcome.ok () world') ∧
            (exists verdict : Verdict env.answers root (int32 uid), forall events,
              (run (appSpecializePre flags) events).reverted =
                List.replicate (stripped verdict.modules verdict.denied events)
                  verdict.manager) ∨
          (forall world', Zygiskd.getProcessFlags root env world ≠ Outcome.ok () world') ∧
            forall events, (run (appSpecializePre flags) events).reverted = []) := by
  have hunanswered : forall events, (run (appSpecializePre 0) events).reverted = [] :=
    reverted_without_flags rfl rfl
  by_cases hanswered : exists world',
      Zygiskd.getProcessFlags root env world = Outcome.ok () world'
  · rcases hanswered with ⟨world', hok⟩
    rcases requestItems_answered hfresh hok with ⟨verdict, hitems⟩
    rw [hitems]
    refine ⟨verdict.flags, getProcessFlags_flags verdict.flags_read.left hclean,
      Or.inl ⟨⟨world', hok⟩, ?_⟩⟩
    have huid : int32 (leValue (world.input.take 4)) = int32 uid := by
      rw [hinput, List.take_of_length_le (Nat.le_of_eq (leBytes_length 4 uid)), int32_leBytes]
    rw [← huid]
    exact ⟨verdict, reverted_of_flags verdict⟩
  · have hnone := not_exists.mp hanswered
    rw [requestItems_unanswered hfresh hnone]
    exact ⟨0, getProcessFlags_silent hclean, Or.inr ⟨hnone, hunanswered⟩⟩

end Both

/-- The app `10123` of a device with KernelSU, which takes its mounts away. -/
def deniedEnv : RequestEnv :=
  { plainEnv with answers := { plainEnv.answers with ksuUmount := true } }

theorem reverted_of_request_denied :
    exists flags,
      getProcessFlags (some
        { items := requestItems (Zygiskd.getProcessFlags plainRoot deniedEnv
            (requestWorld (leBytes 4 10123) (fun _ => none)))
          reads := [ReadResult.interrupted, ReadResult.upTo 2], recvs := [] }) = some flags ∧
        (run (appSpecializePre flags)
          [Event.unshare CLONE_NEWNS (-1), Event.unshare CLONE_NEWNS 0, Event.post,
            Event.unshare CLONE_NEWNS 0]).reverted = [Manager.ksu] := by
  rcases @reverted_of_request plainRoot deniedEnv
    (requestWorld (leBytes 4 10123) (fun _ => none)) 10123
    [ReadResult.interrupted, ReadResult.upTo 2] rfl rfl (by decide) with
    ⟨flags, hflags, hends⟩
  refine ⟨flags, hflags, ?_⟩
  rcases hends with ⟨_, verdict, hreverted⟩ | ⟨hno, _⟩
  · have hmanager : verdict.isManager = false := by
      have hanswer := verdict.managerAnswer (requestWorld [] (fun _ => none))
      injection hanswer with hanswer
      exact hanswer.symm
    have humount : verdict.umount = true := by
      have hanswer := verdict.umountAnswer hmanager (requestWorld [] (fun _ => none))
      injection hanswer with hanswer
      exact hanswer.symm
    have himpl : verdict.manager = Manager.ksu := by
      have hanswer := verdict.impl
      injection hanswer with hanswer
      exact hanswer.symm
    rw [hreverted, Verdict.modules, Verdict.denied, hmanager, humount, himpl]
    decide
  · exact absurd rfl (hno _)

end Specialize

end Injector
end ReZygisk
