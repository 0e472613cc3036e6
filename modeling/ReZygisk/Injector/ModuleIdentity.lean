import Mathlib.Data.List.Perm.Subperm
import ReZygisk.Injector.DaemonClient
import ReZygisk.Injector.Modules
import ReZygisk.Zygiskd.AcceptLoop
import ReZygisk.Zygiskd.CompanionRoutes

/-!
# A module and its number

A module is known to the daemon by its position in the daemon's list.  The
library counts the modules it reads, keeps the number of each one that loads,
and sends it back with every later request for that module.
-/

namespace ReZygisk
namespace Injector

open Foundation
open Kernel
open Zygiskd

/-- The modules of the daemon: names without NUL, and for each library a
descriptor of the daemon's own. -/
structure Context (lp : Lp) where
  modules : List Module
  name_nulFree : forall m, m ∈ modules -> (0 : Byte) ∉ m.name
  name_length : forall m, m ∈ modules -> m.name.length ≤ lp.ptrdiffMax
  fds_nodup : (modules.map Module.libFd).Nodup
  fds_int : forall m, m ∈ modules -> m.libFd < 2 ^ 31

/-!
# The requests of a module
-/

/-- What `DlopenMem` and `dlsym` make of a library. -/
abbrev Dlopen := Int -> Option (List (Option ModuleAbi))

def moduleFile (dlopen : Dlopen) (m : List Byte × Int) : ModuleFile :=
  { name := m.1, entry := dlopen m.2 }

/-- The index in a request: the `size_t` that counted the modules became an `int`
and becomes a `size_t` again. -/
def ZygiskModule.index (lp : Lp) (z : ZygiskModule) : Nat :=
  lp.sizeT (int32 z.id)

/-- What `connectCompanion` writes to its connection. -/
def ZygiskModule.connectCompanion (lp : Lp) (z : ZygiskModule) : List Byte :=
  leBytes 1 5 ++ leBytes lp.bytes (z.index lp)

/-- What `getModuleDir` writes to its connection. -/
def ZygiskModule.getModuleDir (lp : Lp) (z : ZygiskModule) : List Byte :=
  leBytes 1 6 ++ leBytes lp.bytes (z.index lp)

/-- The answer to `GetModuleDir` for a module. -/
def sendModuleDir (env : RequestEnv) (m : Module) : Handler Unit :=
  match env.moduleDir (modulePath m) with
  | some dir => sendFd env.toSurroundings dir
  | none => Prog.fail Error.openFailed

/-- The loaded module is the daemon's module `m`: it was loaded from the library
of `m`, and in every run of the daemon its requests get to the companion and to
the directory of `m`. -/
structure Identified {lp : Lp} (ctx : Context lp) (dlopen : Dlopen)
    (z : ZygiskModule) (m : Module) : Prop where
  indexed : ctx.modules[z.id]? = some m
  loaded : exists calls, dlopen m.libFd = some calls ∧
    z = (ZygiskModule.new z.id).onLoad calls
  companion : forall events net,
    (Net.system ctx.modules).run Net.initial events = some net ->
    forall r : CompanionRequest, r.env.lp = lp ->
      readAction (z.connectCompanion lp) =
        some (DaemonSocketAction.requestCompanionSocket, r.input) ->
      net.indexOf r = z.id ∧
      forall net', net.step ctx.modules (NetEvent.request r) = some net' ->
        forall sock c, net'.companions sock = some c ->
          net.nextClient ∈ c.taken ++ c.inbox ->
          c.name = m.name ∧ c.libFd = m.libFd
  directory : forall (env : RequestEnv) (w : World), env.lp = lp ->
    readAction (z.getModuleDir lp) =
      some (DaemonSocketAction.getModuleDir, w.input) ->
    Zygiskd.getModuleDir ctx.modules env w =
      sendModuleDir env m { w with input := [] }

/-!
# Numbers that fit
-/

section Numbers

variable {lp : Lp} (ctx : Context lp)

theorem length_modules_le : ctx.modules.length ≤ 2 ^ 31 := by
  have hsub : ctx.modules.map Module.libFd ⊆ List.range (2 ^ 31) := by
    intro fd hfd
    rcases List.mem_map.mp hfd with ⟨m, hm, heq⟩
    rw [← heq]
    exact List.mem_range.mpr (ctx.fds_int m hm)
  have hle := (List.Nodup.subperm ctx.fds_nodup hsub).length_le
  rw [List.length_map, List.length_range] at hle
  exact hle

theorem index_eq {z : ZygiskModule} (h : z.id < 2 ^ 31) : z.index lp = z.id := by
  have hmod : z.id % 2 ^ 32 = z.id := Nat.mod_eq_of_lt (by omega)
  have hint : int32 z.id = z.id := by
    unfold int32
    rw [hmod, if_pos h]
  unfold ZygiskModule.index
  rw [hint]
  rw [Lp.sizeT_of_fits (Int.natCast_nonneg _)]
  · rfl
  · have hmax := lp.int_le_ptrdiffMax
    omega

end Numbers

/-!
# The reply to `ReadModules`
-/

section Reply

variable {env : RequestEnv} {w w' : World}

theorem tryEmit_ok {env : Surroundings} {e : Effect}
    (h : tryEmit env e w = Outcome.ok () w') : w' = w.emit e := by
  unfold tryEmit at h
  split at h
  · cases h
    rfl
  · cases h

theorem tryEmit_err {env : Surroundings} {e : Effect} {error : Error}
    (h : tryEmit env e w = Outcome.err error w') : w' = w := by
  unfold tryEmit at h
  split at h
  · cases h
  · cases h
    rfl

def moduleEffects (lp : Lp) (m : Module) : List Effect :=
  [Effect.wrote (leBytes lp.bytes m.name.length), Effect.wrote m.name,
    Effect.sentFd m.libFd]

theorem writeNameAndFd_ok {m : Module}
    (h : writeNameAndFd env m w = Outcome.ok () w') :
    w'.effects = w.effects ++ moduleEffects env.lp m := by
  rcases Prog.exists_of_bind_ok h with ⟨_, w2, hname, hfd⟩
  rcases Prog.exists_of_bind_ok hname with ⟨_, w1, hlen, htext⟩
  rw [tryEmit_ok hfd, tryEmit_ok htext, tryEmit_ok hlen]
  simp only [World.emit, moduleEffects, List.append_assoc, List.cons_append,
    List.nil_append]

theorem forEach_writeNameAndFd_ok {modules : List Module}
    (h : Prog.forEach (writeNameAndFd env) modules w = Outcome.ok () w') :
    w'.effects = w.effects ++ modules.flatMap (moduleEffects env.lp) := by
  induction modules generalizing w with
  | nil =>
      cases h
      exact (List.append_nil _).symm
  | cons m rest ih =>
      rcases Prog.exists_of_bind_ok h with ⟨_, w1, hfirst, hrest⟩
      rw [ih hrest, writeNameAndFd_ok hfirst, List.flatMap_cons, List.append_assoc]

theorem replyItems_modules (lp : Lp) (modules : List Module) :
    replyItems (modules.flatMap (moduleEffects lp)) =
      modules.flatMap (Conn.moduleItems lp) := by
  have hmodule : forall m, (moduleEffects lp m).flatMap effectItems =
      Conn.moduleItems lp m := by
    intro m
    simp only [moduleEffects, List.flatMap_cons, List.flatMap_nil, effectItems,
      Conn.moduleItems, Conn.stringItems, List.append_nil, List.append_assoc]
  unfold replyItems
  rw [List.flatMap_assoc]
  simp only [hmodule]

/-- The daemon's whole reply, as the client can read it. -/
theorem replyItems_readModules {modules : List Module} (hw : w.effects = [])
    (h : Zygiskd.readModules modules env w = Outcome.ok () w') :
    replyItems w'.effects =
      dataItems (leBytes env.lp.bytes modules.length) ++
        modules.flatMap (Conn.moduleItems env.lp) := by
  rcases Prog.exists_of_bind_ok h with ⟨_, w1, hlen, hmodules⟩
  rw [forEach_writeNameAndFd_ok hmodules, tryEmit_ok hlen, ← replyItems_modules]
  show replyItems ((w.effects ++ [Effect.wrote _]) ++ _) = _
  rw [hw]
  rfl

end Reply

/-!
# The requests of a loaded module
-/

section Requests

variable {lp : Lp} {ctx : Context lp} {dlopen : Dlopen} {z : ZygiskModule} {m : Module}

/-- What the client keeps of the daemon's modules. -/
def readPairs (modules : List Module) : List (List Byte × Int) :=
  modules.map (fun m => (m.name, (m.libFd : Int)))

theorem readModules_reply (uninit : Uninit) {env : RequestEnv} (henv : env.lp = lp)
    {w w' : World} (hw : w.effects = [])
    (hreply : Zygiskd.readModules ctx.modules env w = Outcome.ok () w')
    {reads : List ReadResult} {recvs : List RecvResult}
    (hreads : ReadResult.failed ∉ reads) (hrecvs : RecvResult.interrupted ∉ recvs) :
    Conn.readModules lp uninit
        (some { items := replyItems w'.effects, reads := reads, recvs := recvs }) =
      some (readPairs ctx.modules) := by
  have hitems := replyItems_readModules hw hreply
  rw [henv] at hitems
  have hcount : ctx.modules.length < 256 ^ lp.bytes :=
    Lp.fits_usize ((length_modules_le ctx).trans lp.int_le_ptrdiffMax)
  rcases Conn.readUsize_dataItems
    (c := { items := replyItems w'.effects, reads := reads, recvs := recvs })
    hitems hcount hreads with ⟨reads', hclean, hlen⟩
  unfold Conn.readModules
  simp only [hlen, Option.bind_some]
  exact Conn.readModulesLoop_items rfl
    (fun m hm => Lp.fits_usize (Nat.le_succ_of_le (ctx.name_length m hm)))
    ctx.name_nulFree hclean hrecvs

theorem onLoad_id (z : ZygiskModule) (calls : List (Option ModuleAbi)) :
    (z.onLoad calls).id = z.id := by
  induction calls generalizing z with
  | nil => rfl
  | cons call rest ih =>
      have hone : (registerModuleImpl z call).2.id = z.id := by
        unfold registerModuleImpl
        split
        · rfl
        · split
          · rfl
          · rfl
      exact (ih _).trans hone

/-- A module that is loaded keeps the position of its library in the list. -/
theorem loadModules_indexed
    (h : z ∈ loadModules ((readPairs ctx.modules).map (moduleFile dlopen))) :
    exists m calls, ctx.modules[z.id]? = some m ∧ dlopen m.libFd = some calls ∧
      z = (ZygiskModule.new z.id).onLoad calls := by
  rcases List.mem_filterMap.mp h with ⟨⟨file, i⟩, hfile, hload⟩
  rcases Option.map_eq_some_iff.mp hload with ⟨calls, hentry, hz⟩
  have hget := List.mem_zipIdx_iff_getElem?.mp hfile
  simp only [readPairs, List.map_map, List.getElem?_map] at hget
  rcases Option.map_eq_some_iff.mp hget with ⟨m, hm, heq⟩
  have hid : z.id = i := by
    rw [← hz, onLoad_id]
    rfl
  rw [hid]
  refine ⟨m, calls, hm, ?_, hz.symm⟩
  rw [← heq] at hentry
  exact hentry

theorem readAction_append (code : Nat) (rest : List Byte) (hcode : code < 256) :
    readAction (leBytes 1 code ++ rest) =
      (DaemonSocketAction.tryFrom code).map (fun action => (action, rest)) := by
  have hvalue : leValue (leBytes 1 code) = code := leValue_leBytes_of_lt hcode
  have htake : (leBytes 1 code ++ rest).take 1 = leBytes 1 code := rfl
  unfold readAction readU8
  rw [readNumber_eq]
  simp only [List.length_append, leBytes_length, Nat.le_add_right, if_true, htake, hvalue]
  rfl

theorem requestIndex_of_input {env : RequestEnv} {w : World} (henv : env.lp = lp)
    (hindex : z.id < 2 ^ 31) (hinput : w.input = leBytes lp.bytes (z.index lp)) :
    requestIndex env w = z.id := by
  unfold requestIndex
  rw [henv, hinput, index_eq hindex, List.take_of_length_le]
  · exact leValue_leBytes_of_lt
      (Lp.fits_usize ((Nat.le_of_lt hindex).trans lp.int_le_ptrdiffMax))
  · rw [leBytes_length]

theorem id_lt_of_indexed (h : ctx.modules[z.id]? = some m) : z.id < 2 ^ 31 :=
  Nat.lt_of_lt_of_le (List.getElem?_eq_some_iff.mp h).choose (length_modules_le ctx)

/-- In every run of the daemon a client of the module is passed to the module's
companion and to no other. -/
theorem companion_of_indexed (hm : ctx.modules[z.id]? = some m)
    {events : List NetEvent} {net : Net}
    (hrun : (Net.system ctx.modules).run Net.initial events = some net)
    {r : CompanionRequest} (hlp : r.env.lp = lp)
    (haction : readAction (z.connectCompanion lp) =
      some (DaemonSocketAction.requestCompanionSocket, r.input)) :
    net.indexOf r = z.id ∧
      forall net', net.step ctx.modules (NetEvent.request r) = some net' ->
        forall sock c, net'.companions sock = some c ->
          net.nextClient ∈ c.taken ++ c.inbox ->
          c.name = m.name ∧ c.libFd = m.libFd := by
  have hinput : r.input = leBytes lp.bytes (z.index lp) := by
    unfold ZygiskModule.connectCompanion at haction
    rw [readAction_append 5 _ (by decide)] at haction
    injection haction with haction
    injection haction with _ haction
    exact haction.symm
  have hlp' : (r.envIn net.nextSocket).lp = lp := hlp
  have hindex : net.indexOf r = z.id :=
    requestIndex_of_input hlp' (id_lt_of_indexed hm) hinput
  refine ⟨hindex, ?_⟩
  intro net' hstep sock c hc hmem
  have hrequest : net' = net.request ctx.modules r := by
    simp only [Net.step] at hstep
    split at hstep
    · cases hstep
      rfl
    · cases hstep
  have hthere : (r.envIn net.nextSocket).lp.bytes ≤ r.input.length := by
    rw [hlp', hinput, leBytes_length]
  have hmodule : ctx.modules[net.indexOf r]? = some m := by
    rw [hindex]
    exact hm
  have hrequested : net'.requested net.nextClient = some z.id := by
    rw [hrequest, Net.request_served hthere hmodule, ← hindex]
    exact Function.update_self _ _ _
  have hrun' : (Net.system ctx.modules).run Net.initial
      (events ++ [NetEvent.request r]) = some net' := by
    rw [TransitionSystem.run_append, hrun, Option.bind_some]
    exact Option.bind_eq_some_iff.mpr ⟨net', hstep, rfl⟩
  rcases Net.servesModuleOf_of_run hrun' hc hmem with
    ⟨index, m', hreq, hm', hname, hlib⟩
  cases hrequested.symm.trans hreq
  cases hm.symm.trans hm'
  exact ⟨hname, hlib⟩

theorem directory_of_indexed (hm : ctx.modules[z.id]? = some m) {env : RequestEnv}
    {w : World} (hlp : env.lp = lp)
    (haction : readAction (z.getModuleDir lp) =
      some (DaemonSocketAction.getModuleDir, w.input)) :
    Zygiskd.getModuleDir ctx.modules env w =
      sendModuleDir env m { w with input := [] } := by
  have hinput : w.input = leBytes lp.bytes (z.index lp) := by
    unfold ZygiskModule.getModuleDir at haction
    rw [readAction_append 6 _ (by decide)] at haction
    injection haction with haction
    injection haction with _ haction
    exact haction.symm
  have hindex : leValue (w.input.take env.lp.bytes) = z.id :=
    requestIndex_of_input hlp (id_lt_of_indexed hm) hinput
  have hlength : w.input.length = env.lp.bytes := by
    rw [hinput, leBytes_length, hlp]
  have hread : Zygiskd.readUsize env.lp w = Outcome.ok z.id { w with input := [] } := by
    unfold Zygiskd.readUsize
    rw [readNumber_eq, if_pos (Nat.le_of_eq hlength.symm), hindex,
      List.drop_of_length_le (Nat.le_of_eq hlength)]
  have hget : getModule ctx.modules z.id { w with input := [] } =
      Outcome.ok m { w with input := [] } := by
    unfold getModule
    rw [hm]
    rfl
  unfold Zygiskd.getModuleDir
  rw [Prog.bind_of_ok hread, Prog.bind_of_ok hget]
  rfl

end Requests

/-- Whatever the daemon's modules, the fragments of its reply and the libraries
that do not load: the client reads the daemon's list, and every module that it
loads is the daemon's module of that number. -/
theorem modules_identified {lp : Lp} (ctx : Context lp) (dlopen : Dlopen)
    (uninit : Uninit) (env : RequestEnv) (henv : env.lp = lp) (w w' : World)
    (hw : w.effects = [])
    (hreply : Zygiskd.readModules ctx.modules env w = Outcome.ok () w')
    (reads : List ReadResult) (recvs : List RecvResult)
    (hreads : ReadResult.failed ∉ reads) (hrecvs : RecvResult.interrupted ∉ recvs) :
    Conn.readModules lp uninit
        (some { items := replyItems w'.effects, reads := reads, recvs := recvs }) =
      some (ctx.modules.map (fun m => (m.name, (m.libFd : Int)))) ∧
    forall z, z ∈ loadModules
        ((ctx.modules.map (fun m => (m.name, (m.libFd : Int)))).map
          (moduleFile dlopen)) ->
      exists m, Identified ctx dlopen z m := by
  constructor
  · exact readModules_reply uninit henv hw hreply hreads hrecvs
  · intro z hz
    rcases loadModules_indexed hz with ⟨m, calls, hm, hcalls, hload⟩
    refine ⟨m, hm, ⟨calls, hcalls, hload⟩, ?_, ?_⟩
    · intro events net hrun r hlp haction
      exact companion_of_indexed hm hrun hlp haction
    · intro env' w1 hlp haction
      exact directory_of_indexed hm hlp haction

/-- Two modules, of which the first does not load. -/
def twoModules : Context Lp.lp64 where
  modules := [⟨bytesOf "first", 10⟩, ⟨bytesOf "second", 11⟩]
  name_nulFree := by decide
  name_length := by decide
  fds_nodup := by decide
  fds_int := by decide

/-- The reply in small and interrupted reads; the second module keeps its
number. -/
theorem modules_identified_second :
    exists w',
      Zygiskd.readModules twoModules.modules plainEnv
        (requestWorld [] (fun _ => none)) = Outcome.ok () w' ∧
      Conn.readModules Lp.lp64 ⟨fun _ => 0, -1⟩
          (some ⟨replyItems w'.effects,
            [ReadResult.interrupted, ReadResult.upTo 2, ReadResult.upTo 0], []⟩) =
        some [(bytesOf "first", 10), (bytesOf "second", 11)] ∧
      exists m, Identified twoModules (fun fd => if fd = 11 then some [] else none)
        (ZygiskModule.new 1) m := by
  have hall := fun w' hreply => modules_identified twoModules
    (fun fd => if fd = 11 then some [] else none) ⟨fun _ => 0, -1⟩ plainEnv rfl
    (requestWorld [] (fun _ => none)) w' rfl hreply
    [ReadResult.interrupted, ReadResult.upTo 2, ReadResult.upTo 0] [] (by decide)
    (by decide)
  refine ⟨_, rfl, (hall _ rfl).left, (hall _ rfl).right _ ?_⟩
  exact List.mem_singleton_self _

end Injector
end ReZygisk
