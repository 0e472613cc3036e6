import ReZygisk.Foundation.Bytes

/-!
# Loading and calling modules

A process that is being specialised loads every module the daemon has, lets
each one register its table of callbacks, and calls them before and after the
specialisation.  What a module's entry does is up to the module: it may
register nothing, or be refused.
-/

namespace ReZygisk
namespace Injector

open Foundation

/-!
# Registration
-/

inductive Callback where
  | preAppSpecialize
  | postAppSpecialize
  | preServerSpecialize
  | postServerSpecialize
  deriving DecidableEq

/-- `module_abi_v1`.  Pointers are numbers, and `0` is the null pointer. -/
structure ModuleAbi where
  apiVersion : Int
  impl : Nat
  callback : Callback -> Nat

def ZYGISK_API_VERSION : Int := 4

/-- A module library read from the daemon.  If it loads and has an entry, the
entry is the tables it hands to `registerModule`, one for each call; `none` is
a null pointer. -/
structure ModuleFile where
  name : List Byte
  entry : Option (List (Option ModuleAbi))

structure ZygiskModule where
  id : Nat
  mod : Option ModuleAbi

def ZygiskModule.new (id : Nat) : ZygiskModule :=
  { id := id, mod := none }

def registerModuleImpl (m : ZygiskModule) (module : Option ModuleAbi) :
    Bool × ZygiskModule :=
  match module with
  | none => (false, m)
  | some abi =>
      if abi.apiVersion > ZYGISK_API_VERSION then (false, m)
      else (true, { m with mod := some abi })

def ZygiskModule.onLoad (m : ZygiskModule) (calls : List (Option ModuleAbi)) :
    ZygiskModule :=
  calls.foldl (fun m call => (registerModuleImpl m call).2) m

def ZygiskModule.valid (m : ZygiskModule) : Bool :=
  match m.mod with
  | none => false
  | some abi =>
      decide (1 ≤ abi.apiVersion ∧ abi.apiVersion ≤ 4) && abi.impl != 0 &&
        abi.callback Callback.preAppSpecialize != 0 &&
        abi.callback Callback.postAppSpecialize != 0 &&
        abi.callback Callback.preServerSpecialize != 0 &&
        abi.callback Callback.postServerSpecialize != 0

/-- The modules of the process after their entries have run: a library that
does not load leaves a gap in the ids. -/
def loadModules (files : List ModuleFile) : List ZygiskModule :=
  files.zipIdx.filterMap (fun file =>
    file.1.entry.map (fun calls => (ZygiskModule.new file.2).onLoad calls))

/-!
# Calling the callbacks
-/

structure Invocation where
  module : ZygiskModule
  callback : Callback

def invoke (m : ZygiskModule) (abi : ModuleAbi) (callback : Callback) :
    Option (List Invocation) :=
  if abi.callback callback = 0 then none
  else some [{ module := m, callback := callback }]

/-- `call_app`: a version without a case is skipped, but the version itself is
read through the module's table. -/
def callApp (callback : Callback) (m : ZygiskModule) :
    Option (List Invocation) :=
  match m.mod with
  | none => none
  | some abi =>
      if 1 ≤ abi.apiVersion ∧ abi.apiVersion ≤ 5 then invoke m abi callback
      else some []

/-- The server callbacks look at no version. -/
def callServer (callback : Callback) (m : ZygiskModule) :
    Option (List Invocation) :=
  match m.mod with
  | none => none
  | some abi => invoke m abi callback

inductive Mode where
  | app
  | server
  deriving DecidableEq

def Mode.pre : Mode -> Callback
  | Mode.app => Callback.preAppSpecialize
  | Mode.server => Callback.preServerSpecialize

def Mode.post : Mode -> Callback
  | Mode.app => Callback.postAppSpecialize
  | Mode.server => Callback.postServerSpecialize

def dispatch (mode : Mode) (callback : Callback) (m : ZygiskModule) :
    Option (List Invocation) :=
  match mode with
  | Mode.app => callApp callback m
  | Mode.server => callServer callback m

def dispatchAll (call : ZygiskModule -> Option (List Invocation)) :
    List ZygiskModule -> Option (List Invocation)
  | [] => some []
  | m :: rest =>
      (call m).bind (fun first =>
        (dispatchAll call rest).map (fun later => first ++ later))

def runModulesPre (mode : Mode) (files : List ModuleFile) :
    Option (List Invocation) :=
  dispatchAll (dispatch mode mode.pre) (loadModules files)

def runModulesPost (mode : Mode) (files : List ModuleFile) :
    Option (List Invocation) :=
  dispatchAll (dispatch mode mode.post) (loadModules files)

/-- `run_modules_pre` and then `run_modules_post`; without a result the process
was ended by a null pointer. -/
def runModules (mode : Mode) (files : List ModuleFile) :
    Option (List Invocation) :=
  (runModulesPre mode files).bind (fun before =>
    (runModulesPost mode files).map (fun after => before ++ after))

/-!
# Calling exactly the valid modules
-/

def validInvocations (callback : Callback) (ms : List ZygiskModule) :
    List Invocation :=
  (ms.filter ZygiskModule.valid).map
    (fun m => { module := m, callback := callback })

/-- No null pointer is followed, only valid modules are called, and each of them
is called before and after. -/
def CallsExactlyValid (mode : Mode) (files : List ModuleFile) : Prop :=
  runModules mode files =
    some (validInvocations mode.pre (loadModules files) ++
      validInvocations mode.post (loadModules files))

/-- The module is valid, or an app skips it for a version without a case. -/
def Callable (mode : Mode) (m : ZygiskModule) : Prop :=
  m.valid = true ∨
    (mode = Mode.app ∧ exists abi, m.mod = some abi ∧
      ¬ (1 ≤ abi.apiVersion ∧ abi.apiVersion ≤ 5))

theorem valid_spec {m : ZygiskModule} (h : m.valid = true) :
    exists abi, m.mod = some abi ∧ (1 ≤ abi.apiVersion ∧ abi.apiVersion ≤ 4) ∧
      forall callback, abi.callback callback ≠ 0 := by
  rw [ZygiskModule.valid] at h
  cases hmod : m.mod with
  | none => simp [hmod] at h
  | some abi =>
      simp [hmod] at h
      rcases h with ⟨⟨⟨⟨⟨hversion, _⟩, hpre⟩, hpost⟩, hpre'⟩, hpost'⟩
      refine ⟨abi, rfl, hversion, ?_⟩
      intro callback
      cases callback <;> assumption

theorem dispatch_valid {m : ZygiskModule} (h : m.valid = true) (mode : Mode)
    (callback : Callback) :
    dispatch mode callback m = some [{ module := m, callback := callback }] := by
  rcases valid_spec h with ⟨abi, hmod, hversion, hcallback⟩
  have hcase : 1 ≤ abi.apiVersion ∧ abi.apiVersion ≤ 5 := by omega
  cases mode with
  | app =>
      simp only [dispatch, callApp, hmod, if_pos hcase, invoke,
        if_neg (hcallback callback)]
  | server =>
      simp only [dispatch, callServer, hmod, invoke, if_neg (hcallback callback)]

theorem dispatch_callable {mode : Mode} {m : ZygiskModule} (h : Callable mode m)
    (callback : Callback) :
    dispatch mode callback m = some (validInvocations callback [m]) := by
  cases hvalid : m.valid with
  | true =>
      rw [dispatch_valid hvalid]
      simp [validInvocations, hvalid]
  | false =>
      rcases h with h | h
      · rw [hvalid] at h
        cases h
      · rcases h with ⟨hmode, abi, hmod, hversion⟩
        rw [hmode]
        simp only [dispatch, callApp, hmod, if_neg hversion]
        simp [validInvocations, hvalid]

theorem dispatch_not_callable {mode : Mode} {m : ZygiskModule}
    (h : ¬ Callable mode m) (callback : Callback) :
    dispatch mode callback m = none ∨
      dispatch mode callback m = some [{ module := m, callback := callback }] := by
  cases hmod : m.mod with
  | none => cases mode <;> simp [dispatch, callApp, callServer, hmod]
  | some abi =>
      have hinvoke : invoke m abi callback = none ∨
          invoke m abi callback =
            some [{ module := m, callback := callback }] := by
        rw [invoke]
        split
        · exact Or.inl rfl
        · exact Or.inr rfl
      cases mode with
      | server => simpa [dispatch, callServer, hmod] using hinvoke
      | app =>
          have hversion : 1 ≤ abi.apiVersion ∧ abi.apiVersion ≤ 5 := by
            apply Classical.not_not.mp
            intro hversion
            exact h (Or.inr ⟨rfl, abi, hmod, hversion⟩)
          simpa only [dispatch, callApp, hmod, if_pos hversion] using hinvoke

theorem dispatchAll_of_callable {mode : Mode} {ms : List ZygiskModule}
    (h : forall m, m ∈ ms -> Callable mode m) (callback : Callback) :
    dispatchAll (dispatch mode callback) ms =
      some (validInvocations callback ms) := by
  induction ms with
  | nil => rfl
  | cons m rest ih =>
      have hrest := ih (fun m' hm' => h m' (List.mem_cons_of_mem m hm'))
      rw [dispatchAll, dispatch_callable (h m List.mem_cons_self), hrest]
      cases hvalid : m.valid <;> simp [validInvocations, hvalid]

theorem mem_of_dispatchAll {call : ZygiskModule -> Option (List Invocation)}
    {ms : List ZygiskModule} {invocations : List Invocation}
    (h : dispatchAll call ms = some invocations) {m : ZygiskModule}
    (hm : m ∈ ms) :
    exists part, call m = some part ∧ forall i, i ∈ part -> i ∈ invocations := by
  induction ms generalizing invocations with
  | nil => cases hm
  | cons m' rest ih =>
      rw [dispatchAll, Option.bind_eq_some_iff] at h
      rcases h with ⟨first, hfirst, h⟩
      rw [Option.map_eq_some_iff] at h
      rcases h with ⟨later, hlater, happend⟩
      rcases List.mem_cons.mp hm with heq | hrest
      · refine ⟨first, heq ▸ hfirst, ?_⟩
        intro i hi
        rw [← happend]
        exact List.mem_append_left later hi
      · rcases ih hlater hrest with ⟨part, hpart, hmem⟩
        refine ⟨part, hpart, ?_⟩
        intro i hi
        rw [← happend]
        exact List.mem_append_right first (hmem i hi)

theorem valid_of_mem {callback : Callback} {ms : List ZygiskModule}
    {i : Invocation} (h : i ∈ validInvocations callback ms) :
    i.module.valid = true := by
  rcases List.mem_map.mp h with ⟨m, hm, heq⟩
  rw [← heq]
  exact (List.mem_filter.mp hm).right

theorem callsExactlyValid_of_callable {mode : Mode} {files : List ModuleFile}
    (h : forall m, m ∈ loadModules files -> Callable mode m) :
    CallsExactlyValid mode files := by
  rw [CallsExactlyValid, runModules, runModulesPre, runModulesPost,
    dispatchAll_of_callable h, dispatchAll_of_callable h]
  rfl

theorem callable_of_callsExactlyValid {mode : Mode} {files : List ModuleFile}
    (h : CallsExactlyValid mode files) :
    forall m, m ∈ loadModules files -> Callable mode m := by
  intro m hm
  apply Classical.not_not.mp
  intro hnot
  rw [CallsExactlyValid, runModules, Option.bind_eq_some_iff] at h
  rcases h with ⟨before, hpre, h⟩
  rw [Option.map_eq_some_iff] at h
  rcases h with ⟨after, _, happend⟩
  rcases mem_of_dispatchAll hpre hm with ⟨part, hpart, hmem⟩
  rcases dispatch_not_callable hnot mode.pre with hnone | hcalled
  · rw [hnone] at hpart
    cases hpart
  · rw [hcalled] at hpart
    cases hpart
    have hin : { module := m, callback := mode.pre } ∈
        validInvocations mode.pre (loadModules files) ++
          validInvocations mode.post (loadModules files) := by
      rw [← happend]
      exact List.mem_append_left after (hmem _ (List.mem_singleton_self _))
    have hvalid : m.valid = true := by
      rcases List.mem_append.mp hin with hin | hin
      · exact valid_of_mem hin
      · exact valid_of_mem hin
    exact hnot (Or.inl hvalid)

/-- For every list of modules and whatever their entries do, exactly the valid
modules are called and no null pointer is followed if and only if every module
that loads is callable. -/
theorem callsExactlyValid_iff_all_callable (mode : Mode)
    (files : List ModuleFile) :
    CallsExactlyValid mode files <->
      forall m, m ∈ loadModules files -> Callable mode m :=
  ⟨callable_of_callsExactlyValid, callsExactlyValid_of_callable⟩

def silentModule : ModuleFile :=
  { name := bytesOf "silent", entry := some [] }

theorem not_callsExactlyValid_silent_module :
    ¬ CallsExactlyValid Mode.app [silentModule] := by
  intro h
  cases h

end Injector
end ReZygisk
