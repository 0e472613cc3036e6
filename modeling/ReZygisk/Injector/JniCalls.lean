import ReZygisk.Foundation.Records
import ReZygisk.Injector.JniGenerator
import ReZygisk.Injector.Modules
import ReZygisk.Injector.Specialize

/-!
# Calling a replaced method

A replacement takes the arguments of the method it replaces, shows them to the
modules and calls the original method.  Modules reach the arguments by name, through
the fields of an object that the generated code has filled in; which of the fields
there are depends on the method, and on the API version of the module.
-/

namespace ReZygisk
namespace Injector
namespace Generator

open Foundation

/-!
# What surrounds a call
-/

/-- A value of any of the JNI types: a number, or a reference of the JVM. -/
abbrev JValue := Int

abbrev Frame := Record Name JValue

/-- What a callback of a module does: the arguments it assigns, in this order, and the
descriptors that it exempts. -/
structure Act where
  writes : List (Name × JValue)
  exempted : List Int

/-- The answers of the system, of the daemon and of the modules; `act` is told what
the module can read. -/
structure Surroundings where
  fork : ForkOutcome
  logFd : Int
  processFlags : JValue -> Nat
  files : List ModuleFile
  act : Invocation -> Frame -> Act
  newArray : Option JValue

/-- A replacement on its way: its variables, its `args` object, its context, and what
the original method has been called with. -/
structure Running where
  frame : Frame
  args : Name -> Option Name
  pid : Int
  appForkAndSpecialize : Bool
  postSpecialize : Bool
  skipFdSanitization : Bool
  exemptedFds : List Int
  modulesLoaded : Bool
  passed : Option (List JValue)
  returned : Option Int

def Running.exemptFd (c : Running) (fd : Int) : Running :=
  if c.postSpecialize || c.skipFdSanitization then c
  else if c.appForkAndSpecialize = false then c
  else { c with exemptedFds := c.exemptedFds ++ [fd] }

/-!
# Calling the modules
-/

/-- The fields that the constructor of `AppSpecializeArgs_v1` copies. -/
def appSpecializeArgsV1 : List Name :=
  [Name.uid, Name.gid, Name.gids, Name.runtimeFlags, Name.mountExternal, Name.seInfo,
    Name.niceName, Name.instructionSet, Name.appDataDir, Name.isChildZygote, Name.isTopApp,
    Name.pkgDataInfoList, Name.whitelistedDataInfoList, Name.mountDataDirs,
    Name.mountStorageDirs]

/-- `call_app`: the first two versions are handed a copy that has fewer fields. -/
def hasField (mode : Mode) (m : ZygiskModule) (f : Name) : Bool :=
  match mode, m.mod with
  | Mode.app, some abi =>
      if abi.apiVersion = 1 ∨ abi.apiVersion = 2 then decide (f ∈ appSpecializeArgsV1) else true
  | _, _ => true

def handedArgs (mode : Mode) (m : ZygiskModule) (args : Name -> Option Name) :
    Name -> Option Name :=
  fun f => if hasField mode m f then args f else none

section Call

variable (s : Surroundings)

/-- Without a result the module has followed a null pointer. -/
def callModule (mode : Mode) (c : Running) (i : Invocation) : Option Running :=
  let args := handedArgs mode i.module c.args
  let act := s.act i (fun f => (args f).bind c.frame)
  (act.writes.foldlM (assign args) c.frame).map (fun frame =>
    act.exempted.foldl Running.exemptFd { c with frame := frame })

def modulesPre (mode : Mode) (c : Running) : Option Running :=
  (runModulesPre mode s.files).bind (fun invocations =>
    invocations.foldlM (callModule s mode) { c with modulesLoaded := true })

/-- The list of modules is empty if they were never loaded. -/
def modulesPost (mode : Mode) (c : Running) : Option Running :=
  if c.modulesLoaded then
    (runModulesPost mode s.files).bind (fun invocations =>
      invocations.foldlM (callModule s mode) { c with postSpecialize := true })
  else some { c with postSpecialize := true }

/-!
# The hooks around the original method
-/

def appSpecializePre (c : Running) : Option Running :=
  ((c.args Name.uid).bind c.frame).bind (fun uid =>
    if (Specialize.appSpecializePre (s.processFlags uid)).modulesLoaded then
      modulesPre s Mode.app c
    else some c)

/-- The part of `sanitize_fds` that is about the arguments.  It dereferences
`fds_to_ignore` without looking whether there is such an argument. -/
def updateFdsToIgnore (c : Running) : Option Running :=
  (c.args Name.fdsToIgnore).bind (fun arg =>
    (c.frame arg).map (fun _ =>
      match c.exemptedFds, s.newArray with
      | _ :: _, some array =>
          { c with
            frame := Function.update c.frame arg (some array)
            skipFdSanitization := true }
      | _, _ => c))

def sanitizeFds (c : Running) : Option Running :=
  if c.skipFdSanitization then some c
  else if c.appForkAndSpecialize then updateFdsToIgnore s c
  else some c

def forkPre (c : Running) : Running :=
  { c with pid := s.fork.result }

def pre : HookKind -> Running -> Option Running
  | HookKind.forkAndSpecialize, c =>
      let logged : List Int := if s.logFd ≠ -1 then [s.logFd] else []
      let forked := forkPre s
        { c with appForkAndSpecialize := true, exemptedFds := c.exemptedFds ++ logged }
      (if forked.pid = 0 then appSpecializePre s forked else some forked).bind (sanitizeFds s)
  | HookKind.specializeAppProcess, c =>
      appSpecializePre s { c with skipFdSanitization := true }
  | HookKind.forkSystemServer, c =>
      let forked := forkPre s c
      if forked.pid ≠ 0 then some forked
      else (modulesPre s Mode.server forked).bind (sanitizeFds s)

def post : HookKind -> Running -> Option Running
  | HookKind.forkAndSpecialize, c =>
      if c.pid = 0 then modulesPost s Mode.app c else some c
  | HookKind.specializeAppProcess, c => modulesPost s Mode.app c
  | HookKind.forkSystemServer, c =>
      if c.pid = 0 then modulesPost s Mode.server c else some c

/-!
# Running the generated code
-/

def construct (cls : ArgsClass) (actuals : List Name) : Name -> Option Name :=
  fun f => ((cls.params.map Prod.fst).zip actuals).lookup f

def exec (kind : HookKind) (c : Running) : Stmt -> Option Running
  | Stmt.initArgs cls actuals => some { c with args := construct cls actuals }
  | Stmt.setArg name => some { c with args := Function.update c.args name (some name) }
  | Stmt.context =>
      some { c with
        pid := ZygiskContext.new.pid, appForkAndSpecialize := false, postSpecialize := false,
        skipFdSanitization := false, exemptedFds := [], modulesLoaded := false }
  | Stmt.pre => pre s kind c
  | Stmt.callOrig actuals =>
      (actuals.mapM c.frame).map (fun values => { c with passed := some values })
  | Stmt.post => post s kind c
  | Stmt.returnPid => some { c with returned := some c.pid }

def enter (names : List Name) (values : List JValue) : Running :=
  { frame := bindNames names values, args := fun _ => none, pid := ZygiskContext.new.pid,
    appForkAndSpecialize := false, postSpecialize := false, skipFdSanitization := false,
    exemptedFds := [], modulesLoaded := false, passed := none, returned := none }

/-- The replacement is called with these values. -/
def Method.call (m : Method) (values : List JValue) : Option Running :=
  m.definition.foldlM (exec s m.baseName) (enter m.nameList values)

end Call

/-!
# What a call is for

The original method gets each argument as the last module that assigned it left it.
-/

/-- The names that the `args` object has something for. -/
def Method.hasArg (m : Method) (f : Name) : Bool :=
  decide (f ∈ (argsClass m.baseName).params.map Prod.fst) ||
    m.args.any (fun a => a.setArg && decide (a.name = f))

def callMode : HookKind -> Mode
  | HookKind.forkSystemServer => Mode.server
  | _ => Mode.app

def Method.sees (m : Method) (i : Invocation) (f : Name) : Bool :=
  hasField (callMode m.baseName) i.module f && m.hasArg f

/-- What `sanitize_fds` assigns for these exempted descriptors. -/
def newFdsToIgnore (fds : List Int) (newArray : Option JValue) : List (Name × JValue) :=
  match fds, newArray with
  | _ :: _, some array => [(Name.fdsToIgnore, array)]
  | _, _ => []

section Spec

variable (s : Surroundings) (m : Method) (values : List JValue)

/-- Modules are loaded in a process that is specialised, except for the manager. -/
def loads : Bool :=
  match m.baseName with
  | HookKind.forkAndSpecialize =>
      decide (s.fork.result = 0) && allowsModules
  | HookKind.specializeAppProcess => allowsModules
  | HookKind.forkSystemServer => decide (s.fork.result = 0)
where
  allowsModules : Bool :=
    ((bindNames m.nameList values Name.uid).map (fun uid =>
      (Specialize.appSpecializePre (s.processFlags uid)).modulesLoaded)).getD false

def invocations (run : Mode -> List ModuleFile -> Option (List Invocation)) : List Invocation :=
  if loads s m values then (run (callMode m.baseName) s.files).getD [] else []

def actsPre : List (Invocation × Act) :=
  turns m.sees s.act Act.writes (bindNames m.nameList values)
    (invocations s m values runModulesPre)

/-- The descriptors that are exempted for a forked app. -/
def exempted : List Int :=
  (if s.logFd ≠ -1 then [s.logFd] else []) ++
    (actsPre s m values).flatMap (fun e => e.2.exempted)

def replaced : List (Name × JValue) :=
  match m.baseName with
  | HookKind.forkAndSpecialize => newFdsToIgnore (exempted s m values) s.newArray
  | _ => []

def writesPre : List (Name × JValue) :=
  (actsPre s m values).flatMap (fun e => e.2.writes) ++ replaced s m values

def actsPost : List (Invocation × Act) :=
  turns m.sees s.act Act.writes
    (overwrite (bindNames m.nameList values) (writesPre s m values))
    (invocations s m values runModulesPost)

/-- No module that is called has failed to register, each keeps to the arguments it
can see, and a forked app has descriptors to ignore. -/
structure Safe : Prop where
  registered : loads s m values = true ->
    (runModulesPre (callMode m.baseName) s.files).isSome = true ∧
      (runModulesPost (callMode m.baseName) s.files).isSome = true
  seen : forall e, e ∈ actsPre s m values ++ actsPost s m values ->
    forall w, w ∈ e.2.writes -> m.sees e.1 w.1 = true
  ignores : m.baseName = HookKind.forkAndSpecialize -> m.hasArg Name.fdsToIgnore = true

end Spec

/-!
# The arguments object
-/

section Args

theorem lookup_zip_self (names : List Name) (f : Name) :
    (names.zip names).lookup f = if f ∈ names then some f else none := by
  induction names with
  | nil => rfl
  | cons n rest ih =>
      rw [List.zip_cons_cons, List.lookup_cons]
      by_cases hn : f = n
      · rw [hn, beq_self_eq_true, if_pos List.mem_cons_self]
      · rw [beq_false_of_ne hn]
        show List.lookup f (rest.zip rest) = _
        rw [ih]
        simp only [List.mem_cons, hn, false_or]

theorem exec_initArgs (s : Surroundings) (kind : HookKind) (c : Running) :
    exec s kind c (initArgs kind) = some { c with
      args := ownFields (fun f => decide (f ∈ (argsClass kind).params.map Prod.fst)) } := by
  have hconstruct : forall names : List Name,
      (fun f => (names.zip names).lookup f) = ownFields (fun f => decide (f ∈ names)) := by
    intro names
    funext f
    rw [lookup_zip_self, ownFields]
    simp only [decide_eq_true_eq]
  cases kind <;> exact congrArg (fun args => some { c with args := args }) (hconstruct _)

theorem exec_setArgs (s : Surroundings) (kind : HookKind) (arguments : List Argument)
    {p : Name -> Bool} {c : Running} (hargs : c.args = ownFields p) :
    ((arguments.filter Argument.setArg).map (fun a => Stmt.setArg a.name)).foldlM
        (exec s kind) c =
      some { c with args := ownFields (fun f =>
        p f || arguments.any (fun a => a.setArg && decide (a.name = f))) } := by
  induction arguments generalizing p c with
  | nil =>
      simp only [List.any_nil, Bool.or_false]
      rw [← hargs]
      rfl
  | cons a rest ih =>
      cases hset : a.setArg with
      | false =>
          rw [List.filter_cons_of_neg (by rw [hset]; decide), ih hargs]
          simp only [List.any_cons, hset, Bool.false_and, Bool.false_or]
      | true =>
          rw [List.filter_cons_of_pos hset, List.map_cons, List.foldlM_cons]
          have hupdate : Function.update c.args a.name (some a.name) =
              ownFields (fun f => p f || decide (a.name = f)) := by
            rw [hargs]
            funext f
            by_cases hf : f = a.name
            · rw [hf, Function.update_self, ownFields, decide_eq_true rfl, Bool.or_true,
                if_pos rfl]
            · rw [Function.update_of_ne hf, ownFields, ownFields,
                decide_eq_false (Ne.symm hf), Bool.or_false]
          refine (ih (c := { c with args := Function.update c.args a.name (some a.name) })
            hupdate).trans ?_
          simp only [List.any_cons, hset, Bool.true_and, Bool.or_assoc]

end Args

/-!
# Calls of modules
-/

section Modules

variable {s : Surroundings} {c : Running} {p : Name -> Bool}

/-- `exempt_fd` records a descriptor. -/
def Running.exempting (c : Running) : Bool :=
  !(c.postSpecialize || c.skipFdSanitization) && c.appForkAndSpecialize

/-- The replacement after some acts of modules. -/
def Running.acted (c : Running) (acts : List (Invocation × Act)) : Running :=
  { c with
    frame := overwrite c.frame (acts.flatMap (fun e => e.2.writes))
    exemptedFds := c.exemptedFds ++
      if c.exempting then acts.flatMap (fun e => e.2.exempted) else [] }

/-- No module has gone beyond the arguments it can see. -/
def withinSight (sees : Invocation -> Name -> Bool) (acts : List (Invocation × Act)) : Bool :=
  acts.all (fun e => e.2.writes.all (fun w => sees e.1 w.1))

theorem acted_nil (c : Running) : c.acted [] = c := by
  unfold Running.acted
  cases c.exempting <;> simp [overwrite]

theorem acted_append (c : Running) (before after : List (Invocation × Act)) :
    (c.acted before).acted after = c.acted (before ++ after) := by
  have hexempting : (c.acted before).exempting = c.exempting := rfl
  unfold Running.acted at hexempting ⊢
  rw [hexempting]
  simp only [List.flatMap_append, overwrite_append, List.append_assoc]
  cases c.exempting <;> rfl

theorem foldl_exemptFd (fds : List Int) (c : Running) :
    fds.foldl Running.exemptFd c =
      { c with exemptedFds := c.exemptedFds ++ if c.exempting then fds else [] } := by
  induction fds generalizing c with
  | nil => cases c.exempting <;> simp
  | cons fd rest ih =>
      rw [List.foldl_cons, ih]
      unfold Running.exempting Running.exemptFd
      cases hoff : c.postSpecialize || c.skipFdSanitization with
      | true => simp only [if_true, hoff, Bool.not_true, Bool.false_and, Bool.false_eq_true,
          if_false]
      | false =>
          cases happ : c.appForkAndSpecialize with
          | false => simp only [hoff, happ, Bool.and_false, Bool.false_eq_true, if_false, if_true]
          | true =>
              simp only [hoff, Bool.not_false, Bool.and_true, Bool.false_eq_true,
                Bool.true_eq_false, if_false, if_true, List.append_assoc, List.singleton_append]

theorem handedArgs_ownFields (mode : Mode) (m : ZygiskModule) (p : Name -> Bool) :
    handedArgs mode m (ownFields p) = ownFields (fun f => hasField mode m f && p f) := by
  funext f
  show (if hasField mode m f then if p f then some f else none else none) =
    if hasField mode m f && p f then some f else none
  cases hasField mode m f <;> rfl

theorem callModule_eq (hargs : c.args = ownFields p) (mode : Mode) (i : Invocation) :
    callModule s mode c i =
      let sees := fun f => hasField mode i.module f && p f
      let act := s.act i (fun n => if sees n then c.frame n else none)
      if act.writes.all (fun w => sees w.1) then some (c.acted [(i, act)]) else none := by
  unfold callModule
  simp only [hargs, handedArgs_ownFields, read_ownFields, foldlM_assign]
  split
  · rw [Option.map_some, foldl_exemptFd]
    simp only [Running.acted, Running.exempting, List.flatMap_cons, List.flatMap_nil,
      List.append_nil, hargs]
    rfl
  · rfl

/-- The modules act in turn, and a write out of sight ends the process. -/
theorem callModules_eq (hargs : c.args = ownFields p) (mode : Mode)
    (invocations : List Invocation) :
    invocations.foldlM (callModule s mode) c =
      let sees := fun (i : Invocation) f => hasField mode i.module f && p f
      let acts := turns sees s.act Act.writes c.frame invocations
      if withinSight sees acts then some (c.acted acts) else none := by
  induction invocations generalizing c with
  | nil =>
      show some c = some (c.acted [])
      rw [acted_nil]
  | cons i rest ih =>
      rw [List.foldlM_cons, callModule_eq hargs]
      simp only [turns, withinSight, List.all_cons]
      split
      · rename_i hfirst
        simp only [hfirst, Bool.true_and]
        show rest.foldlM (callModule s mode) (c.acted _) = _
        rw [ih (show (c.acted _).args = ownFields p from hargs)]
        simp only [withinSight, acted_append, List.singleton_append]
        rw [show ((c.acted _).frame : Frame) = overwrite c.frame _ from rfl]
        simp only [List.flatMap_cons, List.flatMap_nil, List.append_nil]
      · rename_i hfirst
        rw [Bool.not_eq_true] at hfirst
        simp only [hfirst, Bool.false_and]
        rfl

end Modules

/-!
# Before and after the original method
-/

section Around

variable {s : Surroundings} {m : Method} {values : List JValue} {c : Running}
  {p : Name -> Bool}

/-- The modules of the process, if there are any, have all registered. -/
def registered (s : Surroundings) (m : Method) (values : List JValue)
    (run : Mode -> List ModuleFile -> Option (List Invocation)) : Bool :=
  !loads s m values || (run (callMode m.baseName) s.files).isSome

def callPid (s : Surroundings) : HookKind -> Int
  | HookKind.specializeAppProcess => ZygiskContext.new.pid
  | _ => s.fork.result

theorem hasArg_named (hm : m.Compiles) {f : Name} (h : m.hasArg f = true) : f ∈ m.nameList := by
  unfold Method.hasArg at h
  rcases Bool.or_eq_true_iff.mp h with href | hset
  · rcases List.mem_map.mp (of_decide_eq_true href) with ⟨p, hp, hf⟩
    have htype := hm.references p hp
    rw [Method.typeOf, Option.map_eq_some_iff] at htype
    rcases htype with ⟨a, ha, _⟩
    have hname : a.name = p.1 := by
      simpa using List.find?_some ha
    rw [← hf, ← hname]
    exact List.mem_map_of_mem (List.mem_of_find?_eq_some ha)
  · rcases List.any_eq_true.mp hset with ⟨a, ha, hsets⟩
    rw [← of_decide_eq_true (Bool.and_eq_true_iff.mp hsets).right]
    exact List.mem_map_of_mem ha

theorem hasArg_uid (m : Method) : m.hasArg Name.uid = true := by
  rw [Method.hasArg, Bool.or_eq_true_iff]
  left
  cases m.baseName <;> rfl

theorem modulesPre_eq (hargs : c.args = ownFields m.hasArg)
    (hframe : c.frame = bindNames m.nameList values) (hnone : c.modulesLoaded = false) :
    (if loads s m values then modulesPre s (callMode m.baseName) c else some c) =
      if registered s m values runModulesPre && withinSight m.sees (actsPre s m values) then
        some { c.acted (actsPre s m values) with modulesLoaded := loads s m values }
      else none := by
  unfold registered actsPre invocations
  rw [← hframe]
  cases loads s m values with
  | false =>
      show some c = some { c.acted [] with modulesLoaded := false }
      rw [acted_nil, ← hnone]
  | true =>
      simp only [if_true, Bool.not_true, Bool.false_or, modulesPre]
      cases runModulesPre (callMode m.baseName) s.files with
      | none => rfl
      | some invs =>
          rw [Option.bind_some, @callModules_eq s { c with modulesLoaded := true } _ hargs]
          rfl

theorem modulesPost_eq (hargs : c.args = ownFields m.hasArg)
    (hframe : c.frame = overwrite (bindNames m.nameList values) (writesPre s m values))
    (hloaded : c.modulesLoaded = loads s m values) :
    modulesPost s (callMode m.baseName) c =
      if registered s m values runModulesPost && withinSight m.sees (actsPost s m values) then
        some ({ c with postSpecialize := true }.acted (actsPost s m values))
      else none := by
  unfold modulesPost registered actsPost invocations
  rw [← hframe]
  cases hloads : loads s m values with
  | false =>
      rw [hloads] at hloaded
      rw [if_neg (by rw [hloaded]; decide)]
      show some { c with postSpecialize := true } =
        some ({ c with postSpecialize := true }.acted [])
      rw [acted_nil]
  | true =>
      rw [if_pos (hloaded.trans hloads)]
      simp only [if_true, Bool.not_true, Bool.false_or]
      cases runModulesPost (callMode m.baseName) s.files with
      | none => rfl
      | some invs =>
          rw [Option.bind_some, @callModules_eq s { c with postSpecialize := true } _ hargs]
          rfl

theorem appSpecializePre_eq (hm : m.Compiles) (hvalues : values.length = m.nameList.length)
    (hargs : c.args = ownFields m.hasArg) (hframe : c.frame = bindNames m.nameList values) :
    appSpecializePre s c =
      if loads.allowsModules s m values then modulesPre s Mode.app c else some c := by
  have huid := hasArg_named hm (hasArg_uid m)
  rcases exists_bindNames hvalues huid with ⟨uid, hread⟩
  unfold appSpecializePre loads.allowsModules
  rw [hargs, read_ownFields, if_pos (hasArg_uid m), hframe, hread]
  rfl

theorem updateFdsToIgnore_eq (hargs : c.args = ownFields p) (hp : p Name.fdsToIgnore = true)
    {v : JValue} (hread : c.frame Name.fdsToIgnore = some v) :
    exists frame skip, updateFdsToIgnore s c =
        some { c with frame := frame, skipFdSanitization := skip } ∧
      frame = overwrite c.frame (newFdsToIgnore c.exemptedFds s.newArray) := by
  unfold updateFdsToIgnore newFdsToIgnore
  rw [hargs, ownFields, if_pos hp, Option.bind_some, hread, Option.map_some, ← hargs]
  split
  · exact ⟨_, true, rfl, rfl⟩
  · exact ⟨c.frame, c.skipFdSanitization, rfl, rfl⟩

/-- The replacement when its `args` object has been filled in. -/
def prepared (m : Method) (values : List JValue) : Running :=
  { enter m.nameList values with args := ownFields m.hasArg }

/-- What the original method is going to be called with. -/
structure Entered (s : Surroundings) (m : Method) (values : List JValue) (c : Running) :
    Prop where
  frame : c.frame = overwrite (bindNames m.nameList values) (writesPre s m values)
  args : c.args = ownFields m.hasArg
  pid : c.pid = callPid s m.baseName
  loaded : c.modulesLoaded = loads s m values
  returned : c.returned = none

/-- The part of a call before the original method ends well. -/
def safePre (s : Surroundings) (m : Method) (values : List JValue) : Bool :=
  registered s m values runModulesPre && withinSight m.sees (actsPre s m values) &&
    (decide (m.baseName ≠ HookKind.forkAndSpecialize) || m.hasArg Name.fdsToIgnore)

theorem pre_forkAndSpecialize (hm : m.Compiles) (hvalues : values.length = m.nameList.length)
    (hkind : m.baseName = HookKind.forkAndSpecialize) :
    if safePre s m values then
      exists c, pre s m.baseName (prepared m values) = some c ∧ Entered s m values c
    else pre s m.baseName (prepared m values) = none := by
  let logged : List Int := if s.logFd ≠ -1 then [s.logFd] else []
  let forked : Running := forkPre s
    { prepared m values with
      appForkAndSpecialize := true
      exemptedFds := (prepared m values).exemptedFds ++ logged }
  have hmodules : (if forked.pid = 0 then appSpecializePre s forked else some forked) =
      if loads s m values then modulesPre s (callMode m.baseName) forked else some forked := by
    rw [@appSpecializePre_eq s m values forked hm hvalues rfl rfl, loads, hkind]
    show (if s.fork.result = 0 then _ else _) = _
    by_cases hfork : s.fork.result = 0
    · rw [if_pos hfork, decide_eq_true hfork, Bool.true_and]
      rfl
    · rw [if_neg hfork, decide_eq_false hfork, Bool.false_and]
      rfl
  have hpre : pre s m.baseName (prepared m values) =
      (if forked.pid = 0 then appSpecializePre s forked else some forked).bind
        (sanitizeFds s) := by
    rw [hkind]
    rfl
  rw [hpre, hmodules, @modulesPre_eq s m values forked rfl rfl rfl]
  unfold safePre
  rw [hkind, decide_eq_false (not_not.mpr rfl), Bool.false_or]
  cases registered s m values runModulesPre && withinSight m.sees (actsPre s m values) with
  | false => rfl
  | true =>
      rw [if_pos rfl, Option.bind_some, Bool.true_and]
      have hexempted : (forked.acted (actsPre s m values)).exemptedFds =
          exempted s m values := rfl
      have hsanitize : sanitizeFds s
            { forked.acted (actsPre s m values) with modulesLoaded := loads s m values } =
          updateFdsToIgnore s
            { forked.acted (actsPre s m values) with modulesLoaded := loads s m values } := rfl
      rw [hsanitize]
      cases hhas : m.hasArg Name.fdsToIgnore with
      | false =>
          show (ownFields m.hasArg Name.fdsToIgnore).bind _ = none
          rw [ownFields, hhas]
          rfl
      | true =>
          rcases exists_bindNames hvalues (hasArg_named hm hhas) with ⟨v, hv⟩
          have hread := overwrite_apply hv ((actsPre s m values).flatMap (fun e => e.2.writes))
          rcases @updateFdsToIgnore_eq s
            { forked.acted (actsPre s m values) with modulesLoaded := loads s m values }
            m.hasArg rfl hhas _ hread with ⟨frame, skip, hupdate, hframe⟩
          rw [if_pos rfl, hupdate]
          refine ⟨_, rfl, ?_, rfl, ?_, rfl, rfl⟩
          · show frame = _
            rw [hframe, writesPre, overwrite_append, replaced, hkind]
            rfl
          · rw [hkind]
            rfl

/-- Only a forked app has its argument updated. -/
theorem modulesPre_sanitizeFds (hargs : c.args = ownFields p)
    (happ : c.appForkAndSpecialize = false) (mode : Mode) :
    (modulesPre s mode c).bind (sanitizeFds s) = modulesPre s mode c := by
  unfold modulesPre
  cases runModulesPre mode s.files with
  | none => rfl
  | some invs =>
      rw [Option.bind_some, @callModules_eq s { c with modulesLoaded := true } _ hargs]
      simp only
      split
      · rw [Option.bind_some]
        unfold sanitizeFds
        simp only [Running.acted, happ, Bool.false_eq_true, if_false, ite_self]
      · rfl

theorem pre_others (hm : m.Compiles) (hvalues : values.length = m.nameList.length)
    (hkind : m.baseName ≠ HookKind.forkAndSpecialize) :
    if safePre s m values then
      exists c, pre s m.baseName (prepared m values) = some c ∧ Entered s m values c
    else pre s m.baseName (prepared m values) = none := by
  have hmodules : exists c, c.args = ownFields m.hasArg ∧
      c.frame = bindNames m.nameList values ∧ c.modulesLoaded = false ∧ c.returned = none ∧
      c.pid = callPid s m.baseName ∧
      pre s m.baseName (prepared m values) =
        if loads s m values then modulesPre s (callMode m.baseName) c else some c := by
    cases hname : m.baseName with
    | forkAndSpecialize => exact absurd hname hkind
    | specializeAppProcess =>
        refine ⟨{ prepared m values with skipFdSanitization := true }, rfl, rfl, rfl, rfl, rfl, ?_⟩
        rw [loads, hname]
        exact appSpecializePre_eq hm hvalues rfl rfl
    | forkSystemServer =>
        refine ⟨forkPre s (prepared m values), rfl, rfl, rfl, rfl, rfl, ?_⟩
        rw [loads, hname]
        show (if s.fork.result ≠ 0 then _ else _) = _
        by_cases hfork : s.fork.result = 0
        · rw [if_neg (not_not.mpr hfork), decide_eq_true hfork, if_pos rfl]
          exact @modulesPre_sanitizeFds s (forkPre s (prepared m values)) _ rfl rfl Mode.server
        · rw [if_pos hfork, decide_eq_false hfork]
          rfl
  rcases hmodules with ⟨c, hargs, hframe, hloaded, hreturned, hpid, hpre⟩
  rw [hpre, modulesPre_eq hargs hframe hloaded]
  unfold safePre
  rw [decide_eq_true hkind, Bool.true_or, Bool.and_true]
  cases registered s m values runModulesPre && withinSight m.sees (actsPre s m values) with
  | false => rfl
  | true =>
      have hnone : replaced s m values = [] := by
        unfold replaced
        cases hname : m.baseName with
        | forkAndSpecialize => exact absurd hname hkind
        | _ => rfl
      refine ⟨_, rfl, ?_, hargs, hpid, rfl, hreturned⟩
      rw [writesPre, hnone, List.append_nil, ← hframe]
      rfl

/-- Nothing after the original method changes what it was called with. -/
theorem post_spec (h : Entered s m values c) :
    if registered s m values runModulesPost && withinSight m.sees (actsPost s m values) then
      exists c', post s m.baseName c = some c' ∧ c'.passed = c.passed ∧ c'.pid = c.pid ∧
        c'.returned = c.returned
    else post s m.baseName c = none := by
  have hpost : post s m.baseName c = modulesPost s (callMode m.baseName) c ∨
      (loads s m values = false ∧ post s m.baseName c = some c) := by
    have hpid := h.pid
    unfold loads
    cases hname : m.baseName with
    | specializeAppProcess => exact Or.inl rfl
    | _ =>
        rw [hname] at hpid
        change c.pid = s.fork.result at hpid
        by_cases hfork : s.fork.result = 0
        · exact Or.inl (if_pos (hpid.trans hfork))
        · refine Or.inr ⟨?_, if_neg (fun hno => hfork (hpid.symm.trans hno))⟩
          simp only [decide_eq_false hfork, Bool.false_and]
  rcases hpost with hmodules | ⟨hloads, hsame⟩
  · rw [hmodules, modulesPost_eq h.args h.frame h.loaded]
    cases registered s m values runModulesPost && withinSight m.sees (actsPost s m values) with
    | false => rfl
    | true => exact ⟨_, rfl, rfl, rfl, rfl⟩
  · have hok : (registered s m values runModulesPost &&
        withinSight m.sees (actsPost s m values)) = true := by
      unfold registered actsPost invocations
      rw [hloads]
      rfl
    rw [hok, hsame]
    exact ⟨c, rfl, rfl, rfl, rfl⟩

end Around

/-!
# The original method
-/

section Original

variable {m : Method} {values : List JValue}

/-- Until the hooks are run, the generated code fills in its object. -/
theorem call_prepared (s : Surroundings) (m : Method) (values : List JValue) :
    m.call s values =
      (Stmt.pre :: Stmt.callOrig m.nameList :: Stmt.post ::
        if m.ret.pid then [Stmt.returnPid] else []).foldlM (exec s m.baseName)
          (prepared m values) := by
  unfold Method.call Method.definition Method.body
  rw [List.cons_append, List.cons_append, List.foldlM_cons, exec_initArgs, List.append_assoc,
    Option.bind_eq_bind, Option.bind_some, List.foldlM_append]
  rw [exec_setArgs s m.baseName m.args rfl]
  rfl

theorem withinSight_iff (sees : Invocation -> Name -> Bool) (acts : List (Invocation × Act)) :
    withinSight sees acts = true <->
      forall e, e ∈ acts -> forall w, w ∈ e.2.writes -> sees e.1 w.1 = true := by
  unfold withinSight
  simp only [List.all_eq_true]

theorem registered_iff (s : Surroundings) (m : Method) (values : List JValue)
    (run : Mode -> List ModuleFile -> Option (List Invocation)) :
    registered s m values run = true <->
      (loads s m values = true -> (run (callMode m.baseName) s.files).isSome = true) := by
  unfold registered
  cases loads s m values <;> simp

theorem safe_iff (s : Surroundings) (m : Method) (values : List JValue) :
    Safe s m values <-> (safePre s m values && (registered s m values runModulesPost &&
      withinSight m.sees (actsPost s m values))) = true := by
  unfold safePre
  simp only [Bool.and_eq_true, Bool.or_eq_true, decide_eq_true_eq, registered_iff,
    withinSight_iff]
  constructor
  · intro h
    refine ⟨⟨⟨fun hloads => (h.registered hloads).left, ?_⟩, ?_⟩,
      fun hloads => (h.registered hloads).right, ?_⟩
    · intro e he
      exact h.seen e (List.mem_append_left _ he)
    · rw [or_iff_not_imp_left, not_not]
      exact h.ignores
    · intro e he
      exact h.seen e (List.mem_append_right _ he)
  · rintro ⟨⟨⟨hregistered, hseen⟩, hignores⟩, hregistered', hseen'⟩
    rw [or_iff_not_imp_left, not_not] at hignores
    refine ⟨fun hloads => ⟨hregistered hloads, hregistered' hloads⟩, ?_, hignores⟩
    intro e he
    rcases List.mem_append.mp he with he | he
    · exact hseen e he
    · exact hseen' e he

theorem pre_spec (s : Surroundings) (hm : m.Compiles)
    (hvalues : values.length = m.nameList.length) :
    if safePre s m values then
      exists c, pre s m.baseName (prepared m values) = some c ∧ Entered s m values c
    else pre s m.baseName (prepared m values) = none := by
  by_cases hkind : m.baseName = HookKind.forkAndSpecialize
  · exact pre_forkAndSpecialize hm hvalues hkind
  · exact pre_others hm hvalues hkind

theorem callOrig_entered {s : Surroundings} {c : Running} (h : Entered s m values c)
    (hm : m.Compiles) (hvalues : values.length = m.nameList.length) (kind : HookKind) :
    exec s kind c (Stmt.callOrig m.nameList) = some { c with
      passed := some (List.zipWith (lastWrite (writesPre s m values)) m.nameList values) } := by
  show (m.nameList.mapM c.frame).map _ = _
  rw [h.frame, mapM_overwrite hvalues (fun n v hmem => bindNames_of_mem hm.distinct hmem)]
  rfl

/-- A method without descriptors to ignore has nothing put in their place. -/
theorem hasArg_of_written {s : Surroundings} (h : Safe s m values) {w : Name × JValue}
    (hw : w ∈ writesPre s m values) : m.hasArg w.1 = true := by
  rcases List.mem_append.mp hw with hacts | hreplaced
  · rcases List.mem_flatMap.mp hacts with ⟨e, he, hwrite⟩
    have hsees := h.seen e (List.mem_append_left _ he) w hwrite
    exact (Bool.and_eq_true_iff.mp hsees).right
  · unfold replaced at hreplaced
    split at hreplaced
    · rename_i hkind
      unfold newFdsToIgnore at hreplaced
      split at hreplaced
      · rw [List.mem_singleton.mp hreplaced]
        exact h.ignores hkind
      · cases hreplaced
    · cases hreplaced

/-- The generated code gets to its end unless a module fails to register or assigns
what it cannot see, or the app is forked by a method that is not told which descriptors
to ignore.  It has then called the original method with each argument as it was last
assigned under its own name, and those that are out of sight as they came. -/
theorem call_passes (s : Surroundings) (hm : m.Compiles)
    (hvalues : values.length = m.args.length) :
    (m.call s values ≠ none <-> Safe s m values) ∧
    forall c, m.call s values = some c ->
      c.passed = some (List.zipWith (lastWrite (writesPre s m values)) m.nameList values) ∧
      c.returned = (if m.ret.pid then some (callPid s m.baseName) else none) ∧
      (forall n v, m.hasArg n = false -> lastWrite (writesPre s m values) n v = v) := by
  have hnames : values.length = m.nameList.length := hvalues.trans (List.length_map _).symm
  have hpre := pre_spec s hm hnames
  have hsafe := safe_iff s m values
  rw [call_prepared, List.foldlM_cons]
  change ((pre s m.baseName (prepared m values)).bind _ ≠ none <-> _) ∧
    forall c, (pre s m.baseName (prepared m values)).bind _ = some c -> _
  cases hok : safePre s m values with
  | false =>
      rw [hok] at hpre hsafe
      change pre s m.baseName (prepared m values) = none at hpre
      rw [hpre]
      refine ⟨⟨fun hno => absurd rfl hno, fun h => ?_⟩, fun c hno => by cases hno⟩
      cases hsafe.mp h
  | true =>
      rw [hok] at hpre hsafe
      rcases hpre with ⟨c, hc, hentered⟩
      rw [hc, Option.bind_some, List.foldlM_cons, callOrig_entered hentered hm hnames,
        Option.bind_eq_bind, Option.bind_some, List.foldlM_cons]
      have hcalled : Entered s m values { c with
          passed := some (List.zipWith (lastWrite (writesPre s m values)) m.nameList values) } :=
        ⟨hentered.frame, hentered.args, hentered.pid, hentered.loaded, hentered.returned⟩
      have hpost := post_spec hcalled
      cases hok' : registered s m values runModulesPost &&
          withinSight m.sees (actsPost s m values) with
      | false =>
          rw [hok'] at hpost hsafe
          change post s m.baseName _ = none at hpost
          change ((post s m.baseName _).bind _ ≠ none <-> _) ∧
            forall c, (post s m.baseName _).bind _ = some c -> _
          rw [hpost]
          refine ⟨⟨fun hno => absurd rfl hno, fun h => ?_⟩, fun c hno => by cases hno⟩
          cases hsafe.mp h
      | true =>
          rw [hok'] at hpost hsafe
          rcases hpost with ⟨c', hc', hpassed, hpid, hreturned⟩
          change ((post s m.baseName _).bind _ ≠ none <-> _) ∧
            forall c, (post s m.baseName _).bind _ = some c -> _
          have hsafe' : Safe s m values := hsafe.mpr rfl
          have hdone : (if m.ret.pid then [Stmt.returnPid] else []).foldlM
                (exec s m.baseName) c' =
              some { c' with returned := if m.ret.pid then some c'.pid else c'.returned } := by
            cases m.ret.pid <;> rfl
          rw [hc', Option.bind_some, hdone]
          refine ⟨⟨fun _ => hsafe', fun _ hno => by cases hno⟩, ?_⟩
          intro final hfinal
          cases hfinal
          refine ⟨hpassed, ?_, ?_⟩
          · show (if m.ret.pid then some c'.pid else c'.returned) = _
            rw [hpid, hreturned, hcalled.pid, hcalled.returned]
          · intro n v hunseen
            apply lastWrite_of_unwritten
            intro w hw hno
            rw [← hno, hasArg_of_written hsafe' hw] at hunseen
            cases hunseen

end Original

def uidNamesModule : ModuleFile :=
  { name := bytesOf "uid names"
    entry := some [some { apiVersion := 1, impl := 1, callback := fun _ => 1 }] }

/-- A module of the first version names the app after its uid and exempts a descriptor. -/
def uidNames : Surroundings :=
  { fork := ForkOutcome.child, logFd := -1, processFlags := fun _ => 0,
    files := [uidNamesModule],
    act := fun i view =>
      if i.callback = Callback.preAppSpecialize then
        { writes := [(Name.niceName, (view Name.uid).getD 0)], exempted := [3] }
      else { writes := [], exempted := [] }
    newArray := some 99 }

theorem call_passes_uidNames :
    exists c, fasO.call uidNames [10, 11, 12, 13, 14, 15, 16, 17, 18, 19, 20, 21] = some c ∧
      c.passed = some [10, 11, 12, 13, 14, 15, 16, 10, 18, 99, 20, 21] := by
  have hm : fasO.Compiles := methods_compile HookKind.forkAndSpecialize fasO (by simp [methods])
  have hlength : [10, 11, 12, 13, 14, 15, 16, 17, 18, 19, 20, (21 : JValue)].length =
      fasO.args.length := rfl
  rcases call_passes uidNames hm hlength with ⟨_, hpassed⟩
  have hsome : (fasO.call uidNames
      [10, 11, 12, 13, 14, 15, 16, 17, 18, 19, 20, 21]).isSome = true := by
    decide +kernel
  rcases Option.isSome_iff_exists.mp hsome with ⟨c, hc⟩
  refine ⟨c, hc, (hpassed c hc).left.trans ?_⟩
  decide +kernel

end Generator
end Injector
end ReZygisk
