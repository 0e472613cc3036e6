import ReZygisk.Foundation.Codes
import ReZygisk.Injector.JniHooks

/-!
# The generator of the replacement functions

`gen_jni_hooks.py` writes one C++ function for each known signature of a native
method.  A method is a list of named arguments; its signature and the body of its
replacement are both made from that list.
-/

namespace ReZygisk
namespace Injector
namespace Generator

open Foundation

/-!
# Types
-/

/-- The types of JNI that a replacement function is declared with. -/
inductive CppType where
  | jint
  | jboolean
  | jlong
  | jstring
  | void
  | jintArray
  | jbooleanArray
  | jlongArray
  | jobjectArray
  deriving DecidableEq

inductive JType where
  | jint
  | jboolean
  | jlong
  | jstring
  | void
  | array (type : JType)
  deriving DecidableEq

/-- Only arrays of primitives have types of their own. -/
def JType.cpp : JType -> CppType
  | jint => CppType.jint
  | jboolean => CppType.jboolean
  | jlong => CppType.jlong
  | jstring => CppType.jstring
  | void => CppType.void
  | array type =>
      match type.cpp with
      | CppType.jint => CppType.jintArray
      | CppType.jboolean => CppType.jbooleanArray
      | CppType.jlong => CppType.jlongArray
      | _ => CppType.jobjectArray

def JType.jni : JType -> List Byte
  | jint => bytesOf "I"
  | jboolean => bytesOf "Z"
  | jlong => bytesOf "J"
  | jstring => bytesOf "Ljava/lang/String;"
  | void => bytesOf "V"
  | array type => bytesOf "[" ++ type.jni

/-!
# Arguments and methods
-/

/-- The names of the arguments, and of the fields that modules reach them by. -/
inductive Name where
  | uid
  | gid
  | gids
  | runtimeFlags
  | rlimits
  | mountExternal
  | seInfo
  | niceName
  | fdsToClose
  | instructionSet
  | appDataDir
  | fdsToIgnore
  | isChildZygote
  | isTopApp
  | pkgDataInfoList
  | whitelistedDataInfoList
  | mountDataDirs
  | mountStorageDirs
  | mountSyspropOverrides
  | permittedCapabilities
  | effectiveCapabilities
  | anon (cnt : Nat)
  deriving DecidableEq

structure Argument where
  name : Name
  type : JType
  setArg : Bool := false

/-- `Return('ctx.pid', type)` or `Return('', type)`. -/
structure Return where
  pid : Bool
  type : JType

structure Method where
  baseName : HookKind
  ver : Version
  ret : Return
  args : List Argument

def Method.nameList (m : Method) : List Name :=
  m.args.map Argument.name

def Method.types (m : Method) : List JType :=
  m.args.map Argument.type

/-- The signature of a method of Java with these types. -/
def descriptor (types : List JType) (ret : JType) : List Byte :=
  bytesOf "(" ++ types.flatMap JType.jni ++ bytesOf ")" ++ ret.jni

def Method.jni (m : Method) : List Byte :=
  descriptor m.types m.ret.type

def forkAndSpec (ver : Version) (args : List Argument) : Method :=
  { baseName := HookKind.forkAndSpecialize, ver := ver, ret := ⟨true, JType.jint⟩, args := args }

def specApp (ver : Version) (args : List Argument) : Method :=
  { baseName := HookKind.specializeAppProcess, ver := ver, ret := ⟨false, JType.void⟩,
    args := args }

def forkServer (ver : Version) (args : List Argument) : Method :=
  { baseName := HookKind.forkSystemServer, ver := ver, ret := ⟨true, JType.jint⟩, args := args }

/-!
# The body of a replacement
-/

inductive ArgsClass where
  | appSpecializeArgsV5
  | serverSpecializeArgsV1

/-- The parameters of the constructor, each of which is kept as a reference. -/
def ArgsClass.params : ArgsClass -> List (Name × CppType)
  | appSpecializeArgsV5 =>
      [(Name.uid, CppType.jint), (Name.gid, CppType.jint), (Name.gids, CppType.jintArray),
        (Name.runtimeFlags, CppType.jint), (Name.rlimits, CppType.jobjectArray),
        (Name.mountExternal, CppType.jint), (Name.seInfo, CppType.jstring),
        (Name.niceName, CppType.jstring), (Name.instructionSet, CppType.jstring),
        (Name.appDataDir, CppType.jstring)]
  | serverSpecializeArgsV1 =>
      [(Name.uid, CppType.jint), (Name.gid, CppType.jint), (Name.gids, CppType.jintArray),
        (Name.runtimeFlags, CppType.jint), (Name.permittedCapabilities, CppType.jlong),
        (Name.effectiveCapabilities, CppType.jlong)]

/-- The fields that are pointers, null at first. -/
def ArgsClass.pointers : ArgsClass -> List (Name × CppType)
  | appSpecializeArgsV5 =>
      [(Name.fdsToIgnore, CppType.jintArray), (Name.isChildZygote, CppType.jboolean),
        (Name.isTopApp, CppType.jboolean), (Name.pkgDataInfoList, CppType.jobjectArray),
        (Name.whitelistedDataInfoList, CppType.jobjectArray),
        (Name.mountDataDirs, CppType.jboolean), (Name.mountStorageDirs, CppType.jboolean),
        (Name.mountSyspropOverrides, CppType.jboolean)]
  | serverSpecializeArgsV1 => []

inductive Stmt where
  /-- `AppSpecializeArgs_v5 args(..);` -/
  | initArgs (cls : ArgsClass) (actuals : List Name)
  /-- `args.name = &name;` -/
  | setArg (name : Name)
  | context
  | pre
  | callOrig (actuals : List Name)
  | post
  | returnPid

def argsClass : HookKind -> ArgsClass
  | HookKind.forkSystemServer => ArgsClass.serverSpecializeArgsV1
  | _ => ArgsClass.appSpecializeArgsV5

def initArgs (kind : HookKind) : Stmt :=
  Stmt.initArgs (argsClass kind)
    (match kind with
    | HookKind.forkSystemServer =>
        [Name.uid, Name.gid, Name.gids, Name.runtimeFlags, Name.permittedCapabilities,
          Name.effectiveCapabilities]
    | _ =>
        [Name.uid, Name.gid, Name.gids, Name.runtimeFlags, Name.rlimits, Name.mountExternal,
          Name.seInfo, Name.niceName, Name.instructionSet, Name.appDataDir])

def Method.body (m : Method) : List Stmt :=
  initArgs m.baseName ::
    (m.args.filter Argument.setArg).map (fun a => Stmt.setArg a.name) ++
      [Stmt.context, Stmt.pre, Stmt.callOrig m.nameList, Stmt.post]

/-- `gen_jni_def` for one method: the body, and what is returned after it. -/
def Method.definition (m : Method) : List Stmt :=
  m.body ++ if m.ret.pid then [Stmt.returnPid] else []

/-!
# The known methods
-/

def uid : Argument := { name := Name.uid, type := JType.jint }
def gid : Argument := { name := Name.gid, type := JType.jint }
def gids : Argument := { name := Name.gids, type := JType.array JType.jint }
def runtimeFlags : Argument := { name := Name.runtimeFlags, type := JType.jint }
def rlimits : Argument :=
  { name := Name.rlimits, type := JType.array (JType.array JType.jint) }
def mountExternal : Argument := { name := Name.mountExternal, type := JType.jint }
def seInfo : Argument := { name := Name.seInfo, type := JType.jstring }
def niceName : Argument := { name := Name.niceName, type := JType.jstring }
def fdsToClose : Argument := { name := Name.fdsToClose, type := JType.array JType.jint }
def instructionSet : Argument := { name := Name.instructionSet, type := JType.jstring }
def appDataDir : Argument := { name := Name.appDataDir, type := JType.jstring }

def fdsToIgnore : Argument :=
  { name := Name.fdsToIgnore, type := JType.array JType.jint, setArg := true }
def isChildZygote : Argument :=
  { name := Name.isChildZygote, type := JType.jboolean, setArg := true }
def isTopApp : Argument := { name := Name.isTopApp, type := JType.jboolean, setArg := true }
def pkgDataInfoList : Argument :=
  { name := Name.pkgDataInfoList, type := JType.array JType.jstring, setArg := true }
def whitelistedDataInfoList : Argument :=
  { name := Name.whitelistedDataInfoList, type := JType.array JType.jstring, setArg := true }
def mountDataDirs : Argument :=
  { name := Name.mountDataDirs, type := JType.jboolean, setArg := true }
def mountStorageDirs : Argument :=
  { name := Name.mountStorageDirs, type := JType.jboolean, setArg := true }
def mountSyspropOverrides : Argument :=
  { name := Name.mountSyspropOverrides, type := JType.jboolean, setArg := true }

def permittedCapabilities : Argument :=
  { name := Name.permittedCapabilities, type := JType.jlong }
def effectiveCapabilities : Argument :=
  { name := Name.effectiveCapabilities, type := JType.jlong }

/-- An argument that no one cares about; `cnt` is the value of `Anon.cnt`. -/
def anon (cnt : Nat) (type : JType) : Argument := { name := Name.anon cnt, type := type }

def fasL : Method := forkAndSpec Version.l
  [uid, gid, gids, runtimeFlags, rlimits, mountExternal,
    seInfo, niceName, fdsToClose, instructionSet, appDataDir]

def fasO : Method := forkAndSpec Version.o
  [uid, gid, gids, runtimeFlags, rlimits, mountExternal,
    seInfo, niceName, fdsToClose, fdsToIgnore, instructionSet, appDataDir]

def fasP : Method := forkAndSpec Version.p
  [uid, gid, gids, runtimeFlags, rlimits, mountExternal, seInfo,
    niceName, fdsToClose, fdsToIgnore, isChildZygote, instructionSet, appDataDir]

def fasQAlt : Method := forkAndSpec Version.qAlt
  [uid, gid, gids, runtimeFlags, rlimits, mountExternal, seInfo,
    niceName, fdsToClose, fdsToIgnore, isChildZygote, instructionSet, appDataDir, isTopApp]

def fasR : Method := forkAndSpec Version.r
  [uid, gid, gids, runtimeFlags, rlimits, mountExternal, seInfo,
    niceName, fdsToClose, fdsToIgnore, isChildZygote, instructionSet, appDataDir, isTopApp,
    pkgDataInfoList, whitelistedDataInfoList, mountDataDirs, mountStorageDirs]

def fasU : Method := forkAndSpec Version.u
  [uid, gid, gids, runtimeFlags, rlimits, mountExternal, seInfo,
    niceName, fdsToClose, fdsToIgnore, isChildZygote, instructionSet, appDataDir, isTopApp,
    pkgDataInfoList, whitelistedDataInfoList, mountDataDirs, mountStorageDirs,
    mountSyspropOverrides]

def fasSamsungM : Method := forkAndSpec Version.samsungM
  [uid, gid, gids, runtimeFlags, rlimits, mountExternal,
    seInfo, anon 0 JType.jint, anon 1 JType.jint, niceName, fdsToClose, instructionSet,
    appDataDir]

def fasSamsungN : Method := forkAndSpec Version.samsungN
  [uid, gid, gids, runtimeFlags, rlimits, mountExternal,
    seInfo, anon 2 JType.jint, anon 3 JType.jint, niceName, fdsToClose, instructionSet,
    appDataDir, anon 4 JType.jint]

def fasSamsungO : Method := forkAndSpec Version.samsungO
  [uid, gid, gids, runtimeFlags, rlimits, mountExternal,
    seInfo, anon 5 JType.jint, anon 6 JType.jint, niceName, fdsToClose, fdsToIgnore,
    instructionSet, appDataDir]

def fasSamsungP : Method := forkAndSpec Version.samsungP
  [uid, gid, gids, runtimeFlags, rlimits, mountExternal,
    seInfo, anon 7 JType.jint, anon 8 JType.jint, niceName, fdsToClose, fdsToIgnore,
    isChildZygote, instructionSet, appDataDir]

def specQ : Method := specApp Version.q
  [uid, gid, gids, runtimeFlags, rlimits, mountExternal, seInfo,
    niceName, isChildZygote, instructionSet, appDataDir]

def specQAlt : Method := specApp Version.qAlt
  [uid, gid, gids, runtimeFlags, rlimits, mountExternal, seInfo,
    niceName, isChildZygote, instructionSet, appDataDir, isTopApp]

def specR : Method := specApp Version.r
  [uid, gid, gids, runtimeFlags, rlimits, mountExternal, seInfo, niceName,
    isChildZygote, instructionSet, appDataDir, isTopApp, pkgDataInfoList,
    whitelistedDataInfoList, mountDataDirs, mountStorageDirs]

def specU : Method := specApp Version.u
  [uid, gid, gids, runtimeFlags, rlimits, mountExternal, seInfo, niceName,
    isChildZygote, instructionSet, appDataDir, isTopApp, pkgDataInfoList,
    whitelistedDataInfoList, mountDataDirs, mountStorageDirs, mountSyspropOverrides]

def specSamsungQ : Method := specApp Version.samsungQ
  [uid, gid, gids, runtimeFlags, rlimits, mountExternal,
    seInfo, anon 9 JType.jint, anon 10 JType.jint, niceName, isChildZygote, instructionSet,
    appDataDir]

def serverL : Method := forkServer Version.l
  [uid, gid, gids, runtimeFlags, rlimits, permittedCapabilities, effectiveCapabilities]

def serverSamsungQ : Method := forkServer Version.samsungQ
  [uid, gid, gids, runtimeFlags, anon 11 JType.jint, anon 12 JType.jint, rlimits,
    permittedCapabilities, effectiveCapabilities]

/-- The lists that `gen_jni_def` is called with. -/
def methods : HookKind -> List Method
  | HookKind.forkAndSpecialize =>
      [fasL, fasO, fasP, fasQAlt, fasR, fasU, fasSamsungM, fasSamsungN, fasSamsungO, fasSamsungP]
  | HookKind.specializeAppProcess => [specQ, specQAlt, specR, specU, specSamsungQ]
  | HookKind.forkSystemServer => [serverL, serverSamsungQ]

/-- The hooks are registered under the signatures of the generated methods. -/
theorem methods_signatures (kind : HookKind) :
    (methods kind).map (fun m => (m.ver, m.jni)) =
      kind.signatures.map (fun entry => (entry.1, bytesOf entry.2)) := by
  have happend : forall a b : String, bytesOf (a ++ b) = bytesOf a ++ bytesOf b := by
    intro a b
    unfold bytesOf
    rw [String.toList_append, List.flatMap_append]
  cases kind <;>
    simp only [HookKind.signatures, nativeForkAndSpecializeMethods,
      nativeSpecializeAppProcessMethods, nativeForkSystemServerMethods, List.map_cons,
      List.map_nil, happend] <;>
    decide +kernel

/-!
# Well-typed bodies
-/

def Method.typeOf (m : Method) (n : Name) : Option CppType :=
  (m.args.find? (fun a => a.name = n)).map (fun a => a.type.cpp)

/-- The body of the replacement compiles: the arguments have different names, the
constructor finds a variable of each type it wants, and what is set is a pointer to
the type of the argument. -/
structure Method.Compiles (m : Method) : Prop where
  distinct : m.nameList.Nodup
  references : forall p, p ∈ (argsClass m.baseName).params -> m.typeOf p.1 = some p.2
  pointers : forall a, a ∈ m.args -> a.setArg = true ->
    (a.name, a.type.cpp) ∈ (argsClass m.baseName).pointers

instance (m : Method) : Decidable m.Compiles :=
  decidable_of_iff
    (m.nameList.Nodup ∧
      (forall p, p ∈ (argsClass m.baseName).params -> m.typeOf p.1 = some p.2) ∧
      (forall a, a ∈ m.args -> a.setArg = true ->
        (a.name, a.type.cpp) ∈ (argsClass m.baseName).pointers))
    ⟨fun h => ⟨h.left, h.right.left, h.right.right⟩,
      fun h => ⟨h.distinct, h.references, h.pointers⟩⟩

theorem methods_compile (kind : HookKind) : forall m, m ∈ methods kind -> m.Compiles := by
  cases kind <;> decide +kernel

/-!
# Signatures
-/

theorem selfDelimiting_jni : SelfDelimiting JType.jni := by
  intro t
  induction t with
  | array type ih =>
      intro b u v h
      cases b with
      | array type' =>
          have hrest : type.jni ++ u = type'.jni ++ v := by
            injection h
          rcases ih type' u v hrest with ⟨htype, huv⟩
          exact ⟨by rw [htype], huv⟩
      | _ => injection h with hno; cases hno
  | jstring =>
      intro b u v h
      cases b with
      | jstring => exact ⟨rfl, List.append_cancel_left h⟩
      | _ => injection h with hno; cases hno
  | _ =>
      intro b u v h
      cases b <;> injection h with hhead hrest <;> first | exact ⟨rfl, hrest⟩ | cases hhead

theorem type_starts (t : JType) (u v : List Byte) : t.jni ++ u ≠ 0x29 :: v := by
  intro h
  cases t <;> injection h with hno <;> cases hno

theorem descriptor_injective {types types' : List JType} {ret ret' : JType}
    (h : descriptor types ret = descriptor types' ret') : types = types' ∧ ret = ret' := by
  have hparen : forall (types : List JType) (ret : JType), descriptor types ret =
      0x28 :: (types.flatMap JType.jni ++ 0x29 :: ret.jni) := by
    intro types ret
    show (0x28 :: types.flatMap JType.jni ++ [0x29]) ++ ret.jni = _
    rw [List.cons_append, List.cons_append, List.append_assoc]
    rfl
  rw [hparen, hparen] at h
  rcases selfDelimiting_jni.flatMap_injective type_starts _ _ _ _ (List.cons.inj h).right with
    ⟨htypes, hret⟩
  exact ⟨htypes, selfDelimiting_jni.injective hret⟩

/-- Whichever native method a replacement is registered for, it has been generated with
the types that this method is called with. -/
theorem replacement_typed {replacements : Replacements} {kind : HookKind} {nm : NativeMethod}
    (hnm : nm ∈ kind.methods replacements) {types : List JType} {ret : JType}
    (hsignature : nm.signature = descriptor types ret) :
    exists m, m ∈ methods kind ∧ nm.fnPtr = replacements kind m.ver ∧ m.types = types ∧
      m.ret.type = ret := by
  rcases List.mem_map.mp hnm with ⟨entry, hentry, heq⟩
  have hgenerated : (entry.1, bytesOf entry.2) ∈ (methods kind).map (fun m => (m.ver, m.jni)) := by
    rw [methods_signatures kind]
    exact List.mem_map_of_mem hentry
  rcases List.mem_map.mp hgenerated with ⟨m, hm, hpair⟩
  injection hpair with hver hjni
  rw [← heq] at hsignature
  change bytesOf entry.2 = descriptor types ret at hsignature
  rw [← hjni] at hsignature
  rcases descriptor_injective hsignature with ⟨htypes, hret⟩
  refine ⟨m, hm, ?_, htypes, hret⟩
  rw [← heq, hver]

def replacementsAt : Replacements := fun _ ver => if ver = Version.l then 7 else 8

theorem replacement_typed_serverL :
    exists m, m ∈ methods HookKind.forkSystemServer ∧
      7 = replacementsAt HookKind.forkSystemServer m.ver ∧
      m.types = [JType.jint, JType.jint, JType.array JType.jint, JType.jint,
        JType.array (JType.array JType.jint), JType.jlong, JType.jlong] ∧
      m.ret.type = JType.jint :=
  @replacement_typed replacementsAt HookKind.forkSystemServer
    ⟨bytesOf "nativeForkSystemServer", bytesOf "(II[II[[IJJ)I", 7⟩ List.mem_cons_self _ _
    (by decide +kernel)

end Generator
end Injector
end ReZygisk
