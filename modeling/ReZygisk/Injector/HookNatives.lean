import ReZygisk.Injector.JniHooks

/-!
# Looking up the native methods of a class

`hookJniNativeMethods` as it works on the array that a module passes in: each
entry is looked up as an instance method and then as a static one, its modifiers
are read by reflection, and its function is exchanged for the entry point in place,
after the entry has been copied for one call of `RegisterNatives` at the end.
-/

namespace ReZygisk
namespace Injector
namespace Jni

open Foundation

/-!
# Reflection
-/

/-- `java.lang.reflect.Modifier.NATIVE` -/
def NATIVE : BitVec 32 := 0x100

/-- A method of a class, with what `getModifiers` answers. -/
structure JavaMethod where
  isStatic : Bool
  modifiers : BitVec 32

/-- The methods of a class, by name and signature. -/
abbrev ClassMethods := List Byte -> List Byte -> Option JavaMethod

def getMethodID (clazz : ClassMethods) (name signature : List Byte) : Option JavaMethod :=
  (clazz name signature).filter (fun method => !method.isStatic)

def getStaticMethodID (clazz : ClassMethods) (name signature : List Byte) :
    Option JavaMethod :=
  (clazz name signature).filter (fun method => method.isStatic)

/-- The globals that `initialize_jni_hook` sets: JNI methods can be hooked only
once the flag to look for is known. -/
structure HookGlobals where
  canHookJni : Bool
  modifierNative : BitVec 32
  known : canHookJni = true -> modifierNative = NATIVE

/-- What `initialize_jni_hook` finds. -/
structure JniLookups where
  /-- A virtual machine and its environment. -/
  env : Bool
  memberGetModifiers : Bool
  modifierNativeField : Bool
  artMethodInit : Bool

def initializeJniHook (found : JniLookups) : HookGlobals where
  canHookJni := found.env && found.memberGetModifiers && found.modifierNativeField &&
    found.artMethodInit
  modifierNative := if found.env && found.modifierNativeField then NATIVE else 0
  known := by
    intro h
    simp only [Bool.and_eq_true] at h
    rw [h.left.left.left, h.left.right]
    rfl

/-!
# The loop over the array
-/

structure HookState where
  methods : List NativeMethod
  hooks : List NativeMethod

section Loop

variable (g : HookGlobals) (clazz : ClassMethods) (table : MethodTable) (clz : List Byte)

/-- The body of the loop for `methods[i]`. -/
def hookEntry (s : HookState) (i : Nat) : HookState :=
  match s.methods[i]? with
  | none => s
  | some nm =>
      let mid := (getMethodID clazz nm.name nm.signature).or
        (getStaticMethodID clazz nm.name nm.signature)
      match mid with
      | none => { s with methods := s.methods.set i { nm with fnPtr := 0 } }
      | some method =>
          if method.modifiers &&& g.modifierNative = 0 then
            { s with methods := s.methods.set i { nm with fnPtr := 0 } }
          else
            { methods := s.methods.set i
                { nm with fnPtr := table clz nm.name nm.signature }
              hooks := s.hooks ++ [nm] }

/-- The array afterwards and the method table; the entry points are read from
the table as it is before `RegisterNatives`. -/
def hookJniNativeMethods (findClass : List Byte -> Option ClassMethods)
    (methods : List NativeMethod) : List NativeMethod × MethodTable :=
  if g.canHookJni then
    match findClass clz with
    | none => (methods.map (fun nm => { nm with fnPtr := 0 }), table)
    | some clazz =>
        let s := (List.range methods.length).foldl (hookEntry g clazz table clz)
          { methods := methods, hooks := [] }
        (s.methods, if s.hooks.isEmpty then table else registerNatives table clz s.hooks none)
  else
    (methods, table)

end Loop

/-!
# What one entry comes to
-/

/-- The method exists and is native. -/
def isNative (clazz : ClassMethods) (name signature : List Byte) : Bool :=
  match clazz name signature with
  | none => false
  | some method => decide (method.modifiers &&& NATIVE ≠ 0)

theorem getMethodID_or_static (clazz : ClassMethods) (name signature : List Byte) :
    (getMethodID clazz name signature).or (getStaticMethodID clazz name signature) =
      clazz name signature := by
  unfold getMethodID getStaticMethodID
  cases clazz name signature with
  | none => rfl
  | some method => cases hstatic : method.isStatic <;> simp [Option.filter, hstatic]

/-- The entry after the loop. -/
def hookedEntry (clazz : ClassMethods) (table : MethodTable) (clz : List Byte)
    (nm : NativeMethod) : NativeMethod :=
  { nm with
    fnPtr := if isNative clazz nm.name nm.signature then table clz nm.name nm.signature
      else 0 }

section Entry

variable {g : HookGlobals} (hg : g.canHookJni = true) (clazz : ClassMethods)
  (table : MethodTable) (clz : List Byte)

include hg

theorem hookEntry_eq {s : HookState} {i : Nat} {nm : NativeMethod}
    (hnm : s.methods[i]? = some nm) :
    hookEntry g clazz table clz s i =
      { methods := s.methods.set i (hookedEntry clazz table clz nm)
        hooks := s.hooks ++ [nm].filter (fun nm => isNative clazz nm.name nm.signature) } := by
  unfold hookEntry hookedEntry
  simp only [hnm, getMethodID_or_static]
  cases hmethod : clazz nm.name nm.signature with
  | none =>
      have hnot : isNative clazz nm.name nm.signature = false := by
        rw [isNative, hmethod]
      simp [hnot]
  | some method =>
      have hnative : isNative clazz nm.name nm.signature =
          decide (method.modifiers &&& NATIVE ≠ 0) := by
        rw [isNative, hmethod]
      simp only [g.known hg]
      by_cases hzero : method.modifiers &&& NATIVE = 0
      · rw [decide_eq_false (not_not_intro hzero)] at hnative
        simp [hzero, hnative]
      · rw [decide_eq_true hzero] at hnative
        rw [if_neg hzero]
        simp [hnative]

/-- After `i` entries the part before is rewritten, and the hooks are copies of
its native entries. -/
theorem hookEntries_eq (methods : List NativeMethod) {i : Nat} (hi : i ≤ methods.length) :
    (List.range i).foldl (hookEntry g clazz table clz) { methods := methods, hooks := [] } =
      { methods := (methods.take i).map (hookedEntry clazz table clz) ++ methods.drop i
        hooks := (methods.take i).filter
          (fun nm => isNative clazz nm.name nm.signature) } := by
  induction i with
  | zero => rfl
  | succ i ih =>
      have hlt : i < methods.length := hi
      have hlength : ((methods.take i).map (hookedEntry clazz table clz)).length = i := by
        rw [List.length_map, List.length_take, Nat.min_eq_left hlt.le]
      have hdrop : methods.drop i = methods[i] :: methods.drop (i + 1) :=
        List.drop_eq_getElem_cons hlt
      have hget : ((methods.take i).map (hookedEntry clazz table clz) ++
          methods.drop i)[i]? = some methods[i] := by
        rw [List.getElem?_append_right (Nat.le_of_eq hlength), hlength, Nat.sub_self, hdrop]
        rfl
      have htake : methods.take (i + 1) = methods.take i ++ [methods[i]] :=
        List.take_succ_eq_append_getElem hlt
      have hset : forall nm, (methods.drop i).set 0 nm = nm :: methods.drop (i + 1) := by
        intro nm
        rw [hdrop]
        rfl
      rw [List.range_succ, List.foldl_append, ih hlt.le, List.foldl_cons, List.foldl_nil,
        hookEntry_eq hg clazz table clz hget, htake, List.map_append, List.filter_append,
        List.set_append_right _ _ (Nat.le_of_eq hlength), hlength, Nat.sub_self, hset,
        List.append_assoc]
      rfl

end Entry

/-- Whether an entry is hooked depends on what the class says of its method alone,
so that the call is the one that `do_hook_zygote` is about. -/
theorem hookJniNativeMethods_eq (g : HookGlobals)
    (findClass : List Byte -> Option ClassMethods) (table : MethodTable) (clz : List Byte)
    (methods : List NativeMethod) :
    hookJniNativeMethods g table clz findClass methods =
      Injector.hookJniNativeMethods g.canHookJni (fun c => (findClass c).map isNative)
        table clz methods := by
  unfold hookJniNativeMethods Injector.hookJniNativeMethods
  cases hg : g.canHookJni with
  | false => rfl
  | true =>
      cases hclass : findClass clz with
      | none => simp only [hclass, Option.map_none]
      | some clazz =>
          have hloop := hookEntries_eq hg clazz table clz methods (Nat.le_refl _)
          rw [List.take_length, List.drop_length, List.append_nil] at hloop
          simp only [hloop, hclass, if_true, Option.map_some]
          rfl

/-!
# The table afterwards
-/

/-- The last entry of the array that names the method. -/
def LastNaming (methods : List NativeMethod) (name signature : List Byte)
    (nm : NativeMethod) : Prop :=
  nm.name = name ∧ nm.signature = signature ∧
    exists before after, methods = before ++ nm :: after ∧
      forall nm', nm' ∈ after -> ¬ (nm'.name = name ∧ nm'.signature = signature)

theorem bindAll_last {methods : List NativeMethod} {name signature : List Byte}
    {nm : NativeMethod} (h : LastNaming methods name signature nm) (table : MethodTable)
    (clz : List Byte) :
    methods.foldl (fun table m => table.bind clz m) table clz name signature = nm.fnPtr := by
  rcases h with ⟨hname, hsignature, before, after, heq, hlast⟩
  rw [heq, List.foldl_append, List.foldl_cons,
    bindAll_other (fun nm' hnm' hno => hlast nm' hnm' hno.right), ← hname, ← hsignature]
  exact bind_same _ clz nm

theorem lastNaming_filter {methods : List NativeMethod} {name signature : List Byte}
    {nm : NativeMethod} (h : LastNaming methods name signature nm)
    {keep : NativeMethod -> Bool} (hkeep : keep nm = true) :
    LastNaming (methods.filter keep) name signature nm := by
  rcases h with ⟨hname, hsignature, before, after, heq, hlast⟩
  refine ⟨hname, hsignature, before.filter keep, after.filter keep, ?_, ?_⟩
  · rw [heq, List.filter_append, List.filter_cons_of_pos hkeep]
  · intro nm' hnm'
    exact hlast nm' (List.mem_of_mem_filter hnm')

/-- The method exists in the class of that name, instance or static, and is
native. -/
def NativeMethodOf (findClass : List Byte -> Option ClassMethods)
    (clz name signature : List Byte) : Prop :=
  exists clazz method, findClass clz = some clazz ∧ clazz name signature = some method ∧
    method.modifiers &&& NATIVE ≠ 0

/-- What a caller of `hookJniNativeMethods` relies on. -/
structure Exchanged (findClass : List Byte -> Option ClassMethods) (table : MethodTable)
    (clz : List Byte) (methods after : List NativeMethod) (table' : MethodTable) : Prop where
  length : after.length = methods.length
  found : forall (i : Nat) nm, methods[i]? = some nm ->
    NativeMethodOf findClass clz nm.name nm.signature ->
    after[i]? = some { nm with fnPtr := table clz nm.name nm.signature }
  rejected : forall (i : Nat) nm, methods[i]? = some nm ->
    ¬ NativeMethodOf findClass clz nm.name nm.signature ->
    after[i]? = some { nm with fnPtr := 0 }
  bound : forall name signature nm, NativeMethodOf findClass clz name signature ->
    LastNaming methods name signature nm -> table' clz name signature = nm.fnPtr
  kept : forall c name signature,
    ¬ (c = clz ∧ NativeMethodOf findClass clz name signature ∧
      exists nm, nm ∈ methods ∧ nm.name = name ∧ nm.signature = signature) ->
    table' c name signature = table c name signature
  missing : findClass clz = none -> table' = table

section Spec

variable {findClass : List Byte -> Option ClassMethods} {clz : List Byte}

theorem nativeMethodOf_iff {clazz : ClassMethods} (h : findClass clz = some clazz)
    (name signature : List Byte) :
    NativeMethodOf findClass clz name signature <-> isNative clazz name signature = true := by
  constructor
  · intro hnative
    rcases hnative with ⟨clazz', method, hclazz', hmethod, hmodifiers⟩
    rw [h] at hclazz'
    injection hclazz' with hclazz'
    rw [isNative, hclazz', hmethod]
    exact decide_eq_true hmodifiers
  · intro hnative
    unfold isNative at hnative
    split at hnative
    · cases hnative
    · rename_i method hmethod
      exact ⟨clazz, method, h, hmethod, of_decide_eq_true hnative⟩

theorem not_nativeMethodOf (h : findClass clz = none) (name signature : List Byte) :
    ¬ NativeMethodOf findClass clz name signature := by
  intro hno
  rcases hno with ⟨clazz, method, hclazz, _⟩
  rw [h] at hclazz
  cases hclazz

theorem exchanged_of_missing (table : MethodTable) (h : findClass clz = none)
    (methods : List NativeMethod) :
    Exchanged findClass table clz methods
      (methods.map (fun nm => { nm with fnPtr := 0 })) table where
  length := List.length_map _
  found := fun _ nm _ hno => absurd hno (not_nativeMethodOf h nm.name nm.signature)
  rejected := by
    intro i nm hnm _
    rw [List.getElem?_map, hnm]
    rfl
  bound := fun name signature _ hno => absurd hno (not_nativeMethodOf h name signature)
  kept := fun _ _ _ _ => rfl
  missing := fun _ => rfl

/-- `RegisterNatives` is not called for nothing, which would change nothing. -/
theorem registerNatives_unless_empty (table : MethodTable) (hooks : List NativeMethod) :
    (if hooks.isEmpty then table else registerNatives table clz hooks none) =
      hooks.foldl (fun table m => table.bind clz m) table := by
  cases hooks with
  | nil => rfl
  | cons nm rest => rfl

theorem exchanged_of_found (table : MethodTable) {clazz : ClassMethods}
    (h : findClass clz = some clazz) (methods : List NativeMethod) :
    Exchanged findClass table clz methods (methods.map (hookedEntry clazz table clz))
      ((methods.filter (fun nm => isNative clazz nm.name nm.signature)).foldl
        (fun table m => table.bind clz m) table) where
  length := List.length_map _
  found := by
    intro i nm hnm hnative
    rw [nativeMethodOf_iff h] at hnative
    rw [List.getElem?_map, hnm, Option.map_some, hookedEntry, if_pos hnative]
  rejected := by
    intro i nm hnm hnot
    rw [nativeMethodOf_iff h] at hnot
    rw [List.getElem?_map, hnm, Option.map_some, hookedEntry, if_neg hnot]
  bound := by
    intro name signature nm hnative hlast
    rw [nativeMethodOf_iff h, ← hlast.left, ← hlast.right.left] at hnative
    exact bindAll_last (lastNaming_filter hlast hnative) table clz
  kept := by
    intro c name signature hnot
    apply bindAll_other
    intro nm hnm hsame
    rcases List.mem_filter.mp hnm with ⟨hmem, hnative⟩
    rcases hsame with ⟨hc, hname, hsignature⟩
    rw [hname, hsignature] at hnative
    exact hnot ⟨hc, (nativeMethodOf_iff h name signature).mpr hnative,
      nm, hmem, hname, hsignature⟩
  missing := by
    intro hno
    rw [h] at hno
    cases hno

/-- Each entry gets the entry point its method had, or null, each method that was
found is bound to the function of the last entry that names it, and nothing else
changes. -/
theorem hookJniNativeMethods_exchanges (g : HookGlobals) (hg : g.canHookJni = true)
    (findClass : List Byte -> Option ClassMethods) (table : MethodTable) (clz : List Byte)
    (methods : List NativeMethod) :
    Exchanged findClass table clz methods
      (hookJniNativeMethods g table clz findClass methods).1
      (hookJniNativeMethods g table clz findClass methods).2 := by
  rw [hookJniNativeMethods_eq, Injector.hookJniNativeMethods, if_pos hg]
  cases h : findClass clz with
  | none =>
      simp only [Option.map_none]
      exact exchanged_of_missing table h methods
  | some clazz =>
      simp only [Option.map_some, registerNatives_unless_empty]
      exact exchanged_of_found table h methods

end Spec

def jniFound : JniLookups := ⟨true, true, true, true⟩

/-- A class with one native method, `f`, and a method `g` that is not. -/
def nativeF : ClassMethods := fun name signature =>
  if signature = bytesOf "()V" then
    if name = bytesOf "f" then some ⟨true, 0x108⟩
    else if name = bytesOf "g" then some ⟨false, 0x1⟩
    else none
  else none

/-- Two replacements of `f` get its entry point 7, and the second one is bound. -/
theorem hookJniNativeMethods_exchanges_twice :
    (initializeJniHook jniFound).canHookJni = true ∧
      Exchanged (fun _ => some nativeF) (fun _ _ _ => 7) (bytesOf "A")
        [⟨bytesOf "f", bytesOf "()V", 100⟩, ⟨bytesOf "g", bytesOf "()V", 101⟩,
          ⟨bytesOf "f", bytesOf "()V", 102⟩]
        [⟨bytesOf "f", bytesOf "()V", 7⟩, ⟨bytesOf "g", bytesOf "()V", 0⟩,
          ⟨bytesOf "f", bytesOf "()V", 7⟩]
        (hookJniNativeMethods (initializeJniHook jniFound) (fun _ _ _ => 7) (bytesOf "A")
          (fun _ => some nativeF)
          [⟨bytesOf "f", bytesOf "()V", 100⟩, ⟨bytesOf "g", bytesOf "()V", 101⟩,
            ⟨bytesOf "f", bytesOf "()V", 102⟩]).2 :=
  ⟨rfl, hookJniNativeMethods_exchanges (initializeJniHook jniFound) rfl _ _ _ _⟩

end Jni
end Injector
end ReZygisk
