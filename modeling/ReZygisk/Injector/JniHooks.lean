import ReZygisk.Injector.Fork

/-!
# Hooking the native methods of the zygote

`do_hook_zygote` knows several signatures of each of the three native methods
it replaces.  `hookJniNativeMethods` rebinds every signature that the class has
and hands back the entry points that were bound before; of those, the hook keeps
one per method, both to call and to restore.
-/

namespace ReZygisk
namespace Injector

open Foundation

/-!
# The known signatures
-/

/-- The suffix of a replacement function. -/
inductive Version where
  | l
  | o
  | p
  | q
  | qAlt
  | r
  | u
  | samsungM
  | samsungN
  | samsungO
  | samsungP
  | samsungQ
  deriving DecidableEq

/-- `java.lang.String` in a signature. -/
def jstring : String := "Ljava/lang/String;"

def nativeForkAndSpecializeMethods : List (Version × String) :=
  [(Version.l, "(II[II[[II" ++ jstring ++ jstring ++ "[I" ++ jstring ++ jstring ++
      ")I"),
    (Version.o, "(II[II[[II" ++ jstring ++ jstring ++ "[I[I" ++ jstring ++
      jstring ++ ")I"),
    (Version.p, "(II[II[[II" ++ jstring ++ jstring ++ "[I[IZ" ++ jstring ++
      jstring ++ ")I"),
    (Version.qAlt, "(II[II[[II" ++ jstring ++ jstring ++ "[I[IZ" ++ jstring ++
      jstring ++ "Z)I"),
    (Version.r, "(II[II[[II" ++ jstring ++ jstring ++ "[I[IZ" ++ jstring ++
      jstring ++ "Z[" ++ jstring ++ "[" ++ jstring ++ "ZZ)I"),
    (Version.u, "(II[II[[II" ++ jstring ++ jstring ++ "[I[IZ" ++ jstring ++
      jstring ++ "Z[" ++ jstring ++ "[" ++ jstring ++ "ZZZ)I"),
    (Version.samsungM, "(II[II[[II" ++ jstring ++ "II" ++ jstring ++ "[I" ++
      jstring ++ jstring ++ ")I"),
    (Version.samsungN, "(II[II[[II" ++ jstring ++ "II" ++ jstring ++ "[I" ++
      jstring ++ jstring ++ "I)I"),
    (Version.samsungO, "(II[II[[II" ++ jstring ++ "II" ++ jstring ++ "[I[I" ++
      jstring ++ jstring ++ ")I"),
    (Version.samsungP, "(II[II[[II" ++ jstring ++ "II" ++ jstring ++ "[I[IZ" ++
      jstring ++ jstring ++ ")I")]

def nativeSpecializeAppProcessMethods : List (Version × String) :=
  [(Version.q, "(II[II[[II" ++ jstring ++ jstring ++ "Z" ++ jstring ++ jstring ++
      ")V"),
    (Version.qAlt, "(II[II[[II" ++ jstring ++ jstring ++ "Z" ++ jstring ++
      jstring ++ "Z)V"),
    (Version.r, "(II[II[[II" ++ jstring ++ jstring ++ "Z" ++ jstring ++ jstring ++
      "Z[" ++ jstring ++ "[" ++ jstring ++ "ZZ)V"),
    (Version.u, "(II[II[[II" ++ jstring ++ jstring ++ "Z" ++ jstring ++ jstring ++
      "Z[" ++ jstring ++ "[" ++ jstring ++ "ZZZ)V"),
    (Version.samsungQ, "(II[II[[II" ++ jstring ++ "II" ++ jstring ++ "Z" ++
      jstring ++ jstring ++ ")V")]

def nativeForkSystemServerMethods : List (Version × String) :=
  [(Version.l, "(II[II[[IJJ)I"),
    (Version.samsungQ, "(II[IIII[[IJJ)I")]

def HookKind.baseName : HookKind -> String
  | HookKind.forkAndSpecialize => "nativeForkAndSpecialize"
  | HookKind.specializeAppProcess => "nativeSpecializeAppProcess"
  | HookKind.forkSystemServer => "nativeForkSystemServer"

def HookKind.signatures : HookKind -> List (Version × String)
  | HookKind.forkAndSpecialize => nativeForkAndSpecializeMethods
  | HookKind.specializeAppProcess => nativeSpecializeAppProcessMethods
  | HookKind.forkSystemServer => nativeForkSystemServerMethods

/-- Where the replacement functions lie in memory. -/
abbrev Replacements := HookKind -> Version -> Nat

/-- The array of one method, as it is initialised. -/
def HookKind.methods (replacements : Replacements) (kind : HookKind) :
    List NativeMethod :=
  kind.signatures.map (fun entry =>
    { name := bytesOf kind.baseName
      signature := bytesOf entry.2
      fnPtr := replacements kind entry.1 })

/-!
# Rebinding and recording
-/

/-- The native methods that a class declares, by name and signature. -/
abbrev JavaClass := List Byte -> List Byte -> Bool

def zygoteClass : List Byte := bytesOf "com/android/internal/os/Zygote"

/-- `hookJniNativeMethods`: the array with the entry points that were bound
before, null where the class has no such native method, and the method table
afterwards. -/
def hookJniNativeMethods (canHookJni : Bool) (findClass : List Byte -> Option JavaClass)
    (table : MethodTable) (clz : List Byte) (methods : List NativeMethod) :
    List NativeMethod × MethodTable :=
  if canHookJni then
    match findClass clz with
    | none => (methods.map (fun nm => { nm with fnPtr := 0 }), table)
    | some native =>
        let hooks := methods.filter (fun nm => native nm.name nm.signature)
        (methods.map (fun nm => { nm with
            fnPtr := if native nm.name nm.signature then table clz nm.name nm.signature
              else 0 }),
          if hooks.isEmpty then table else registerNatives table clz hooks none)
  else
    (methods, table)

/-- What `do_hook_zygote` has done so far: the method table, the methods to be
restored, and the three `_orig` pointers. -/
structure ZygoteHooks where
  table : MethodTable
  hooks : List NativeMethod
  orig : HookKind -> Nat

section Hook

variable (findClass : List Byte -> Option JavaClass) (replacements : Replacements)

/-- One of the three blocks: rebind, then keep the first method that has an
entry point. -/
def hookMethods (s : ZygoteHooks) (kind : HookKind) : ZygoteHooks :=
  let hooked := hookJniNativeMethods true findClass s.table zygoteClass
    (kind.methods replacements)
  match hooked.1.find? (fun method => method.fnPtr ≠ 0) with
  | none => { s with table := hooked.2 }
  | some method =>
      { table := hooked.2
        hooks := s.hooks ++ [method]
        orig := fun k => if k = kind then method.fnPtr else s.orig k }

def doHookZygote (table : MethodTable) : ZygoteHooks :=
  [HookKind.forkAndSpecialize, HookKind.specializeAppProcess,
    HookKind.forkSystemServer].foldl (hookMethods findClass replacements)
      { table := table, hooks := [], orig := fun _ => 0 }

end Hook

/-- Every method that was rebound is recorded with the entry point it had, the
destructor puts the method table back as it was, and each replacement function
that is bound calls the entry point of its own signature. -/
structure HooksReversible (native : JavaClass) (replacements : Replacements)
    (table : MethodTable) : Prop where
  recorded : forall kind nm, nm ∈ HookKind.methods replacements kind ->
    native nm.name nm.signature = true ->
    { nm with fnPtr := table zygoteClass nm.name nm.signature } ∈
      (doHookZygote (fun _ => some native) replacements table).hooks
  restored : forall g : Globals,
    g.jniHookList = some [(zygoteClass,
      (doHookZygote (fun _ => some native) replacements table).hooks)] ->
    g.methods = (doHookZygote (fun _ => some native) replacements table).table ->
    exists g', giveUpHooks (fun _ => none) g = some g' ∧ g'.methods = table
  orig : forall kind nm, nm ∈ HookKind.methods replacements kind ->
    native nm.name nm.signature = true ->
    (doHookZygote (fun _ => some native) replacements table).orig kind =
      table zygoteClass nm.name nm.signature

/-- Of each method the class has at most one of the known signatures, with an
entry point. -/
def OneSignatureEach (native : JavaClass) (replacements : Replacements)
    (table : MethodTable) : Prop :=
  forall kind nm, nm ∈ HookKind.methods replacements kind ->
    native nm.name nm.signature = true ->
    table zygoteClass nm.name nm.signature ≠ 0 ∧
      forall nm', nm' ∈ HookKind.methods replacements kind ->
        native nm'.name nm'.signature = true -> nm'.signature = nm.signature

/-!
# Binding
-/

theorem bind_same (table : MethodTable) (clz : List Byte) (m : NativeMethod) :
    table.bind clz m clz m.name m.signature = m.fnPtr :=
  if_pos ⟨rfl, rfl, rfl⟩

theorem bind_other {c clz name signature : List Byte} {m : NativeMethod}
    (table : MethodTable)
    (h : ¬ (c = clz ∧ m.name = name ∧ m.signature = signature)) :
    table.bind clz m c name signature = table c name signature := by
  apply if_neg
  intro hno
  exact h ⟨hno.left, hno.right.left.symm, hno.right.right.symm⟩

/-- A binding that only methods with the entry point `v` touch ends up at `v`
if it was there or one of them is it. -/
theorem bindAll_eq {clz name signature : List Byte} {v : Nat}
    {methods : List NativeMethod} {table : MethodTable}
    (hall : forall m, m ∈ methods -> m.name = name -> m.signature = signature ->
      m.fnPtr = v)
    (h : table clz name signature = v ∨
      exists m, m ∈ methods ∧ m.name = name ∧ m.signature = signature) :
    methods.foldl (fun table m => table.bind clz m) table clz name signature =
      v := by
  induction methods generalizing table with
  | nil =>
      rcases h with h | ⟨m, hm, _⟩
      · exact h
      · cases hm
  | cons m rest ih =>
      rw [List.foldl_cons]
      apply ih (fun m' hm' => hall m' (List.mem_cons_of_mem m hm'))
      by_cases hsame : m.name = name ∧ m.signature = signature
      · left
        rw [← hsame.left, ← hsame.right]
        exact (bind_same table clz m).trans
          (hall m List.mem_cons_self hsame.left hsame.right)
      · rw [bind_other table (fun hno => hsame hno.right)]
        rcases h with h | ⟨m', hm', hname, hsignature⟩
        · exact Or.inl h
        · rcases List.mem_cons.mp hm' with heq | hrest
          · rw [heq] at hname hsignature
            exact absurd ⟨hname, hsignature⟩ hsame
          · exact Or.inr ⟨m', hrest, hname, hsignature⟩

theorem bindAll_other {c clz name signature : List Byte}
    {methods : List NativeMethod} {table : MethodTable}
    (h : forall m, m ∈ methods ->
      ¬ (c = clz ∧ m.name = name ∧ m.signature = signature)) :
    methods.foldl (fun table m => table.bind clz m) table c name signature =
      table c name signature := by
  induction methods generalizing table with
  | nil => rfl
  | cons m rest ih =>
      rw [List.foldl_cons, ih (fun m' hm' => h m' (List.mem_cons_of_mem m hm'))]
      exact bind_other table (h m List.mem_cons_self)

/-!
# One method
-/

theorem methods_name {replacements : Replacements} {kind : HookKind}
    {nm : NativeMethod} (h : nm ∈ kind.methods replacements) :
    nm.name = bytesOf kind.baseName := by
  rcases List.mem_map.mp h with ⟨entry, _, heq⟩
  rw [← heq]

theorem baseName_injective {kind kind' : HookKind}
    (h : bytesOf kind.baseName = bytesOf kind'.baseName) : kind = kind' := by
  revert h
  cases kind <;> cases kind' <;> decide

section Method

variable {native : JavaClass} {replacements : Replacements}

/-- The method that one block keeps, if any. -/
def keptMethod (native : JavaClass) (replacements : Replacements)
    (table : MethodTable) (kind : HookKind) : Option NativeMethod :=
  (hookJniNativeMethods true (fun _ => some native) table zygoteClass
    (kind.methods replacements)).1.find? (fun method => method.fnPtr ≠ 0)

/-- A kept method is one that was rebound, with the entry point it had. -/
theorem keptMethod_spec {table : MethodTable} {kind : HookKind}
    {m : NativeMethod} (h : keptMethod native replacements table kind = some m) :
    m.fnPtr ≠ 0 ∧ exists nm, nm ∈ kind.methods replacements ∧
      native nm.name nm.signature = true ∧
      m = { nm with fnPtr := table zygoteClass nm.name nm.signature } := by
  have hne : m.fnPtr ≠ 0 := by simpa using List.find?_some h
  refine ⟨hne, ?_⟩
  rcases List.mem_map.mp (List.mem_of_find?_eq_some h) with ⟨nm, hnm, heq⟩
  cases hnative : native nm.name nm.signature with
  | true =>
      rw [hnative, if_pos rfl] at heq
      exact ⟨nm, hnm, hnative, heq.symm⟩
  | false =>
      rw [hnative, if_neg Bool.false_ne_true] at heq
      rw [← heq] at hne
      exact absurd rfl hne

/-- With one signature that has an entry point, it is the one that is kept. -/
theorem keptMethod_of_one {table : MethodTable}
    (hone : OneSignatureEach native replacements table) {kind : HookKind}
    {nm : NativeMethod} (hnm : nm ∈ kind.methods replacements)
    (hnative : native nm.name nm.signature = true) :
    keptMethod native replacements table kind =
      some { nm with fnPtr := table zygoteClass nm.name nm.signature } := by
  rcases hone kind nm hnm hnative with ⟨hne, hunique⟩
  cases hkept : keptMethod native replacements table kind with
  | none =>
      have hall := List.find?_eq_none.mp hkept
      have hmem : { nm with fnPtr := table zygoteClass nm.name nm.signature } ∈
          (hookJniNativeMethods true (fun _ => some native) table zygoteClass
            (kind.methods replacements)).1 := by
        refine List.mem_map.mpr ⟨nm, hnm, ?_⟩
        rw [hnative, if_pos rfl]
      exact absurd (by simpa using hne) (hall _ hmem)
  | some m =>
      rcases keptMethod_spec hkept with ⟨_, nm', hnm', hnative', heq⟩
      have hname : nm'.name = nm.name :=
        (methods_name hnm').trans (methods_name hnm).symm
      have hsignature := hunique nm' hnm' hnative'
      rw [heq, hname, hsignature]

/-- Binding the hooks of one method changes the table only at the signatures
that the class has. -/
theorem hookJniNativeMethods_table (native : JavaClass) (table : MethodTable)
    {c name signature : List Byte} {methods : List NativeMethod}
    (h : forall nm, nm ∈ methods -> native nm.name nm.signature = true ->
      ¬ (c = zygoteClass ∧ nm.name = name ∧ nm.signature = signature)) :
    (hookJniNativeMethods true (fun _ => some native) table zygoteClass methods).2
      c name signature = table c name signature := by
  change (if (methods.filter (fun nm => native nm.name nm.signature)).isEmpty then
    table else registerNatives table zygoteClass
      (methods.filter (fun nm => native nm.name nm.signature)) none)
    c name signature = _
  split
  · rfl
  · apply bindAll_other
    intro nm hnm
    rcases List.mem_filter.mp hnm with ⟨hmem, hnative⟩
    exact h nm hmem hnative

/-- What is kept of a method depends on the entry points of that method. -/
theorem keptMethod_congr {table table' : MethodTable} {kind : HookKind}
    (h : forall signature, table' zygoteClass (bytesOf kind.baseName) signature =
      table zygoteClass (bytesOf kind.baseName) signature) :
    keptMethod native replacements table' kind =
      keptMethod native replacements table kind := by
  have hsame : forall nm, nm ∈ kind.methods replacements ->
      table' zygoteClass nm.name nm.signature =
        table zygoteClass nm.name nm.signature := by
    intro nm hnm
    rw [methods_name hnm]
    exact h nm.signature
  unfold keptMethod
  congr 1
  apply List.map_congr_left
  intro nm hnm
  rw [hsame nm hnm]

end Method

/-!
# The three methods together
-/

section Blocks

variable {native : JavaClass} {replacements : Replacements}

/-- The blocks work on different methods, so each of them keeps what it would
keep on the table as it was at the start. -/
structure Hooked (native : JavaClass) (replacements : Replacements)
    (table : MethodTable) (kinds : List HookKind) (s : ZygoteHooks) : Prop where
  hooks : s.hooks = kinds.filterMap (keptMethod native replacements table)
  orig : forall kind m, kind ∈ kinds ->
    keptMethod native replacements table kind = some m -> s.orig kind = m.fnPtr
  table : forall c name signature,
    s.table c name signature = table c name signature ∨
      exists kind nm, kind ∈ kinds ∧ nm ∈ HookKind.methods replacements kind ∧
        native nm.name nm.signature = true ∧
        c = zygoteClass ∧ nm.name = name ∧ nm.signature = signature

/-- The blocks before have left the rows of another method alone. -/
theorem Hooked.keptMethod_eq {table : MethodTable} {kinds : List HookKind}
    {s : ZygoteHooks} (h : Hooked native replacements table kinds s)
    {kind : HookKind} (hnew : kind ∉ kinds) :
    keptMethod native replacements s.table kind =
      keptMethod native replacements table kind := by
  apply keptMethod_congr
  intro signature
  rcases h.table zygoteClass (bytesOf kind.baseName) signature with
    hsame | ⟨kind', nm, hkind', hnm, _, _, hname, _⟩
  · exact hsame
  · rw [methods_name hnm] at hname
    rw [baseName_injective hname] at hkind'
    exact absurd hkind' hnew

/-- One more block changes only rows of its own method. -/
theorem Hooked.table_next {table : MethodTable} {kinds : List HookKind}
    {s : ZygoteHooks} (h : Hooked native replacements table kinds s)
    (kind : HookKind) (c name signature : List Byte) :
    (hookJniNativeMethods true (fun _ => some native) s.table zygoteClass
      (kind.methods replacements)).2 c name signature = table c name signature ∨
    exists kind' nm, kind' ∈ kinds ++ [kind] ∧
      nm ∈ HookKind.methods replacements kind' ∧
      native nm.name nm.signature = true ∧
      c = zygoteClass ∧ nm.name = name ∧ nm.signature = signature := by
  by_cases hbound : exists nm, nm ∈ kind.methods replacements ∧
      native nm.name nm.signature = true ∧
      c = zygoteClass ∧ nm.name = name ∧ nm.signature = signature
  · rcases hbound with ⟨nm, hnm, hrest⟩
    exact Or.inr ⟨kind, nm, by simp, hnm, hrest⟩
  · rw [hookJniNativeMethods_table native s.table
      (fun nm hnm hnative hno => hbound ⟨nm, hnm, hnative, hno⟩)]
    rcases h.table c name signature with hsame | ⟨kind', nm, hkind', hrest⟩
    · exact Or.inl hsame
    · exact Or.inr ⟨kind', nm, List.mem_append_left _ hkind', hrest⟩

theorem hooked_hookMethods {table : MethodTable} {kinds : List HookKind}
    {s : ZygoteHooks} (h : Hooked native replacements table kinds s)
    (kind : HookKind) (hnew : kind ∉ kinds) :
    Hooked native replacements table (kinds ++ [kind])
      (hookMethods (fun _ => some native) replacements s kind) := by
  have horig : forall kind' m, kind' ∈ kinds ++ [kind] -> kind' ≠ kind ->
      keptMethod native replacements table kind' = some m ->
      s.orig kind' = m.fnPtr := by
    intro kind' m hmem hne hm
    rcases List.mem_append.mp hmem with hkinds | hlast
    · exact h.orig kind' m hkinds hm
    · exact absurd (List.mem_singleton.mp hlast) hne
  unfold hookMethods
  simp only
  rw [← keptMethod.eq_def native replacements s.table kind, h.keptMethod_eq hnew]
  cases hkept : keptMethod native replacements table kind with
  | none =>
      exact {
        hooks := by simp [h.hooks, hkept]
        orig := by
          intro kind' m hmem hm
          apply horig kind' m hmem _ hm
          intro heq
          rw [heq, hkept] at hm
          cases hm
        table := h.table_next kind }
  | some method =>
      exact {
        hooks := by simp [h.hooks, hkept]
        orig := by
          intro kind' m hmem hm
          change (if kind' = kind then method.fnPtr else s.orig kind') = m.fnPtr
          by_cases heq : kind' = kind
          · rw [heq, hkept] at hm
            injection hm with hm
            rw [if_pos heq, hm]
          · rw [if_neg heq]
            exact horig kind' m hmem heq hm
        table := h.table_next kind }

theorem hooked_doHookZygote (native : JavaClass) (replacements : Replacements)
    (table : MethodTable) :
    Hooked native replacements table
      [HookKind.forkAndSpecialize, HookKind.specializeAppProcess,
        HookKind.forkSystemServer]
      (doHookZygote (fun _ => some native) replacements table) := by
  have hstart : Hooked native replacements table []
      { table := table, hooks := [], orig := fun _ => 0 } :=
    { hooks := rfl
      orig := by
        intro _ _ hmem _
        cases hmem
      table := fun _ _ _ => Or.inl rfl }
  have hfork := hooked_hookMethods hstart HookKind.forkAndSpecialize (by decide)
  have hspecialize :=
    hooked_hookMethods hfork HookKind.specializeAppProcess (by decide)
  exact hooked_hookMethods hspecialize HookKind.forkSystemServer (by decide)

theorem mem_hooks_iff (native : JavaClass) (replacements : Replacements)
    (table : MethodTable) (m : NativeMethod) :
    m ∈ (doHookZygote (fun _ => some native) replacements table).hooks <->
      exists kind, keptMethod native replacements table kind = some m := by
  rw [(hooked_doHookZygote native replacements table).hooks, List.mem_filterMap]
  constructor
  · intro h
    rcases h with ⟨kind, _, hkept⟩
    exact ⟨kind, hkept⟩
  · intro h
    rcases h with ⟨kind, hkept⟩
    refine ⟨kind, ?_, hkept⟩
    cases kind <;> decide

/-- With the recorded methods bound again, the table is what it was. -/
theorem restored_of_one {table : MethodTable}
    (hone : OneSignatureEach native replacements table) :
    registerNatives (doHookZygote (fun _ => some native) replacements table).table
      zygoteClass (doHookZygote (fun _ => some native) replacements table).hooks
      none = table := by
  have hhooked := hooked_doHookZygote native replacements table
  have hentry : forall m,
      m ∈ (doHookZygote (fun _ => some native) replacements table).hooks ->
      m.fnPtr = table zygoteClass m.name m.signature := by
    intro m hm
    rcases (mem_hooks_iff native replacements table m).mp hm with ⟨kind, hkept⟩
    rcases keptMethod_spec hkept with ⟨_, nm, _, _, heq⟩
    rw [heq]
  funext c name signature
  rw [registerNatives]
  by_cases hclz : c = zygoteClass
  · rw [hclz]
    apply bindAll_eq
    · intro m hm hname hsignature
      rw [hentry m hm, hname, hsignature]
    · rcases hhooked.table zygoteClass name signature with
        hsame | ⟨kind, nm, _, hnm, hnative, _, hname, hsignature⟩
      · exact Or.inl hsame
      · refine Or.inr ⟨_, (mem_hooks_iff native replacements table _).mpr
          ⟨kind, keptMethod_of_one hone hnm hnative⟩, hname, hsignature⟩
  · rw [bindAll_other (fun m _ hno => hclz hno.left)]
    rcases hhooked.table c name signature with hsame | ⟨_, _, _, _, _, hno, _⟩
    · exact hsame
    · exact absurd hno hclz

theorem giveUpHooks_single {clz : List Byte} {hooks : List NativeMethod}
    {g : Globals} (h : g.jniHookList = some [(clz, hooks)]) :
    exists g', giveUpHooks (fun _ => none) g = some g' ∧
      g'.methods = registerNatives g.methods clz hooks none := by
  unfold giveUpHooks
  rw [h]
  refine ⟨_, rfl, ?_⟩
  cases hooks with
  | nil => rfl
  | cons m rest => rfl

end Blocks

/-- The hooks can be taken back, and call what they replaced, exactly when the
class has at most one known signature of each of the three methods, and an entry
point for it. -/
theorem hooksReversible_iff (native : JavaClass) (replacements : Replacements)
    (table : MethodTable) :
    HooksReversible native replacements table <->
      OneSignatureEach native replacements table := by
  constructor
  · intro h kind nm hnm hnative
    have hkept : forall nm', nm' ∈ HookKind.methods replacements kind ->
        native nm'.name nm'.signature = true ->
        keptMethod native replacements table kind =
          some { nm' with fnPtr := table zygoteClass nm'.name nm'.signature } := by
      intro nm' hnm' hnative'
      rcases (mem_hooks_iff native replacements table _).mp
        (h.recorded kind nm' hnm' hnative') with ⟨kind', hkept⟩
      rcases keptMethod_spec hkept with ⟨_, nm'', hnm'', _, heq⟩
      injection heq with hname _ _
      rw [methods_name hnm', methods_name hnm''] at hname
      rw [baseName_injective hname]
      exact hkept
    have hfirst := hkept nm hnm hnative
    refine ⟨(keptMethod_spec hfirst).left, ?_⟩
    intro nm' hnm' hnative'
    have hsecond := hkept nm' hnm' hnative'
    rw [hfirst] at hsecond
    injection hsecond with hsecond
    exact (congrArg NativeMethod.signature hsecond).symm
  · intro hone
    exact {
      recorded := by
        intro kind nm hnm hnative
        exact (mem_hooks_iff native replacements table _).mpr
          ⟨kind, keptMethod_of_one hone hnm hnative⟩
      restored := by
        intro g hlist htable
        rcases giveUpHooks_single hlist with ⟨g', hg', hmethods⟩
        refine ⟨g', hg', ?_⟩
        rw [hmethods, htable]
        exact restored_of_one hone
      orig := by
        intro kind nm hnm hnative
        refine (hooked_doHookZygote native replacements table).orig kind _ ?_
          (keptMethod_of_one hone hnm hnative)
        cases kind <;> decide }

/-- A class with the two known signatures of `nativeForkSystemServer`: both are
rebound and only the first is kept. -/
theorem not_hooksReversible_two_signatures :
    ¬ HooksReversible
      (fun name _ => name = bytesOf "nativeForkSystemServer")
      (fun _ version => if version = Version.l then 0x7000 else 0x7100)
      (fun _ _ signature => 0x1000 + signature.length) := by
  intro h
  have hrecorded := h.recorded HookKind.forkSystemServer
    { name := bytesOf "nativeForkSystemServer"
      signature := bytesOf "(II[IIII[[IJJ)I"
      fnPtr := 0x7100 } (by decide) (by decide)
  exact absurd hrecorded (by decide)

end Injector
end ReZygisk
