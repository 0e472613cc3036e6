import ReZygisk.Foundation.Bytes

/-!
# The fork hooks of the zygote

Three native methods of the zygote are replaced.  Each replacement builds a
`ZygiskContext` on its stack, runs the original method between a pre and a post
part, and destroys the context.  The destructor tells from the context's `pid`
alone whether it runs in a child that has to give up the hooks.
-/

namespace ReZygisk
namespace Injector

open Foundation

/-!
# What the hooks own in a process
-/

structure NativeMethod where
  name : List Byte
  signature : List Byte
  fnPtr : Nat
  deriving DecidableEq

abbrev MethodTable := List Byte -> List Byte -> List Byte -> Nat

/-- The process-wide state that the destructor of a context can change.
`jniHookList` is a pointer; `unloaderHooks` counts the calls of
`hook_unloader`. -/
structure Globals where
  jniHookList : Option (List (List Byte × List NativeMethod))
  shouldUnmapZygisk : Bool
  unloaderHooks : Nat
  methods : MethodTable

def MethodTable.bind (table : MethodTable) (clz : List Byte) (m : NativeMethod) :
    MethodTable :=
  fun c name signature =>
    if c = clz ∧ name = m.name ∧ signature = m.signature then m.fnPtr
    else table c name signature

/-- `RegisterNatives` binds the methods in order.  When it fails, it has bound
those before the one it stopped at. -/
def registerNatives (table : MethodTable) (clz : List Byte)
    (methods : List NativeMethod) (failedAt : Option Nat) : MethodTable :=
  match failedAt with
  | none => methods.foldl (fun table m => table.bind clz m) table
  | some n => (methods.take n).foldl (fun table m => table.bind clz m) table

/-!
# Contexts
-/

inductive ForkOutcome where
  | failed
  | child
  | parent (pid : Nat)
  deriving DecidableEq

def ForkOutcome.result : ForkOutcome -> Int
  | ForkOutcome.failed => -1
  | ForkOutcome.child => 0
  | ForkOutcome.parent pid => (pid : Int) + 1

structure ZygiskContext where
  pid : Int
  deriving DecidableEq

def ZygiskContext.new : ZygiskContext :=
  { pid := -1 }

def ZygiskContext.isChild (ctx : ZygiskContext) : Bool :=
  decide (ctx.pid ≤ 0)

def ZygiskContext.forkPre (ctx : ZygiskContext) (fork : ForkOutcome) :
    ZygiskContext :=
  { ctx with pid := fork.result }

inductive HookKind where
  | forkAndSpecialize
  | forkSystemServer
  | specializeAppProcess
  deriving DecidableEq

/-- One call of a replaced method.  `modules` is what third-party code does to
the process; `failedAt` tells for each class whether its methods can be
registered again. -/
structure HookCall where
  kind : HookKind
  fork : ForkOutcome
  modules : Globals -> Globals
  failedAt : List Byte -> Option Nat

def restoreClass (failedAt : List Byte -> Option Nat) (g : Globals)
    (entry : List Byte × List NativeMethod) : Globals :=
  if entry.2.isEmpty then g
  else
    { g with
      methods := registerNatives g.methods entry.1 entry.2 (failedAt entry.1),
      shouldUnmapZygisk := g.shouldUnmapZygisk && (failedAt entry.1).isNone }

/-- The child-only part of `~ZygiskContext`.  It dereferences the hook list, so
it cannot run twice in one process. -/
def giveUpHooks (failedAt : List Byte -> Option Nat) (g : Globals) :
    Option Globals :=
  match g.jniHookList with
  | none => none
  | some hooks =>
      let restored := hooks.foldl (restoreClass failedAt)
        { g with shouldUnmapZygisk := true }
      some { restored with jniHookList := none,
                           unloaderHooks := g.unloaderHooks + 1 }

def ZygiskContext.destroy (ctx : ZygiskContext)
    (failedAt : List Byte -> Option Nat) (g : Globals) : Option Globals :=
  if ctx.isChild then giveUpHooks failedAt g else some g

def HookCall.context (c : HookCall) : ZygiskContext :=
  match c.kind with
  | HookKind.forkAndSpecialize => ZygiskContext.new.forkPre c.fork
  | HookKind.forkSystemServer => ZygiskContext.new.forkPre c.fork
  | HookKind.specializeAppProcess => ZygiskContext.new

def HookCall.runModules (c : HookCall) (g : Globals) : Globals :=
  match c.kind with
  | HookKind.specializeAppProcess => c.modules g
  | _ => if c.context.pid = 0 then c.modules g else g

/-- The process after one call of a replaced method; without a result it has
crashed. -/
def hookCall (g : Globals) (c : HookCall) : Option Globals :=
  c.context.destroy c.failedAt (c.runModules g)

def runHooks (g : Globals) (calls : List HookCall) : Option Globals :=
  calls.foldlM hookCall g

/-!
# The zygote
-/

def HookCall.GivesUpHooks (c : HookCall) : Prop :=
  c.context.isChild = true

/-- A call in a process that is meant to give up the hooks: the child of the
fork, or a process specialised without one. -/
def HookCall.Specialises (c : HookCall) : Prop :=
  c.kind = HookKind.specializeAppProcess ∨ c.fork = ForkOutcome.child

/-- A call as the zygote itself executes it: the fork does not return `0`. -/
def HookCall.InZygote (c : HookCall) : Prop :=
  ¬ c.Specialises

theorem isChild_iff (ctx : ZygiskContext) :
    ctx.isChild = true <-> ctx.pid ≤ 0 :=
  decide_eq_true_iff

theorem result_le_zero_iff (fork : ForkOutcome) :
    fork.result ≤ 0 <-> fork = ForkOutcome.child ∨ fork = ForkOutcome.failed := by
  cases fork with
  | failed => simp [ForkOutcome.result]
  | child => simp [ForkOutcome.result]
  | parent pid =>
      have hpos : ¬ ((pid : Int) + 1 ≤ 0) := by omega
      simp [ForkOutcome.result, hpos]

/-- The destructor takes a failed fork for a child. -/
theorem givesUpHooks_iff (c : HookCall) :
    c.GivesUpHooks <-> c.Specialises ∨
      (c.kind ≠ HookKind.specializeAppProcess ∧ c.fork = ForkOutcome.failed) := by
  have hresult := result_le_zero_iff c.fork
  rw [HookCall.GivesUpHooks, isChild_iff, HookCall.Specialises, HookCall.context]
  cases hkind : c.kind with
  | specializeAppProcess => simp [ZygiskContext.new]
  | forkAndSpecialize => simpa [ZygiskContext.forkPre] using hresult
  | forkSystemServer => simpa [ZygiskContext.forkPre] using hresult

theorem hookCall_of_parent {c : HookCall} (hzygote : c.InZygote)
    (hfork : c.fork ≠ ForkOutcome.failed) (g : Globals) :
    hookCall g c = some g := by
  have hkeeps : ¬ c.GivesUpHooks := by
    rw [givesUpHooks_iff]
    intro h
    rcases h with h | h
    · exact hzygote h
    · exact hfork h.right
  have hpid : c.context.pid ≠ 0 := by
    intro hzero
    apply hkeeps
    simp [HookCall.GivesUpHooks, ZygiskContext.isChild, hzero]
  have hmodules : c.runModules g = g := by
    rw [HookCall.runModules]
    cases hkind : c.kind with
    | specializeAppProcess => exact absurd (Or.inl hkind) hzygote
    | forkAndSpecialize => exact if_neg hpid
    | forkSystemServer => exact if_neg hpid
  rw [hookCall, hmodules, ZygiskContext.destroy]
  exact if_neg hkeeps

theorem hookCall_of_failed {c : HookCall} (hzygote : c.InZygote)
    (hfork : c.fork = ForkOutcome.failed) (g : Globals) :
    hookCall g c = giveUpHooks c.failedAt g := by
  have hkind : c.kind ≠ HookKind.specializeAppProcess := fun h =>
    hzygote (Or.inl h)
  have hgives : c.GivesUpHooks :=
    (givesUpHooks_iff c).mpr (Or.inr ⟨hkind, hfork⟩)
  have hmodules : c.runModules g = g := by
    rw [HookCall.runModules, HookCall.context]
    cases hk : c.kind with
    | specializeAppProcess => exact absurd hk hkind
    | forkAndSpecialize => simp [ZygiskContext.forkPre, hfork, ForkOutcome.result]
    | forkSystemServer => simp [ZygiskContext.forkPre, hfork, ForkOutcome.result]
  rw [hookCall, hmodules, ZygiskContext.destroy]
  exact if_pos hgives

theorem runHooks_cons (g : Globals) (c : HookCall) (rest : List HookCall) :
    runHooks g (c :: rest) = (hookCall g c).bind (fun g' => runHooks g' rest) := by
  rw [runHooks, List.foldlM_cons]
  rfl

theorem unloaderHooks_le_of_run {calls : List HookCall} {g g' : Globals}
    (hzygote : forall c, c ∈ calls -> c.InZygote)
    (h : runHooks g calls = some g') :
    g.unloaderHooks ≤ g'.unloaderHooks := by
  induction calls generalizing g with
  | nil =>
      cases h
      exact Nat.le_refl _
  | cons c rest ih =>
      have hc := hzygote c List.mem_cons_self
      rw [runHooks_cons, Option.bind_eq_some_iff] at h
      rcases h with ⟨g1, hcall, hrest⟩
      have hle := ih (fun c' hc' => hzygote c' (List.mem_cons_of_mem c hc')) hrest
      refine Nat.le_trans ?_ hle
      by_cases hfork : c.fork = ForkOutcome.failed
      · rw [hookCall_of_failed hc hfork, giveUpHooks] at hcall
        split at hcall
        · cases hcall
        · cases hcall
          exact Nat.le_succ _
      · rw [hookCall_of_parent hc hfork] at hcall
        cases hcall
        exact Nat.le_refl _

theorem runHooks_ne_of_failed {calls : List HookCall}
    (hzygote : forall c, c ∈ calls -> c.InZygote) {c : HookCall}
    (hc : c ∈ calls) (hfork : c.fork = ForkOutcome.failed) (g : Globals) :
    runHooks g calls ≠ some g := by
  intro h
  induction calls with
  | nil => cases hc
  | cons c' rest ih =>
      have hzygote' := fun d hd => hzygote d (List.mem_cons_of_mem c' hd)
      rw [runHooks_cons, Option.bind_eq_some_iff] at h
      rcases h with ⟨g1, hcall, hrest⟩
      have hinz := hzygote c' List.mem_cons_self
      by_cases hfork' : c'.fork = ForkOutcome.failed
      · rw [hookCall_of_failed hinz hfork', giveUpHooks] at hcall
        split at hcall
        · cases hcall
        · cases hcall
          have hle := unloaderHooks_le_of_run hzygote' hrest
          exact absurd hle (Nat.not_succ_le_self _)
      · rw [hookCall_of_parent hinz hfork'] at hcall
        cases hcall
        rcases List.mem_cons.mp hc with heq | hmem
        · rw [heq] at hfork
          exact hfork' hfork
        · exact ih hzygote' hmem hrest

theorem runHooks_of_forks {calls : List HookCall}
    (hzygote : forall c, c ∈ calls -> c.InZygote)
    (hforks : forall c, c ∈ calls -> c.fork ≠ ForkOutcome.failed)
    (g : Globals) : runHooks g calls = some g := by
  induction calls with
  | nil => rfl
  | cons c rest ih =>
      rw [runHooks_cons, hookCall_of_parent (hzygote c List.mem_cons_self)
        (hforks c List.mem_cons_self)]
      exact ih (fun c' hc' => hzygote c' (List.mem_cons_of_mem c hc'))
        (fun c' hc' => hforks c' (List.mem_cons_of_mem c hc'))

/-- A call made by the zygote: a fork hook whose fork does not return `0`. -/
def ZygoteCall : Type :=
  { c : HookCall // c.InZygote }

def ZygoteCall.fork (c : ZygoteCall) : ForkOutcome :=
  c.val.fork

/-- The zygote is left as it was: its hook list keeps its entries, nothing is to
be unmapped, the unloader is not hooked and its methods stay bound to the
hooks.  And no call runs the child-only part of the destructor. -/
def ZygoteUndisturbed (g : Globals) (calls : List ZygoteCall) : Prop :=
  runHooks g (calls.map Subtype.val) = some g ∧
    forall c, c ∈ calls -> ¬ c.val.GivesUpHooks

/-- For every sequence of calls of the fork hooks in the zygote and every
result of their forks, the zygote is undisturbed if and only if no fork
failed. -/
theorem zygoteUndisturbed_iff_no_failed_fork (g : Globals)
    (calls : List ZygoteCall) :
    ZygoteUndisturbed g calls <->
      forall c, c ∈ calls -> c.fork ≠ ForkOutcome.failed := by
  have hzygote : forall c, c ∈ calls.map Subtype.val -> HookCall.InZygote c := by
    intro c hc
    rcases List.mem_map.mp hc with ⟨z, _, hz⟩
    rw [← hz]
    exact z.property
  constructor
  · intro h c hc hfork
    exact runHooks_ne_of_failed hzygote (List.mem_map_of_mem hc) hfork g h.left
  · intro h
    refine ⟨runHooks_of_forks hzygote ?_ g, ?_⟩
    · intro c hc
      rcases List.mem_map.mp hc with ⟨z, hz, hval⟩
      rw [← hval]
      exact h z hz
    · intro c hc hgives
      rcases (givesUpHooks_iff c.val).mp hgives with hspec | hfailed
      · exact c.property hspec
      · exact h c hc hfailed.right

def failedForkCall : ZygoteCall :=
  ⟨{ kind := HookKind.forkAndSpecialize, fork := ForkOutcome.failed,
     modules := id, failedAt := fun _ => none }, by
    intro h
    rcases h with h | h <;> cases h⟩

def hookedZygote : Globals :=
  { jniHookList := some
      [(bytesOf "com/android/internal/os/Zygote",
        [{ name := bytesOf "nativeForkAndSpecialize", signature := [],
           fnPtr := 0x1000 }])],
    shouldUnmapZygisk := false, unloaderHooks := 0,
    methods := fun _ _ _ => 0x2000 }

theorem not_zygoteUndisturbed_failed_fork :
    ¬ ZygoteUndisturbed hookedZygote [failedForkCall] := by
  intro h
  exact h.right failedForkCall List.mem_cons_self rfl

end Injector
end ReZygisk
