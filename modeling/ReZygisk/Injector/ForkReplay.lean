import ReZygisk.Injector.Fork

/-!
# The replayed fork

`fork_pre` forks before the original method runs, and the hooked `fork` answers
the method's own calls with the result that was kept.  The original method is
platform code, so it is any program that calls `fork` and goes on from what it
is told; the kernel decides about every real fork on its own.
-/

namespace ReZygisk
namespace Injector

/-- The calls of `fork` that an original method makes. -/
inductive Method where
  | done
  | fork (resume : Int -> Method)

/-- What the kernel answers to the next real fork of a process, from the real
forks that led to it: the pid of a new child, or a failure. -/
abbrev ForkPlan := List ForkOutcome -> Option Nat

/-- A process in which the hook returns: its real forks, what the original
method got from `fork`, and the value handed to Java. -/
structure Returned where
  forks : List ForkOutcome
  seen : List Int
  value : Int
  deriving DecidableEq

/-- The results of one real fork, one for each process that has one. -/
def ForkPlan.outcomes (plan : ForkPlan) (forks : List ForkOutcome) :
    List ForkOutcome :=
  match plan forks with
  | none => [ForkOutcome.failed]
  | some pid => [ForkOutcome.parent pid, ForkOutcome.child]

/-- `new_fork`: the kept result, if there is one to keep. -/
def newFork (gCtx : Option ZygiskContext) : Option Int :=
  gCtx.bind (fun ctx => if 0 ≤ ctx.pid then some ctx.pid else none)

/-- The original method, in every process that it ends in. -/
def runMethod (plan : ForkPlan) (ctx : ZygiskContext) :
    Method -> List ForkOutcome -> List Int -> List Returned
  | Method.done, forks, seen =>
      [{ forks := forks, seen := seen, value := ctx.pid }]
  | Method.fork resume, forks, seen =>
      match newFork (some ctx) with
      | some pid => runMethod plan ctx (resume pid) forks (seen ++ [pid])
      | none =>
          (plan.outcomes forks).flatMap (fun outcome =>
            runMethod plan ctx (resume outcome.result) (forks ++ [outcome])
              (seen ++ [outcome.result]))

/-- `nativeForkAndSpecialize` and `nativeForkSystemServer`: the constructor of
the context, `fork_pre`, the original method, and `ctx.pid` as the value. -/
def forkHook (plan : ForkPlan) (orig : Method) : List Returned :=
  (plan.outcomes []).flatMap (fun outcome =>
    runMethod plan (ZygiskContext.new.forkPre outcome) orig [outcome] [])

/-- One child at most; the original method sees what `fork_pre` got; and the
value is 0 in a child, the child's pid in its parent, and -1 exactly when there
is no child. -/
structure ForksOnce (plan : ForkPlan) (orig : Method) : Prop where
  one_child : (forkHook plan orig).length ≤ 2
  replayed : forall p, p ∈ forkHook plan orig -> forall v, v ∈ p.seen ->
    exists outcome, p.forks.head? = some outcome ∧ v = outcome.result
  child : forall p, p ∈ forkHook plan orig -> ForkOutcome.child ∈ p.forks ->
    p.value = 0
  parent : forall p, p ∈ forkHook plan orig ->
    forall pid, ForkOutcome.parent pid ∈ p.forks -> p.value = (pid : Int) + 1
  no_child : forall p, p ∈ forkHook plan orig ->
    (p.value = -1 <-> (forkHook plan orig).length = 1)

/-- Every fork fails that the method makes while each of them returns -1. -/
def AllFail (plan : ForkPlan) : Method -> List ForkOutcome -> Prop
  | Method.done, _ => True
  | Method.fork resume, forks =>
      plan forks = none ∧
        AllFail plan (resume (-1)) (forks ++ [ForkOutcome.failed])

/-!
# With a kept result
-/

/-- A kept result is replayed to every call, and no real fork follows. -/
theorem runMethod_of_kept (plan : ForkPlan) (ctx : ZygiskContext)
    (hpid : 0 ≤ ctx.pid) (orig : Method) (forks : List ForkOutcome)
    (seen : List Int) :
    exists calls, runMethod plan ctx orig forks seen =
      [{ forks := forks, seen := seen ++ List.replicate calls ctx.pid,
         value := ctx.pid }] := by
  have hkept : newFork (some ctx) = some ctx.pid := if_pos hpid
  induction orig generalizing seen with
  | done => exact ⟨0, by simp [runMethod]⟩
  | fork resume ih =>
      rcases ih ctx.pid (seen ++ [ctx.pid]) with ⟨calls, hrun⟩
      refine ⟨calls + 1, ?_⟩
      rw [List.append_assoc, List.singleton_append, ← List.replicate_succ] at hrun
      rw [runMethod, hkept]
      exact hrun

theorem forkHook_of_success {plan : ForkPlan} {pid : Nat} (h : plan [] = some pid)
    (orig : Method) :
    exists calls calls', forkHook plan orig =
      [{ forks := [ForkOutcome.parent pid],
         seen := List.replicate calls ((pid : Int) + 1), value := (pid : Int) + 1 },
       { forks := [ForkOutcome.child], seen := List.replicate calls' 0,
         value := 0 }] := by
  rcases runMethod_of_kept plan
    (ZygiskContext.new.forkPre (ForkOutcome.parent pid))
    (Int.add_nonneg (Int.natCast_nonneg pid) (by decide)) orig
    [ForkOutcome.parent pid] [] with ⟨calls, hparent⟩
  rcases runMethod_of_kept plan
    (ZygiskContext.new.forkPre ForkOutcome.child) (Int.le_refl 0) orig
    [ForkOutcome.child] [] with ⟨calls', hchild⟩
  refine ⟨calls, calls', ?_⟩
  rw [forkHook, ForkPlan.outcomes, h]
  simp only [List.flatMap_cons, List.flatMap_nil, hparent, hchild]
  rfl

theorem forksOnce_of_success {plan : ForkPlan} {pid : Nat}
    (h : plan [] = some pid) (orig : Method) : ForksOnce plan orig := by
  rcases forkHook_of_success h orig with ⟨calls, calls', hhook⟩
  have hmem : forall p, p ∈ forkHook plan orig ->
      p = { forks := [ForkOutcome.parent pid],
            seen := List.replicate calls ((pid : Int) + 1),
            value := (pid : Int) + 1 } ∨
      p = { forks := [ForkOutcome.child], seen := List.replicate calls' 0,
            value := 0 } := by
    intro p hp
    rw [hhook] at hp
    simpa using hp
  constructor
  · rw [hhook]
    exact Nat.le_refl 2
  · intro p hp v hv
    rcases hmem p hp with heq | heq
    · rw [heq] at hv ⊢
      exact ⟨_, rfl, List.eq_of_mem_replicate hv⟩
    · rw [heq] at hv ⊢
      exact ⟨_, rfl, List.eq_of_mem_replicate hv⟩
  · intro p hp hchild
    rcases hmem p hp with heq | heq
    · rw [heq] at hchild
      simp at hchild
    · rw [heq]
  · intro p hp pid' hparent
    rcases hmem p hp with heq | heq
    · rw [heq] at hparent ⊢
      simp at hparent
      simp [hparent]
    · rw [heq] at hparent
      simp at hparent
  · intro p hp
    rw [hhook]
    rcases hmem p hp with heq | heq
    · rw [heq]
      simp
      omega
    · rw [heq]
      simp

/-!
# With a failed fork

There is no result to keep, so the hooked `fork` asks the kernel again.
-/

/-- The context after a failed `fork_pre`. -/
def failedContext : ZygiskContext :=
  ZygiskContext.new.forkPre ForkOutcome.failed

theorem newFork_failedContext : newFork (some failedContext) = none := rfl

theorem forkHook_of_failure {plan : ForkPlan} (h : plan [] = none)
    (orig : Method) :
    forkHook plan orig =
      runMethod plan failedContext orig [ForkOutcome.failed] [] := by
  rw [forkHook, ForkPlan.outcomes, h]
  simp only [List.flatMap_cons, List.flatMap_nil, List.append_nil]
  rfl

theorem runMethod_of_allFail {plan : ForkPlan} {orig : Method}
    {forks : List ForkOutcome} (h : AllFail plan orig forks) (seen : List Int) :
    exists calls, runMethod plan failedContext orig forks seen =
      [{ forks := forks ++ List.replicate calls ForkOutcome.failed,
         seen := seen ++ List.replicate calls (-1), value := -1 }] := by
  induction orig generalizing forks seen with
  | done => exact ⟨0, by simp [runMethod, failedContext, ZygiskContext.forkPre,
      ForkOutcome.result]⟩
  | fork resume ih =>
      rcases ih (-1) h.right (seen ++ [-1]) with ⟨calls, hrun⟩
      refine ⟨calls + 1, ?_⟩
      rw [List.append_assoc, List.append_assoc, List.singleton_append,
        List.singleton_append, ← List.replicate_succ, ← List.replicate_succ] at hrun
      rw [runMethod, newFork_failedContext, ForkPlan.outcomes, h.left]
      simp only [List.flatMap_cons, List.flatMap_nil, List.append_nil]
      exact hrun

theorem forksOnce_of_allFail {plan : ForkPlan} {orig : Method}
    (hfirst : plan [] = none) (h : AllFail plan orig [ForkOutcome.failed]) :
    ForksOnce plan orig := by
  rcases runMethod_of_allFail h [] with ⟨calls, hrun⟩
  rw [← forkHook_of_failure hfirst] at hrun
  have hmem : forall p, p ∈ forkHook plan orig ->
      p = { forks := ForkOutcome.failed :: List.replicate calls ForkOutcome.failed,
            seen := List.replicate calls (-1), value := -1 } := by
    intro p hp
    rw [hrun] at hp
    simpa using hp
  have hforks : forall p, p ∈ forkHook plan orig ->
      forall outcome, outcome ∈ p.forks -> outcome = ForkOutcome.failed := by
    intro p hp outcome houtcome
    rw [hmem p hp, ← List.replicate_succ] at houtcome
    exact List.eq_of_mem_replicate houtcome
  constructor
  · rw [hrun]
    exact Nat.le_succ 1
  · intro p hp v hv
    rw [hmem p hp] at hv ⊢
    exact ⟨ForkOutcome.failed, rfl, List.eq_of_mem_replicate hv⟩
  · intro p hp hchild
    cases hforks p hp _ hchild
  · intro p hp pid hparent
    cases hforks p hp _ hparent
  · intro p hp
    rw [hmem p hp, hrun]
    simp

/-- Some process comes out of every method, with the real forks it started with
and the value of its context. -/
theorem exists_mem_runMethod (plan : ForkPlan) (ctx : ZygiskContext)
    (orig : Method) (forks : List ForkOutcome) (seen : List Int) :
    exists p, p ∈ runMethod plan ctx orig forks seen ∧ forks ⊆ p.forks ∧
      p.value = ctx.pid := by
  induction orig generalizing forks seen with
  | done => exact ⟨_, List.mem_singleton_self _, List.Subset.refl _, rfl⟩
  | fork resume ih =>
      rw [runMethod]
      cases hkept : newFork (some ctx) with
      | some pid => exact ih pid forks (seen ++ [pid])
      | none =>
          have hsome : exists outcome, outcome ∈ plan.outcomes forks := by
            unfold ForkPlan.outcomes
            cases plan forks with
            | none => exact ⟨_, List.mem_cons_self⟩
            | some pid => exact ⟨_, List.mem_cons_self⟩
          rcases hsome with ⟨outcome, houtcome⟩
          rcases ih outcome.result (forks ++ [outcome]) (seen ++ [outcome.result])
            with ⟨p, hp, hsub, hvalue⟩
          refine ⟨p, List.mem_flatMap.mpr ⟨outcome, houtcome, hp⟩, ?_, hvalue⟩
          exact List.Subset.trans (List.subset_append_left forks [outcome]) hsub

/-- A fork that succeeds after the one of `fork_pre` failed leaves a child
behind in which the hook returns -1. -/
theorem exists_child_of_not_allFail {plan : ForkPlan} {orig : Method}
    {forks : List ForkOutcome} (h : ¬ AllFail plan orig forks)
    (seen : List Int) :
    exists p, p ∈ runMethod plan failedContext orig forks seen ∧
      ForkOutcome.child ∈ p.forks ∧ p.value = -1 := by
  induction orig generalizing forks seen with
  | done => exact absurd trivial h
  | fork resume ih =>
      rw [runMethod, newFork_failedContext]
      cases hplan : plan forks with
      | none =>
          have hrest : ¬ AllFail plan (resume (-1)) (forks ++ [ForkOutcome.failed]) :=
            fun hrest => h ⟨hplan, hrest⟩
          rcases ih (-1) hrest (seen ++ [-1]) with ⟨p, hp, hchild, hvalue⟩
          refine ⟨p, List.mem_flatMap.mpr ⟨ForkOutcome.failed, ?_, hp⟩, hchild, hvalue⟩
          simp [ForkPlan.outcomes, hplan]
      | some pid =>
          rcases exists_mem_runMethod plan failedContext (resume 0)
            (forks ++ [ForkOutcome.child]) (seen ++ [0]) with ⟨p, hp, hsub, hvalue⟩
          refine ⟨p, List.mem_flatMap.mpr ⟨ForkOutcome.child, ?_, hp⟩, ?_, hvalue⟩
          · simp [ForkPlan.outcomes, hplan]
          · exact hsub (List.mem_append_right _ List.mem_cons_self)

/-- The hook forks once and replays it exactly when `fork_pre` got a child, or
none of the forks that the original method then makes gets one. -/
theorem forksOnce_iff (plan : ForkPlan) (orig : Method) :
    ForksOnce plan orig <->
      plan [] ≠ none ∨ AllFail plan orig [ForkOutcome.failed] := by
  constructor
  · intro h
    by_contra hno
    rw [not_or, not_not] at hno
    rcases exists_child_of_not_allFail hno.right [] with ⟨p, hp, hchild, hvalue⟩
    rw [← forkHook_of_failure hno.left] at hp
    have hzero := h.child p hp hchild
    rw [hvalue] at hzero
    cases hzero
  · intro h
    cases hplan : plan [] with
    | some pid => exact forksOnce_of_success hplan orig
    | none =>
        rcases h with h | h
        · exact absurd hplan h
        · exact forksOnce_of_allFail hplan h

/-- `fork_pre` fails, and the one fork of the original method succeeds. -/
theorem not_forksOnce_second_fork :
    ¬ ForksOnce (fun forks => if forks = [] then none else some 300)
      (Method.fork (fun _ => Method.done)) := by
  intro h
  have hvalue := h.child
    { forks := [ForkOutcome.failed, ForkOutcome.child], seen := [0], value := -1 }
    (by decide) (by decide)
  cases hvalue

end Injector
end ReZygisk
