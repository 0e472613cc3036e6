import ReZygisk.Monitor.SigChld

/-!
# Starting the tracer

`fork_dont_care` forks twice, so that the tracer is not a child of the monitor.
Up to three copies of the monitor run its code, and each of them hands what it
returns to the same place of `SigChldHandler::HandleEvent`.
-/

namespace ReZygisk
namespace InitMonitor

open Foundation
open Kernel
open SigChldHandler

/-!
# The function in one copy
-/

/-- How a copy of the process leaves `fork_dont_care`. -/
inductive Leaving where
  | returns (value : Int)
  /-- It waits for the end of a child and then returns. -/
  | returnsAfter (child value : Int)
  | exits (code : Nat)
  deriving DecidableEq, Repr

/-- `fork_dont_care` in a copy in which the two calls of `fork` return `outer`
and `inner`. -/
def forkDontCare (outer inner : Int) : Leaving :=
  if outer < 0 then
    Leaving.returns outer
  else if outer = 0 then
    if inner < 0 then Leaving.returns inner
    else if 0 < inner then Leaving.exits 0
    else Leaving.returns inner
  else
    Leaving.returnsAfter outer outer

/-- What a copy does next. -/
inductive Continues where
  /-- It goes on in `HandleEvent`, with these effects on the zygote. -/
  | monitor (effects : List Effect)
  /-- It executes the tracer, or kills the zygote and exits. -/
  | tracer
  | ended (code : Nat)
  /-- It waits for a child that has not ended inside the function. -/
  | waiting (child : Int)
  deriving DecidableEq, Repr

/-- The caller's reading of the returned value. -/
def afterFork (zygote p : Int) : Continues :=
  if p = 0 then Continues.tracer
  else if p = -1 then Continues.monitor [Effect.kill zygote SIGKILL]
  else Continues.monitor []

/-!
# All copies
-/

inductive Copy where
  | original
  | intermediate
  | grandchild
  deriving DecidableEq, Repr

/-- The outcomes of the two forks; the inner one is only reached when the outer
one succeeds. -/
structure Forks where
  outer : Option ChildPid
  inner : Option ChildPid

def forkResult : Option ChildPid -> Int
  | none => -1
  | some pid => pid.val

/-- How each copy leaves the function, if there is such a copy.  In a child
`fork` returns 0. -/
def Forks.leaving (f : Forks) : Copy -> Option Leaving
  | Copy.original => some (forkDontCare (forkResult f.outer) 0)
  | Copy.intermediate => f.outer.map (fun _ => forkDontCare 0 (forkResult f.inner))
  | Copy.grandchild =>
      f.outer.bind (fun _ => f.inner.map (fun _ => forkDontCare 0 0))

/-- The child that the original waits for is the intermediate copy. -/
def Forks.intermediateEnds (f : Forks) : Bool :=
  match f.leaving Copy.intermediate with
  | some (Leaving.exits _) => true
  | _ => false

def Forks.continues (f : Forks) (zygote : Int) (copy : Copy) : Option Continues :=
  (f.leaving copy).map (fun leaving =>
    match leaving with
    | Leaving.returns value => afterFork zygote value
    | Leaving.returnsAfter child value =>
        if f.intermediateEnds then afterFork zygote value
        else Continues.waiting child
    | Leaving.exits code => Continues.ended code)

/-!
# What the caller relies on
-/

structure ForkContract (f : Forks) (zygote : Int) : Prop where
  oneMonitor : forall copy,
    (exists effects, f.continues zygote copy = some (Continues.monitor effects)) <->
      copy = Copy.original
  oneTracer : forall copy copy',
    f.continues zygote copy = some Continues.tracer ->
    f.continues zygote copy' = some Continues.tracer -> copy = copy'
  intermediateStays : forall value,
    f.leaving Copy.intermediate ≠ some (Leaving.returns value)
  failed : f.outer = none ∨ f.inner = none ->
    f.continues zygote Copy.original =
      some (Continues.monitor [Effect.kill zygote SIGKILL])

theorem forkDontCare_of_child {pid : Int} (h : 1 < pid) :
    forkDontCare pid 0 = Leaving.returnsAfter pid pid ∧
      forkDontCare 0 pid = Leaving.exits 0 := by
  constructor
  · rw [forkDontCare, if_neg (by omega), if_neg (by omega)]
  · rw [forkDontCare, if_neg (by omega), if_pos rfl, if_neg (by omega),
      if_pos (by omega)]

theorem oneMonitor_of {f : Forks} {zygote : Int}
    (horiginal : exists effects,
      f.continues zygote Copy.original = some (Continues.monitor effects))
    (hothers : forall copy effects, copy ≠ Copy.original ->
      f.continues zygote copy ≠ some (Continues.monitor effects))
    (copy : Copy) :
    (exists effects, f.continues zygote copy = some (Continues.monitor effects)) <->
      copy = Copy.original := by
  constructor
  · intro h
    rcases h with ⟨effects, h⟩
    by_contra hne
    exact hothers copy effects hne h
  · intro heq
    rw [heq]
    exact horiginal

/-!
## The outer fork fails
-/

section OuterFails

variable (inner : Option ChildPid) (zygote : Int)

theorem forkContract_outer_failed : ForkContract ⟨none, inner⟩ zygote := by
  have horiginal : Forks.continues ⟨none, inner⟩ zygote Copy.original =
      some (Continues.monitor [Effect.kill zygote SIGKILL]) := rfl
  have hothers : forall copy, copy ≠ Copy.original ->
      Forks.continues ⟨none, inner⟩ zygote copy = none := by
    intro copy hne
    cases copy with
    | original => exact absurd rfl hne
    | intermediate => rfl
    | grandchild => rfl
  constructor
  · apply oneMonitor_of ⟨_, horiginal⟩
    intro copy effects hne h
    rw [hothers copy hne] at h
    cases h
  · intro copy copy' h _
    rcases Decidable.em (copy = Copy.original) with heq | hne
    · rw [heq, horiginal] at h
      cases h
    · rw [hothers copy hne] at h
      cases h
  · intro value h
    cases h
  · intro _
    exact horiginal

end OuterFails

/-!
## Both forks succeed
-/

section BothSucceed

variable (outer inner : ChildPid) (zygote : Int)

theorem continues_both :
    Forks.continues ⟨some outer, some inner⟩ zygote Copy.original =
        some (Continues.monitor []) ∧
      Forks.continues ⟨some outer, some inner⟩ zygote Copy.intermediate =
        some (Continues.ended 0) ∧
      Forks.continues ⟨some outer, some inner⟩ zygote Copy.grandchild =
        some Continues.tracer := by
  have houter := forkDontCare_of_child outer.property
  have hinner := forkDontCare_of_child inner.property
  have hends : Forks.intermediateEnds ⟨some outer, some inner⟩ = true := by
    simp only [Forks.intermediateEnds, Forks.leaving, forkResult, Option.map_some,
      hinner.right]
  have hafter : afterFork zygote outer.val = Continues.monitor [] := by
    have hpid := outer.property
    rw [afterFork, if_neg (by omega), if_neg (by omega)]
  refine ⟨?_, ?_, rfl⟩
  · simp only [Forks.continues, Forks.leaving, forkResult, Option.map_some,
      houter.left, hends, if_true, hafter]
  · simp only [Forks.continues, Forks.leaving, forkResult, Option.map_some,
      hinner.right]

theorem forkContract_both : ForkContract ⟨some outer, some inner⟩ zygote := by
  rcases continues_both outer inner zygote with
    ⟨horiginal, hintermediate, hgrandchild⟩
  constructor
  · apply oneMonitor_of ⟨_, horiginal⟩
    intro copy effects hne h
    cases copy with
    | original => exact hne rfl
    | intermediate =>
        rw [hintermediate] at h
        cases h
    | grandchild =>
        rw [hgrandchild] at h
        cases h
  · -- Only the grandchild becomes the tracer.
    have honly : forall copy,
        Forks.continues ⟨some outer, some inner⟩ zygote copy =
          some Continues.tracer -> copy = Copy.grandchild := by
      intro copy h
      cases copy with
      | original =>
          rw [horiginal] at h
          cases h
      | intermediate =>
          rw [hintermediate] at h
          cases h
      | grandchild => rfl
    intro copy copy' h h'
    exact (honly copy h).trans (honly copy' h').symm
  · intro value h
    have hexits := (forkDontCare_of_child inner.property).right
    simp only [Forks.leaving, forkResult, Option.map_some, hexits] at h
    cases h
  · intro h
    rcases h with h | h
    · cases h
    · cases h

end BothSucceed

/-!
## The inner fork fails
-/

/-- The intermediate copy returns -1 and goes on as a second monitor, which
kills the zygote; the original waits for it. -/
theorem continues_inner_failed (outer : ChildPid) (zygote : Int) :
    Forks.continues ⟨some outer, none⟩ zygote Copy.original =
        some (Continues.waiting outer.val) ∧
      Forks.continues ⟨some outer, none⟩ zygote Copy.intermediate =
        some (Continues.monitor [Effect.kill zygote SIGKILL]) := by
  constructor
  · have houter := (forkDontCare_of_child outer.property).left
    have hends : Forks.intermediateEnds ⟨some outer, none⟩ = false := rfl
    simp only [Forks.continues, Forks.leaving, forkResult, Option.map_some, houter,
      hends]
    rfl
  · rfl

/-- The contract holds unless the outer fork succeeds and the inner one fails. -/
theorem forkContract_iff (f : Forks) (zygote : Int) :
    ForkContract f zygote <-> ¬ (f.outer.isSome = true ∧ f.inner = none) := by
  rcases f with ⟨outer, inner⟩
  cases outer with
  | none =>
      apply iff_of_true (forkContract_outer_failed inner zygote)
      intro h
      cases h.left
  | some outer =>
      cases inner with
      | some inner =>
          apply iff_of_true (forkContract_both outer inner zygote)
          intro h
          cases h.right
      | none =>
          apply iff_of_false
          · intro h
            have hkilled := h.failed (Or.inr rfl)
            rw [(continues_inner_failed outer zygote).left] at hkilled
            cases hkilled
          · exact not_not_intro ⟨rfl, rfl⟩

theorem not_forkContract_inner_failed :
    ¬ ForkContract ⟨some ⟨400, by decide⟩, none⟩ 200 := by
  intro h
  have hone := (h.oneMonitor Copy.intermediate).mp ⟨_, rfl⟩
  cases hone

theorem original_kills_iff (f : Forks) (zygote : Int) :
    f.continues zygote Copy.original =
        some (Continues.monitor [Effect.kill zygote SIGKILL]) <->
      f.outer = none := by
  rcases f with ⟨outer, inner⟩
  cases outer with
  | none => exact iff_of_true rfl rfl
  | some outer =>
      apply iff_of_false
      · cases inner with
        | none =>
            rw [(continues_inner_failed outer zygote).left]
            intro h
            cases h
        | some inner =>
            rw [(continues_both outer inner zygote).left]
            intro h
            cases h
      · intro h
        cases h

/-- The handler of wait results is the original copy: `tracerFork` of a result
says whether the outer fork succeeds. -/
theorem detachZygote_kills_iff (m : Monitor) (abi : Abi) {e : WaitEvent}
    {f : Forks} (h : e.tracerFork = f.outer.isSome) :
    (detachZygote m abi e).effects.getLast? =
        some (Effect.kill e.pid SIGKILL) <->
      f.continues e.pid Copy.original =
        some (Continues.monitor [Effect.kill e.pid SIGKILL]) := by
  rw [original_kills_iff]
  unfold detachZygote
  rw [Monitor.effects_emit, List.getLast?_concat, h]
  cases f.outer with
  | none => exact iff_of_true rfl rfl
  | some outer =>
      apply iff_of_false
      · intro hno
        cases hno
      · intro hno
        cases hno

end InitMonitor
end ReZygisk
