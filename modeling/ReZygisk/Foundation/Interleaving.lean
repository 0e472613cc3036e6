import ReZygisk.Foundation.System

/-!
# Writers that share an output

Each writer has a list of jobs, and a job is a list of parts that its writer
puts on the common output one at a time.  Nothing orders the parts of different
writers.  When a part is put only while no other writer has begun a job without
ending it, the output is a sequence of whole jobs, in an order that is each
writer's own.
-/

namespace ReZygisk
namespace Foundation

/-- The jobs that a writer has not begun and the parts of its current job that
it has not put. -/
structure Writer (job part : Type) where
  waiting : List job
  unsent : List part

structure SharedOutput (writer job part : Type) where
  writers : writer -> Writer job part
  output : List part

namespace SharedOutput

variable {writer job part : Type} [DecidableEq writer]

def start (jobs : writer -> List job) : SharedOutput writer job part where
  writers p := ⟨jobs p, []⟩
  output := []

def advance (s : SharedOutput writer job part) (p : writer)
    (w : Writer job part) (put : List part) : SharedOutput writer job part where
  writers q := if q = p then w else s.writers q
  output := s.output ++ put

/-- The next part of a writer: one of its current job, or else the first one of
its next job. -/
def putNext (parts : job -> List part) (s : SharedOutput writer job part)
    (p : writer) : Option (SharedOutput writer job part) :=
  match (s.writers p).unsent, (s.writers p).waiting with
  | x :: rest, waiting => some (s.advance p ⟨waiting, rest⟩ [x])
  | [], j :: waiting =>
      some (s.advance p ⟨waiting, (parts j).drop 1⟩ ((parts j).take 1))
  | [], [] => none

def interleaving (parts : job -> List part) (jobs : writer -> List job) :
    TransitionSystem (SharedOutput writer job part) writer where
  init s := s = start jobs
  step := putNext parts

def Finished (s : SharedOutput writer job part) : Prop :=
  forall p, (s.writers p).waiting = [] ∧ (s.writers p).unsent = []

/-- No other writer is in the middle of a job. -/
def Undivided (s : SharedOutput writer job part) (p : writer) : Prop :=
  forall q, q ≠ p -> (s.writers q).unsent = []

/-- A sequence of jobs that holds each writer's jobs in that writer's order. -/
def Merges (order : List (writer × job)) (jobs : writer -> List job) : Prop :=
  forall p, (order.filter (fun c => c.1 = p)).map Prod.snd = jobs p

section Rules

variable {parts : job -> List part} {jobs : writer -> List job}
  {s s' : SharedOutput writer job part} {p : writer}

@[simp] theorem writers_advance_self (w : Writer job part) (put : List part) :
    (s.advance p w put).writers p = w :=
  if_pos rfl

theorem writers_advance_of_ne {q : writer} (hq : q ≠ p) (w : Writer job part)
    (put : List part) :
    (s.advance p w put).writers q = s.writers q :=
  if_neg hq

theorem putNext_cases (h : putNext parts s p = some s') :
    (exists x rest, (s.writers p).unsent = x :: rest ∧
      s' = s.advance p ⟨(s.writers p).waiting, rest⟩ [x]) ∨
    (exists j waiting, (s.writers p).unsent = [] ∧
      (s.writers p).waiting = j :: waiting ∧
      s' = s.advance p ⟨waiting, (parts j).drop 1⟩ ((parts j).take 1)) := by
  rw [putNext] at h
  split at h
  · rename_i x rest hunsent
    cases h
    exact Or.inl ⟨x, rest, hunsent, rfl⟩
  · rename_i j waiting hunsent hwaiting
    cases h
    exact Or.inr ⟨j, waiting, hunsent, hwaiting, rfl⟩
  · cases h

/-!
# Whole jobs

The invariant of undivided runs: the output and what the current writer has
still to put make up the jobs begun so far, one after the other.
-/

structure WholeJobs (parts : job -> List part) (jobs : writer -> List job)
    (order : List (writer × job)) (owner : writer)
    (s : SharedOutput writer job part) : Prop where
  begun : forall p,
    (order.filter (fun c => c.1 = p)).map Prod.snd ++ (s.writers p).waiting =
      jobs p
  idle : Undivided s owner
  whole : s.output ++ (s.writers owner).unsent =
    order.flatMap (fun c => parts c.2)

theorem wholeJobs_start (owner : writer) :
    WholeJobs parts jobs [] owner (start jobs) where
  begun _ := rfl
  idle _ _ := rfl
  whole := rfl

theorem Undivided.advance (h : Undivided s p) (w : Writer job part)
    (put : List part) : Undivided (s.advance p w put) p := by
  intro q hq
  rw [writers_advance_of_ne hq]
  exact h q hq

theorem WholeJobs.proceed {order : List (writer × job)} {owner : writer}
    {x : part} {rest : List part} (h : WholeJobs parts jobs order owner s)
    (hp : Undivided s p) (hunsent : (s.writers p).unsent = x :: rest) :
    WholeJobs parts jobs order p
      (s.advance p ⟨(s.writers p).waiting, rest⟩ [x]) := by
  have howner : p = owner := by
    refine Decidable.byContradiction (fun hne => ?_)
    rw [h.idle p hne] at hunsent
    cases hunsent
  refine ⟨?_, hp.advance _ _, ?_⟩
  · intro q
    rcases Decidable.em (q = p) with hq | hq
    · rw [hq, writers_advance_self]
      exact h.begun p
    · rw [writers_advance_of_ne hq]
      exact h.begun q
  · rw [writers_advance_self, ← h.whole, ← howner, hunsent]
    show s.output ++ [x] ++ rest = s.output ++ x :: rest
    rw [List.append_assoc, List.singleton_append]

theorem WholeJobs.begin {order : List (writer × job)} {owner : writer}
    {j : job} {waiting : List job} (h : WholeJobs parts jobs order owner s)
    (hp : Undivided s p) (hunsent : (s.writers p).unsent = [])
    (hwaiting : (s.writers p).waiting = j :: waiting) :
    WholeJobs parts jobs (order ++ [(p, j)]) p
      (s.advance p ⟨waiting, (parts j).drop 1⟩ ((parts j).take 1)) := by
  have hidle : (s.writers owner).unsent = [] := by
    rcases Decidable.em (owner = p) with howner | howner
    · rw [howner]
      exact hunsent
    · exact hp owner howner
  refine ⟨?_, hp.advance _ _, ?_⟩
  · intro q
    rcases Decidable.em (q = p) with hq | hq
    · rw [hq, writers_advance_self, ← h.begun p, hwaiting]
      simp
    · rw [writers_advance_of_ne hq, ← h.begun q]
      simp [Ne.symm hq]
  · have hwhole := h.whole
    rw [hidle, List.append_nil] at hwhole
    rw [writers_advance_self, List.flatMap_append, ← hwhole]
    show s.output ++ (parts j).take 1 ++ (parts j).drop 1 = _
    rw [List.append_assoc, List.take_append_drop]
    simp

theorem wholeJobs_step
    (h : exists order owner, WholeJobs parts jobs order owner s)
    (hp : Undivided s p) (hstep : (interleaving parts jobs).step s p = some s') :
    exists order owner, WholeJobs parts jobs order owner s' := by
  rcases h with ⟨order, owner, h⟩
  rcases putNext_cases hstep with
    ⟨x, rest, hunsent, hs'⟩ | ⟨j, waiting, hunsent, hwaiting, hs'⟩
  · rw [hs']
    exact ⟨order, p, h.proceed hp hunsent⟩
  · rw [hs']
    exact ⟨order ++ [(p, j)], p, h.begin hp hunsent hwaiting⟩

/-- A finished run that never divides a job puts whole jobs on the output. -/
theorem exists_order_of_undivided [Inhabited writer] {schedule : List writer}
    (hrun : (interleaving parts jobs).run (start jobs) schedule = some s)
    (hundivided : TransitionSystem.AlongRun (interleaving parts jobs) Undivided
      (start jobs) schedule)
    (hfinished : s.Finished) :
    exists order, Merges order jobs ∧
      s.output = order.flatMap (fun c => parts c.2) := by
  have hwhole : exists order owner, WholeJobs parts jobs order owner s :=
    TransitionSystem.run_invariant (fun _ _ _ h hp hstep => wholeJobs_step h hp hstep)
      ⟨[], default, wholeJobs_start default⟩ hundivided hrun
  rcases hwhole with ⟨order, owner, h⟩
  refine ⟨order, ?_, ?_⟩
  · intro p
    rw [← h.begun p, (hfinished p).left, List.append_nil]
  · rw [← h.whole, (hfinished owner).right, List.append_nil]

end Rules

end SharedOutput

end Foundation
end ReZygisk
