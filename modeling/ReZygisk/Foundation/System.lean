import Mathlib.Data.List.Basic

/-!
# Transition systems

A component is a set of initial states and a partial step function: a step that
is not defined ends the run.  Invariants are proved once for a step and hold of
every reachable state; a property of single steps is lifted to every step of a
run.
-/

namespace ReZygisk
namespace Foundation

structure TransitionSystem (state event : Type) where
  init : state -> Prop
  step : state -> event -> Option state

namespace TransitionSystem

variable {state event : Type} {T : TransitionSystem state event}

inductive Reachable (T : TransitionSystem state event) : state -> Prop where
  | init {s : state} : T.init s -> Reachable T s
  | step {s s' : state} {e : event} :
      Reachable T s -> T.step s e = some s' -> Reachable T s'

theorem reachable_invariant {inv : state -> Prop}
    (hinit : forall s, T.init s -> inv s)
    (hstep : forall s e s', inv s -> T.step s e = some s' -> inv s')
    {s : state} (h : Reachable T s) : inv s := by
  induction h with
  | init hs => exact hinit _ hs
  | step _ hs ih => exact hstep _ _ _ ih hs

/-- `P` holds of every step that a list of events makes from `s`. -/
def AlongRun (T : TransitionSystem state event) (P : state -> event -> Prop) :
    state -> List event -> Prop
  | _, [] => True
  | s, e :: rest => P s e ∧ forall s', T.step s e = some s' -> AlongRun T P s' rest

/-- Two properties that agree on every step from a state with an invariant
agree along every run that starts there. -/
theorem alongRun_iff {I : state -> Prop} {P Q : state -> event -> Prop}
    (hstep : forall s e s', I s -> T.step s e = some s' -> I s')
    {events : List event}
    (hiff : forall s e, I s -> e ∈ events -> (P s e <-> Q s e))
    {s : state} (hs : I s) :
    AlongRun T P s events <-> AlongRun T Q s events := by
  induction events generalizing s with
  | nil => rfl
  | cons e rest ih =>
      have htail : forall s', T.step s e = some s' ->
          (AlongRun T P s' rest <-> AlongRun T Q s' rest) := by
        intro s' hs'
        exact ih (fun t e' ht he' => hiff t e' ht (List.mem_cons_of_mem e he'))
          (hstep s e s' hs hs')
      constructor
      · intro h
        refine ⟨(hiff s e hs List.mem_cons_self).mp h.left, ?_⟩
        intro s' hs'
        exact (htail s' hs').mp (h.right s' hs')
      · intro h
        refine ⟨(hiff s e hs List.mem_cons_self).mpr h.left, ?_⟩
        intro s' hs'
        exact (htail s' hs').mpr (h.right s' hs')

/-- Two properties that agree on every step from a state with an invariant,
which the steps with the first of them preserve, agree along every run. -/
theorem alongRun_iff_of_step {I : state -> Prop} {P Q : state -> event -> Prop}
    (hstep : forall s e s', I s -> P s e -> T.step s e = some s' -> I s')
    {events : List event}
    (hiff : forall s e, I s -> (P s e <-> Q s e))
    {s : state} (hs : I s) :
    AlongRun T P s events <-> AlongRun T Q s events := by
  induction events generalizing s with
  | nil => rfl
  | cons e rest ih =>
      constructor
      · intro h
        refine ⟨(hiff s e hs).mp h.left, ?_⟩
        intro s' hs'
        exact (ih (hstep s e s' hs h.left hs')).mp (h.right s' hs')
      · intro h
        have hP := (hiff s e hs).mpr h.left
        refine ⟨hP, ?_⟩
        intro s' hs'
        exact (ih (hstep s e s' hs hP hs')).mpr (h.right s' hs')

theorem alongRun_of_forall {P : state -> event -> Prop} {events : List event}
    (h : forall s e, e ∈ events -> P s e) (s : state) : AlongRun T P s events := by
  induction events generalizing s with
  | nil => trivial
  | cons e rest ih =>
      refine ⟨h s e List.mem_cons_self, ?_⟩
      intro s' _
      exact ih (fun t e' he' => h t e' (List.mem_cons_of_mem e he')) s'

theorem alongRun_true (s : state) (events : List event) :
    AlongRun T (fun _ _ => True) s events :=
  alongRun_of_forall (fun _ _ _ => trivial) s

def run (T : TransitionSystem state event) : state -> List event -> Option state
  | s, [] => some s
  | s, e :: rest => (T.step s e).bind (fun s' => run T s' rest)

theorem run_append (s : state) (events events' : List event) :
    T.run s (events ++ events') =
      (T.run s events).bind (fun s' => T.run s' events') := by
  induction events generalizing s with
  | nil => rfl
  | cons e rest ih =>
      rw [List.cons_append, run, run, Option.bind_assoc]
      apply Option.bind_congr
      intro s1 _
      exact ih s1

/-- A property that the steps with `P` preserve holds where a run of such steps
ends. -/
theorem run_invariant {I : state -> Prop} {P : state -> event -> Prop}
    (hstep : forall s e s', I s -> P s e -> T.step s e = some s' -> I s')
    {events : List event} {s s' : state} (hs : I s)
    (halong : AlongRun T P s events) (hrun : T.run s events = some s') :
    I s' := by
  induction events generalizing s with
  | nil =>
      cases hrun
      exact hs
  | cons e rest ih =>
      rcases Option.bind_eq_some_iff.mp hrun with ⟨s1, hs1, hrest⟩
      exact ih (hstep s e s1 hs halong.left hs1) (halong.right s1 hs1) hrest

/-- A relation that every pair of matching steps keeps relates a run to the run
of the matching events. -/
theorem run_simulation {state' event' : Type}
    {U : TransitionSystem state' event'} {R : state -> state' -> Prop}
    {f : event -> event'}
    (hstep : forall s t e s', R s t -> T.step s e = some s' ->
      exists t', U.step t (f e) = some t' ∧ R s' t')
    {events : List event} {s s' : state} {t : state'} (hR : R s t)
    (hrun : T.run s events = some s') :
    exists t', U.run t (events.map f) = some t' ∧ R s' t' := by
  induction events generalizing s t with
  | nil =>
      cases hrun
      exact ⟨t, rfl, hR⟩
  | cons e rest ih =>
      rcases Option.bind_eq_some_iff.mp hrun with ⟨s1, hs1, hrest⟩
      rcases hstep s t e s1 hR hs1 with ⟨t1, ht1, hR1⟩
      rcases ih hR1 hrest with ⟨t', ht', hR'⟩
      exact ⟨t', Option.bind_eq_some_iff.mpr ⟨t1, ht1, ht'⟩, hR'⟩

/-- The value of a history variable after a run: `f` updates it at each step,
from the state before the step. -/
def history {ghost : Type} (T : TransitionSystem state event)
    (f : ghost -> state -> event -> ghost) : ghost -> state -> List event -> ghost
  | g, _, [] => g
  | g, s, e :: rest =>
      match T.step s e with
      | none => g
      | some s' => history T f (f g s e) s' rest

/-- An invariant of the state and a history variable together. -/
theorem history_invariant {ghost : Type} {f : ghost -> state -> event -> ghost}
    {I : ghost -> state -> Prop} {P : state -> event -> Prop}
    (hstep : forall g s e s', I g s -> P s e -> T.step s e = some s' ->
      I (f g s e) s')
    {events : List event} {g : ghost} {s s' : state} (hs : I g s)
    (halong : AlongRun T P s events) (hrun : T.run s events = some s') :
    I (T.history f g s events) s' := by
  induction events generalizing g s with
  | nil =>
      cases hrun
      exact hs
  | cons e rest ih =>
      rcases Option.bind_eq_some_iff.mp hrun with ⟨s1, hs1, hrest⟩
      have hnext := ih (hstep g s e s1 hs halong.left hs1) (halong.right s1 hs1)
        hrest
      rw [history, hs1]
      exact hnext

end TransitionSystem

end Foundation
end ReZygisk
