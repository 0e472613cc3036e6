import Mathlib.Data.List.Basic

/-!
# Programs that can fail and stop

A program runs in a world and ends with a value, with an error that its caller
sees, or by stopping the whole process: a panic that nothing catches, or an
exit.  The rules here say when a sequence of programs stops in a given way, so
that a panic is traced to the step that raises it.
-/

namespace ReZygisk
namespace Foundation

inductive Stop where
  | panicked
  | exited (code : Nat)
  deriving DecidableEq

inductive Outcome (world error result : Type) where
  | ok (a : result) (w : world)
  | err (e : error) (w : world)
  | stopped (how : Stop)

def Prog (world error result : Type) : Type :=
  world -> Outcome world error result

namespace Prog

variable {world error α β : Type}

def ret (a : α) : Prog world error α :=
  fun w => Outcome.ok a w

def andThen (p : Prog world error α) (f : α -> Prog world error β) :
    Prog world error β :=
  fun w =>
    match p w with
    | Outcome.ok a w' => f a w'
    | Outcome.err e w' => Outcome.err e w'
    | Outcome.stopped how => Outcome.stopped how

instance : Monad (Prog world error) where
  pure := ret
  bind := andThen

def fail (e : error) : Prog world error α :=
  fun w => Outcome.err e w

def stop (how : Stop) : Prog world error α :=
  fun _ => Outcome.stopped how

def modifyWorld (f : world -> world) : Prog world error Unit :=
  fun w => Outcome.ok () (f w)

def attempt (p : Prog world error α) : Prog world error (Option α) :=
  fun w =>
    match p w with
    | Outcome.ok a w' => Outcome.ok (some a) w'
    | Outcome.err _ w' => Outcome.ok none w'
    | Outcome.stopped how => Outcome.stopped how

def forEach (f : α -> Prog world error Unit) : List α -> Prog world error Unit
  | [] => pure ()
  | a :: rest => do
      f a
      forEach f rest

theorem bind_run (p : Prog world error α) (f : α -> Prog world error β)
    (w : world) :
    (p >>= f) w =
      match p w with
      | Outcome.ok a w' => f a w'
      | Outcome.err e w' => Outcome.err e w'
      | Outcome.stopped how => Outcome.stopped how :=
  rfl

theorem bind_of_ok {p : Prog world error α} {f : α -> Prog world error β}
    {w w' : world} {a : α} (h : p w = Outcome.ok a w') :
    (p >>= f) w = f a w' := by
  rw [bind_run, h]

theorem bind_of_err {p : Prog world error α} {f : α -> Prog world error β}
    {w w' : world} {e : error} (h : p w = Outcome.err e w') :
    (p >>= f) w = Outcome.err e w' := by
  rw [bind_run, h]

theorem exists_of_bind_ok {p : Prog world error α} {f : α -> Prog world error β}
    {w w' : world} {b : β} (h : (p >>= f) w = Outcome.ok b w') :
    exists a w1, p w = Outcome.ok a w1 ∧ f a w1 = Outcome.ok b w' := by
  rw [bind_run] at h
  cases hp : p w with
  | ok a w1 =>
      rw [hp] at h
      exact ⟨a, w1, rfl, h⟩
  | err e w1 =>
      rw [hp] at h
      cases h
  | stopped how =>
      rw [hp] at h
      cases h

theorem err_of_bind {p : Prog world error α} {f : α -> Prog world error β}
    {w w' : world} {e : error} (h : (p >>= f) w = Outcome.err e w') :
    p w = Outcome.err e w' ∨ exists a w1, p w = Outcome.ok a w1 ∧ f a w1 = Outcome.err e w' := by
  rw [bind_run] at h
  cases hp : p w with
  | ok a w1 =>
      rw [hp] at h
      exact Or.inr ⟨a, w1, rfl, h⟩
  | err e1 w1 =>
      rw [hp] at h
      cases h
      exact Or.inl rfl
  | stopped how =>
      rw [hp] at h
      cases h

/-- What follows a step matters only for the values and worlds it yields. -/
theorem bind_congr {p : Prog world error α} {f g : α -> Prog world error β}
    {w : world} (h : forall a w', p w = Outcome.ok a w' -> f a w' = g a w') :
    (p >>= f) w = (p >>= g) w := by
  rw [bind_run, bind_run]
  cases hp : p w with
  | ok a w' => exact h a w' hp
  | err e w' => rfl
  | stopped how => rfl

/-!
# Stopping
-/

def Stops (how : Stop) (p : Prog world error α) (w : world) : Prop :=
  p w = Outcome.stopped how

/-- Whatever the world, the program does not stop in this way. -/
def Never (how : Stop) (p : Prog world error α) : Prop :=
  forall w, ¬ Stops how p w

section Stopping

variable {how : Stop} {p : Prog world error α} {f : α -> Prog world error β}
  {w : world}

theorem stops_bind_iff :
    Stops how (p >>= f) w <->
      Stops how p w ∨
        exists a w', p w = Outcome.ok a w' ∧ Stops how (f a) w' := by
  unfold Stops
  rw [bind_run]
  cases p w with
  | ok a w' => simp
  | err e w' => simp
  | stopped how' => simp

theorem never_pure (how : Stop) (a : α) :
    Never how (pure a : Prog world error α) := by
  intro w h
  cases h

theorem never_fail (how : Stop) (e : error) :
    Never how (fail e : Prog world error α) := by
  intro w h
  cases h

theorem never_modifyWorld (how : Stop) (f : world -> world) :
    Never how (modifyWorld f : Prog world error Unit) := by
  intro w h
  cases h

theorem never_stop {how' : Stop} (h : how' ≠ how) :
    Never how (stop how' : Prog world error α) := by
  intro w hstop
  cases hstop
  exact h rfl

theorem never_bind (hp : Never how p) (hf : forall a, Never how (f a)) :
    Never how (p >>= f) := by
  intro w h
  rcases stops_bind_iff.mp h with hstop | ⟨a, w', _, hstop⟩
  · exact hp w hstop
  · exact hf a w' hstop

theorem never_attempt (hp : Never how p) : Never how (attempt p) := by
  intro w h
  have hw := hp w
  simp only [Stops, attempt] at h hw
  split at h
  · cases h
  · cases h
  · rename_i how' hrun
    cases h
    exact hw hrun

theorem never_forEach {f : α -> Prog world error Unit}
    (hf : forall a, Never how (f a)) (as : List α) :
    Never how (forEach f as) := by
  induction as with
  | nil => exact never_pure how ()
  | cons a rest ih => exact never_bind (hf a) (fun _ => ih)

theorem stops_bind_of_never (hp : Never how p) :
    Stops how (p >>= f) w <->
      exists a w', p w = Outcome.ok a w' ∧ Stops how (f a) w' := by
  rw [stops_bind_iff]
  exact or_iff_right (hp w)

theorem stops_bind_left (hf : forall a, Never how (f a)) :
    Stops how (p >>= f) w <-> Stops how p w := by
  rw [stops_bind_iff]
  constructor
  · intro h
    rcases h with h | ⟨a, w', _, h⟩
    · exact h
    · exact absurd h (hf a w')
  · exact Or.inl

end Stopping

/-!
# Frames
-/

/-- Where the program ends with a value or an error, this part of the world is
as it was. -/
def Keeps {part : Type} (f : world -> part) (p : Prog world error α) : Prop :=
  forall w, (forall a w', p w = Outcome.ok a w' -> f w' = f w) ∧
    forall e w', p w = Outcome.err e w' -> f w' = f w

section Frames

variable {part : Type} {f : world -> part}

theorem keeps_pure (a : α) : Keeps f (pure a : Prog world error α) := by
  intro w
  constructor
  · intro a' w' h
    cases h
    rfl
  · intro e w' h
    cases h

theorem keeps_fail (e : error) : Keeps f (fail e : Prog world error α) := by
  intro w
  constructor
  · intro a w' h
    cases h
  · intro e' w' h
    cases h
    rfl

theorem keeps_stop (how : Stop) : Keeps f (stop how : Prog world error α) := by
  intro w
  constructor
  · intro a w' h
    cases h
  · intro e w' h
    cases h

theorem keeps_modifyWorld {g : world -> world} (h : forall w, f (g w) = f w) :
    Keeps f (modifyWorld g : Prog world error Unit) := by
  intro w
  constructor
  · intro a w' hrun
    cases hrun
    exact h w
  · intro e w' hrun
    cases hrun

theorem keeps_bind {p : Prog world error α} {q : α -> Prog world error β}
    (hp : Keeps f p) (hq : forall a, Keeps f (q a)) : Keeps f (p >>= q) := by
  intro w
  cases hrun : p w with
  | ok a w1 =>
      have hfirst := (hp w).left a w1 hrun
      rw [bind_of_ok hrun]
      constructor
      · intro b w' h
        exact ((hq a w1).left b w' h).trans hfirst
      · intro e w' h
        exact ((hq a w1).right e w' h).trans hfirst
  | err e w1 =>
      rw [bind_of_err hrun]
      constructor
      · intro b w' h
        cases h
      · intro e' w' h
        cases h
        exact (hp w).right e w1 hrun
  | stopped how =>
      rw [bind_run, hrun]
      constructor
      · intro b w' h
        cases h
      · intro e w' h
        cases h

theorem keeps_attempt {p : Prog world error α} (hp : Keeps f p) :
    Keeps f (attempt p) := by
  intro w
  unfold attempt
  cases hrun : p w with
  | ok a w1 =>
      constructor
      · intro a' w' h
        cases h
        exact (hp w).left a w1 hrun
      · intro e w' h
        cases h
  | err e w1 =>
      constructor
      · intro a w' h
        cases h
        exact (hp w).right e w1 hrun
      · intro e' w' h
        cases h
  | stopped how =>
      constructor
      · intro a w' h
        cases h
      · intro e w' h
        cases h

theorem keeps_forEach {p : α -> Prog world error Unit}
    (hp : forall a, Keeps f (p a)) (as : List α) : Keeps f (forEach p as) := by
  induction as with
  | nil => exact keeps_pure ()
  | cons a rest ih => exact keeps_bind (hp a) (fun _ => ih)

end Frames

end Prog

end Foundation
end ReZygisk
