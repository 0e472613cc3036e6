import Mathlib.Data.List.Basic

/-!
# Unbounded loops

A `while (1)` body is a function that either asks for another pass or leaves
the loop.  Running it needs fuel; a loop returns when some amount of fuel is
enough.  Fuel is only a resource: more of it never changes a result, so the
value a loop returns is unique, and a pass that hands back its own input shows
that the loop never returns.
-/

namespace ReZygisk
namespace Foundation

inductive LoopStep (state result : Type) where
  | again (s : state)
  | done (r : result)

def iterate (body : state -> LoopStep state result) :
    Nat -> state -> Option result
  | 0, _ => none
  | fuel + 1, s =>
      match body s with
      | LoopStep.again s' => iterate body fuel s'
      | LoopStep.done r => some r

/-- The loop leaves with `r` after finitely many passes. -/
def LoopReturns (body : state -> LoopStep state result)
    (s : state) (r : result) : Prop :=
  exists fuel, iterate body fuel s = some r

/-!
# Returning loops

Each pass of the body can be peeled off a returning loop, and put back.
-/

section Returning

variable {body : state -> LoopStep state result} {s s' : state} {r r' : result}

theorem iterate_add {fuel : Nat} (h : iterate body fuel s = some r)
    (extra : Nat) :
    iterate body (fuel + extra) s = some r := by
  induction fuel generalizing s with
  | zero => cases h
  | succ fuel ih =>
      rw [Nat.succ_add]
      unfold iterate at h ⊢
      cases hbody : body s with
      | again s1 =>
          rw [hbody] at h
          exact ih h
      | done r1 =>
          rw [hbody] at h
          exact h

theorem loopReturns_unique (h : LoopReturns body s r)
    (h' : LoopReturns body s r') : r = r' := by
  rcases h with ⟨fuel, hfuel⟩
  rcases h' with ⟨fuel', hfuel'⟩
  have hsum := iterate_add hfuel fuel'
  have hsum' := iterate_add hfuel' fuel
  rw [Nat.add_comm fuel' fuel, hsum] at hsum'
  injection hsum'

theorem loopReturns_of_done (h : body s = LoopStep.done r) :
    LoopReturns body s r := by
  refine ⟨1, ?_⟩
  unfold iterate
  rw [h]

theorem loopReturns_again_iff (h : body s = LoopStep.again s') :
    LoopReturns body s r <-> LoopReturns body s' r := by
  constructor
  · intro h
    rcases h with ⟨fuel, hfuel⟩
    cases fuel with
    | zero => cases hfuel
    | succ fuel =>
        unfold iterate at hfuel
        rw [h] at hfuel
        exact ⟨fuel, hfuel⟩
  · intro h
    rcases h with ⟨fuel, hfuel⟩
    refine ⟨fuel + 1, ?_⟩
    unfold iterate
    rw [h]
    exact hfuel

theorem loopReturns_done_iff (h : body s = LoopStep.done r) :
    LoopReturns body s r' <-> r' = r := by
  constructor
  · intro h'
    exact loopReturns_unique h' (loopReturns_of_done h)
  · intro heq
    rw [heq]
    exact loopReturns_of_done h

/-- What holds of a state and is kept by every pass decides what a loop leaves
with. -/
theorem loopReturns_invariant {I : state -> Prop} {P : result -> Prop}
    (hpass : forall s, I s ->
      (exists s', body s = LoopStep.again s' ∧ I s') ∨
        exists r', body s = LoopStep.done r' ∧ P r')
    (hs : I s) (h : LoopReturns body s r) : P r := by
  rcases h with ⟨fuel, hfuel⟩
  induction fuel generalizing s with
  | zero => cases hfuel
  | succ fuel ih =>
      unfold iterate at hfuel
      rcases hpass s hs with ⟨s', hagain, hs'⟩ | ⟨r', hdone, hr'⟩
      · rw [hagain] at hfuel
        exact ih hs' hfuel
      · rw [hdone] at hfuel
        injection hfuel with hfuel
        rw [← hfuel]
        exact hr'

/-- A loop does not return `r` from states out of which every pass asks for
another one from such a state, or leaves with something else. -/
theorem not_loopReturns_of_invariant {I : state -> Prop}
    (hpass : forall s, I s ->
      (exists s', body s = LoopStep.again s' ∧ I s') ∨
        exists r', body s = LoopStep.done r' ∧ r' ≠ r)
    (hs : I s) : ¬ LoopReturns body s r := by
  intro h
  exact loopReturns_invariant hpass hs h rfl

/-- A pass that changes nothing is repeated for ever. -/
theorem not_loopReturns_of_again_self (h : body s = LoopStep.again s) :
    ¬ LoopReturns body s r := by
  apply not_loopReturns_of_invariant (I := fun s' => s' = s)
  · intro s' hs'
    rw [hs']
    exact Or.inl ⟨s, h, rfl⟩
  · rfl

end Returning

/-!
# Loops over a list

A loop that visits the elements in order and can fail keeps a property of the
elements visited so far; it fails at the first element that the body fails for.
-/

section Visits

variable {element : Type} {f : state -> element -> Option state} {l : List element}

theorem foldlM_prefix {I : List element -> state -> Prop} {s s' : state} (hstart : I [] s)
    (hstep : forall before a s s', a ∈ l -> I before s -> f s a = some s' ->
      I (before ++ [a]) s')
    (hrun : l.foldlM f s = some s') : I l s' := by
  have hrest : forall rest before s, before ++ rest = l -> I before s ->
      rest.foldlM f s = some s' -> I l s' := by
    intro rest
    induction rest with
    | nil =>
        intro before s hl hbefore hrun
        cases hrun
        rw [← hl, List.append_nil]
        exact hbefore
    | cons a rest ih =>
        intro before s hl hbefore hrun
        rw [List.foldlM_cons] at hrun
        rcases Option.bind_eq_some_iff.mp hrun with ⟨s1, hfirst, hrun⟩
        have hmem : a ∈ l := by
          rw [← hl]
          exact List.mem_append_right _ List.mem_cons_self
        apply ih (before ++ [a]) s1 _ (hstep before a s s1 hmem hbefore hfirst) hrun
        rw [List.append_assoc]
        exact hl
  exact hrest l [] s rfl hstart hrun

theorem foldlM_eq_none_iff {s : state} :
    l.foldlM f s = none <->
      exists before a after s', l = before ++ a :: after ∧ before.foldlM f s = some s' ∧
        f s' a = none := by
  induction l generalizing s with
  | nil =>
      constructor
      · intro h
        cases h
      · rintro ⟨before, a, after, s', hl, _⟩
        exact absurd hl.symm (by simp)
  | cons a rest ih =>
      rw [List.foldlM_cons]
      cases hfirst : f s a with
      | none =>
          constructor
          · intro _
            exact ⟨[], a, rest, s, rfl, rfl, hfirst⟩
          · intro _
            rfl
      | some s1 =>
          show rest.foldlM f s1 = none <-> _
          rw [ih]
          constructor
          · rintro ⟨before, b, after, s', hl, hbefore, hfail⟩
            refine ⟨a :: before, b, after, s', congrArg (List.cons a) hl, ?_, hfail⟩
            rw [List.foldlM_cons, hfirst]
            exact hbefore
          · rintro ⟨before, b, after, s', hl, hbefore, hfail⟩
            cases before with
            | nil =>
                cases hbefore
                cases hl
                rw [hfirst] at hfail
                cases hfail
            | cons a' before =>
                cases hl
                rw [List.foldlM_cons, hfirst] at hbefore
                exact ⟨before, b, after, s', rfl, hbefore, hfail⟩

end Visits

end Foundation
end ReZygisk
