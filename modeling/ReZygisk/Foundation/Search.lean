import Mathlib.Algebra.Group.Nat.Even
import Mathlib.Data.List.Infix
import Mathlib.Data.Nat.Find

/-!
# A search that does not look back

A search for a pattern that counts how much of it has been matched, and on a
mismatch starts over with the symbol after it.  Where it stops the pattern ends;
but if it was in the middle of a match when an occurrence began, it has missed
that occurrence.  For a pattern whose first symbol does not come again, when that
happens depends on the incomplete beginnings right before the occurrence.
-/

namespace ReZygisk
namespace Foundation

section Search

variable {symbol : Type} [DecidableEq symbol] (p : List symbol)

/-- The number of symbols matched, after one more symbol. -/
def advance (i : Nat) (c : symbol) : Nat :=
  if p[i]? = some c then i + 1 else 0

/-- The text up to the end of the first match from state `i`, and the rest. -/
def cut : Nat -> List symbol -> List symbol × List symbol
  | _, [] => ([], [])
  | i, c :: text =>
      if advance p i c = p.length then ([c], text)
      else (c :: (cut (advance p i c) text).1, (cut (advance p i c) text).2)

def matched (i : Nat) (text : List symbol) : Nat :=
  text.foldl (advance p) i

/-- The pattern is found after `x`, not earlier, and is followed by `y`. -/
def FirstOccurrence (text x y : List symbol) : Prop :=
  text = x ++ p ++ y ∧ forall x' y', text = x' ++ p ++ y' -> x.length ≤ x'.length

/-- A part of the pattern that a match may begin with, but not all of it. -/
structure Beginning (b : List symbol) : Prop where
  nonempty : b ≠ []
  begins : b <+: p
  incomplete : b ≠ p

/-- The text ends in exactly `k` incomplete beginnings, one right after the
other. -/
inductive EndsIn : Nat -> List symbol -> Prop where
  | none {x : List symbol} (h : forall b, Beginning p b -> ¬ b <:+ x) : EndsIn 0 x
  | more {k : Nat} {x b : List symbol} (hb : Beginning p b) (h : EndsIn k x) :
      EndsIn (k + 1) (x ++ b)

/-!
# What a match is
-/

variable {p}

/-- What has been matched stands at the end of what has been read. -/
theorem suffix_advance {i : Nat} {z : List symbol} (h : p.take i <:+ z) (c : symbol) :
    p.take (advance p i c) <:+ z ++ [c] := by
  unfold advance
  split
  · rename_i hc
    rw [List.take_add_one, hc]
    exact List.suffix_append_self_iff.mpr h
  · exact List.nil_suffix

theorem suffix_matched {i : Nat} {z : List symbol} (h : p.take i <:+ z) (text : List symbol) :
    p.take (matched p i text) <:+ z ++ text := by
  induction text generalizing i z with
  | nil =>
      rw [List.append_nil]
      exact h
  | cons c text ih =>
      have hnext := ih (suffix_advance h c)
      rw [List.append_assoc, List.singleton_append] at hnext
      exact hnext

theorem matched_append (i : Nat) (text text' : List symbol) :
    matched p i (text ++ text') = matched p (matched p i text) text' :=
  List.foldl_append

/-- Nothing is lost, added or moved. -/
theorem cut_append (i : Nat) (text : List symbol) :
    (cut p i text).1 ++ (cut p i text).2 = text := by
  induction text generalizing i with
  | nil => rfl
  | cons c text ih =>
      rw [cut]
      split
      · rfl
      · exact congrArg (List.cons c) (ih (advance p i c))

/-- If there is a rest, the pattern ends right before it. -/
theorem suffix_of_cut {i : Nat} {z : List symbol} (h : p.take i <:+ z) {text : List symbol}
    (hrest : (cut p i text).2 ≠ []) : p <:+ z ++ (cut p i text).1 := by
  induction text generalizing i z with
  | nil => exact absurd rfl hrest
  | cons c text ih =>
      have hnext := suffix_advance h c
      rw [cut] at hrest ⊢
      split
      · rename_i hfull
        rw [hfull, List.take_length] at hnext
        exact hnext
      · rename_i hpart
        rw [if_neg hpart] at hrest
        have hfound := ih hnext hrest
        rw [List.append_assoc, List.singleton_append] at hfound
        exact hfound

theorem cut_rest_shorter (i : Nat) {text : List symbol} (h : text ≠ []) :
    (cut p i text).2.length < text.length := by
  cases text with
  | nil => exact absurd rfl h
  | cons c text =>
      have hlength := congrArg List.length (cut_append (p := p) i (c :: text))
      rw [List.length_append] at hlength
      rw [cut] at hlength ⊢
      split at hlength
      · rename_i hfull
        rw [if_pos hfull]
        exact Nat.lt_succ_self _
      · rename_i hpart
        rw [if_neg hpart]
        rw [List.length_cons] at hlength
        omega

/-- The search reads over a text without the pattern. -/
theorem cut_of_not_infix {i : Nat} {z x : List symbol} (h : p.take i <:+ z)
    (hnot : ¬ p <:+: z ++ x) (text : List symbol) :
    cut p i (x ++ text) =
      (x ++ (cut p (matched p i x) text).1, (cut p (matched p i x) text).2) := by
  induction x generalizing i z with
  | nil => rfl
  | cons c x ih =>
      have hnext := suffix_advance h c
      have hpart : advance p i c ≠ p.length := by
        intro hfull
        rw [hfull, List.take_length] at hnext
        apply hnot
        have hsplit : z ++ c :: x = (z ++ [c]) ++ x := by simp
        rw [hsplit]
        exact hnext.isInfix.trans (List.prefix_append _ x).isInfix
      have hrest : ¬ p <:+: (z ++ [c]) ++ x := by
        rw [List.append_assoc, List.singleton_append]
        exact hnot
      rw [List.cons_append, cut, if_neg hpart, ih hnext hrest]
      rfl

/-- At the start of an occurrence a search that is in no match finds it. -/
theorem cut_pattern {i : Nat} (hi : i < p.length) (y : List symbol) :
    cut p i (p.drop i ++ y) = (p.drop i, y) := by
  induction hn : p.length - i generalizing i with
  | zero => omega
  | succ n ih =>
      have hstep : advance p i p[i] = i + 1 := by
        unfold advance
        rw [if_pos (List.getElem?_eq_getElem hi)]
      rw [List.drop_eq_getElem_cons hi, List.cons_append, cut, hstep]
      by_cases hlast : i + 1 = p.length
      · rw [if_pos hlast, hlast, List.drop_length]
        rfl
      · rw [if_neg hlast, ih (by omega) (by omega)]

/-!
# Patterns whose first symbol does not come again
-/

section Head

variable {a : symbol} {q : List symbol} (hq : a ∉ q)

include hq

/-- In the middle of a match, the first symbol is a mismatch. -/
theorem advance_head {i : Nat} (hi : i ≠ 0) : advance (a :: q) i a = 0 := by
  unfold advance
  cases i with
  | zero => exact absurd rfl hi
  | succ i =>
      rw [List.getElem?_cons_succ, if_neg]
      intro hmem
      exact hq (List.mem_of_getElem? hmem)

omit hq in
/-- Outside of a match, only the first symbol begins one. -/
theorem matched_zero {text : List symbol} (h : a ∉ text) :
    matched (a :: q) 0 text = 0 := by
  induction text with
  | nil => rfl
  | cons c text ih =>
      rw [List.mem_cons, not_or] at h
      rcases h with ⟨hc, htext⟩
      have hstep : advance (a :: q) 0 c = 0 := by
        unfold advance
        rw [List.getElem?_cons_zero, if_neg]
        intro hsome
        injection hsome with hsome
        exact hc hsome
      change matched (a :: q) (advance (a :: q) 0 c) text = 0
      rw [hstep]
      exact ih htext

omit hq in
theorem matched_beginning {b : List symbol} (h : b <+: a :: q) :
    matched (a :: q) 0 b = b.length := by
  induction b using List.reverseRecOn with
  | nil => rfl
  | append_singleton b c ih =>
      have hc : (a :: q)[b.length]? = some c := by
        rcases h with ⟨rest, hrest⟩
        rw [← hrest]
        simp
      rw [matched_append, ih ((List.prefix_append b [c]).trans h), List.length_append]
      change advance (a :: q) b.length c = _
      unfold advance
      rw [if_pos hc]
      rfl

/-- A beginning that meets a match ends it and begins none. -/
theorem matched_missed {i : Nat} (hi : i ≠ 0) {b : List symbol}
    (hb : a :: b <+: a :: q) : matched (a :: q) i (a :: b) = 0 := by
  have hfree : a ∉ b := by
    intro hmem
    exact hq ((List.prefix_cons_inj a |>.mp hb).subset hmem)
  change matched (a :: q) (advance (a :: q) i a) b = 0
  rw [advance_head hq hi]
  exact matched_zero hfree

/-- After a text without the pattern the search is in no match exactly if the
number of incomplete beginnings at its end is even. -/
theorem matched_eq_zero_iff {k : Nat} {x : List symbol} (h : EndsIn (a :: q) k x)
    (hnot : ¬ a :: q <:+: x) : matched (a :: q) 0 x = 0 <-> Even k := by
  induction h with
  | @none x hnone =>
      -- what is matched would be a beginning at the end
      have hsuffix : (a :: q).take (matched (a :: q) 0 x) <:+ x :=
        suffix_matched (i := 0) (z := []) List.nil_suffix x
      have hzero : matched (a :: q) 0 x = 0 := by
        by_contra hpos
        have hne : (a :: q).take (matched (a :: q) 0 x) ≠ a :: q := by
          intro hfull
          rw [hfull] at hsuffix
          exact hnot hsuffix.isInfix
        apply hnone _ ⟨?_, List.take_prefix _ _, hne⟩ hsuffix
        intro hnil
        rcases List.take_eq_nil_iff.mp hnil with hno | hno
        · exact hpos hno
        · cases hno
      simp [hzero]
  | @more k x b hb _ ih =>
      have hstate := ih (fun hno => hnot (hno.trans (List.prefix_append x b).isInfix))
      rw [matched_append, Nat.even_add_one]
      rcases List.exists_cons_of_ne_nil hb.nonempty with ⟨c, b', hcons⟩
      have hc : c = a := by
        have hbegins := hb.begins
        rw [hcons] at hbegins
        exact (List.cons_prefix_cons.mp hbegins).left
      rw [hc] at hcons
      by_cases heven : Even k
      · rw [hstate.mpr heven, matched_beginning hb.begins, hcons]
        simp [heven]
      · have hin : matched (a :: q) 0 x ≠ 0 := fun hno => heven (hstate.mp hno)
        have hbegins := hb.begins
        rw [hcons] at hbegins
        rw [hcons, matched_missed hq hin hbegins]
        simp [heven]

end Head

omit [DecidableEq symbol] in
theorem exists_endsIn (p x : List symbol) : exists k, EndsIn p k x := by
  induction hn : x.length using Nat.strong_induction_on generalizing x with
  | _ n ih =>
      rcases Classical.em (exists b, Beginning p b ∧ b <:+ x) with hsome | hnone
      · rcases hsome with ⟨b, hb, z, hz⟩
        have hlength : z.length < n := by
          have hpos := List.length_pos_iff.mpr hb.nonempty
          rw [← hn, ← hz, List.length_append]
          omega
        rcases ih z.length hlength z rfl with ⟨k, hk⟩
        rw [← hz]
        exact ⟨k + 1, EndsIn.more hb hk⟩
      · exact ⟨0, EndsIn.none (fun b hb hno => hnone ⟨b, hb, hno⟩)⟩

omit [DecidableEq symbol] in
theorem FirstOccurrence.not_infix {text x y : List symbol} (hp : p ≠ [])
    (h : FirstOccurrence p text x y) : ¬ p <:+: x := by
  intro hno
  rcases hno with ⟨x1, x2, hx⟩
  have hearlier := h.right x1 (x2 ++ p ++ y) (by rw [h.left, ← hx]; simp)
  have hlength := congrArg List.length hx
  have hpos := List.length_pos_iff.mpr hp
  simp only [List.length_append] at hlength
  omega

omit [DecidableEq symbol] in
theorem exists_firstOccurrence {text : List symbol} (h : p <:+: text) :
    exists x y, FirstOccurrence p text x y := by
  classical
  have hlength : exists n, exists x y, text = x ++ p ++ y ∧ x.length = n := by
    rcases h with ⟨x, y, heq⟩
    exact ⟨x.length, x, y, heq.symm, rfl⟩
  rcases Nat.find_spec hlength with ⟨x, y, heq, hx⟩
  refine ⟨x, y, heq, ?_⟩
  intro x' y' heq'
  rw [hx]
  exact Nat.find_min' hlength ⟨x', y', heq', rfl⟩

omit [DecidableEq symbol] in
theorem FirstOccurrence.unique {text x y x' y' : List symbol}
    (h : FirstOccurrence p text x y) (h' : FirstOccurrence p text x' y') : y = y' := by
  have hlength : x.length = x'.length :=
    Nat.le_antisymm (h.right x' y' h'.left) (h'.right x y h.left)
  have heq : (x ++ p) ++ y = (x' ++ p) ++ y' := h.left.symm.trans h'.left
  exact (List.append_inj heq (by rw [List.length_append, List.length_append, hlength])).right

/-!
# Where the search stops
-/

theorem cut_of_no_occurrence {text : List symbol} (h : ¬ p <:+: text) :
    (cut p 0 text).2 = [] := by
  by_contra hrest
  have hfound : p <:+ (cut p 0 text).1 :=
    suffix_of_cut (i := 0) (z := []) List.nil_suffix hrest
  apply h
  rw [← cut_append (p := p) 0 text]
  exact hfound.isInfix.trans (List.prefix_append _ _).isInfix

/-- The first occurrence is where the search stops, unless something follows it
and the number of incomplete beginnings right before it is odd. -/
theorem cut_first_iff {a : symbol} {q text x y : List symbol} (hq : a ∉ q) {k : Nat}
    (hfirst : FirstOccurrence (a :: q) text x y) (hends : EndsIn (a :: q) k x) :
    (cut (a :: q) 0 text).2 = y <-> (y ≠ [] -> Even k) := by
  have hnot : ¬ a :: q <:+: x := hfirst.not_infix (List.cons_ne_nil a q)
  have hcut : (cut (a :: q) 0 text).2 =
      (cut (a :: q) (matched (a :: q) 0 x) (a :: q ++ y)).2 := by
    rw [hfirst.left, List.append_assoc,
      cut_of_not_infix (i := 0) (z := []) List.nil_suffix hnot]
  rw [hcut, ← matched_eq_zero_iff hq hends hnot]
  by_cases hzero : matched (a :: q) 0 x = 0
  · have hfound := cut_pattern (p := a :: q) (i := 0) (Nat.succ_pos _) y
    rw [List.drop_zero] at hfound
    rw [hzero, hfound]
    simp
  · -- the occurrence is read over, and the search goes on behind it
    have hmissed : (cut (a :: q) (matched (a :: q) 0 x) (a :: q ++ y)).2 =
        (cut (a :: q) 0 y).2 := by
      have hstart : (a :: q).take 0 <:+ [] := List.nil_suffix
      have hskip : ¬ a :: q <:+: [] ++ q := by
        intro hno
        exact Nat.not_succ_le_self _ hno.length_le
      have hstep := advance_head hq hzero
      have hpart : advance (a :: q) (matched (a :: q) 0 x) a ≠ (a :: q).length := by
        rw [hstep]
        exact (Nat.succ_ne_zero _).symm
      rw [List.cons_append, cut, if_neg hpart, hstep, cut_of_not_infix hstart hskip,
        matched_zero hq]
    rw [hmissed]
    constructor
    · intro hsame hy
      have hshorter := cut_rest_shorter (p := a :: q) 0 hy
      rw [hsame] at hshorter
      exact absurd hshorter (Nat.lt_irrefl _)
    · intro hempty
      have hy : y = [] := by
        by_contra hy
        exact hzero (hempty hy)
      rw [hy]
      rfl

end Search

end Foundation
end ReZygisk
