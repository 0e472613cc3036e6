import Mathlib.Data.Finset.Card
import Mathlib.Data.Finset.Filter
import Mathlib.Data.List.Count

/-!
# Forests with keys

The nodes of a forest have keys, and those between two nodes of one key have
that key too.  A call at a key takes a topmost node of that key away with all
that hangs from it.  What a sequence of calls takes away does not depend on its
order: a node goes if its key is called more often than there are other nodes
that can go first, and a node that is not beneath another one that goes was
called that often.
-/

namespace ReZygisk
namespace Foundation

/-- `hangs x y` says that `y` is on the way from `x` to its root. -/
structure Forest (node key : Type) where
  keyOf : node -> key
  hangs : node -> node -> Prop
  trans : forall {x y z}, hangs x y -> hangs y z -> hangs x z
  irrefl : forall x, ¬ hangs x x
  comparable : forall {x y z}, hangs x y -> hangs x z ->
    y = z ∨ hangs y z ∨ hangs z y
  convex : forall {x y z}, hangs x y -> hangs y z -> keyOf x = keyOf z ->
    keyOf y = keyOf z

namespace Forest

variable {node key : Type} (F : Forest node key)

/-- A node of the key from which no other node of the key hangs. -/
structure Topmost (A : Finset node) (c : key) (y : node) : Prop where
  mem : y ∈ A
  at_key : F.keyOf y = c
  top : forall z, z ∈ A -> F.keyOf z = c -> ¬ F.hangs z y

/-- One call at a key. -/
inductive Detach (c : key) (A B : Finset node) : Prop where
  | nothing (hnone : forall y, y ∈ A -> F.keyOf y ≠ c) (hsame : B = A)
  | picked (y : node) (htop : Topmost F A c y)
      (hleft : forall z, z ∈ B <-> z ∈ A ∧ z ≠ y ∧ ¬ F.hangs z y)

inductive Detaches : List key -> Finset node -> Finset node -> Prop where
  | nil (A : Finset node) : Detaches [] A A
  | cons {c : key} {calls : List key} {A B C : Finset node} :
      Detach F c A B -> Detaches calls B C -> Detaches (c :: calls) A C

open Classical in
/-- The nodes of the key of `y` that can go before it. -/
noncomputable def before (A : Finset node) (y : node) : Finset node :=
  A.filter (fun z => F.keyOf z = F.keyOf y ∧ z ≠ y ∧ ¬ F.hangs y z)

variable {F} {A B C : Finset node} {c : key} {calls : List key} {x y z : node}

theorem mem_before : z ∈ F.before A y <->
    z ∈ A ∧ F.keyOf z = F.keyOf y ∧ z ≠ y ∧ ¬ F.hangs y z := by
  classical
  exact Finset.mem_filter

theorem Detach.subset (h : Detach F c A B) : B ⊆ A := by
  intro z hz
  cases h with
  | nothing _ hsame =>
      rw [hsame] at hz
      exact hz
  | picked y _ hleft => exact ((hleft z).mp hz).left

theorem Detaches.subset (h : Detaches F calls A B) : B ⊆ A := by
  induction h with
  | nil A => exact Finset.Subset.refl A
  | cons hfirst _ ih => exact Finset.Subset.trans ih hfirst.subset

theorem before_subset (h : B ⊆ A) : F.before B y ⊆ F.before A y := by
  intro z hz
  rcases mem_before.mp hz with ⟨hmem, hrest⟩
  exact mem_before.mpr ⟨h hmem, hrest⟩

/-- What a node that stays hangs from stays. -/
theorem Detach.mem_of_hangs (h : Detach F c A B) (hx : x ∈ B) (hhangs : F.hangs x y)
    (hy : y ∈ A) : y ∈ B := by
  cases h with
  | nothing _ hsame =>
      rw [hsame]
      exact hy
  | picked y' _ hleft =>
      rcases (hleft x).mp hx with ⟨_, hne, hfree⟩
      refine (hleft y).mpr ⟨hy, ?_, ?_⟩
      · intro heq
        rw [heq] at hhangs
        exact hfree hhangs
      · intro hno
        exact hfree (F.trans hhangs hno)

theorem Detaches.mem_of_hangs (h : Detaches F calls A B) (hx : x ∈ B)
    (hhangs : F.hangs x y) (hy : y ∈ A) : y ∈ B := by
  induction h with
  | nil A => exact hy
  | cons hfirst hrest ih =>
      exact ih hx (hfirst.mem_of_hangs (hrest.subset hx) hhangs hy)

/-!
# Nodes that go
-/

/-- A call at the key of a node takes it or one of those that can go before. -/
theorem card_before_lt (h : Detach F (F.keyOf y) A B) (hmem : y ∈ B) :
    (F.before B y).card < (F.before A y).card := by
  have hy : y ∈ A := h.subset hmem
  cases h with
  | nothing hnone _ => exact absurd rfl (hnone y hy)
  | picked y' htop hleft =>
      have hne : y ≠ y' := ((hleft y).mp hmem).right.left
      have hgoes : y' ∈ F.before A y :=
        mem_before.mpr ⟨htop.mem, htop.at_key, hne.symm, htop.top y hy rfl⟩
      have hgone : y' ∉ F.before B y := by
        intro hno
        exact ((hleft y').mp (mem_before.mp hno).left).right.left rfl
      apply Finset.card_lt_card
      refine ⟨before_subset (fun z hz => ((hleft z).mp hz).left), ?_⟩
      intro hsub
      exact hgone (hsub hgoes)

/-- A node goes if its key is called often enough. -/
theorem Detaches.not_mem (h : Detaches F calls A B) [BEq key] [LawfulBEq key]
    (hcalls : (F.before A y).card < calls.count (F.keyOf y)) : y ∉ B := by
  induction h with
  | nil A => exact absurd hcalls (Nat.not_lt_zero _)
  | @cons c calls A B C hfirst hrest ih =>
      intro hmem
      have hmid : y ∈ B := hrest.subset hmem
      apply ih _ hmem
      by_cases hkey : c = F.keyOf y
      · rw [hkey] at hfirst hcalls
        rw [List.count_cons_self] at hcalls
        have hless := card_before_lt hfirst hmid
        omega
      · rw [List.count_cons_of_ne hkey] at hcalls
        exact Nat.lt_of_le_of_lt
          (Finset.card_le_card (before_subset hfirst.subset)) hcalls

/-!
# Why nodes go
-/

/-- All that can go before a node hangs from it. -/
def Covers (F : Forest node key) (A : Finset node) (y : node) : Prop :=
  forall z, z ∈ F.before A y -> F.hangs z y

theorem Covers.subset (h : Covers F A y) (hsub : B ⊆ A) : Covers F B y :=
  fun z hz => h z (before_subset hsub hz)

/-- Of the nodes that cover one that stays, a call takes at most one, and only a
call at their key. -/
theorem card_before_le (h : Detach F c A B) [BEq key] [LawfulBEq key]
    (hcovers : Covers F A y) (hmem : y ∈ B) :
    (F.before A y).card ≤ (F.before B y).card + [c].count (F.keyOf y) := by
  classical
  cases h with
  | nothing _ hsame =>
      rw [hsame]
      exact Nat.le_add_right _ _
  | picked y' htop hleft =>
      rcases (hleft y).mp hmem with ⟨hy, hne, hfree⟩
      by_cases hkey : c = F.keyOf y
      · rw [hkey, List.count_cons_self, List.count_nil, Nat.zero_add]
        apply Nat.le_trans _ (Finset.card_insert_le y' _)
        apply Finset.card_le_card
        intro z hz
        rcases mem_before.mp hz with ⟨hzA, hzkey, hzrest⟩
        rw [Finset.mem_insert]
        by_cases heq : z = y'
        · exact Or.inl heq
        · refine Or.inr (mem_before.mpr ⟨(hleft z).mpr ⟨hzA, heq, ?_⟩, hzkey, hzrest⟩)
          exact htop.top z hzA (hzkey.trans hkey.symm)
      · -- A node that goes with another key's node does not leave `y` behind.
        apply Nat.le_trans _ (Nat.le_add_right _ _)
        apply Finset.card_le_card
        intro z hz
        rcases mem_before.mp hz with ⟨hzA, hzkey, hzrest⟩
        have hzy : F.hangs z y := hcovers z hz
        refine mem_before.mpr ⟨(hleft z).mpr ⟨hzA, ?_, ?_⟩, hzkey, hzrest⟩
        · intro heq
          rw [← heq] at htop
          exact hkey (htop.at_key.symm.trans hzkey)
        · intro hzy'
          rcases F.comparable hzy' hzy with heq | hdown | hup
          · exact hne heq.symm
          · have hbetween := F.convex hzy' hdown hzkey
            exact hkey (htop.at_key.symm.trans hbetween)
          · exact hfree hup

theorem Detaches.card_before_le (h : Detaches F calls A B) [BEq key] [LawfulBEq key]
    (hcovers : Covers F A y) (hmem : y ∈ B) :
    (F.before A y).card ≤ (F.before B y).card + calls.count (F.keyOf y) := by
  induction h with
  | nil A => exact Nat.le_add_right _ _
  | @cons c calls A B C hfirst hrest ih =>
      have hstep := Forest.card_before_le hfirst hcovers (hrest.subset hmem)
      have hothers := ih (hcovers.subset hfirst.subset) hmem
      rw [List.count_cons]
      rw [List.count_singleton] at hstep
      omega

/-- A node that went was picked by a call or hung from one that was. -/
theorem Detaches.exists_picked (h : Detaches F calls A B) (hmem : x ∈ A)
    (hgone : x ∉ B) :
    exists (first rest : List key) (M : Finset node) (y : node),
      calls = first ++ F.keyOf y :: rest ∧ Detaches F first A M ∧
        Topmost F M (F.keyOf y) y ∧ (x = y ∨ F.hangs x y) ∧ y ∉ B := by
  induction h with
  | nil A => exact absurd hmem hgone
  | @cons c calls A B C hfirst hrest ih =>
      by_cases hmid : x ∈ B
      · rcases ih hmid hgone with ⟨first, rest, M, y, hcalls, hrun, htop, hx, hy⟩
        refine ⟨c :: first, rest, M, y, ?_, Detaches.cons hfirst hrun, htop, hx, hy⟩
        rw [hcalls, List.cons_append]
      · cases hfirst with
        | nothing _ hsame =>
            rw [hsame] at hmid
            exact absurd hmem hmid
        | picked y htop hleft =>
            have hx : x = y ∨ F.hangs x y := by
              by_contra hno
              rw [not_or] at hno
              exact hmid ((hleft x).mpr ⟨hmem, hno⟩)
            have hy : y ∉ C := by
              intro hno
              exact ((hleft y).mp (hrest.subset hno)).right.left rfl
            refine ⟨[], calls, A, y, ?_, Detaches.nil A, ?_, hx, hy⟩
            · rw [htop.at_key, List.nil_append]
            · rw [htop.at_key]
              exact htop

/-- Whatever goes is, or hangs from, a node that goes and whose key is called;
if that node is covered by all that can go before it, it is called often
enough. -/
theorem Detaches.exists_root (h : Detaches F calls A B) [BEq key] [LawfulBEq key]
    (hmem : x ∈ A) (hgone : x ∉ B) :
    exists y, y ∈ A ∧ y ∉ B ∧ (x = y ∨ F.hangs x y) ∧ F.keyOf y ∈ calls ∧
      (Covers F A y -> (F.before A y).card < calls.count (F.keyOf y)) := by
  rcases h.exists_picked hmem hgone with
    ⟨first, rest, M, y, hcalls, hrun, htop, hx, hy⟩
  refine ⟨y, hrun.subset htop.mem, hy, hx, ?_, ?_⟩
  · rw [hcalls]
    exact List.mem_append_right _ List.mem_cons_self
  · intro hcovers
    have hle := hrun.card_before_le hcovers htop.mem
    have hnone : F.before M y = ∅ := by
      rw [Finset.eq_empty_iff_forall_notMem]
      intro z hz
      have hz' := mem_before.mp hz
      exact htop.top z hz'.left hz'.right.left
        (hcovers z (before_subset hrun.subset hz))
    rw [hnone, Finset.card_empty, Nat.zero_add] at hle
    rw [hcalls, List.count_append, List.count_cons_self]
    omega

end Forest

end Foundation
end ReZygisk
