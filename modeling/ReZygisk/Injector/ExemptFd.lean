import ReZygisk.Injector.SanitizeFds

/-!
# Exempted descriptors

`exempt_fd` promises a module that a descriptor stays open.  The promise is kept
by `sanitize_fds`, whose table of allowed descriptors ends at `MAX_FD_SIZE`.
-/

namespace ReZygisk
namespace Injector
namespace Specialization

section Modules

variable {s : Specialization} {fd : Nat}

theorem mem_moduleStep {op : ModuleOp} (hmem : fd ∈ s.fds)
    (hop : op ≠ ModuleOp.closes fd) : fd ∈ (s.moduleStep op).fds := by
  cases op with
  | opens fd' => exact Finset.mem_insert_of_mem hmem
  | closes fd' =>
      refine mem_close.mpr ⟨?_, hmem⟩
      intro heq
      rw [heq] at hop
      exact hop rfl
  | exempts fd' =>
      show fd ∈ (s.exemptFd fd').2.fds
      unfold exemptFd
      split
      · exact hmem
      · split
        · exact hmem
        · exact hmem

/-- What no module closes stays open. -/
theorem mem_runModules {ops : List ModuleOp} (hmem : fd ∈ s.fds)
    (hops : ModuleOp.closes fd ∉ ops) : fd ∈ (s.runModules ops).fds := by
  induction ops generalizing s with
  | nil => exact hmem
  | cons op rest ih =>
      rw [List.mem_cons, not_or] at hops
      exact ih (mem_moduleStep hmem (Ne.symm hops.left)) hops.right

end Modules

/-- Modules run only if `fork_pre` got a directory with a bit in the table. -/
theorem free_of_appPrepared {fds : Finset Nat} {fdsToIgnore : Option (List Int)}
    {logFd : Int} {ops : List ModuleOp} {s : Specialization}
    (h : (start fds fdsToIgnore).appPrepared ForkOutcome.child logFd ops = some s) :
    exists fd, fd < MAX_FD_SIZE ∧ fd ∉ fds := by
  refine ⟨lowestFree fds, ?_, lowestFree_not_mem fds⟩
  by_contra hlarge
  have hnone : forall s : Specialization, s.fds = fds -> s.recordFds = none := by
    intro s hs
    unfold recordFds
    rw [hs]
    exact if_neg hlarge
  simp only [appPrepared] at h
  rw [forkPre_child rfl, hnone _ rfl, Option.map_none] at h
  cases h

/-- Before the specialisation of an app, no exemption is refused. -/
theorem Prepared.exemptFd {atFork : Finset Nat} {exempted : List Int}
    {fdsToIgnore : Option (List Int)} {s : Specialization}
    (h : Prepared atFork true exempted fdsToIgnore s) (fd : Int) :
    (s.exemptFd fd).1 = true := by
  simp only [Specialization.exemptFd, h.post, h.skip, h.app, Bool.or_self,
    Bool.false_eq_true, if_false, Bool.true_eq_false]

theorem mem_passedArray {exempted : List Int} {fdsToIgnore : Option (List Int)} {fd : Int}
    (h : fd ∈ exempted) : fd ∈ (passedArray true exempted fdsToIgnore).getD [] := by
  have hsome : ¬ (exempted = [] ∨ true = false) := by
    intro hno
    rcases hno with hnil | hfalse
    · rw [hnil] at h
      cases h
    · cases hfalse
  unfold passedArray
  rw [if_neg hsome]
  exact List.mem_append_right _ h

/-- A module exempts an open descriptor that no module closes afterwards.  The
call returns true, and with the array allocated the descriptor is open when the
original method runs in the child exactly if the table has a bit for it. -/
theorem exempted_open_iff {fds : Finset Nat} {fdsToIgnore : Option (List Int)}
    {logFd : Int} {before after : List ModuleOp} {fd : Nat} {s : Specialization}
    (hcalled : (start fds fdsToIgnore).appPrepared ForkOutcome.child logFd before = some s)
    (hopen : fd ∈ s.fds) (hkept : ModuleOp.closes fd ∉ after) :
    (s.exemptFd fd).1 = true ∧
      exists s', (start fds fdsToIgnore).nativeForkAndSpecializePre ForkOutcome.child logFd
          (before ++ ModuleOp.exempts fd :: after) true = some s' ∧
        (fd ∈ s'.fds <-> fd < MAX_FD_SIZE) := by
  rcases appPrepared_eq fdsToIgnore logFd (free_of_appPrepared hcalled) with
    ⟨forked, hforked, hrun⟩
  have hs : forked.runModules before = s :=
    Option.some_inj.mp ((hrun before).symm.trans hcalled)
  have hprepared := prepared_runModules hforked before
  rw [hs] at hprepared
  let ops := before ++ ModuleOp.exempts fd :: after
  have hstill : fd ∈ (forked.runModules ops).fds := by
    have hsplit : forked.runModules ops =
        (s.moduleStep (ModuleOp.exempts fd)).runModules after := by
      unfold runModules at hs ⊢
      rw [List.foldl_append, hs, List.foldl_cons]
    rw [hsplit]
    exact mem_runModules (mem_moduleStep hopen (fun hno => by cases hno)) hkept
  have hexempted : (fd : Int) ∈ ops.filterMap ModuleOp.exemption :=
    List.mem_filterMap.mpr ⟨ModuleOp.exempts fd,
      List.mem_append_right before List.mem_cons_self, rfl⟩
  rcases sanitizeFds_app (prepared_runModules hforked ops) true with ⟨hsanitized, hpassed⟩
  refine ⟨hprepared.exemptFd fd, (forked.runModules ops).sanitizeFds true, ?_, ?_⟩
  · unfold nativeForkAndSpecializePre
    rw [hrun, Option.map_some]
  · rw [hsanitized fd, hpassed]
    constructor
    · intro h
      exact h.right.left
    · intro hsmall
      refine ⟨hstill, hsmall, Or.inr ?_⟩
      exact mem_passedArray (List.mem_append_right _ hexempted)

/-- The log, and a module that exempts its descriptor 5. -/
theorem exempted_open_five :
    exists s s', (start {0, 1, 2} (some [7])).appPrepared ForkOutcome.child 9
          [ModuleOp.opens 5] = some s ∧
      (s.exemptFd 5).1 = true ∧
      (start {0, 1, 2} (some [7])).nativeForkAndSpecializePre ForkOutcome.child 9
          [ModuleOp.opens 5, ModuleOp.exempts 5, ModuleOp.opens 6] true = some s' ∧
      5 ∈ s'.fds := by
  have hfree : exists fd, fd < MAX_FD_SIZE ∧ fd ∉ ({0, 1, 2} : Finset Nat) :=
    ⟨3, by decide, by decide⟩
  rcases appPrepared_eq (some [7]) 9 hfree with ⟨forked, _, hrun⟩
  have hopen : 5 ∈ (forked.runModules [ModuleOp.opens 5]).fds :=
    Finset.mem_insert_self 5 forked.fds
  have hkept : ModuleOp.closes 5 ∉ [ModuleOp.opens 6] := by simp
  rcases exempted_open_iff (hrun [ModuleOp.opens 5]) hopen hkept with
    ⟨hreturned, s', hafter, hiff⟩
  exact ⟨_, s', hrun _, hreturned, hafter, hiff.mpr (by decide)⟩

/-- A module duplicates a descriptor to 1500 and exempts it: the call returns
true, and the descriptor is closed. -/
theorem exempted_closed_1500 :
    exists s s', (start {0, 1, 2} none).appPrepared ForkOutcome.child (-1)
          [ModuleOp.opens 1500] = some s ∧
      1500 ∈ s.fds ∧ (s.exemptFd 1500).1 = true ∧
      (start {0, 1, 2} none).nativeForkAndSpecializePre ForkOutcome.child (-1)
          [ModuleOp.opens 1500, ModuleOp.exempts 1500] true = some s' ∧
      1500 ∉ s'.fds := by
  have hfree : exists fd, fd < MAX_FD_SIZE ∧ fd ∉ ({0, 1, 2} : Finset Nat) :=
    ⟨3, by decide, by decide⟩
  rcases appPrepared_eq none (-1) hfree with ⟨forked, hforked, hrun⟩
  have hprepared := prepared_runModules hforked [ModuleOp.opens 1500]
  rcases sanitizeFds_app (prepared_runModules hforked
    [ModuleOp.opens 1500, ModuleOp.exempts 1500]) true with ⟨hsanitized, _⟩
  refine ⟨forked.runModules [ModuleOp.opens 1500],
    (forked.runModules [ModuleOp.opens 1500, ModuleOp.exempts 1500]).sanitizeFds true,
    hrun _, Finset.mem_insert_self 1500 forked.fds, hprepared.exemptFd 1500, ?_, ?_⟩
  · unfold nativeForkAndSpecializePre
    rw [hrun, Option.map_some]
  · intro hno
    have hsmall := ((hsanitized 1500).mp hno).right.left
    revert hsmall
    decide

end Specialization
end Injector
end ReZygisk
