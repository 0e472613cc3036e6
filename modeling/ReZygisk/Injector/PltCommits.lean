import Mathlib.Data.List.Nodup
import ReZygisk.Injector.Unload

/-!
# What commits do to the imports

Whatever its requests come to, a commit leaves every import that leads into the
injector on the list of hooks, with the function it replaced known.  A commit
that takes all listed hooks back and succeeds leaves no such import.
-/

namespace ReZygisk
namespace Injector

open Foundation
open Tracer

namespace Unload

/-!
# Requests of others
-/

section Commits

variable {lib : Library} {entries : List (SlotKey × HookVar)} {p : Process}
variable {slots : SlotKey -> Nat} {old : HookVar -> Nat}

/-- The address is one of the injector's functions, listed for this import, and
the function it replaced is known. -/
def Known (lib : Library) (entries : List (SlotKey × HookVar)) (old : HookVar -> Nat)
    (key : SlotKey) (addr : Nat) : Prop :=
  exists v, addr = lib.newFunc v ∧ old v ≠ 0 ∧ (key, v) ∈ entries

/-- The imports that lead into the library are all listed. -/
structure Listed (lib : Library) (entries : List (SlotKey × HookVar)) (slots : SlotKey -> Nat)
    (old : HookVar -> Nat) : Prop where
  known : forall key, lib.Owns (slots key) -> Known lib entries old key (slots key)
  slots_ne : forall key, slots key ≠ 0
  old_outside : forall v, ¬ lib.Owns (old v)

/-- A request of somebody else, or one that takes a hook back. -/
structure Foreign (lib : Library) (entries : List (SlotKey × HookVar)) (old : HookVar -> Nat)
    (r : Request) : Prop where
  backup : r.backup = none
  callback_ne : r.callback ≠ 0
  known : lib.Owns r.callback -> Known lib entries old r.key r.callback

theorem Library.owns_newFunc (lib : Library) (v : HookVar) : lib.Owns (lib.newFunc v) :=
  lib.inside v

theorem Library.not_owns_zero (lib : Library) : ¬ lib.Owns 0 := by
  intro h
  exact Nat.not_le_of_lt lib.start_pos h.left

theorem Library.newFunc_ne (lib : Library) (v : HookVar) : lib.newFunc v ≠ 0 := by
  intro h
  have howns := lib.owns_newFunc v
  rw [h] at howns
  exact lib.not_owns_zero howns

theorem commitRequests_append (rs rs' : List Request) (oks : List Bool) (p : Process) :
    commitRequests (rs ++ rs') oks p =
      ((commitRequests rs oks p).1 &&
          (commitRequests rs' (oks.drop rs.length) (commitRequests rs oks p).2).1,
        (commitRequests rs' (oks.drop rs.length) (commitRequests rs oks p).2).2) := by
  induction rs generalizing oks p with
  | nil => rfl
  | cons r rs ih =>
      have hdrop : oks.drop (r :: rs).length = oks.tail.drop rs.length := by
        cases oks <;> simp
      rw [hdrop, List.cons_append]
      simp only [commitRequests, ih, Bool.and_assoc]

/-- What no commit changes. -/
structure SameRest (p p' : Process) : Prop where
  hookList : p'.hookList = p.hookList
  requests : p'.requests = p.requests
  globals : p'.globals = p.globals
  loaded : p'.loaded = p.loaded

theorem sameRest_patch (p : Process) (r : Request) (ok : Bool) : SameRest p (patch p r ok) := by
  cases ok with
  | false => exact ⟨rfl, rfl, rfl, rfl⟩
  | true => exact ⟨rfl, rfl, rfl, rfl⟩

theorem SameRest.trans {p p' p'' : Process} (h : SameRest p p') (h' : SameRest p' p'') :
    SameRest p p'' :=
  ⟨h'.hookList.trans h.hookList, h'.requests.trans h.requests, h'.globals.trans h.globals,
    h'.loaded.trans h.loaded⟩

theorem sameRest_commitRequests (rs : List Request) (oks : List Bool) (p : Process) :
    SameRest p (commitRequests rs oks p).2 := by
  induction rs generalizing oks p with
  | nil => exact ⟨rfl, rfl, rfl, rfl⟩
  | cons r rs ih => exact (sameRest_patch p r (oks.headD false)).trans (ih oks.tail _)

/-- Only the imports change, when no request asks for the function replaced. -/
structure OnlySlots (p p' : Process) : Prop extends SameRest p p' where
  old : p'.old = p.old

theorem old_patch {r : Request} (h : r.backup = none) (p : Process) (ok : Bool) :
    (patch p r ok).old = p.old := by
  unfold patch
  rw [h]
  cases ok with
  | false => rfl
  | true => rfl

theorem onlySlots_commitRequests {rs : List Request} (h : forall r, r ∈ rs -> r.backup = none)
    (oks : List Bool) (p : Process) : OnlySlots p (commitRequests rs oks p).2 := by
  refine ⟨sameRest_commitRequests rs oks p, ?_⟩
  induction rs generalizing oks p with
  | nil => rfl
  | cons r rs ih =>
      have hrest := ih (fun r' hr' => h r' (List.mem_cons_of_mem r hr')) oks.tail
        (patch p r (oks.headD false))
      exact hrest.trans (old_patch (h r List.mem_cons_self) p (oks.headD false))

theorem listed_patch {r : Request} (h : Listed lib entries p.slots p.old)
    (hr : Foreign lib entries p.old r) (ok : Bool) :
    Listed lib entries (patch p r ok).slots (patch p r ok).old := by
  rw [old_patch hr.backup p ok]
  cases ok with
  | false => exact h
  | true =>
      constructor
      · intro key hkey
        show Known lib entries p.old key (if key = r.key then r.callback else p.slots key)
        replace hkey : lib.Owns (if key = r.key then r.callback else p.slots key) := hkey
        split at hkey
        · next heq =>
            rw [if_pos heq, heq]
            exact hr.known hkey
        · next hne =>
            rw [if_neg hne]
            exact h.known key hkey
      · intro key
        show (if key = r.key then r.callback else p.slots key) ≠ 0
        split
        · exact hr.callback_ne
        · exact h.slots_ne key
      · exact h.old_outside

theorem listed_commitRequests {rs : List Request} (h : Listed lib entries p.slots p.old)
    (hrs : forall r, r ∈ rs -> Foreign lib entries p.old r) (oks : List Bool) :
    Listed lib entries (commitRequests rs oks p).2.slots (commitRequests rs oks p).2.old := by
  induction rs generalizing oks p with
  | nil => exact h
  | cons r rs ih =>
      have hr := hrs r List.mem_cons_self
      have hold := old_patch hr.backup p (oks.headD false)
      apply ih (listed_patch h hr (oks.headD false))
      intro r' hr'
      rw [hold]
      exact hrs r' (List.mem_cons_of_mem r hr')

/-- After a commit that succeeded, an import of a request leads where one of the
requests for it leads. -/
theorem slots_of_committed {rs : List Request} {oks : List Bool} {key : SlotKey}
    (hok : (commitRequests rs oks p).1 = true) :
    (exists r, r ∈ rs ∧ r.key = key ∧ (commitRequests rs oks p).2.slots key = r.callback) ∨
      (forall r, r ∈ rs -> r.key ≠ key) ∧ (commitRequests rs oks p).2.slots key = p.slots key := by
  induction rs generalizing oks p with
  | nil =>
      refine Or.inr ⟨?_, rfl⟩
      intro r hr
      cases hr
  | cons r rs ih =>
      replace hok : (oks.headD false &&
          (commitRequests rs oks.tail (patch p r (oks.headD false))).1) = true := hok
      rw [Bool.and_eq_true] at hok
      rcases hok with ⟨hfirst, hrest⟩
      rcases ih hrest with ⟨r', hr', hkey, hslot⟩ | ⟨hnone, hslot⟩
      · exact Or.inl ⟨r', List.mem_cons_of_mem r hr', hkey, hslot⟩
      · have hpatched : (patch p r (oks.headD false)).slots key =
            if key = r.key then r.callback else p.slots key := by
          rw [hfirst]
          rfl
        rw [hpatched] at hslot
        rcases eq_or_ne key r.key with heq | hne
        · rw [if_pos heq] at hslot
          exact Or.inl ⟨r, List.mem_cons_self, heq.symm, hslot⟩
        · rw [if_neg hne] at hslot
          refine Or.inr ⟨?_, hslot⟩
          intro r' hr'
          rcases List.mem_cons.mp hr' with heq | hmem
          · rw [heq]
            exact hne.symm
          · exact hnone r' hmem

/-!
# The injector's own hooks
-/

def ownRequest (lib : Library) (entry : SlotKey × HookVar) : Request :=
  { key := entry.1, callback := lib.newFunc entry.2, backup := some entry.2 }

theorem patch_own_old (p : Process) (entry : SlotKey × HookVar) (ok : Bool) (v : HookVar) :
    (patch p (ownRequest lib entry) ok).old v =
      if v = entry.2 then (if ok then p.slots entry.1 else 0) else p.old v := by
  cases ok with
  | false => rfl
  | true => rfl

theorem patch_own_slots (p : Process) (entry : SlotKey × HookVar) (ok : Bool) (key : SlotKey) :
    (patch p (ownRequest lib entry) ok).slots key =
      if ok = true ∧ key = entry.1 then lib.newFunc entry.2 else p.slots key := by
  cases ok with
  | false => simp [patch]
  | true =>
      rcases eq_or_ne key entry.1 with heq | hne
      · simp [patch, ownRequest, heq]
      · simp [patch, ownRequest, hne]

/-- A hook that is new to the list spoils nothing that is known. -/
theorem known_patch_own {entry : SlotKey × HookVar} {key : SlotKey} {addr : Nat}
    (hfresh : forall key', (key', entry.2) ∉ entries) (ok : Bool)
    (h : Known lib entries p.old key addr) :
    Known lib (entries ++ [entry]) (patch p (ownRequest lib entry) ok).old key addr := by
  rcases h with ⟨v, haddr, hold, hmem⟩
  have hne : v ≠ entry.2 := by
    intro heq
    rw [heq] at hmem
    exact hfresh key hmem
  refine ⟨v, haddr, ?_, List.mem_append_left [entry] hmem⟩
  rw [patch_own_old, if_neg hne]
  exact hold

theorem listed_patch_own {entry : SlotKey × HookVar} (h : Listed lib entries p.slots p.old)
    (hfresh : forall key, (key, entry.2) ∉ entries) (hfree : ¬ lib.Owns (p.slots entry.1))
    (ok : Bool) :
    Listed lib (entries ++ [entry]) (patch p (ownRequest lib entry) ok).slots
      (patch p (ownRequest lib entry) ok).old := by
  constructor
  · intro key hkey
    rw [patch_own_slots] at hkey ⊢
    split
    · next hown =>
        refine ⟨entry.2, rfl, ?_, ?_⟩
        · rw [patch_own_old, if_pos rfl, if_pos hown.left]
          exact h.slots_ne entry.1
        · rw [hown.right]
          exact List.mem_append_right entries List.mem_cons_self
    · next hother =>
        rw [if_neg hother] at hkey
        exact known_patch_own hfresh ok (h.known key hkey)
  · intro key
    rw [patch_own_slots]
    split
    · exact lib.newFunc_ne entry.2
    · exact h.slots_ne key
  · intro v
    rw [patch_own_old]
    split
    · split
      · exact hfree
      · exact lib.not_owns_zero
    · exact h.old_outside v

/-- New hooks of different imports, committed one after the other. -/
theorem listed_commit_own {own : List (SlotKey × HookVar)} (h : Listed lib entries p.slots p.old)
    (hvars : (own.map Prod.snd).Nodup) (hkeys : (own.map Prod.fst).Nodup)
    (hfresh : forall entry, entry ∈ own -> forall key, (key, entry.2) ∉ entries)
    (hfree : forall entry, entry ∈ own -> ¬ lib.Owns (p.slots entry.1)) (oks : List Bool) :
    Listed lib (entries ++ own) (commitRequests (own.map (ownRequest lib)) oks p).2.slots
      (commitRequests (own.map (ownRequest lib)) oks p).2.old := by
  induction own generalizing entries p oks with
  | nil =>
      rw [List.append_nil]
      exact h
  | cons entry own ih =>
      rw [List.map_cons, List.nodup_cons] at hvars hkeys
      have hfirst := listed_patch_own h (hfresh entry List.mem_cons_self)
        (hfree entry List.mem_cons_self) (oks.headD false)
      rw [List.append_cons]
      apply ih hfirst hvars.right hkeys.right
      · intro entry' hentry' key hmem
        rcases List.mem_append.mp hmem with hold | hnew
        · exact hfresh entry' (List.mem_cons_of_mem entry hentry') key hold
        · have heq : entry'.2 = entry.2 := by
            rw [← List.mem_singleton.mp hnew]
          apply hvars.left
          rw [← heq]
          exact List.mem_map_of_mem hentry'
      · intro entry' hentry'
        have hother : entry'.1 ≠ entry.1 := by
          intro heq
          apply hkeys.left
          rw [← heq]
          exact List.mem_map_of_mem hentry'
        rw [patch_own_slots, if_neg (fun hboth => hother hboth.right)]
        exact hfree entry' (List.mem_cons_of_mem entry hentry')

/-- The function that an own hook replaced is the one its import led to. -/
theorem old_commit_own {own : List (SlotKey × HookVar)} (hvars : (own.map Prod.snd).Nodup)
    (hkeys : (own.map Prod.fst).Nodup) (oks : List Bool) (p : Process) (v : HookVar) :
    (commitRequests (own.map (ownRequest lib)) oks p).2.old v = p.old v ∨
      (commitRequests (own.map (ownRequest lib)) oks p).2.old v = 0 ∨
      exists key, (key, v) ∈ own ∧
        (commitRequests (own.map (ownRequest lib)) oks p).2.old v = p.slots key := by
  induction own generalizing oks p with
  | nil => exact Or.inl rfl
  | cons entry own ih =>
      rw [List.map_cons, List.nodup_cons] at hvars hkeys
      have hother : forall key, (key, v) ∈ own ->
          (patch p (ownRequest lib entry) (oks.headD false)).slots key = p.slots key := by
        intro key hmem
        rw [patch_own_slots, if_neg]
        rintro ⟨_, heq⟩
        apply hkeys.left
        rw [← heq]
        exact List.mem_map_of_mem hmem
      rcases ih hvars.right hkeys.right oks.tail (patch p (ownRequest lib entry) (oks.headD false))
        with hkept | hzero | ⟨key, hmem, hslot⟩
      · rw [patch_own_old] at hkept
        split at hkept
        · next heq =>
            split at hkept
            · refine Or.inr (Or.inr ⟨entry.1, ?_, hkept⟩)
              rw [heq]
              exact List.mem_cons_self
            · exact Or.inr (Or.inl hkept)
        · exact Or.inl hkept
      · exact Or.inr (Or.inl hzero)
      · rw [hother key hmem] at hslot
        exact Or.inr (Or.inr ⟨key, List.mem_cons_of_mem entry hmem, hslot⟩)

/-- The part of `RegisterHook` that depends on the file. -/
def SlotKey.Valid (key : SlotKey) : Prop :=
  key.dev ≠ 0 ∧ key.inode ≠ 0

theorem HookVar.symbol_ne (v : HookVar) : v.symbol ≠ [] := by
  cases v <;> decide

theorem HookVar.symbol_injective {v v' : HookVar} (h : v.symbol = v'.symbol) : v = v' := by
  cases v <;> cases v' <;> first | rfl | exact absurd h (by decide)

theorem registerHook_of_valid {r : Request} (hvalid : r.key.Valid) (hsymbol : r.key.symbol ≠ [])
    (hcallback : r.callback ≠ 0) (p : Process) :
    registerHook p r = (true, { p with requests := p.requests ++ [r] }) := by
  unfold registerHook
  rw [if_neg]
  simp [hvalid.left, hvalid.right, hsymbol, hcallback]

theorem hookRegister_of_valid {entry : SlotKey × HookVar} (hvalid : entry.1.Valid)
    (hsymbol : entry.1.symbol = entry.2.symbol) (hlive : p.hookList = HookList.live entries) :
    hookRegister lib p entry =
      { p with
        requests := p.requests ++ [ownRequest lib entry]
        hookList := HookList.live (entries ++ [entry]) } := by
  have hregister : registerHook p (ownRequest lib entry) =
      (true, { p with requests := p.requests ++ [ownRequest lib entry] }) := by
    apply registerHook_of_valid hvalid
    · show entry.1.symbol ≠ []
      rw [hsymbol]
      exact entry.2.symbol_ne
    · exact lib.newFunc_ne entry.2
  unfold hookRegister
  rw [show ({ key := entry.1, callback := lib.newFunc entry.2, backup := some entry.2 } : Request) =
    ownRequest lib entry from rfl, hregister]
  simp only [hlive]

theorem hookRegister_of_not_valid {entry : SlotKey × HookVar} (hvalid : ¬ entry.1.Valid)
    (p : Process) : hookRegister lib p entry = p := by
  have hrefused : entry.1.dev = 0 ∨ entry.1.inode = 0 := by
    by_contra hboth
    exact hvalid (not_or.mp hboth)
  unfold hookRegister registerHook
  rw [if_pos]
  rcases hrefused with hdev | hinode
  · exact Or.inl hdev
  · exact Or.inr (Or.inl hinode)

theorem findLibrary_symbol (maps : List MapInfo) (suffix : String) (v : HookVar) :
    (findLibrary maps suffix v).symbol = v.symbol := by
  unfold findLibrary
  split <;> rfl

/-- Whether the library was found does not depend on the import. -/
theorem findLibrary_valid_iff (maps : List MapInfo) (suffix : String) (v v' : HookVar) :
    (findLibrary maps suffix v).Valid <-> (findLibrary maps suffix v').Valid := by
  unfold findLibrary
  split <;> rfl

theorem foldl_hookRegister {own : List (SlotKey × HookVar)}
    (hvalid : forall entry, entry ∈ own -> entry.1.Valid)
    (hsymbol : forall entry, entry ∈ own -> entry.1.symbol = entry.2.symbol)
    (hlive : p.hookList = HookList.live entries) :
    own.foldl (hookRegister lib) p =
      { p with
        requests := p.requests ++ own.map (ownRequest lib)
        hookList := HookList.live (entries ++ own) } := by
  induction own generalizing entries p with
  | nil =>
      rw [List.foldl_nil, List.map_nil, List.append_nil, List.append_nil, ← hlive]
  | cons entry own ih =>
      rw [List.foldl_cons, hookRegister_of_valid (hvalid entry List.mem_cons_self)
        (hsymbol entry List.mem_cons_self) hlive, ih
          (fun entry' h => hvalid entry' (List.mem_cons_of_mem entry h))
          (fun entry' h => hsymbol entry' (List.mem_cons_of_mem entry h)) rfl]
      simp only [List.map_cons, List.append_assoc, List.cons_append, List.nil_append]

theorem foldl_hookRegister_refused {own : List (SlotKey × HookVar)}
    (hvalid : forall entry, entry ∈ own -> ¬ entry.1.Valid) (p : Process) :
    own.foldl (hookRegister lib) p = p := by
  induction own with
  | nil => rfl
  | cons entry own ih =>
      rw [List.foldl_cons, hookRegister_of_not_valid (hvalid entry List.mem_cons_self)]
      exact ih (fun entry' h => hvalid entry' (List.mem_cons_of_mem entry h))

/-- An import of no request stays as it was; another one leads where it led or
where one of the requests for it leads. -/
theorem slots_commitRequests (rs : List Request) (oks : List Bool) (p : Process) (key : SlotKey) :
    (exists r, r ∈ rs ∧ r.key = key ∧ (commitRequests rs oks p).2.slots key = r.callback) ∨
      (commitRequests rs oks p).2.slots key = p.slots key := by
  induction rs generalizing oks p with
  | nil => exact Or.inr rfl
  | cons r rs ih =>
      rcases ih oks.tail (patch p r (oks.headD false)) with ⟨r', hr', hkey, hslot⟩ | hslot
      · exact Or.inl ⟨r', List.mem_cons_of_mem r hr', hkey, hslot⟩
      · have hpatched : (patch p r (oks.headD false)).slots key = p.slots key ∨
            key = r.key ∧ (patch p r (oks.headD false)).slots key = r.callback := by
          cases oks.headD false with
          | false => exact Or.inl rfl
          | true =>
              rcases eq_or_ne key r.key with heq | hne
              · exact Or.inr ⟨heq, if_pos heq⟩
              · exact Or.inl (if_neg hne)
        rcases hpatched with hkept | ⟨heq, hset⟩
        · exact Or.inr (hslot.trans hkept)
        · exact Or.inl ⟨r, List.mem_cons_self, heq.symm, hslot.trans hset⟩

/-- The requests that take the listed hooks back. -/
def unhookRequests (old : HookVar -> Nat) (entries : List (SlotKey × HookVar)) : List Request :=
  (entries.filter (fun entry => old entry.2 != 0)).map
    (fun entry => { key := entry.1, callback := old entry.2, backup := none })

theorem mem_unhookRequests {r : Request} :
    r ∈ unhookRequests old entries <->
      exists entry, entry ∈ entries ∧ old entry.2 ≠ 0 ∧
        r = { key := entry.1, callback := old entry.2, backup := none } := by
  unfold unhookRequests
  rw [List.mem_map]
  constructor
  · rintro ⟨entry, hmem, heq⟩
    rw [List.mem_filter, bne_iff_ne] at hmem
    exact ⟨entry, hmem.left, hmem.right, heq.symm⟩
  · rintro ⟨entry, hmem, hold, heq⟩
    refine ⟨entry, ?_, heq.symm⟩
    rw [List.mem_filter, bne_iff_ne]
    exact ⟨hmem, hold⟩

theorem foldl_unregister
    (hvalid : forall entry, entry ∈ entries -> entry.1.Valid ∧ entry.1.symbol = entry.2.symbol) :
    entries.foldl unregister p =
      { p with requests := p.requests ++ unhookRequests p.old entries } := by
  induction entries generalizing p with
  | nil => rw [List.foldl_nil, unhookRequests, List.filter_nil, List.map_nil, List.append_nil]
  | cons entry entries ih =>
      have hentry := hvalid entry List.mem_cons_self
      have hrest := fun p => @ih p (fun entry' h => hvalid entry' (List.mem_cons_of_mem entry h))
      rw [List.foldl_cons, hrest]
      rcases eq_or_ne (p.old entry.2) 0 with hzero | hne
      · have hsame : unregister p entry = p := by
          unfold unregister registerHook
          rw [if_pos (Or.inr (Or.inr (Or.inr hzero)))]
        rw [hsame, unhookRequests, unhookRequests, List.filter_cons_of_neg (by simp [hzero])]
      · have hadded : unregister p entry =
            { p with requests :=
                p.requests ++ [{ key := entry.1, callback := p.old entry.2, backup := none }] } := by
          unfold unregister
          rw [registerHook_of_valid hentry.left (by
            show entry.1.symbol ≠ []
            rw [hentry.right]
            exact entry.2.symbol_ne) hne]
        rw [hadded, unhookRequests, unhookRequests, List.filter_cons_of_pos (by simp [hne]),
          List.map_cons, List.append_assoc, List.singleton_append]

end Commits

end Unload

end Injector
end ReZygisk
