import ReZygisk.Foundation.System
import ReZygisk.Injector.PltCommits

/-!
# Unmapping the injector is safe

The library is unmapped only after every import and every native method that
led into it has been given back.  What carries the proof is that the imports
leading into the library are exactly hooks on the list, over any order of what
modules register and commit and whatever each commit comes to.
-/

namespace ReZygisk
namespace Injector

open Foundation
open Tracer

namespace Unload

/-!
# Giving the native methods back
-/

section Methods

variable {lib : Library}

/-- The method is on the list of those to restore. -/
def Recorded (hooks : List (List Byte × List NativeMethod)) (clz name signature : List Byte) :
    Prop :=
  exists ms m, (clz, ms) ∈ hooks ∧ m ∈ ms ∧ m.name = name ∧ m.signature = signature

def OutsideMethods (lib : Library) (hooks : List (List Byte × List NativeMethod)) : Prop :=
  forall entry, entry ∈ hooks -> forall m, m ∈ entry.2 -> ¬ lib.Owns m.fnPtr

theorem foldl_bind_cases (clz : List Byte) (ms : List NativeMethod) (table : MethodTable)
    (c name signature : List Byte) :
    (exists m, m ∈ ms ∧ ms.foldl (fun table m => table.bind clz m) table c name signature =
        m.fnPtr) ∨
      (¬ (c = clz ∧ exists m, m ∈ ms ∧ m.name = name ∧ m.signature = signature)) ∧
        ms.foldl (fun table m => table.bind clz m) table c name signature =
          table c name signature := by
  induction ms generalizing table with
  | nil =>
      refine Or.inr ⟨?_, rfl⟩
      rintro ⟨_, m, hm, _⟩
      cases hm
  | cons m ms ih =>
      rw [List.foldl_cons]
      rcases ih (table.bind clz m) with ⟨m', hm', hbound⟩ | ⟨hnone, hkept⟩
      · exact Or.inl ⟨m', List.mem_cons_of_mem m hm', hbound⟩
      · rw [hkept]
        unfold MethodTable.bind
        split
        · exact Or.inl ⟨m, List.mem_cons_self, rfl⟩
        · next hother =>
            refine Or.inr ⟨?_, rfl⟩
            rintro ⟨hclz, m', hm', hname, hsignature⟩
            rcases List.mem_cons.mp hm' with heq | hmem
            · rw [heq] at hname hsignature
              exact hother ⟨hclz, hname.symm, hsignature.symm⟩
            · exact hnone ⟨hclz, m', hmem, hname, hsignature⟩

/-- Where the flag is still set, every class of the list was registered again,
so a method that is still one of the injector's was not on the list. -/
theorem foldl_restoreClass (failedAt : List Byte -> Option Nat)
    {hooks : List (List Byte × List NativeMethod)} (hout : OutsideMethods lib hooks) (g : Globals)
    (hflag : (hooks.foldl (restoreClass failedAt) g).shouldUnmapZygisk = true) :
    g.shouldUnmapZygisk = true ∧
      forall c name signature,
        lib.Owns ((hooks.foldl (restoreClass failedAt) g).methods c name signature) ->
          lib.Owns (g.methods c name signature) ∧ ¬ Recorded hooks c name signature := by
  induction hooks generalizing g with
  | nil =>
      refine ⟨hflag, ?_⟩
      intro c name signature hown
      refine ⟨hown, ?_⟩
      rintro ⟨_, _, hmem, _⟩
      cases hmem
  | cons entry hooks ih =>
      rw [List.foldl_cons] at hflag ⊢
      rcases ih (fun entry' h => hout entry' (List.mem_cons_of_mem entry h))
        (restoreClass failedAt g entry) hflag with ⟨hfirst, hrest⟩
      unfold restoreClass at hfirst hrest
      split at hfirst
      · next hempty =>
          rw [if_pos hempty] at hrest
          refine ⟨hfirst, ?_⟩
          intro c name signature hown
          have hown' := hrest c name signature (by
            rw [restoreClass, if_pos hempty] at hown
            exact hown)
          refine ⟨hown'.left, ?_⟩
          rintro ⟨ms, m, hmem, hm, hname, hsignature⟩
          rcases List.mem_cons.mp hmem with heq | htail
          · rw [← heq, List.isEmpty_iff] at hempty
            replace hempty : ms = [] := hempty
            rw [hempty] at hm
            cases hm
          · exact hown'.right ⟨ms, m, htail, hm, hname, hsignature⟩
      · next hnonempty =>
          rw [if_neg hnonempty] at hrest
          rw [Bool.and_eq_true, Option.isNone_iff_eq_none] at hfirst
          refine ⟨hfirst.left, ?_⟩
          intro c name signature hown
          rw [restoreClass, if_neg hnonempty] at hown
          have hown' := hrest c name signature hown
          simp only [registerNatives, hfirst.right] at hown'
          rcases foldl_bind_cases entry.1 entry.2 g.methods c name signature with
            ⟨m, hm, hbound⟩ | ⟨hnot, hkept⟩
          · rw [hbound] at hown'
            exact absurd hown'.left (hout entry List.mem_cons_self m hm)
          · rw [hkept] at hown'
            refine ⟨hown'.left, ?_⟩
            rintro ⟨ms, m, hmem, hm, hname, hsignature⟩
            rcases List.mem_cons.mp hmem with heq | htail
            · apply hnot
              rw [← heq]
              exact ⟨rfl, m, hm, hname, hsignature⟩
            · exact hown'.right ⟨ms, m, htail, hm, hname, hsignature⟩

/-- The native methods that lead into the library can all be given back. -/
structure MethodsListed (lib : Library) (g : Globals) : Prop where
  recorded : forall hooks, g.jniHookList = some hooks ->
    forall c name signature, lib.Owns (g.methods c name signature) ->
      Recorded hooks c name signature
  outside : forall hooks, g.jniHookList = some hooks -> OutsideMethods lib hooks
  flag : g.shouldUnmapZygisk = true -> g.jniHookList = none
  given : g.shouldUnmapZygisk = true ->
    forall c name signature, ¬ lib.Owns (g.methods c name signature)

theorem methodsListed_giveUpHooks {failedAt : List Byte -> Option Nat} {g g' : Globals}
    (h : MethodsListed lib g) (hgive : giveUpHooks failedAt g = some g') :
    MethodsListed lib g' ∧ g'.jniHookList = none := by
  unfold giveUpHooks at hgive
  cases hhooks : g.jniHookList with
  | none =>
      rw [hhooks] at hgive
      cases hgive
  | some hooks =>
      rw [hhooks] at hgive
      injection hgive with hgive
      rw [← hgive]
      constructor
      · constructor
        · intro _ hnone
          cases hnone
        · intro _ hnone
          cases hnone
        · intro _
          rfl
        · intro hflag c name signature hown
          have hrestored := foldl_restoreClass failedAt (h.outside hooks hhooks) _ hflag
          have hleft := hrestored.right c name signature hown
          exact hleft.right (h.recorded hooks hhooks c name signature hleft.left)
      · rfl

end Methods

/-!
# The invariant
-/

/-- What a process was before the injector came: where the imports led, and the
imports that modules may hook. -/
structure Before where
  slots : SlotKey -> Nat
  shared : SlotKey -> Prop

/-- The entries are the hooks of the injector, those on the list or those that
were on it when it was deleted. -/
structure Inv (lib : Library) (before : Before) (entries : List (SlotKey × HookVar))
    (p : Process) : Prop where
  listed : Listed lib entries p.slots p.old
  requests : forall r, r ∈ p.requests -> Foreign lib entries p.old r ∧ before.shared r.key
  valid : forall entry, entry ∈ entries -> entry.1.Valid ∧ entry.1.symbol = entry.2.symbol
  kept : forall entry, entry ∈ entries -> ¬ before.shared entry.1 -> p.old entry.2 ≠ 0 ->
    p.old entry.2 = before.slots entry.1
  same : forall key, ¬ before.shared key -> ¬ lib.Owns (p.slots key) ->
    p.slots key = before.slots key
  methods : MethodsListed lib p.globals
  unloader : p.globals.jniHookList ≠ none ->
    forall entry, entry ∈ entries -> entry.2 ≠ HookVar.pthreadAttrDestroy
  live : p.hookList = HookList.live entries ∧ p.loaded = true ∨
    p.hookList = HookList.deleted ∧ p.globals.jniHookList = none ∧
      (p.loaded = false ∨ p.globals.shouldUnmapZygisk = false)
  unloaded : p.loaded = false ->
    p.globals.shouldUnmapZygisk = true ∧ (forall key, ¬ lib.Owns (p.slots key)) ∧
      forall r, r ∈ p.requests -> ¬ lib.Owns r.callback

/-- A module registers functions of its own for the imports it may hook, or puts
back the one a commit replaced for it while the list is there; nobody binds
a function of the injector to a native method. -/
def Allowed (lib : Library) (before : Before) (p : Process) : Event -> Prop
  | Event.moduleRegister key callback =>
      before.shared key ∧ (lib.Owns callback ->
        exists entries, p.hookList = HookList.live entries ∧ Known lib entries p.old key callback)
  | Event.bindMethods bind =>
      forall table c name signature, lib.Owns (bind table c name signature) ->
        lib.Owns (table c name signature)
  | _ => True

section Steps

variable {lib : Library} {before : Before} {entries : List (SlotKey × HookVar)} {p : Process}

theorem Inv.live_of_loaded (h : Inv lib before entries p)
    {entries' : List (SlotKey × HookVar)} (hlive : p.hookList = HookList.live entries') :
    entries' = entries ∧ p.loaded = true := by
  rcases h.live with ⟨hlist, hloaded⟩ | ⟨hdeleted, _⟩
  · rw [hlist] at hlive
    injection hlive with heq
    exact ⟨heq.symm, hloaded⟩
  · rw [hdeleted] at hlive
    cases hlive

theorem inv_moduleRegister {key : SlotKey} {callback : Nat} (h : Inv lib before entries p)
    (hallowed : Allowed lib before p (Event.moduleRegister key callback)) :
    Inv lib before entries
      (registerHook p { key := key, callback := callback, backup := none }).2 := by
  rcases hallowed with ⟨hshared, hknown⟩
  unfold registerHook
  split
  · exact h
  · next hvalid =>
      push Not at hvalid
      constructor
      · exact h.listed
      · intro r hr
        rcases List.mem_append.mp hr with hold | hnew
        · exact h.requests r hold
        · rw [List.mem_singleton.mp hnew]
          refine ⟨⟨rfl, hvalid.right.right.right, ?_⟩, hshared⟩
          intro hown
          rcases hknown hown with ⟨entries', hlive, hknown'⟩
          rw [← (h.live_of_loaded hlive).left]
          exact hknown'
      · exact h.valid
      · exact h.kept
      · exact h.same
      · exact h.methods
      · exact h.unloader
      · exact h.live
      · intro hunloaded
        rcases h.unloaded hunloaded with ⟨hflag, hslots, hrequests⟩
        refine ⟨hflag, hslots, ?_⟩
        intro r hr hown
        rcases List.mem_append.mp hr with hold | hnew
        · exact hrequests r hold hown
        · rw [List.mem_singleton.mp hnew] at hown
          rcases hknown hown with ⟨entries', hlive, _⟩
          have hloaded := (h.live_of_loaded hlive).right
          replace hunloaded : p.loaded = false := hunloaded
          rw [hunloaded] at hloaded
          cases hloaded

/-- An import that modules may not hook stays as it was in a commit of theirs. -/
theorem same_commitRequests {rs : List Request} {key : SlotKey}
    (hshared : forall r, r ∈ rs -> before.shared r.key) (hkey : ¬ before.shared key)
    (oks : List Bool) (p : Process) :
    (commitRequests rs oks p).2.slots key = p.slots key := by
  rcases slots_commitRequests rs oks p key with ⟨r, hr, heq, _⟩ | hkept
  · rw [← heq] at hkey
    exact absurd (hshared r hr) hkey
  · exact hkept

theorem inv_moduleCommit (h : Inv lib before entries p) (oks : List Bool) :
    Inv lib before entries (commitHook oks p).2 := by
  have honly := onlySlots_commitRequests (fun r hr => (h.requests r hr).left.backup) oks
    { p with requests := [] }
  unfold commitHook
  constructor
  · exact @listed_commitRequests lib entries { p with requests := [] } p.requests h.listed
      (fun r hr => (h.requests r hr).left) oks
  · rw [honly.requests]
    intro r hr
    cases hr
  · exact h.valid
  · rw [honly.old]
    exact h.kept
  · intro key hkey
    rw [same_commitRequests (fun r hr => (h.requests r hr).right) hkey]
    exact h.same key hkey
  · rw [honly.globals]
    exact h.methods
  · rw [honly.globals]
    exact h.unloader
  · rw [honly.hookList, honly.loaded, honly.globals]
    exact h.live
  · rw [honly.loaded, honly.globals, honly.requests]
    intro hunloaded
    rcases h.unloaded hunloaded with ⟨hflag, hslots, hrequests⟩
    refine ⟨hflag, ?_, ?_⟩
    · intro key hown
      rcases slots_commitRequests p.requests oks { p with requests := [] } key with
        ⟨r, hr, _, hslot⟩ | hkept
      · rw [hslot] at hown
        exact hrequests r hr hown
      · rw [hkept] at hown
        exact hslots key hown
    · intro r hr
      cases hr

theorem inv_bindMethods {bind : MethodTable -> MethodTable} (h : Inv lib before entries p)
    (hallowed : Allowed lib before p (Event.bindMethods bind)) :
    Inv lib before entries
      { p with globals := { p.globals with methods := bind p.globals.methods } } := by
  have hmethods : MethodsListed lib { p.globals with methods := bind p.globals.methods } := by
    constructor
    · intro hooks hhooks c name signature hown
      exact h.methods.recorded hooks hhooks c name signature (hallowed _ _ _ _ hown)
    · exact h.methods.outside
    · exact h.methods.flag
    · intro hflag c name signature hown
      exact h.methods.given hflag c name signature (hallowed _ _ _ _ hown)
  exact ⟨h.listed, h.requests, h.valid, h.kept, h.same, hmethods, h.unloader, h.live, h.unloaded⟩

/-- Everything but the globals stays, and the list is still there. -/
theorem inv_giveUpHooks {failedAt : List Byte -> Option Nat} {globals : Globals}
    (h : Inv lib before entries p) (hgive : giveUpHooks failedAt p.globals = some globals) :
    Inv lib before entries { p with globals := globals } ∧
      p.hookList = HookList.live entries ∧ p.loaded = true ∧ globals.jniHookList = none ∧
      forall entry, entry ∈ entries -> entry.2 ≠ HookVar.pthreadAttrDestroy := by
  rcases methodsListed_giveUpHooks h.methods hgive with ⟨hmethods, hnone⟩
  have hsome : p.globals.jniHookList ≠ none := by
    intro hmissing
    unfold giveUpHooks at hgive
    rw [hmissing] at hgive
    cases hgive
  have hlive : p.hookList = HookList.live entries ∧ p.loaded = true := by
    rcases h.live with hlive | ⟨_, hmissing, _⟩
    · exact hlive
    · exact absurd hmissing hsome
  refine ⟨?_, hlive.left, hlive.right, hnone, h.unloader hsome⟩
  constructor
  · exact h.listed
  · exact h.requests
  · exact h.valid
  · exact h.kept
  · exact h.same
  · exact hmethods
  · intro hagain
    exact absurd hnone hagain
  · exact Or.inl hlive
  · intro hunloaded
    replace hunloaded : p.loaded = false := hunloaded
    rw [hlive.right] at hunloaded
    cases hunloaded

/-- The hook that unloads is the last one of the injector; requests of modules
that were waiting are carried out with it. -/
theorem inv_hookUnloader (h : Inv lib before entries p) (hlive : p.hookList = HookList.live entries)
    (hloaded : p.loaded = true) (hnone : p.globals.jniHookList = none)
    (hnew : forall entry, entry ∈ entries -> entry.2 ≠ HookVar.pthreadAttrDestroy)
    (maps : List MapInfo) (oks : List Bool) :
    exists entries', Inv lib before entries' (hookUnloader lib maps oks p) := by
  have hsymbol := findLibrary_symbol maps "/libart.so" HookVar.pthreadAttrDestroy
  unfold hookUnloader
  generalize findLibrary maps "/libart.so" HookVar.pthreadAttrDestroy = key at hsymbol
  by_cases hvalid : key.Valid
  · refine ⟨entries ++ [(key, HookVar.pthreadAttrDestroy)], ?_⟩
    have hregistered := @hookRegister_of_valid lib entries p (key, HookVar.pthreadAttrDestroy)
      hvalid hsymbol hlive
    rw [hregistered]
    unfold commitHook
    rw [commitRequests_append]
    -- The requests of modules come first.
    have honly := onlySlots_commitRequests (fun r hr => (h.requests r hr).left.backup) oks
      { p with requests := [],
               hookList := HookList.live (entries ++ [(key, HookVar.pthreadAttrDestroy)]) }
    have hlisted := @listed_commitRequests lib entries
      { p with requests := [],
               hookList := HookList.live (entries ++ [(key, HookVar.pthreadAttrDestroy)]) }
      p.requests h.listed (fun r hr => (h.requests r hr).left) oks
    have hsame := fun key' (hkey' : ¬ before.shared key') =>
      same_commitRequests (fun r hr => (h.requests r hr).right) hkey' oks
        { p with requests := [],
                 hookList := HookList.live (entries ++ [(key, HookVar.pthreadAttrDestroy)]) }
    generalize (commitRequests p.requests oks
      { p with requests := [],
               hookList := HookList.live (entries ++ [(key, HookVar.pthreadAttrDestroy)]) }).2 = q
      at honly hlisted hsame
    show Inv lib before _ (patch q (ownRequest lib (key, HookVar.pthreadAttrDestroy))
      ((oks.drop p.requests.length).headD false))
    generalize (oks.drop p.requests.length).headD false = ok
    have hrest := sameRest_patch q (ownRequest lib (key, HookVar.pthreadAttrDestroy)) ok
    have hfresh : forall key', (key', HookVar.pthreadAttrDestroy) ∉ entries :=
      fun key' hmem => hnew _ hmem rfl
    have hfree : ¬ lib.Owns (q.slots key) := by
      intro hown
      rcases hlisted.known key hown with ⟨v, _, _, hmem⟩
      have hv : key.symbol = v.symbol := (h.valid _ hmem).right
      exact hnew _ hmem (HookVar.symbol_injective (hv.symm.trans hsymbol))
    constructor
    · exact listed_patch_own hlisted hfresh hfree ok
    · rw [hrest.requests, honly.requests]
      intro r hr
      cases hr
    · intro entry hentry
      rcases List.mem_append.mp hentry with hold | hown
      · exact h.valid entry hold
      · rw [List.mem_singleton.mp hown]
        exact ⟨hvalid, hsymbol⟩
    · intro entry hentry hshared hne
      rw [patch_own_old] at hne ⊢
      rcases List.mem_append.mp hentry with hold | hown
      · have hother : entry.2 ≠ HookVar.pthreadAttrDestroy := hnew entry hold
        rw [if_neg hother, honly.old] at hne ⊢
        exact h.kept entry hold hshared hne
      · rw [List.mem_singleton.mp hown] at hne hshared ⊢
        rw [if_pos rfl] at hne ⊢
        cases ok with
        | false => exact absurd rfl hne
        | true =>
            have hbefore := hsame key hshared
            rw [if_pos rfl, hbefore]
            rw [hbefore] at hfree
            exact h.same key hshared hfree
    · intro key' hshared hfree'
      rw [patch_own_slots] at hfree' ⊢
      split
      · next hown =>
          rw [if_pos hown] at hfree'
          exact absurd (lib.owns_newFunc _) hfree'
      · next hother =>
          rw [if_neg hother] at hfree'
          rw [hsame key' hshared] at hfree' ⊢
          exact h.same key' hshared hfree'
    · rw [hrest.globals, honly.globals]
      exact h.methods
    · rw [hrest.globals, honly.globals]
      intro hagain
      exact absurd hnone hagain
    · rw [hrest.hookList, hrest.loaded, honly.hookList, honly.loaded]
      exact Or.inl ⟨rfl, hloaded⟩
    · rw [hrest.loaded, honly.loaded]
      intro hunloaded
      replace hunloaded : p.loaded = false := hunloaded
      rw [hloaded] at hunloaded
      cases hunloaded
  · refine ⟨entries, ?_⟩
    rw [hookRegister_of_not_valid hvalid]
    exact inv_moduleCommit h oks

/-- When every request of the unhooking was carried out, no import leads into
the library. -/
theorem not_owns_of_unhooked (h : Inv lib before entries p) {oks : List Bool} {p1 : Process}
    (hslots : p1.slots = p.slots) (hold : p1.old = p.old)
    (hok : (commitRequests (p.requests ++ unhookRequests p.old entries) oks p1).1 = true)
    (key : SlotKey) :
    ¬ lib.Owns
      ((commitRequests (p.requests ++ unhookRequests p.old entries) oks p1).2.slots key) := by
  have hlisted := @listed_commitRequests lib entries p1 p.requests
    (by rw [hslots, hold]; exact h.listed)
    (by rw [hold]; exact fun r hr => (h.requests r hr).left) oks
  have honly := onlySlots_commitRequests (fun r hr => (h.requests r hr).left.backup) oks p1
  rw [commitRequests_append] at hok ⊢
  rw [Bool.and_eq_true] at hok
  intro hown
  rcases @slots_of_committed _ _ _ key hok.right with ⟨r, hr, _, hslot⟩ | ⟨hnone, hslot⟩
  · rcases mem_unhookRequests.mp hr with ⟨entry, _, _, heq⟩
    rw [heq] at hslot
    rw [hslot] at hown
    exact h.listed.old_outside entry.2 hown
  · rw [hslot] at hown
    rcases hlisted.known key hown with ⟨v, _, hne, hmem⟩
    rw [honly.old, hold] at hne
    exact hnone _ (mem_unhookRequests.mpr ⟨(key, v), hmem, hne, rfl⟩) rfl

theorem foreign_unhook (h : Inv lib before entries p) :
    forall r, r ∈ p.requests ++ unhookRequests p.old entries -> Foreign lib entries p.old r := by
  intro r hr
  rcases List.mem_append.mp hr with hmodule | hown
  · exact (h.requests r hmodule).left
  · rcases mem_unhookRequests.mp hown with ⟨entry, _, hne, heq⟩
    rw [heq]
    exact ⟨rfl, hne, fun hinside => absurd hinside (h.listed.old_outside entry.2)⟩

/-- Taking the hooks back leads an import that modules may not hook where it
led before. -/
theorem same_unhook (h : Inv lib before entries p) {oks : List Bool} {p1 : Process}
    (hslots : p1.slots = p.slots) {key : SlotKey} (hshared : ¬ before.shared key)
    (hfree : ¬ lib.Owns
      ((commitRequests (p.requests ++ unhookRequests p.old entries) oks p1).2.slots key)) :
    (commitRequests (p.requests ++ unhookRequests p.old entries) oks p1).2.slots key =
      before.slots key := by
  rcases slots_commitRequests (p.requests ++ unhookRequests p.old entries) oks p1 key with
    ⟨r, hr, hkey, hslot⟩ | hkept
  · rw [hslot]
    rcases List.mem_append.mp hr with hmodule | hown
    · rw [← hkey] at hshared
      exact absurd (h.requests r hmodule).right hshared
    · rcases mem_unhookRequests.mp hown with ⟨entry, hmem, hne, heq⟩
      rw [heq] at hkey ⊢
      rw [← hkey] at hshared ⊢
      exact h.kept entry hmem hshared hne
  · rw [hkept, hslots] at hfree ⊢
    exact h.same key hshared hfree

/-- A process whose list was deleted, unmapped or with the flag reset. -/
theorem inv_deleted {q : Process} (h : Inv lib before entries p)
    (hlisted : Listed lib entries q.slots q.old) (hold : q.old = p.old) (hrequests : q.requests = [])
    (hdeleted : q.hookList = HookList.deleted) (hlist : q.globals.jniHookList = none)
    (hmethods : MethodsListed lib q.globals)
    (hsame : forall key, ¬ before.shared key -> ¬ lib.Owns (q.slots key) ->
      q.slots key = before.slots key)
    (hphase : q.loaded = false ∨ q.globals.shouldUnmapZygisk = false)
    (hunloaded : q.loaded = false ->
      q.globals.shouldUnmapZygisk = true ∧ forall key, ¬ lib.Owns (q.slots key)) :
    Inv lib before entries q := by
  constructor
  · exact hlisted
  · rw [hrequests]
    intro r hr
    cases hr
  · exact h.valid
  · rw [hold]
    exact h.kept
  · exact hsame
  · exact hmethods
  · intro hsome
    exact absurd hlist hsome
  · exact Or.inr ⟨hdeleted, hlist, hphase⟩
  · intro hgone
    refine ⟨(hunloaded hgone).left, (hunloaded hgone).right, ?_⟩
    rw [hrequests]
    intro r hr
    cases hr

theorem inv_unhookFunctions (h : Inv lib before entries p) (hloaded : p.loaded = true)
    (hflag : p.globals.shouldUnmapZygisk = true) (oks : List Bool) :
    exists p', unhookFunctions oks p = some p' ∧
      (p'.globals.shouldUnmapZygisk = true ∧ Inv lib before entries { p' with loaded := false } ∨
        p'.globals.shouldUnmapZygisk = false ∧ Inv lib before entries p') := by
  have hnone := h.methods.flag hflag
  have hlive : p.hookList = HookList.live entries := by
    rcases h.live with ⟨hlive, _⟩ | ⟨_, _, hunloaded | hunset⟩
    · exact hlive
    · rw [hloaded] at hunloaded
      cases hunloaded
    · rw [hflag] at hunset
      cases hunset
  unfold unhookFunctions
  simp only [hlive, foldl_unregister h.valid, commitHook]
  have hunhooked := @not_owns_of_unhooked lib before entries p h oks
    { p with hookList := HookList.deleted, requests := [] } rfl rfl
  have hforeign := foreign_unhook h
  have hlisted := @listed_commitRequests lib entries
    { p with hookList := HookList.deleted, requests := [] } _ h.listed hforeign oks
  have honly := onlySlots_commitRequests (fun r hr => (hforeign r hr).backup) oks
    { p with hookList := HookList.deleted, requests := [] }
  have hsame := fun key => @same_unhook lib before entries p h oks
    { p with hookList := HookList.deleted, requests := [] } rfl key
  generalize commitRequests (p.requests ++ unhookRequests p.old entries) oks
    { p with hookList := HookList.deleted, requests := [] } = committed
    at hunhooked hlisted honly hsame
  rcases committed with ⟨ok, q⟩
  have hglobals : q.globals = p.globals := honly.globals
  have hlist : q.globals.jniHookList = none := by rw [hglobals, hnone]
  cases ok with
  | true =>
      have hset : q.globals.shouldUnmapZygisk = true := by rw [hglobals, hflag]
      refine ⟨q, rfl, Or.inl ⟨hset, ?_⟩⟩
      exact inv_deleted h hlisted honly.old honly.requests honly.hookList hlist
        (by rw [hglobals]; exact h.methods) hsame (Or.inl rfl) (fun _ => ⟨hset, hunhooked rfl⟩)
  | false =>
      refine ⟨_, rfl, Or.inr ⟨rfl, ?_⟩⟩
      have hmethods : MethodsListed lib { q.globals with shouldUnmapZygisk := false } := by
        rw [hglobals]
        refine ⟨h.methods.recorded, h.methods.outside, ?_, ?_⟩
        · intro hagain
          cases hagain
        · intro hagain
          cases hagain
      refine inv_deleted h hlisted honly.old honly.requests honly.hookList hlist hmethods hsame
        (Or.inr rfl) ?_
      intro hunloaded
      rw [show q.loaded = p.loaded from honly.loaded, hloaded] at hunloaded
      cases hunloaded

/-- A call through an import always returns, whatever the commits it makes come
to. -/
theorem inv_call (h : Inv lib before entries p) (key : SlotKey) (mainThread : Bool)
    (oks : List Bool) :
    exists p', step lib p (Event.call key mainThread oks) = some p' ∧ Inv lib before entries p' := by
  unfold step
  simp only
  split
  · next hown =>
      rcases Bool.eq_false_or_eq_true p.loaded with hloaded | hunloaded
      · rw [if_pos hloaded]
        split
        · next hunloader =>
            rcases h.listed.known key hown with ⟨v, haddr, hne, _⟩
            have hv : HookVar.pthreadAttrDestroy = v := lib.distinct _ _ (hunloader.symm.trans haddr)
            rw [← hv] at hne
            unfold newPthreadAttrDestroy
            rw [if_neg hne]
            split
            · next hready =>
                rw [Bool.and_eq_true] at hready
                rcases inv_unhookFunctions h hloaded hready.right oks with
                  ⟨p', hrun, ⟨hflag, hinv⟩ | ⟨hflag, hinv⟩⟩
                · rw [hrun]
                  simp only [hflag, if_true]
                  exact ⟨_, rfl, hinv⟩
                · rw [hrun]
                  simp only [hflag, Bool.false_eq_true, if_false]
                  exact ⟨_, rfl, hinv⟩
            · exact ⟨p, rfl, h⟩
        · exact ⟨p, rfl, h⟩
      · exact absurd hown ((h.unloaded hunloaded).right.left key)
  · exact ⟨p, rfl, h⟩

theorem inv_step {p' : Process} {e : Event} (h : Inv lib before entries p)
    (hallowed : Allowed lib before p e) (hstep : step lib p e = some p') :
    exists entries', Inv lib before entries' p' := by
  cases e with
  | moduleRegister key callback =>
      injection hstep with hstep
      rw [← hstep]
      exact ⟨entries, inv_moduleRegister h hallowed⟩
  | moduleCommit oks =>
      injection hstep with hstep
      rw [← hstep]
      exact ⟨entries, inv_moduleCommit h oks⟩
  | bindMethods bind =>
      injection hstep with hstep
      rw [← hstep]
      exact ⟨entries, inv_bindMethods h hallowed⟩
  | destroyContext failedAt maps oks =>
      unfold step at hstep
      simp only at hstep
      cases hgive : giveUpHooks failedAt p.globals with
      | none =>
          rw [hgive] at hstep
          cases hstep
      | some globals =>
          rw [hgive] at hstep
          injection hstep with hstep
          rw [← hstep]
          rcases inv_giveUpHooks h hgive with ⟨hinv, hlive, hloaded, hnone, hnew⟩
          exact inv_hookUnloader hinv hlive hloaded hnone hnew maps oks
  | call key mainThread oks =>
      rcases inv_call h key mainThread oks with ⟨p'', hcall, hinv⟩
      rw [hcall] at hstep
      injection hstep with hstep
      rw [← hstep]
      exact ⟨entries, hinv⟩

end Steps

/-!
# Runs from the start
-/

section Runs

variable {lib : Library} {before : Before} {p : Process}

/-- A process in which the injector has just been mapped. -/
structure Fresh (lib : Library) (before : Before) (p : Process) : Prop where
  slots : p.slots = before.slots
  slots_ne : forall key, before.slots key ≠ 0
  outside : forall key, ¬ lib.Owns (before.slots key)
  old : p.old = fun _ => 0
  requests : p.requests = []
  loaded : p.loaded = true
  methods : MethodsListed lib p.globals

/-- The hooks that `hook_functions` asks for. -/
def runtimeEntries (maps : List MapInfo) : List (SlotKey × HookVar) :=
  runtimeHooks.map (fun v => (findLibrary maps "libandroid_runtime.so" v, v))

theorem runtimeEntries_symbol {maps : List MapInfo} {entry : SlotKey × HookVar}
    (h : entry ∈ runtimeEntries maps) : entry.1.symbol = entry.2.symbol := by
  rcases List.mem_map.mp h with ⟨v, _, heq⟩
  rw [← heq]
  exact findLibrary_symbol maps _ v

theorem runtimeEntries_vars (maps : List MapInfo) :
    (runtimeEntries maps).map Prod.snd = runtimeHooks := by
  rfl

theorem runtimeEntries_keys (maps : List MapInfo) : ((runtimeEntries maps).map Prod.fst).Nodup := by
  have hsymbols : (((runtimeEntries maps).map Prod.fst).map SlotKey.symbol) =
      runtimeHooks.map HookVar.symbol := by
    rw [List.map_map]
    show (runtimeHooks.map _).map _ = _
    rw [List.map_map]
    apply List.map_congr_left
    intro v _
    exact findLibrary_symbol maps _ v
  apply List.Nodup.of_map SlotKey.symbol
  rw [hsymbols]
  decide

theorem inv_dropUnhooked {entries : List (SlotKey × HookVar)} (h : Inv lib before entries p)
    (hlive : p.hookList = HookList.live entries) :
    Inv lib before (entries.filter (fun entry => p.old entry.2 != 0)) (dropUnhooked p) := by
  have hkeep : forall {key addr}, Known lib entries p.old key addr ->
      Known lib (entries.filter (fun entry => p.old entry.2 != 0)) p.old key addr := by
    rintro key addr ⟨v, haddr, hne, hmem⟩
    refine ⟨v, haddr, hne, ?_⟩
    rw [List.mem_filter, bne_iff_ne]
    exact ⟨hmem, hne⟩
  unfold dropUnhooked
  simp only [hlive]
  constructor
  · exact ⟨fun key hown => hkeep (h.listed.known key hown), h.listed.slots_ne,
      h.listed.old_outside⟩
  · intro r hr
    have hforeign := (h.requests r hr).left
    exact ⟨⟨hforeign.backup, hforeign.callback_ne, fun hown => hkeep (hforeign.known hown)⟩,
      (h.requests r hr).right⟩
  · exact fun entry hmem => h.valid entry (List.mem_of_mem_filter hmem)
  · exact fun entry hmem => h.kept entry (List.mem_of_mem_filter hmem)
  · exact h.same
  · exact h.methods
  · exact fun hsome entry hmem => h.unloader hsome entry (List.mem_of_mem_filter hmem)
  · exact Or.inl ⟨rfl, (h.live_of_loaded hlive).right⟩
  · exact h.unloaded

theorem inv_of_fresh (h : Fresh lib before p) :
    Inv lib before [] { p with hookList := HookList.live [] } := by
  constructor
  · constructor
    · intro key hown
      replace hown : lib.Owns (p.slots key) := hown
      rw [h.slots] at hown
      exact absurd hown (h.outside key)
    · show forall key, p.slots key ≠ 0
      rw [h.slots]
      exact h.slots_ne
    · show forall v, ¬ lib.Owns (p.old v)
      rw [h.old]
      exact fun _ => lib.not_owns_zero
  · show forall r, r ∈ p.requests -> _
    rw [h.requests]
    intro r hr
    cases hr
  · intro entry hmem
    cases hmem
  · intro entry hmem
    cases hmem
  · intro key _ _
    exact congrFun h.slots key
  · exact h.methods
  · intro _ entry hmem
    cases hmem
  · exact Or.inl ⟨rfl, h.loaded⟩
  · intro hunloaded
    rw [show p.loaded = true from h.loaded] at hunloaded
    cases hunloaded

/-- The hooks of one library, committed together in a process without any. -/
theorem inv_commit_own {own : List (SlotKey × HookVar)} (h : Inv lib before [] p)
    (hloaded : p.loaded = true) (hold : p.old = fun _ => 0)
    (hvars : (own.map Prod.snd).Nodup) (hkeys : (own.map Prod.fst).Nodup)
    (hvalid : forall entry, entry ∈ own -> entry.1.Valid ∧ entry.1.symbol = entry.2.symbol)
    (hnew : forall entry, entry ∈ own -> entry.2 ≠ HookVar.pthreadAttrDestroy)
    (oks : List Bool) :
    Inv lib before own
      (commitHook oks
        { p with requests := own.map (ownRequest lib), hookList := HookList.live own }).2 := by
  have hfree : forall key, ¬ lib.Owns (p.slots key) := by
    intro key hown
    rcases h.listed.known key hown with ⟨_, _, _, hmem⟩
    cases hmem
  have hlisted := @listed_commit_own lib [] { p with requests := [], hookList := HookList.live own } own h.listed
    hvars hkeys (fun _ _ _ => List.not_mem_nil) (fun entry _ => hfree entry.1) oks
  have hrest := sameRest_commitRequests (own.map (ownRequest lib)) oks
    { p with requests := [], hookList := HookList.live own }
  unfold commitHook
  constructor
  · exact hlisted
  · rw [hrest.requests]
    intro r hr
    cases hr
  · exact hvalid
  · intro entry hmem hshared hne
    rcases @old_commit_own lib own hvars hkeys oks { p with requests := [], hookList := HookList.live own } entry.2
      with hkept | hzero | ⟨key, hmem', hslot⟩
    · rw [hkept] at hne
      exact absurd (congrFun hold entry.2) hne
    · exact absurd hzero hne
    · have hentry : entry = (key, entry.2) := List.inj_on_of_nodup_map hvars hmem hmem' rfl
      have hkey : key = entry.1 := (congrArg Prod.fst hentry).symm
      rw [hslot, hkey]
      exact h.same entry.1 hshared (hfree entry.1)
  · intro key hshared hfree'
    rcases slots_commitRequests (own.map (ownRequest lib)) oks
        { p with requests := [], hookList := HookList.live own } key with ⟨r, hr, _, hslot⟩ | hkept
    · rcases List.mem_map.mp hr with ⟨entry, _, heq⟩
      rw [hslot, ← heq] at hfree'
      exact absurd (lib.owns_newFunc entry.2) hfree'
    · rw [hkept]
      exact h.same key hshared (hfree key)
  · rw [hrest.globals]
    exact h.methods
  · intro _
    exact hnew
  · rw [hrest.hookList, hrest.loaded]
    exact Or.inl ⟨rfl, hloaded⟩
  · rw [hrest.loaded]
    intro hunloaded
    replace hunloaded : p.loaded = false := hunloaded
    rw [hloaded] at hunloaded
    cases hunloaded

theorem inv_hookFunctions (h : Fresh lib before p) (maps : List MapInfo) (oks : List Bool) :
    exists entries, Inv lib before entries (hookFunctions lib maps oks p) := by
  have hstart := inv_of_fresh h
  have hvars : ((runtimeEntries maps).map Prod.snd).Nodup := by
    rw [runtimeEntries_vars]
    decide
  have hnew : forall entry, entry ∈ runtimeEntries maps ->
      entry.2 ≠ HookVar.pthreadAttrDestroy := by
    intro entry hmem
    rcases List.mem_map.mp hmem with ⟨v, hv, heq⟩
    rw [← heq]
    intro hpthread
    replace hpthread : v = HookVar.pthreadAttrDestroy := hpthread
    rw [hpthread] at hv
    revert hv
    decide
  show exists entries, Inv lib before entries (dropUnhooked (commitHook oks
    ((runtimeEntries maps).foldl (hookRegister lib) { p with hookList := HookList.live [] })).2)
  by_cases hfound : (findLibrary maps "libandroid_runtime.so" HookVar.fork).Valid
  · have hvalid : forall entry, entry ∈ runtimeEntries maps -> entry.1.Valid := by
      intro entry hmem
      rcases List.mem_map.mp hmem with ⟨v, _, heq⟩
      rw [← heq]
      exact (findLibrary_valid_iff maps _ HookVar.fork v).mp hfound
    rw [foldl_hookRegister hvalid (fun _ => runtimeEntries_symbol) rfl]
    simp only [h.requests, List.nil_append]
    have hcommitted := inv_commit_own hstart h.loaded h.old hvars (runtimeEntries_keys maps)
      (fun entry hmem => ⟨hvalid entry hmem, runtimeEntries_symbol hmem⟩) hnew oks
    exact ⟨_, inv_dropUnhooked hcommitted (sameRest_commitRequests _ oks _).hookList⟩
  · have hrefused : forall entry, entry ∈ runtimeEntries maps -> ¬ entry.1.Valid := by
      intro entry hmem
      rcases List.mem_map.mp hmem with ⟨v, _, heq⟩
      rw [← heq]
      exact fun hvalid => hfound ((findLibrary_valid_iff maps _ HookVar.fork v).mpr hvalid)
    rw [foldl_hookRegister_refused hrefused]
    have hcommitted := inv_moduleCommit hstart oks
    exact ⟨_, inv_dropUnhooked hcommitted (sameRest_commitRequests _ oks _).hookList⟩

open Classical in
/-- The process after an event that modules and the runtime may cause. -/
noncomputable def system (lib : Library) (before : Before) : TransitionSystem Process Event where
  init := fun p => exists p0 maps oks, Fresh lib before p0 ∧ p = hookFunctions lib maps oks p0
  step := fun p e => if Allowed lib before p e then step lib p e else none

theorem reachable_step {p' : Process} {e : Event} (h : (system lib before).Reachable p)
    (hallowed : Allowed lib before p e) (hstep : step lib p e = some p') :
    (system lib before).Reachable p' :=
  h.step ((if_pos hallowed).trans hstep)

theorem inv_of_reachable (h : (system lib before).Reachable p) :
    exists entries, Inv lib before entries p := by
  apply TransitionSystem.reachable_invariant _ _ h
  · rintro p ⟨p0, maps, oks, hfresh, heq⟩
    rw [heq]
    exact inv_hookFunctions hfresh maps oks
  · rintro p e p' ⟨entries, hinv⟩ hstep
    unfold system at hstep
    simp only at hstep
    split at hstep
    · next hallowed => exact inv_step hinv hallowed hstep
    · cases hstep

/-- A library of two pages, and an import of another one that leads elsewhere. -/
def sampleLibrary : Library where
  start := 0x1000
  limit := 0x3000
  newFunc
    | HookVar.fork => 0x1000
    | HookVar.unshare => 0x1010
    | HookVar.strdup => 0x1020
    | HookVar.androidLogClose => 0x1030
    | HookVar.pthreadAttrDestroy => 0x1040
  start_pos := by decide
  inside := by
    intro v
    cases v <;> decide
  distinct := by
    intro v v' h
    cases v <;> cases v' <;> first | rfl | exact absurd h (by decide)

def sampleBefore : Before :=
  { slots := fun _ => 0x7000, shared := fun _ => False }

def sampleMaps : List MapInfo :=
  [{ start := 0x5000, endAddr := 0x6000, perms := 5, isPrivate := true, offset := 0, dev := 1,
     inode := 2, path := bytesOf "/system/lib64/libandroid_runtime.so" },
   { start := 0x8000, endAddr := 0x9000, perms := 5, isPrivate := true, offset := 0, dev := 1,
     inode := 3, path := bytesOf "/apex/com.android.art/lib64/libart.so" }]

def sampleStart : Process :=
  { slots := sampleBefore.slots, old := fun _ => 0, hookList := HookList.deleted, requests := [],
    globals := { jniHookList := some [], shouldUnmapZygisk := false, unloaderHooks := 0,
                 methods := fun _ _ _ => 0x9000 },
    loaded := true }

theorem sampleStart_fresh : Fresh sampleLibrary sampleBefore sampleStart := by
  constructor
  · rfl
  · intro key
    exact (by decide : 0x7000 ≠ 0)
  · intro key
    exact (by decide : ¬ sampleLibrary.Owns 0x7000)
  · rfl
  · rfl
  · rfl
  · constructor
    · intro hooks _ clz name signature hown
      exact absurd hown (by decide : ¬ sampleLibrary.Owns 0x9000)
    · intro hooks hhooks entry hentry
      injection hhooks with hhooks
      rw [← hhooks] at hentry
      cases hentry
    · intro hflag
      cases hflag
    · intro hflag
      cases hflag

def sampleHooked : Process :=
  hookFunctions sampleLibrary sampleMaps [true, true, true, true] sampleStart

/-- The import through which the sample unloads. -/
def sampleKey : SlotKey :=
  { dev := 1, inode := 3, symbol := bytesOf "pthread_attr_destroy" }

end Runs

end Unload

end Injector
end ReZygisk
