import Mathlib.Data.List.DropRight
import Mathlib.Data.List.Induction
import Mathlib.Data.List.Infix
import Mathlib.Data.List.ProdSigma
import ReZygisk.Injector.Modules
import ReZygisk.Tracer.MapsFile

/-!
# PLT hooks of the modules

Up to version 3 of the API a module registers a hook for all files whose path
matches a regex and may exclude paths again; the context collects both and takes
them apart when they are committed.  From version 4 on a module names the file and
talks to `lsplt` directly.
-/

namespace ReZygisk
namespace Injector

open Foundation
open Tracer

/-- One call of `lsplt::RegisterHook`. -/
structure LspltHook where
  dev : Nat
  inode : Nat
  symbol : List Byte
  callback : Nat
  backup : Nat
  deriving DecidableEq

structure RegisterInfo (regex : Type) where
  regex : regex
  symbol : List Byte
  callback : Nat
  backup : Nat

structure IgnoreInfo (regex : Type) where
  regex : regex
  symbol : List Byte

/-- What a `ZygiskContext` holds of the hooks. -/
structure HookInfo (regex : Type) where
  registerInfo : List (RegisterInfo regex) := []
  ignoreInfo : List (IgnoreInfo regex) := []

/-- The context, and all that `lsplt` has been handed so far. -/
structure PltState (regex : Type) where
  gCtx : Option (HookInfo regex) := some {}
  handed : List LspltHook := []

/-!
# The calls

A null pointer is `none`, or 0 for a function.
-/

inductive PltCall where
  | register (regex symbol : Option (List Byte)) (fn backup : Nat)
  | exclude (regex symbol : Option (List Byte))
  | commit (maps : List MapInfo)
  | registerV4 (dev inode : Nat) (symbol : Option (List Byte)) (fn backup : Nat)
  | commitV4

inductive PltTable where
  | v1
  | v4
  deriving DecidableEq

/-- The slots that `RegisterModuleImpl` fills for a version: those of version 4
lie over those of version 1. -/
def pltTable (apiVersion : Int) : Option PltTable :=
  if apiVersion > ZYGISK_API_VERSION then none
  else if apiVersion ≥ 4 then some PltTable.v4
  else if apiVersion ≥ 1 then some PltTable.v1
  else none

def PltCall.table : PltCall -> PltTable
  | PltCall.register _ _ _ _ => PltTable.v1
  | PltCall.exclude _ _ => PltTable.v1
  | PltCall.commit _ => PltTable.v1
  | PltCall.registerV4 _ _ _ _ _ => PltTable.v4
  | PltCall.commitV4 => PltTable.v4

theorem pltTable_eq_v1_iff (apiVersion : Int) :
    pltTable apiVersion = some PltTable.v1 <-> 1 ≤ apiVersion ∧ apiVersion ≤ 3 := by
  unfold pltTable ZYGISK_API_VERSION
  split
  · simp
    omega
  · split
    · simp
      omega
    · split
      · simp
        omega
      · simp
        omega

section Calls

variable {regex : Type} (regcomp : List Byte -> Option regex)
  (regexec : regex -> List Byte -> Bool)

def pltHookRegister (info : HookInfo regex) (re symbol : Option (List Byte))
    (fn backup : Nat) : HookInfo regex :=
  match re, symbol with
  | some re, some symbol =>
      if fn = 0 then info
      else
        match regcomp re with
        | none => info
        | some re =>
            { info with registerInfo := info.registerInfo ++ [⟨re, symbol, fn, backup⟩] }
  | _, _ => info

def pltHookExclude (info : HookInfo regex) (re symbol : Option (List Byte)) :
    HookInfo regex :=
  match re with
  | none => info
  | some re =>
      match regcomp re with
      | none => info
      | some re => { info with ignoreInfo := info.ignoreInfo ++ [⟨re, symbol.getD []⟩] }

/-- The innermost loop, which breaks at the first exclusion that applies. -/
def ignored (path symbol : List Byte) : List (IgnoreInfo regex) -> Bool
  | [] => false
  | ign :: rest =>
      if !regexec ign.regex path then ignored path symbol rest
      else if ign.symbol = [] ∨ ign.symbol = symbol then true
      else ignored path symbol rest

/-- The loop over `register_info` for one region. -/
def processRegisters (ignoreInfo : List (IgnoreInfo regex)) (map : MapInfo) :
    List (RegisterInfo regex) -> List LspltHook
  | [] => []
  | reg :: rest =>
      if !regexec reg.regex map.path then processRegisters ignoreInfo map rest
      else if !ignored regexec map.path reg.symbol ignoreInfo then
        ⟨map.dev, map.inode, reg.symbol, reg.callback, reg.backup⟩ ::
          processRegisters ignoreInfo map rest
      else processRegisters ignoreInfo map rest

/-- The loop over the regions. -/
def processMaps (info : HookInfo regex) : List MapInfo -> List LspltHook
  | [] => []
  | map :: rest =>
      if map.offset ≠ 0 ∨ map.isPrivate = false ∨ map.perms &&& PROT_READ = 0 then
        processMaps info rest
      else
        processRegisters regexec info.ignoreInfo map info.registerInfo ++
          processMaps info rest

def pltHookProcessRegex (info : HookInfo regex) (maps : List MapInfo) : List LspltHook :=
  if info.registerInfo.isEmpty then [] else processMaps regexec info maps

def pltStep (s : PltState regex) : PltCall -> PltState regex
  | PltCall.register re symbol fn backup =>
      { s with gCtx := s.gCtx.map (fun info =>
          pltHookRegister regcomp info re symbol fn backup) }
  | PltCall.exclude re symbol =>
      { s with gCtx := s.gCtx.map (fun info => pltHookExclude regcomp info re symbol) }
  | PltCall.commit maps =>
      match s.gCtx with
      | none => s
      | some info =>
          { gCtx := some {}
            handed := s.handed ++ pltHookProcessRegex regexec info maps }
  | PltCall.registerV4 dev inode symbol fn backup =>
      match symbol with
      | none => s
      | some symbol =>
          if dev = 0 ∨ inode = 0 ∨ fn = 0 then s
          else { s with handed := s.handed ++ [⟨dev, inode, symbol, fn, backup⟩] }
  | PltCall.commitV4 => s

/-- The calls of all modules of a process, in order. -/
def pltRun (calls : List PltCall) : PltState regex :=
  calls.foldl (pltStep regcomp regexec) {}

end Calls

/-!
# What a commit is to hand over
-/

section Spec

variable {regex : Type} (regcomp : List Byte -> Option regex)
  (regexec : regex -> List Byte -> Bool)

def PltCall.isCommit : PltCall -> Bool
  | PltCall.commit _ => true
  | _ => false

/-- The calls after the last commit. -/
def sinceCommit (calls : List PltCall) : List PltCall :=
  calls.rtakeWhile (fun call => !call.isCommit)

/-- The registration that a call makes: nothing it needs is null, and its regex
can be compiled. -/
def registration : PltCall -> Option (RegisterInfo regex)
  | PltCall.register (some re) (some symbol) fn backup =>
      if fn = 0 then none else (regcomp re).map (fun re => ⟨re, symbol, fn, backup⟩)
  | _ => none

/-- The exclusion that a call makes; without a symbol it is for all symbols. -/
def exclusion : PltCall -> Option (IgnoreInfo regex)
  | PltCall.exclude (some re) symbol =>
      (regcomp re).map (fun re => ⟨re, symbol.getD []⟩)
  | _ => none

def registered (calls : List PltCall) : List (RegisterInfo regex) :=
  calls.filterMap (registration regcomp)

def excluded (calls : List PltCall) : List (IgnoreInfo regex) :=
  calls.filterMap (exclusion regcomp)

/-- The registration is for the region, and none of the exclusions takes it
back. -/
def PairHooked (exclusions : List (IgnoreInfo regex))
    (pair : MapInfo × RegisterInfo regex) : Prop :=
  (pair.1.offset = 0 ∧ pair.1.isPrivate = true ∧ pair.1.perms &&& PROT_READ ≠ 0) ∧
    regexec pair.2.regex pair.1.path = true ∧
    forall ign, ign ∈ exclusions -> regexec ign.regex pair.1.path = true ->
      ¬ (ign.symbol = [] ∨ ign.symbol = pair.2.symbol)

instance pairHookedDecidable (exclusions : List (IgnoreInfo regex))
    (pair : MapInfo × RegisterInfo regex) : Decidable (PairHooked regexec exclusions pair) :=
  inferInstanceAs (Decidable (_ ∧ _ ∧ _))

def hookOf (pair : MapInfo × RegisterInfo regex) : LspltHook :=
  ⟨pair.1.dev, pair.1.inode, pair.2.symbol, pair.2.callback, pair.2.backup⟩

/-- The hooks of all pairs of a region and a registration that are hooked. -/
def hookedPairs (registrations : List (RegisterInfo regex))
    (exclusions : List (IgnoreInfo regex)) (maps : List MapInfo) : List LspltHook :=
  ((maps ×ˢ registrations).filter (fun pair => PairHooked regexec exclusions pair)).map hookOf

variable {regcomp regexec}

theorem hookedPairs_congr {exclusions exclusions' : List (IgnoreInfo regex)}
    (h : forall ign, ign ∈ exclusions' <-> ign ∈ exclusions)
    (registrations : List (RegisterInfo regex)) (maps : List MapInfo) :
    hookedPairs regexec registrations exclusions' maps =
      hookedPairs regexec registrations exclusions maps := by
  have hsame : forall pair, decide (PairHooked regexec exclusions' pair) =
      decide (PairHooked regexec exclusions pair) := by
    intro pair
    apply decide_eq_decide.mpr
    unfold PairHooked
    simp only [h]
  unfold hookedPairs
  simp only [hsame]

/-!
# The loops
-/

theorem ignored_eq_true_iff (path symbol : List Byte) (exclusions : List (IgnoreInfo regex)) :
    ignored regexec path symbol exclusions = true <->
      exists ign, ign ∈ exclusions ∧ regexec ign.regex path = true ∧
        (ign.symbol = [] ∨ ign.symbol = symbol) := by
  induction exclusions with
  | nil => simp [ignored]
  | cons ign rest ih =>
      rw [ignored, List.exists_mem_cons_iff]
      cases hmatch : regexec ign.regex path with
      | false => simp [ih]
      | true =>
          by_cases hsymbol : ign.symbol = [] ∨ ign.symbol = symbol
          · simp [hsymbol]
          · simp [hsymbol, ih]

theorem hooked_iff_not_ignored {exclusions : List (IgnoreInfo regex)} {map : MapInfo}
    (hmap : map.offset = 0 ∧ map.isPrivate = true ∧ map.perms &&& PROT_READ ≠ 0)
    (reg : RegisterInfo regex) :
    PairHooked regexec exclusions (map, reg) <->
      regexec reg.regex map.path = true ∧
        ignored regexec map.path reg.symbol exclusions = false := by
  rw [← Bool.not_eq_true, ignored_eq_true_iff]
  unfold PairHooked
  constructor
  · intro h
    rcases h with ⟨_, hmatch, hnone⟩
    constructor
    · exact hmatch
    · intro hno
      rcases hno with ⟨ign, hign, hpath, hsymbol⟩
      exact hnone ign hign hpath hsymbol
  · intro h
    rcases h with ⟨hmatch, hnone⟩
    exact ⟨hmap, hmatch, fun ign hign hpath hsymbol => hnone ⟨ign, hign, hpath, hsymbol⟩⟩

theorem processRegisters_eq {exclusions : List (IgnoreInfo regex)} {map : MapInfo}
    (hmap : map.offset = 0 ∧ map.isPrivate = true ∧ map.perms &&& PROT_READ ≠ 0)
    (registrations : List (RegisterInfo regex)) :
    processRegisters regexec exclusions map registrations =
      ((registrations.map (fun reg => (map, reg))).filter
        (fun pair => PairHooked regexec exclusions pair)).map hookOf := by
  induction registrations with
  | nil => rfl
  | cons reg rest ih =>
      have hiff : PairHooked regexec exclusions (map, reg) <->
          regexec reg.regex map.path = true ∧
            ignored regexec map.path reg.symbol exclusions = false :=
        hooked_iff_not_ignored hmap reg
      rw [processRegisters, List.map_cons]
      cases hmatch : regexec reg.regex map.path with
      | false =>
          have hnot : ¬ PairHooked regexec exclusions (map, reg) := by
            rw [hiff, hmatch]
            simp
          rw [List.filter_cons_of_neg (by simpa using hnot), ← ih]
          rfl
      | true =>
          cases hignored : ignored regexec map.path reg.symbol exclusions with
          | true =>
              have hnot : ¬ PairHooked regexec exclusions (map, reg) := by
                rw [hiff, hignored]
                simp
              rw [List.filter_cons_of_neg (by simpa using hnot), ← ih]
              rfl
          | false =>
              have hhooked : PairHooked regexec exclusions (map, reg) :=
                hiff.mpr ⟨hmatch, hignored⟩
              rw [List.filter_cons_of_pos (by simpa using hhooked), List.map_cons, ← ih]
              rfl

theorem processMaps_eq (info : HookInfo regex) (maps : List MapInfo) :
    processMaps regexec info maps =
      hookedPairs regexec info.registerInfo info.ignoreInfo maps := by
  induction maps with
  | nil => rfl
  | cons map rest ih =>
      unfold hookedPairs at ih ⊢
      rw [processMaps, List.product_cons, List.filter_append, List.map_append, ← ih]
      by_cases hmap : map.offset ≠ 0 ∨ map.isPrivate = false ∨ map.perms &&& PROT_READ = 0
      · have hnone : (info.registerInfo.map (fun reg => (map, reg))).filter
            (fun pair => PairHooked regexec info.ignoreInfo pair) = [] := by
          rw [List.filter_eq_nil_iff]
          intro pair hpair
          rcases List.mem_map.mp hpair with ⟨reg, _, heq⟩
          rw [← heq, decide_eq_true_eq]
          intro hhooked
          rcases hhooked.left with ⟨hoffset, hprivate, hread⟩
          rcases hmap with hno | hno | hno
          · exact hno hoffset
          · rw [hprivate] at hno
            cases hno
          · exact hread hno
        rw [if_pos hmap, hnone]
        rfl
      · have hgood : map.offset = 0 ∧ map.isPrivate = true ∧ map.perms &&& PROT_READ ≠ 0 := by
          simpa using hmap
        rw [if_neg hmap, processRegisters_eq hgood]

/-- Returning early for want of registrations changes nothing. -/
theorem pltHookProcessRegex_eq (info : HookInfo regex) (maps : List MapInfo) :
    pltHookProcessRegex regexec info maps =
      hookedPairs regexec info.registerInfo info.ignoreInfo maps := by
  unfold pltHookProcessRegex
  split
  · rename_i hempty
    rw [List.isEmpty_iff.mp hempty]
    simp [hookedPairs]
  · exact processMaps_eq info maps

/-!
# Every history of calls
-/

theorem pltHookRegister_eq (info : HookInfo regex) (re symbol : Option (List Byte))
    (fn backup : Nat) :
    pltHookRegister regcomp info re symbol fn backup =
      { info with registerInfo := info.registerInfo ++
          (registration regcomp (PltCall.register re symbol fn backup)).toList } := by
  cases re with
  | none => simp [pltHookRegister, registration]
  | some re =>
      cases symbol with
      | none => simp [pltHookRegister, registration]
      | some symbol =>
          by_cases hfn : fn = 0
          · simp [pltHookRegister, registration, hfn]
          · cases hre : regcomp re <;> simp [pltHookRegister, registration, hfn, hre]

theorem pltHookExclude_eq (info : HookInfo regex) (re symbol : Option (List Byte)) :
    pltHookExclude regcomp info re symbol =
      { info with ignoreInfo := info.ignoreInfo ++
          (exclusion regcomp (PltCall.exclude re symbol)).toList } := by
  cases re with
  | none => simp [pltHookExclude, exclusion]
  | some re => cases hre : regcomp re <;> simp [pltHookExclude, exclusion, hre]

/-- A commit clears both lists; another call adds what it registers or
excludes. -/
theorem gCtx_pltStep {s : PltState regex} {info : HookInfo regex} (h : s.gCtx = some info)
    (call : PltCall) :
    (pltStep regcomp regexec s call).gCtx =
      some (if call.isCommit then {}
        else
          { registerInfo := info.registerInfo ++ (registration regcomp call).toList
            ignoreInfo := info.ignoreInfo ++ (exclusion regcomp call).toList }) := by
  cases call with
  | register re symbol fn backup =>
      simp [pltStep, h, pltHookRegister_eq, exclusion, PltCall.isCommit]
  | exclude re symbol =>
      simp [pltStep, h, pltHookExclude_eq, registration, PltCall.isCommit]
  | commit maps => simp [pltStep, h, PltCall.isCommit]
  | registerV4 dev inode symbol fn backup =>
      have hkept : (pltStep regcomp regexec s
          (PltCall.registerV4 dev inode symbol fn backup)).gCtx = s.gCtx := by
        cases symbol with
        | none => rfl
        | some symbol =>
            simp only [pltStep]
            split <;> rfl
      simp [hkept, h, registration, exclusion, PltCall.isCommit]
  | commitV4 => simp [pltStep, h, registration, exclusion, PltCall.isCommit]

theorem pltRun_append (calls : List PltCall) (call : PltCall) :
    pltRun regcomp regexec (calls ++ [call]) =
      pltStep regcomp regexec (pltRun regcomp regexec calls) call := by
  unfold pltRun
  rw [List.foldl_append, List.foldl_cons, List.foldl_nil]

/-- The context holds what has been registered and excluded since the last
commit. -/
theorem gCtx_pltRun (calls : List PltCall) :
    (pltRun regcomp regexec calls).gCtx =
      some { registerInfo := registered regcomp (sinceCommit calls)
             ignoreInfo := excluded regcomp (sinceCommit calls) } := by
  induction calls using List.reverseRecOn with
  | nil => rfl
  | append_singleton calls call ih =>
      have hsince : sinceCommit (calls ++ [call]) =
          if !call.isCommit then sinceCommit calls ++ [call] else [] :=
        List.rtakeWhile_concat _ _ call
      rw [pltRun_append, gCtx_pltStep ih, hsince]
      cases hcommit : call.isCommit with
      | true => rfl
      | false =>
          unfold registered excluded
          rw [Bool.not_false, if_pos rfl, List.filterMap_append, List.filterMap_append,
            List.filterMap_cons, List.filterMap_cons]
          cases registration regcomp call <;> cases exclusion regcomp call <;> rfl

variable (regcomp regexec)

/-- A commit hands over the hooked pairs of a region and a registration, with
the registrations and exclusions since the last commit.  Another history with the
same registrations and exclusions since then has the same result, wherever the
exclusions stand among the registrations. -/
theorem commit_hands_hookedPairs (calls : List PltCall) (maps : List MapInfo) :
    (pltRun regcomp regexec (calls ++ [PltCall.commit maps])).handed =
      (pltRun regcomp regexec calls).handed ++
        hookedPairs regexec (registered regcomp (sinceCommit calls))
          (excluded regcomp (sinceCommit calls)) maps ∧
    forall calls',
      registered regcomp (sinceCommit calls') = registered regcomp (sinceCommit calls) ->
      (forall ign, ign ∈ excluded regcomp (sinceCommit calls') <->
        ign ∈ excluded regcomp (sinceCommit calls)) ->
      (pltRun regcomp regexec (calls' ++ [PltCall.commit maps])).handed =
        (pltRun regcomp regexec calls').handed ++
          hookedPairs regexec (registered regcomp (sinceCommit calls))
            (excluded regcomp (sinceCommit calls)) maps := by
  have hcommit : forall calls : List PltCall,
      (pltRun regcomp regexec (calls ++ [PltCall.commit maps])).handed =
        (pltRun regcomp regexec calls).handed ++
          hookedPairs regexec (registered regcomp (sinceCommit calls))
            (excluded regcomp (sinceCommit calls)) maps := by
    intro calls
    rw [pltRun_append, pltStep, gCtx_pltRun]
    simp only [pltHookProcessRegex_eq]
  constructor
  · exact hcommit calls
  · intro calls' hregistered hexcluded
    rw [hcommit calls', hregistered, hookedPairs_congr hexcluded]

end Spec

def mappedAt (inode : Nat) (path : String) : MapInfo :=
  { start := 0, endAddr := 4096, perms := PROT_READ, isPrivate := true, offset := 0,
    dev := 1, inode := inode, path := bytesOf path }

/-- A regex without special characters matches wherever it occurs. -/
def containsText (re path : List Byte) : Bool :=
  decide (re <:+: path)

/-- An exclusion counts for a registration that follows it. -/
theorem commit_hands_hookedPairs_excluded_first :
    (pltRun some containsText
      ([PltCall.exclude (some (bytesOf "libc")) none,
          PltCall.register (some (bytesOf "lib")) (some (bytesOf "open")) 5 0] ++
        [PltCall.commit [mappedAt 20 "/libui", mappedAt 21 "/libc"]])).handed =
      [⟨1, 20, bytesOf "open", 5, 0⟩] := by
  have hplaced := (commit_hands_hookedPairs some containsText
    [PltCall.register (some (bytesOf "lib")) (some (bytesOf "open")) 5 0,
      PltCall.exclude (some (bytesOf "libc")) none]
    [mappedAt 20 "/libui", mappedAt 21 "/libc"]).right
    [PltCall.exclude (some (bytesOf "libc")) none,
      PltCall.register (some (bytesOf "lib")) (some (bytesOf "open")) 5 0]
    rfl (fun _ => Iff.rfl)
  rw [hplaced]
  decide +kernel

end Injector
end ReZygisk
