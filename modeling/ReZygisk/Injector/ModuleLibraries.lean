import ReZygisk.Injector.ModuleIdentity
import ReZygisk.Zygiskd.LoadModules

/-!
# From the directory of the modules to a process

The daemon reads the libraries once, when it starts.  Every process gets the same files
for as long as the daemon runs, and could write to them if they were not sealed.
-/

namespace ReZygisk
namespace Injector

open Foundation
open Kernel
open Zygiskd

/-- What a file system allows as a name. -/
def FileName (name : List Byte) : Prop :=
  (0 : Byte) ∉ name ∧ name.length ≤ 255

theorem offered_named {arch : List Byte} {limit : Nat} {entries : List Entry}
    (h : forall e, e ∈ entries -> FileName e.name) (opened : Nat) :
    forall lib, lib ∈ offered arch limit opened entries -> FileName lib.1 := by
  induction entries generalizing opened with
  | nil =>
      intro lib hlib
      cases hlib
  | cons e rest ih =>
      have hrest := ih (fun e' he' => h e' (List.mem_cons_of_mem e he'))
      intro lib hlib
      rw [offered] at hlib
      split at hlib
      · exact hrest _ lib hlib
      · split at hlib
        · rcases List.mem_cons.mp hlib with heq | hlater
          · rw [heq]
            exact h e List.mem_cons_self
          · exact hrest _ lib hlater
        · exact hrest _ lib hlib

section Loaded

variable {lp : Lp} {files files' : OpenFiles} {modules : List Module}
  {libraries : List (List Byte × List Byte)}

/-- What is loaded at the start is a list of modules as the daemon serves it. -/
theorem context_of_loaded (lp : Lp) (h : LoadedAs files modules libraries files')
    (hlimit : files.limit ≤ 2 ^ 31) (hnames : forall lib, lib ∈ libraries -> FileName lib.1) :
    exists ctx : Context lp, ctx.modules = modules := by
  have hname : forall m, m ∈ modules -> FileName m.name := by
    intro m hm
    rcases List.forall₂_iff_get.mp h.copied with ⟨hlength, hget⟩
    rcases List.mem_iff_get.mp hm with ⟨i, hi⟩
    have hlib : i.val < libraries.length := Nat.lt_of_lt_of_eq i.isLt hlength
    rw [← hi, (hget i.val i.isLt hlib).left]
    exact hnames _ (List.get_mem _ _)
  have hlong : 255 ≤ lp.ptrdiffMax := by
    cases lp <;> decide
  refine ⟨{ modules := modules, name_nulFree := ?_, name_length := ?_, fds_nodup := h.nodup,
            fds_int := ?_ }, rfl⟩
  · intro m hm
    exact (hname m hm).left
  · intro m hm
    exact (hname m hm).right.trans hlong
  · intro m hm
    exact Nat.lt_of_lt_of_le (h.new m hm).right hlimit

/-- What a process finds at the descriptors it is sent. -/
def librariesAt (files : OpenFiles) (pairs : List (List Byte × Int)) :
    List (List Byte × Option (List Byte)) :=
  pairs.map (fun p => (p.1, files.content p.2.toNat))

theorem librariesAt_loaded (h : LoadedAs files modules libraries files')
    (calls : List (Nat × MemfdOp)) :
    librariesAt (files'.uses calls) (readPairs modules) =
      libraries.map (fun lib => (lib.1, some lib.2)) := by
  unfold librariesAt readPairs
  rw [List.map_map]
  have hcopied := h.copied
  clear h
  induction hcopied with
  | nil => rfl
  | cons hfirst _ ih =>
      rw [List.map_cons, List.map_cons, ih]
      have hcontent := (hfirst.right.uses calls).content
      show (_, (files'.uses calls).content (Int.toNat (Int.ofNat _))) :: _ = _
      rw [Int.ofNat_eq_natCast, Int.toNat_natCast, hcontent, ← hfirst.left]

end Loaded

/-- Whatever the processes have tried with the descriptors they were sent, and however the
reply gets to the next one: it reads the modules that were enabled and had a library for
its architecture when the daemon started, in the order of the directory, and the library
that each of them had then. -/
theorem libraries_read {lp : Lp} {d : Device} {files files' : OpenFiles}
    {modules : List Module} (hlimit : files.limit ≤ 2 ^ 31)
    (hnames : forall e, e ∈ d.entries -> FileName e.name)
    (hstart : startModules lp d files = Outcome.ok modules files')
    (calls : List (Nat × MemfdOp)) (uninit : Uninit) {env : RequestEnv} (henv : env.lp = lp)
    {w w' : World} (hw : w.effects = [])
    (hreply : Zygiskd.readModules modules env w = Outcome.ok () w')
    {reads : List ReadResult} {recvs : List RecvResult}
    (hreads : ReadResult.failed ∉ reads) (hrecvs : RecvResult.interrupted ∉ recvs) :
    exists arch pairs, getArch lp d.abi = some arch ∧
      Conn.readModules lp uninit
          (some { items := replyItems w'.effects, reads := reads, recvs := recvs }) =
        some pairs ∧
      librariesAt (files'.uses calls) pairs =
        (offered arch files.limit (files.opened.card + 1) d.entries).map
          (fun lib => (lib.1, some lib.2)) := by
  unfold startModules at hstart
  cases harch : getArch lp d.abi with
  | none =>
      rw [harch] at hstart
      cases hstart
  | some arch =>
      rw [harch] at hstart
      have hloaded := loadModules_ok hstart
      rcases context_of_loaded lp hloaded hlimit (offered_named hnames _) with ⟨ctx, hctx⟩
      rw [← hctx] at hreply
      refine ⟨arch, readPairs ctx.modules, rfl,
        readModules_reply uninit henv hw hreply hreads hrecvs, ?_⟩
      rw [hctx]
      exact librariesAt_loaded hloaded calls

/-- A module that is enabled and one that is not, both with a library. -/
def armDevice : Device :=
  let entry := fun (name : String) (disabled : Bool) =>
    { name := bytesOf name
      file := fun path =>
        if path = bytesOf "zygisk/arm64-v8a.so" then some [1, 2, 3]
        else if path = bytesOf "disable" ∧ disabled = true then some []
        else none
      creates := true, opens := true, copies := true, addsSeals := true : Entry }
  { abi := bytesOf "arm64-v8a", modulesDir := some [some (entry "off" true), some (entry "on" false)] }

def threeOpen : OpenFiles :=
  { limit := 64, opened := {0, 1, 2}, below := by decide, memfds := fun _ => none }

/-- A process that writes to the library of the enabled module does not get at it. -/
theorem libraries_read_armDevice :
    exists modules files' w', startModules Lp.lp64 armDevice threeOpen =
        Outcome.ok modules files' ∧
      Zygiskd.readModules modules plainEnv (requestWorld [] (fun _ => none)) =
        Outcome.ok () w' ∧
      exists pairs,
        Conn.readModules Lp.lp64 ⟨fun _ => 0, -1⟩ (some ⟨replyItems w'.effects, [], []⟩) =
          some pairs ∧
        librariesAt (files'.uses [(4, MemfdOp.write 0 [9, 9, 9])]) pairs =
          [(bytesOf "on", some [1, 2, 3])] := by
  have hnames : forall e, e ∈ armDevice.entries -> FileName e.name := by
    intro e he
    rcases List.mem_cons.mp he with heq | he
    · rw [heq]
      exact ⟨by decide, by decide⟩
    · rw [List.mem_singleton.mp he]
      exact ⟨by decide, by decide⟩
  rcases @libraries_read Lp.lp64 armDevice threeOpen _ _ (by decide) hnames rfl
    [(4, MemfdOp.write 0 [9, 9, 9])] ⟨fun _ => 0, -1⟩ plainEnv rfl
    (requestWorld [] (fun _ => none)) _ rfl rfl [] [] (by decide) (by decide) with
    ⟨arch, pairs, harch, hread, hlibraries⟩
  have hfound : getArch Lp.lp64 armDevice.abi = some (bytesOf "arm64-v8a") := by decide +kernel
  cases harch.symm.trans hfound
  refine ⟨_, _, _, rfl, rfl, pairs, hread, hlibraries.trans ?_⟩
  decide +kernel

end Injector
end ReZygisk
