import ReZygisk.Foundation.Bytes
import ReZygisk.Injector.Fork
import ReZygisk.Tracer.Maps

/-!
# Unloading the injector

The injector hooks imported functions of two system libraries and three native
methods.  When a context of a child is destroyed it gives the methods back and
hooks one more function, and the first call of that function on the main thread
gives the imports back and unmaps the library.  Replacing an import is the work
of `lsplt`: requests are registered, and a commit carries them out one by one,
each with an outcome of its own.
-/

namespace ReZygisk
namespace Injector

open Foundation
open Tracer

namespace Unload

/-!
# Imports and the library
-/

/-- An import of a mapped file. -/
structure SlotKey where
  dev : Nat
  inode : Nat
  symbol : List Byte
  deriving DecidableEq

/-- The functions of the injector that replace an import, each with a variable
for the function it replaced. -/
inductive HookVar where
  | fork
  | unshare
  | strdup
  | androidLogClose
  | pthreadAttrDestroy
  deriving DecidableEq

def HookVar.symbol : HookVar -> List Byte
  | HookVar.fork => bytesOf "fork"
  | HookVar.unshare => bytesOf "unshare"
  | HookVar.strdup => bytesOf "strdup"
  | HookVar.androidLogClose => bytesOf "__android_log_close"
  | HookVar.pthreadAttrDestroy => bytesOf "pthread_attr_destroy"

/-- Where the injector is mapped. -/
structure Library where
  start : Nat
  limit : Nat
  newFunc : HookVar -> Nat
  start_pos : 0 < start
  inside : forall v, start ≤ newFunc v ∧ newFunc v < limit
  distinct : forall v v', newFunc v = newFunc v' -> v = v'

def Library.Owns (lib : Library) (addr : Nat) : Prop :=
  lib.start ≤ addr ∧ addr < lib.limit

instance (lib : Library) (addr : Nat) : Decidable (lib.Owns addr) :=
  inferInstanceAs (Decidable (lib.start ≤ addr ∧ addr < lib.limit))

/-- A registered hook that has not been committed. -/
structure Request where
  key : SlotKey
  callback : Nat
  backup : Option HookVar

/-- What `plt_hook_list` points to. -/
inductive HookList where
  | live (entries : List (SlotKey × HookVar))
  | deleted

structure Process where
  slots : SlotKey -> Nat
  old : HookVar -> Nat
  hookList : HookList
  requests : List Request
  globals : Globals
  loaded : Bool

/-!
# Registering and committing
-/

/-- `lsplt::RegisterHook` -/
def registerHook (p : Process) (r : Request) : Bool × Process :=
  if r.key.dev = 0 ∨ r.key.inode = 0 ∨ r.key.symbol = [] ∨ r.callback = 0 then (false, p)
  else (true, { p with requests := p.requests ++ [r] })

def storeBackup (old : HookVar -> Nat) (backup : Option HookVar) (addr : Nat) : HookVar -> Nat :=
  match backup with
  | none => old
  | some v => fun v' => if v' = v then addr else old v'

/-- One request carried out: the backup is the function replaced, and null when
it could not be replaced. -/
def patch (p : Process) (r : Request) (ok : Bool) : Process :=
  if ok then
    { p with
      slots := fun key => if key = r.key then r.callback else p.slots key
      old := storeBackup p.old r.backup (p.slots r.key) }
  else { p with old := storeBackup p.old r.backup 0 }

def commitRequests : List Request -> List Bool -> Process -> Bool × Process
  | [], _, p => (true, p)
  | r :: rs, oks, p =>
      let rest := commitRequests rs oks.tail (patch p r (oks.headD false))
      (oks.headD false && rest.1, rest.2)

/-- `lsplt::CommitHook`; `oks` are the outcomes of the requests in order. -/
def commitHook (oks : List Bool) (p : Process) : Bool × Process :=
  commitRequests p.requests oks { p with requests := [] }

def hookRegister (lib : Library) (p : Process) (entry : SlotKey × HookVar) : Process :=
  match registerHook p
      { key := entry.1, callback := lib.newFunc entry.2, backup := some entry.2 } with
  | (false, p) => p
  | (true, p) =>
      match p.hookList with
      | HookList.live entries => { p with hookList := HookList.live (entries ++ [entry]) }
      | HookList.deleted => p

/-- The device and inode of the first mapping whose path ends so, zeros when
there is none. -/
def findLibrary (maps : List MapInfo) (suffix : String) (v : HookVar) : SlotKey :=
  match maps.find? (fun map => (bytesOf suffix).isSuffixOf map.path) with
  | some map => { dev := map.dev, inode := map.inode, symbol := v.symbol }
  | none => { dev := 0, inode := 0, symbol := v.symbol }

def runtimeHooks : List HookVar :=
  [HookVar.fork, HookVar.unshare, HookVar.strdup, HookVar.androidLogClose]

def dropUnhooked (p : Process) : Process :=
  match p.hookList with
  | HookList.live entries =>
      { p with hookList := HookList.live (entries.filter (fun entry => p.old entry.2 != 0)) }
  | HookList.deleted => p

def hookFunctions (lib : Library) (maps : List MapInfo) (oks : List Bool) (p : Process) :
    Process :=
  let entries := runtimeHooks.map (fun v => (findLibrary maps "libandroid_runtime.so" v, v))
  let registered := entries.foldl (hookRegister lib) { p with hookList := HookList.live [] }
  dropUnhooked (commitHook oks registered).2

def hookUnloader (lib : Library) (maps : List MapInfo) (oks : List Bool) (p : Process) : Process :=
  (commitHook oks (hookRegister lib p
    (findLibrary maps "/libart.so" HookVar.pthreadAttrDestroy, HookVar.pthreadAttrDestroy))).2

/-- Registering the function that each entry replaced. -/
def unregister (p : Process) (entry : SlotKey × HookVar) : Process :=
  (registerHook p { key := entry.1, callback := p.old entry.2, backup := none }).2

/-- The list is read after it was deleted when there is no result. -/
def unhookFunctions (oks : List Bool) (p : Process) : Option Process :=
  match p.hookList with
  | HookList.deleted => none
  | HookList.live entries =>
      let committed := commitHook oks
        { entries.foldl unregister p with hookList := HookList.deleted }
      if committed.1 then some committed.2
      else
        some { committed.2 with
               globals := { committed.2.globals with shouldUnmapZygisk := false } }

/-- `new_pthread_attr_destroy`; without a result the process has crashed. -/
def newPthreadAttrDestroy (mainThread : Bool) (oks : List Bool) (p : Process) : Option Process :=
  if p.old HookVar.pthreadAttrDestroy = 0 then none
  else if mainThread && p.globals.shouldUnmapZygisk then
    match unhookFunctions oks p with
    | none => none
    | some p =>
        if p.globals.shouldUnmapZygisk then some { p with loaded := false } else some p
  else some p

/-!
# Runs of a process
-/

inductive Event where
  /-- A module registers a hook of its own. -/
  | moduleRegister (key : SlotKey) (callback : Nat)
  | moduleCommit (oks : List Bool)
  /-- A module, or the runtime, binds native methods. -/
  | bindMethods (bind : MethodTable -> MethodTable)
  | destroyContext (failedAt : List Byte -> Option Nat) (maps : List MapInfo) (oks : List Bool)
  /-- A call through an import. -/
  | call (key : SlotKey) (mainThread : Bool) (oks : List Bool)

/-- The process after an event; without a result it has crashed. -/
def step (lib : Library) (p : Process) : Event -> Option Process
  | Event.moduleRegister key callback =>
      some (registerHook p { key := key, callback := callback, backup := none }).2
  | Event.moduleCommit oks => some (commitHook oks p).2
  | Event.bindMethods bind =>
      some { p with globals := { p.globals with methods := bind p.globals.methods } }
  | Event.destroyContext failedAt maps oks =>
      match giveUpHooks failedAt p.globals with
      | none => none
      | some globals => some (hookUnloader lib maps oks { p with globals := globals })
  | Event.call key mainThread oks =>
      if lib.Owns (p.slots key) then
        if p.loaded then
          if p.slots key = lib.newFunc HookVar.pthreadAttrDestroy then
            newPthreadAttrDestroy mainThread oks p
          else some p
        else none
      else some p

end Unload

end Injector
end ReZygisk
