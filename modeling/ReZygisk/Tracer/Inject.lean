import ReZygisk.Foundation.Loop
import ReZygisk.Tracer.Maps
import ReZygisk.Tracer.Remote

/-!
# Injecting into the zygote

`inject_on_main` finds the entry address in the zygote's auxiliary vector,
replaces it with an address that faults, waits for the fault, and from there
makes the zygote load the library.  On the way out it has to put back both the
auxiliary vector and the registers.
-/

namespace ReZygisk
namespace Tracer

open Foundation
open Kernel

/-!
# Outcomes

One field for each step whose result the tracer does not decide.  The two
walks read a word for each pass, so their outcomes are functions of the pass
and of the address; a read that fails leaves some value in the buffer too.
-/

inductive RemoteFunc where
  | dlopen
  | dlerror
  | strlen
  | dlsym
  deriving DecidableEq

def RemoteFunc.module : RemoteFunc -> List Byte
  | RemoteFunc.dlopen => bytesOf "libdl.so"
  | RemoteFunc.dlerror => bytesOf "libdl.so"
  | RemoteFunc.strlen => bytesOf "libc.so"
  | RemoteFunc.dlsym => bytesOf "libdl.so"

structure InjectOutcome where
  startRegs : Option Regs
  argc : Int
  envp : Nat -> Nat -> Nat
  auxv : Nat -> Nat -> Nat × Nat
  breakWrite : Int
  ran : Memory -> Memory
  stop : Waitpid
  trapRegs : Option Regs
  restoreWrite : Int
  remoteMap : List MapInfo
  localMap : List MapInfo
  sym : RemoteFunc -> Nat
  libPathWrite : Int
  dlopen : CallOutcome
  dlerror : CallOutcome
  strlen : CallOutcome
  entryNameWrite : Int
  dlsym : CallOutcome
  tmpPathWrite : Int
  entry : CallOutcome
  restoreRegs : Bool

namespace InjectOutcome

def libcReturnAddr (o : InjectOutcome) : Nat :=
  findModuleReturnAddr o.remoteMap (bytesOf "libc.so")

def funcAddr (o : InjectOutcome) (arch : Arch) (func : RemoteFunc) : Nat :=
  findFuncAddr arch.lp (o.sym func) o.localMap o.remoteMap func.module

end InjectOutcome

inductive Ending where
  | returned (value : Bool) (t : Tracee)
  | exited

/-!
# Walking the kernel's argument block
-/

def AT_NULL : Nat := 0
def AT_ENTRY : Nat := 9

section Walk

variable (arch : Arch) (o : InjectOutcome)

def movePtr (p : Nat) (n : Int) : Nat :=
  arch.lp.sizeT ((p : Int) + n * arch.word)

def envpBody (pos : Nat × Nat) : LoopStep (Nat × Nat) Nat :=
  if o.envp pos.1 pos.2 = 0 then LoopStep.done pos.2
  else LoopStep.again (pos.1 + 1, movePtr arch pos.2 1)

/-- The entry address and the address it is stored at; both are `0` when the
vector ends without one. -/
def auxvBody (pos : Nat × Nat) : LoopStep (Nat × Nat) (Nat × Nat) :=
  if (o.auxv pos.1 pos.2).1 = AT_ENTRY then
    LoopStep.done ((o.auxv pos.1 pos.2).2, movePtr arch pos.2 1)
  else if (o.auxv pos.1 pos.2).1 = AT_NULL then LoopStep.done (0, 0)
  else LoopStep.again (pos.1 + 1, movePtr arch pos.2 2)

def walk (fuel arg : Nat) : Option (Nat × Nat) :=
  match iterate (envpBody arch o) fuel (0, movePtr arch arg (o.argc + 2)) with
  | none => none
  | some p => iterate (auxvBody arch o) fuel (0, movePtr arch p 1)

variable {arch o}

theorem walk_unique {fuel fuel' arg : Nat} {found found' : Nat × Nat}
    (h : walk arch o fuel arg = some found)
    (h' : walk arch o fuel' arg = some found') : found = found' := by
  rw [walk] at h h'
  cases hp : iterate (envpBody arch o) fuel (0, movePtr arch arg (o.argc + 2)) with
  | none => simp [hp] at h
  | some p =>
      cases hp' : iterate (envpBody arch o) fuel'
          (0, movePtr arch arg (o.argc + 2)) with
      | none => simp [hp'] at h'
      | some p' =>
          have heq : p = p' := loopReturns_unique ⟨fuel, hp⟩ ⟨fuel', hp'⟩
          simp only [hp] at h
          simp only [hp', ← heq] at h'
          exact loopReturns_unique ⟨fuel, h⟩ ⟨fuel', h'⟩

end Walk

/-!
# The injection
-/

/-- `(-0x05ec1cff & ~1) | (entry_addr & 1)`. -/
def breakAddr (arch : Arch) (entryAddr : Nat) : Nat :=
  arch.lp.sizeT (-0x05ec1cff) / 2 * 2 + entryAddr % 2

def RTLD_NOW (arch : Arch) : Nat :=
  match arch.lp with
  | Lp.lp64 => 2
  | Lp.lp32 => 0

section Inject

variable (arch : Arch) (libPath tmpPath : List Byte) (o : InjectOutcome)

def restoreRegs (entryAddr : Nat) (backup : Regs) (t : Tracee) : Ending :=
  if o.restoreRegs then
    Ending.returned true
      (t.request (Request.setRegs (backup.set arch.regIp entryAddr)))
  else Ending.returned false t

def callEntry (entryAddr : Nat) (backup : Regs) (handle injectorEntry : Nat)
    (s : Session) : Ending :=
  let pushed := pushString arch o.tmpPathWrite tmpPath s
  match remoteCall arch o.entry injectorEntry o.libcReturnAddr
      [handle, pushed.regs arch.regSp] pushed with
  | CallResult.exited => Ending.exited
  | CallResult.returned _ s' => restoreRegs arch o entryAddr backup s'.zygote

def resolveEntry (entryAddr : Nat) (backup : Regs) (handle : Nat)
    (s : Session) : Ending :=
  if o.funcAddr arch RemoteFunc.dlsym = 0 then Ending.returned false s.zygote
  else
    let pushed := pushString arch o.entryNameWrite (bytesOf "entry") s
    match remoteCall arch o.dlsym (o.funcAddr arch RemoteFunc.dlsym)
        o.libcReturnAddr [handle, pushed.regs arch.regSp] pushed with
    | CallResult.exited => Ending.exited
    | CallResult.returned injectorEntry s' =>
        if injectorEntry = 0 then Ending.returned false s'.zygote
        else callEntry arch tmpPath o entryAddr backup handle injectorEntry s'

def reportDlerror (s : Session) : Ending :=
  if o.funcAddr arch RemoteFunc.dlerror = 0 then Ending.returned false s.zygote
  else
    match remoteCall arch o.dlerror (o.funcAddr arch RemoteFunc.dlerror)
        o.libcReturnAddr [] s with
    | CallResult.exited => Ending.exited
    | CallResult.returned str s' =>
        if str = 0 ∨ o.funcAddr arch RemoteFunc.strlen = 0 then
          Ending.returned false s'.zygote
        else
          match remoteCall arch o.strlen (o.funcAddr arch RemoteFunc.strlen)
              o.libcReturnAddr [str] s' with
          | CallResult.exited => Ending.exited
          | CallResult.returned _ s'' => Ending.returned false s''.zygote

def openLibrary (entryAddr : Nat) (s : Session) : Ending :=
  if o.funcAddr arch RemoteFunc.dlopen = 0 then Ending.returned false s.zygote
  else
    let pushed := pushString arch o.libPathWrite libPath s
    match remoteCall arch o.dlopen (o.funcAddr arch RemoteFunc.dlopen)
        o.libcReturnAddr [pushed.regs arch.regSp, RTLD_NOW arch] pushed with
    | CallResult.exited => Ending.exited
    | CallResult.returned handle s' =>
        if handle = 0 then reportDlerror arch o s'
        else resolveEntry arch tmpPath o entryAddr s.regs handle s'

/-- From the trap on.  The write counts as failed only if it wrote nothing, as
in the source. -/
def atTrap (entryAddr slot : Nat) (regs : Regs) (t : Tracee) : Ending :=
  let restored := t.writeProc o.restoreWrite slot (leBytes arch.word entryAddr)
  if o.restoreWrite = 0 then Ending.returned false restored
  else
    openLibrary arch libPath tmpPath o entryAddr
      { regs := regs, zygote := restored }

def afterStop (entryAddr slot status : Nat) (t : Tracee) : Ending :=
  if WIFSTOPPED status = true ∧ WSTOPSIG status = SIGSEGV then
    match o.trapRegs with
    | none => Ending.returned false t
    | some regs =>
        if regs arch.regIp / 2 ≠ breakAddr arch entryAddr / 2 then
          Ending.returned false t
        else atTrap arch libPath tmpPath o entryAddr slot regs t
  else Ending.returned false t

def breakAtEntry (entryAddr slot : Nat) (t : Tracee) : Ending :=
  if entryAddr = 0 then Ending.returned false t
  else
    let broken := t.writeProc o.breakWrite slot
      (leBytes arch.word (breakAddr arch entryAddr))
    if o.breakWrite = 0 then Ending.returned false broken
    else
      match waitForTrace o.stop with
      | none => Ending.exited
      | some status =>
          afterStop arch libPath tmpPath o entryAddr slot status
            (broken.cont o.ran)

/-- `inject_on_main`; without enough fuel a walk has not ended. -/
def injectOnMain (fuel : Nat) (t : Tracee) : Option Ending :=
  match o.startRegs with
  | none => some (Ending.returned false t)
  | some regs =>
      match walk arch o fuel (regs arch.regSp) with
      | none => none
      | some found =>
          some (breakAtEntry arch libPath tmpPath o found.1 found.2 t)

end Inject

end Tracer
end ReZygisk
