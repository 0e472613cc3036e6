import ReZygisk.Tracer.EntryWalk
import ReZygisk.Tracer.StackFrame
import ReZygisk.Tracer.TraceZygote

/-!
# The zygote's side of an injection

What the tracer does is a list of requests.  What the zygote sees of them is the states
it runs on from, one for each time it is let go.  A zygote that survives the tracer has
called three functions, with their arguments as its calling convention has them, and has
gone on at its entry.
-/

namespace ReZygisk
namespace Tracer

open Foundation
open Kernel

/-!
# The `trace` command
-/

/-- What becomes of the zygote until the tracer is gone. -/
inductive Fate where
  | killed
  | released (t : Tracee)

def Tracee.isDetached (t : Tracee) : Bool :=
  match t.requests.getLast? with
  | some (Request.detach _) => true
  | _ => false

/-- `main` with `trace`.  It kills a zygote that it has failed with, and its end kills one
that is still seized. -/
def traceCommand (arch : Arch) (tmpPath : List Byte) (o : TraceOutcome) (fuel : Nat)
    (memory : Memory) : Option Fate :=
  (traceZygote arch tmpPath o fuel memory).map (fun ending =>
    match ending with
    | Ending.exited => Fate.killed
    | Ending.returned false _ => Fate.killed
    | Ending.returned true t => if t.isDetached then Fate.released t else Fate.killed)

/-!
# Running on
-/

/-- The registers that were set for the zygote, or its own. -/
structure Resumed where
  regs : Option Regs
  memory : Memory

/-- The zygote under a list of requests: what it does each time that it runs is given,
and the states it has run on from are kept. -/
structure View where
  regs : Option Regs
  memory : Memory
  rans : List (Memory -> Memory)
  runs : List Resumed

def View.step (v : View) : Request -> View
  | Request.seize => v
  | Request.kill _ => v
  | Request.write addr bytes => { v with memory := v.memory.write addr bytes }
  | Request.setRegs regs => { v with regs := some regs }
  | Request.cont =>
      { regs := none, memory := v.rans.headD id v.memory, rans := v.rans.tail,
        runs := v.runs ++ [{ regs := v.regs, memory := v.memory }] }
  | Request.detach _ =>
      { v with runs := v.runs ++ [{ regs := v.regs, memory := v.memory }] }

def TraceOutcome.rans (o : TraceOutcome) : List (Memory -> Memory) :=
  [o.inject.ran, o.inject.dlopen.ran, o.inject.dlsym.ran, o.inject.entry.ran, o.firstRan,
    o.secondRan]

def zygoteView (o : TraceOutcome) (memory : Memory) : View :=
  { regs := none, memory := memory, rans := o.rans, runs := [] }

def zygoteRuns (o : TraceOutcome) (memory : Memory) (t : Tracee) : List Resumed :=
  (t.requests.foldl View.step (zygoteView o memory)).runs

/-- The view after the requests so far; its memory is that of the tracee. -/
def Seen (v : View) (t : Tracee) (regs : Option Regs) (rans : List (Memory -> Memory))
    (runs : List Resumed) : Prop :=
  t.requests.foldl View.step v = { regs := regs, memory := t.memory, rans := rans, runs := runs }

section Requests

variable {arch : Arch} {v : View} {t : Tracee} {s s' : Session} {regs : Option Regs}
  {ran : Memory -> Memory} {rans : List (Memory -> Memory)} {runs : List Resumed}
  {c : CallOutcome} {funcAddr returnAddr value : Nat} {args : List Nat}

/-- One request more is one step of the view. -/
theorem Seen.next {t' : Tracee} {r : Request} {regs' : Option Regs}
    {rans' : List (Memory -> Memory)} {runs' : List Resumed} (h : Seen v t regs rans runs)
    (ht : t'.requests = t.requests ++ [r])
    (hview : View.step { regs := regs, memory := t.memory, rans := rans, runs := runs } r =
      { regs := regs', memory := t'.memory, rans := rans', runs := runs' }) :
    Seen v t' regs' rans' runs' := by
  unfold Seen at h ⊢
  rw [ht, List.foldl_append, h]
  exact hview

theorem Seen.writeProc (h : Seen v t regs rans runs) (result : Int) (addr : Nat)
    (bytes : List Byte) : Seen v (t.writeProc result addr bytes) regs rans runs :=
  h.next rfl rfl

theorem Seen.setRegs (h : Seen v t regs rans runs) (new : Regs) :
    Seen v (t.request (Request.setRegs new)) (some new) rans runs :=
  h.next rfl rfl

theorem Seen.kill (h : Seen v t regs rans runs) (sig : Nat) :
    Seen v (t.request (Request.kill sig)) regs rans runs :=
  h.next rfl rfl

theorem Seen.cont (h : Seen v t regs (ran :: rans) runs) :
    Seen v (t.cont ran) none rans (runs ++ [{ regs := regs, memory := t.memory }]) :=
  h.next rfl rfl

theorem Seen.detach (h : Seen v t regs rans runs) (sig : Nat) :
    Seen v (t.request (Request.detach sig)) regs rans
      (runs ++ [{ regs := regs, memory := t.memory }]) :=
  h.next rfl rfl

theorem Seen.prepareCall (h : Seen v s.zygote regs rans runs) (c : CallOutcome)
    (funcAddr returnAddr : Nat) (args : List Nat) :
    Seen v (prepareCall arch c funcAddr returnAddr args s).zygote regs rans runs := by
  have hargs : Seen v (pushArgs arch c args (withArgRegs arch args s)).zygote regs rans runs := by
    unfold pushArgs
    split
    · exact h.writeProc _ _ _
    · exact h
  cases arch with
  | x86_64 => exact hargs.writeProc _ _ _
  | i386 => exact hargs.writeProc _ _ _
  | aarch64 => exact hargs
  | arm => exact hargs

/-- A call whose registers were set is one more time that the zygote runs on. -/
theorem Seen.remoteCall (h : Seen v s.zygote regs (c.ran :: rans) runs) (hset : c.setRegs = true)
    (hcall : remoteCall arch c funcAddr returnAddr args s = CallResult.returned value s') :
    Seen v s'.zygote none rans (runs ++
      [{ regs := some (Tracer.prepareCall arch c funcAddr returnAddr args s).regs
         memory := (Tracer.prepareCall arch c funcAddr returnAddr args s).zygote.memory }]) := by
  have hprepared : Seen v (Tracer.prepareCall arch c funcAddr returnAddr args s).zygote regs
      (c.ran :: rans) runs := h.prepareCall c funcAddr returnAddr args
  have hseen := (hprepared.setRegs
    (Tracer.prepareCall arch c funcAddr returnAddr args s).regs).cont
  rw [Tracer.remoteCall, if_pos hset, awaitCall] at hcall
  split at hcall
  · cases hcall
  · cases hcall
    exact hseen
  · cases hcall
    exact hseen

end Requests

/-!
# Calls of the zygote
-/

/-- The way into a function; an odd address is a Thumb one. -/
def Enters (arch : Arch) (funcAddr : Nat) (regs : Regs) : Prop :=
  match arch with
  | Arch.x86_64 | Arch.i386 | Arch.aarch64 => regs arch.regIp = funcAddr
  | Arch.arm => regs 15 + funcAddr % 2 = funcAddr ∧ regs 16 / CPSR_T_MASK % 2 = funcAddr % 2

/-- The state that a session runs on from once its registers are set. -/
def Session.resumed (s : Session) : Resumed :=
  { regs := some s.regs, memory := s.zygote.memory }

/-- The zygote runs on into a function that finds these arguments. -/
def Calls (arch : Arch) (funcAddr returnAddr : Nat) (args : List Nat) (r : Resumed) : Prop :=
  exists s : Session, r = s.resumed ∧ Enters arch funcAddr s.regs ∧
    Conforms arch returnAddr args s

def HoldsText (m : Memory) (addr : Nat) (str : List Byte) : Prop :=
  m.read addr (str.length + 1) = str ++ [0]

/-- A function with a text among its arguments, which are given for the address of it. -/
structure TextCall where
  funcAddr : Nat
  args : Nat -> List Nat
  text : List Byte

def Performs (arch : Arch) (returnAddr : Nat) (call : TextCall) (r : Resumed) : Prop :=
  exists p, Calls arch call.funcAddr returnAddr (call.args p) r ∧ HoldsText r.memory p call.text

/-- The function returns with the stack pointer of its convention, and writes only below
its arguments. -/
def Returns (arch : Arch) (c : CallOutcome) (r : Resumed) : Prop :=
  forall regs, r.regs = some regs ->
    (forall after, c.regsAfter = some after -> after arch.regSp = stackArgs arch regs) ∧
    Memory.AgreeFrom (stackArgs arch regs) r.memory (c.ran r.memory)

/-- The stack that a text and a call with two arguments need. -/
def textCallDepth (arch : Arch) (str : List Byte) : Nat :=
  str.length + 16 + callDepth arch [0, 0]

section Calling

variable {arch : Arch} {c : CallOutcome} {s s' : Session}
  {funcAddr returnAddr value : Nat} {args : List Nat}

theorem thumb_bit (psr : Nat) : (psr ||| CPSR_T_MASK) / CPSR_T_MASK % 2 = 1 := by
  have hbit : (psr ||| 2 ^ 5).testBit 5 = true := by
    rw [Nat.testBit_or, Nat.testBit_two_pow_self, Bool.or_true]
  rw [Nat.testBit_eq_decide_div_mod_eq] at hbit
  exact of_decide_eq_true hbit

theorem setArmPc_enters (funcAddr : Nat) (regs : Regs) :
    Enters Arch.arm funcAddr (setArmPc funcAddr regs) := by
  unfold setArmPc
  split
  · rename_i hodd
    constructor
    · show funcAddr - 1 + funcAddr % 2 = funcAddr
      omega
    · rw [hodd]
      exact thumb_bit (regs 16)
  · rename_i heven
    constructor
    · show funcAddr + funcAddr % 2 = funcAddr
      omega
    · show (regs 16 - (regs 16 / CPSR_T_MASK % 2) * CPSR_T_MASK) / CPSR_T_MASK % 2 = _
      unfold CPSR_T_MASK
      omega

theorem aimCall_enters (c : CallOutcome) (funcAddr returnAddr : Nat) (s : Session) :
    Enters arch funcAddr (aimCall arch c funcAddr returnAddr s).regs := by
  cases arch with
  | x86_64 =>
      exact Regs.set_same (pushReturnAddr Arch.x86_64 c returnAddr s).regs Arch.x86_64.regIp
        funcAddr
  | i386 =>
      exact Regs.set_same (pushReturnAddr Arch.i386 c returnAddr s).regs Arch.i386.regIp funcAddr
  | aarch64 => exact Regs.set_same (s.regs.set 30 returnAddr) Arch.aarch64.regIp funcAddr
  | arm => exact setArmPc_enters funcAddr _

/-- Two arguments are all in registers or all on the stack. -/
theorem pair_in_regs_or_on_stack (arch : Arch) :
    2 ≤ arch.argRegs.length ∨ arch.argRegs.length = 0 := by
  cases arch <;> decide

theorem conforms_pair (c : CallOutcome) (funcAddr : Nat) {a b : Nat}
    (hroom : Room arch (callDepth arch [a, b]) s.regs)
    (ha : a < 2 ^ arch.lp.bits) (hb : b < 2 ^ arch.lp.bits)
    (hret : returnAddr < 2 ^ arch.lp.bits) (hfull : WritesInFull arch c [a, b]) :
    Conforms arch returnAddr [a, b] (prepareCall arch c funcAddr returnAddr [a, b] s) := by
  have haligned := aligned_pushedArgs arch c [a, b] s
  rw [← stackArgs_aimCall c funcAddr returnAddr (room_pushedArgs c hroom)] at haligned
  have hwords : forall w, w ∈ [a, b] -> w < 2 ^ arch.lp.bits := by
    intro w hw
    rcases List.mem_cons.mp hw with heq | hw
    · rw [heq]
      exact ha
    · rw [List.mem_singleton.mp hw]
      exact hb
  refine ⟨?_, ?_, entryAligned_of_stackArgs haligned, returnsTo_aimCall hret hfull⟩
  · intro k reg w hreg hw
    exact inRegs_prepareCall c funcAddr returnAddr s hreg hw
  · intro k w hw
    rcases List.getElem?_eq_some_iff.mp hw with ⟨hk, _⟩
    rcases pair_in_regs_or_on_stack arch with hregs | hnone
    · have hlength : [a, b].length = 2 := rfl
      omega
    · rw [hnone, Nat.zero_add] at hw
      exact prepareCall_slot funcAddr returnAddr hroom hwords hfull hk hw

/-- The text of a call is where its address says when the function starts. -/
theorem pushed_text {str : List Byte} {result : Int} (hwhole : str.length + 1 ≤ result.toNat)
    (hroom : Room arch (callDepth arch args) (pushString arch result str s).regs) :
    HoldsText (prepareCall arch c funcAddr returnAddr args
        (pushString arch result str s)).zygote.memory
      ((pushString arch result str s).regs arch.regSp) str := by
  have hkept := (sinks_prepareCall c funcAddr returnAddr hroom).memory
  have hlength : (str ++ [0]).length = str.length + 1 := by
    rw [List.length_append, List.length_singleton]
  have htake : (str ++ [0]).take result.toNat = str ++ [0] := by
    apply List.take_of_length_le
    rw [hlength]
    exact hwhole
  have hread := @Memory.read_write_part (str ++ [0]) s.zygote.memory
    ((pushString arch result str s).regs arch.regSp) 0 (str ++ [0]).length
    (Nat.le_of_eq (Nat.zero_add _))
  rw [Nat.add_zero, List.drop_zero, List.take_length] at hread
  unfold HoldsText
  rw [hkept.read_eq (Nat.le_refl _), ← hlength]
  unfold pushString Tracee.writeProc
  simp only [htake]
  exact hread

theorem sinks_pushed {str : List Byte} (result : Int)
    (hroom : Room arch (textCallDepth arch str) s.regs) :
    Sinks arch (str.length + 16) s (pushString arch result str s) ∧
      forall a b, Room arch (callDepth arch [a, b]) (pushString arch result str s).regs := by
  have hpush : Sinks arch (str.length + 16) s (pushString arch result str s) := by
    apply sinks_pushString result
    apply hroom.mono
    unfold textCallDepth
    omega
  exact ⟨hpush, fun _ _ => hpush.room hroom⟩

/-- A text is pushed, and the function is called with its address. -/
theorem performs_pushed {call : TextCall} {result : Int} {a b : Nat}
    (hroom : Room arch (textCallDepth arch call.text) s.regs)
    (hargs : call.args ((pushString arch result call.text s).regs arch.regSp) = [a, b])
    (ha : a < 2 ^ arch.lp.bits) (hb : b < 2 ^ arch.lp.bits)
    (hret : returnAddr < 2 ^ arch.lp.bits) (hfull : WritesInFull arch c [a, b])
    (hwhole : call.text.length + 1 ≤ result.toNat) :
    Performs arch returnAddr call
      (prepareCall arch c call.funcAddr returnAddr [a, b]
        (pushString arch result call.text s)).resumed := by
  have hpushed := (sinks_pushed result hroom).right a b
  refine ⟨(pushString arch result call.text s).regs arch.regSp, ?_, pushed_text hwhole hpushed⟩
  rw [hargs]
  exact ⟨_, rfl, aimCall_enters c call.funcAddr returnAddr _,
    conforms_pair c call.funcAddr hpushed ha hb hret hfull⟩

theorem pushed_word {str : List Byte} (result : Int)
    (hroom : Room arch (textCallDepth arch str) s.regs) :
    (pushString arch result str s).regs arch.regSp < 2 ^ arch.lp.bits :=
  Nat.lt_of_le_of_lt (sinks_pushed result hroom).left.lower hroom.isWord

theorem sinks_textCall {str : List Byte} {result : Int} {a b : Nat}
    (hroom : Room arch (textCallDepth arch str) s.regs)
    (hreturns : Returns arch c
      (prepareCall arch c funcAddr returnAddr [a, b] (pushString arch result str s)).resumed)
    (hcall : remoteCall arch c funcAddr returnAddr [a, b] (pushString arch result str s) =
      CallResult.returned value s') : Sinks arch (textCallDepth arch str) s s' := by
  rcases sinks_pushed result hroom with ⟨hpush, hpushed⟩
  have hrun : (StackOp.call c funcAddr returnAddr [a, b]).run arch (pushString arch result str s) =
      some (value, s') := by
    rw [StackOp.run, hcall]
  have hcallee : (StackOp.call c funcAddr returnAddr [a, b]).CalleeReturns arch
      (pushString arch result str s) := hreturns _ rfl
  exact hpush.trans (sinks_run (hpushed a b) hcallee hrun)

end Calling

/-!
# The three calls
-/

/-- What the kernel and the zygote's maps are taken to give: all writes go through in
full, registers can be set, and registers and mappings are words. -/
structure Cooperates (arch : Arch) (tmpPath : List Byte) (o : InjectOutcome) : Prop where
  breakWrite : arch.word ≤ o.breakWrite.toNat
  restoreWrite : arch.word ≤ o.restoreWrite.toNat
  libPathWrite : (libPath arch tmpPath).length + 1 ≤ o.libPathWrite.toNat
  entryNameWrite : (bytesOf "entry").length + 1 ≤ o.entryNameWrite.toNat
  tmpPathWrite : tmpPath.length + 1 ≤ o.tmpPathWrite.toNat
  dlopenWrites : forall a b, WritesInFull arch o.dlopen [a, b]
  dlsymWrites : forall a b, WritesInFull arch o.dlsym [a, b]
  entryWrites : forall a b, WritesInFull arch o.entry [a, b]
  entryRegs : o.entry.setRegs = true
  libcWord : o.libcReturnAddr < 2 ^ arch.lp.bits
  handleWord : forall regs, o.dlopen.regsAfter = some regs ->
    regs arch.regRet < 2 ^ arch.lp.bits

/-- `dlopen(path, RTLD_NOW)`, `dlsym(handle, "entry")` and `entry(handle, tmp_path)`. -/
def injectionCalls (arch : Arch) (tmpPath : List Byte) (o : InjectOutcome)
    (handle injectorEntry : Nat) : List TextCall :=
  [{ funcAddr := o.funcAddr arch RemoteFunc.dlopen, args := fun p => [p, RTLD_NOW arch],
     text := libPath arch tmpPath },
   { funcAddr := o.funcAddr arch RemoteFunc.dlsym, args := fun p => [handle, p],
     text := bytesOf "entry" },
   { funcAddr := injectorEntry, args := fun p => [handle, p], text := tmpPath }]

def InjectOutcome.calls (o : InjectOutcome) : List CallOutcome :=
  [o.dlopen, o.dlsym, o.entry]

/-- The stack that the three calls need. -/
def injectionDepth (arch : Arch) (tmpPath : List Byte) : Nat :=
  textCallDepth arch (libPath arch tmpPath) +
    (textCallDepth arch (bytesOf "entry") + textCallDepth arch tmpPath)

/-- The values that the calls go on with are those that the functions have returned. -/
structure Resolved (arch : Arch) (o : InjectOutcome) (handle injectorEntry : Nat) : Prop where
  opened : handle ≠ 0 ∧ o.dlopen.value arch o.libcReturnAddr = some handle
  found : injectorEntry ≠ 0 ∧ o.dlsym.value arch o.libcReturnAddr = some injectorEntry

section Injecting

variable {arch : Arch} {tmpPath : List Byte} {o : InjectOutcome} {entryAddr : Nat}
  {s : Session} {t' : Tracee} {v : View} {regs : Option Regs} {runs : List Resumed}
  {rans : List (Memory -> Memory)} {c : CallOutcome} {returnAddr value : Nat}

theorem setRegs_of_value (h : c.value arch returnAddr = some value) (hvalue : value ≠ 0) :
    c.setRegs = true := by
  cases hset : c.setRegs with
  | true => rfl
  | false =>
      rw [CallOutcome.value, hset] at h
      cases h
      exact absurd rfl hvalue

theorem word_of_value (h : c.value arch returnAddr = some value) (hvalue : value ≠ 0)
    (hwords : forall regs, c.regsAfter = some regs -> regs arch.regRet < 2 ^ arch.lp.bits) :
    value < 2 ^ arch.lp.bits := by
  have hset := setRegs_of_value h hvalue
  rw [CallOutcome.value, if_pos hset] at h
  split at h
  · cases h
  · cases h
    exact absurd rfl hvalue
  · rename_i status regs _ hregs
    cases h
    unfold callValue at hvalue ⊢
    split
    · split
      · exact Nat.two_pow_pos _
      · exact hwords regs hregs
    · exact Nat.two_pow_pos _

theorem rtldNow_word (arch : Arch) : RTLD_NOW arch < 2 ^ arch.lp.bits := by
  cases arch <;> decide

/-- From the trap on: three calls, then the registers of the trap at the entry. -/
theorem openLibrary_resumed (hseen : Seen v s.zygote regs
      (o.dlopen.ran :: o.dlsym.ran :: o.entry.ran :: rans) runs)
    (hcooperates : Cooperates arch tmpPath o)
    (hroom : Room arch (injectionDepth arch tmpPath) s.regs)
    (h : openLibrary arch (libPath arch tmpPath) tmpPath o entryAddr s =
      Ending.returned true t') :
    exists handle injectorEntry r1 r2 r3, Resolved arch o handle injectorEntry ∧
      Seen v t' (some (s.regs.set arch.regIp entryAddr)) rans (runs ++ [r1, r2, r3]) ∧
      (List.Forall₂ (Returns arch) o.calls [r1, r2, r3] ->
        List.Forall₂ (Performs arch o.libcReturnAddr)
            (injectionCalls arch tmpPath o handle injectorEntry) [r1, r2, r3] ∧
          Memory.AgreeFrom (s.regs arch.regSp) s.zygote.memory t'.memory) := by
  rcases openLibrary_true_iff.mp h with ⟨_, handle, s1, hcall1, hhandle, h1⟩
  rcases resolveEntry_true_iff.mp h1 with ⟨_, injectorEntry, s2, hcall2, hentry, h2⟩
  rcases callEntry_true_iff.mp h2 with ⟨value, s3, hcall3, h3⟩
  rcases restoreRegs_true_iff.mp h3 with ⟨_, ht'⟩
  have hopened := (remoteCall_returned hcall1).left
  have hfound := (remoteCall_returned hcall2).left
  have hseen1 := (hseen.writeProc _ _ _).remoteCall (setRegs_of_value hopened hhandle) hcall1
  have hseen2 := (hseen1.writeProc _ _ _).remoteCall (setRegs_of_value hfound hentry) hcall2
  have hseen3 := (hseen2.writeProc _ _ _).remoteCall hcooperates.entryRegs hcall3
  have hback := hseen3.setRegs (s.regs.set arch.regIp entryAddr)
  rw [ht', List.append_assoc, List.append_assoc] at hback
  refine ⟨handle, injectorEntry, _, _, _, ⟨⟨hhandle, hopened⟩, ⟨hentry, hfound⟩⟩, hback, ?_⟩
  intro hreturns
  rcases hreturns with _ | ⟨hreturns1, hlater⟩
  rcases hlater with _ | ⟨hreturns2, hlater⟩
  rcases hlater with _ | ⟨hreturns3, _⟩
  have hroom1 := hroom.mono (Nat.le_add_right _ _)
  have hsinks1 := sinks_textCall hroom1 hreturns1 hcall1
  have hrest1 := hsinks1.room hroom
  have hroom2 := hrest1.mono (Nat.le_add_right _ _)
  have hsinks2 := sinks_textCall hroom2 hreturns2 hcall2
  have hroom3 := hsinks2.room hrest1
  have hsinks3 := sinks_textCall hroom3 hreturns3 hcall3
  have hword := word_of_value hopened hhandle hcooperates.handleWord
  constructor
  · refine List.Forall₂.cons ?_ (List.Forall₂.cons ?_ (List.Forall₂.cons ?_ List.Forall₂.nil))
    · exact performs_pushed hroom1 rfl (pushed_word _ hroom1) (rtldNow_word arch)
        hcooperates.libcWord (hcooperates.dlopenWrites _ _) hcooperates.libPathWrite
    · exact performs_pushed hroom2 rfl hword (pushed_word _ hroom2)
        hcooperates.libcWord (hcooperates.dlsymWrites _ _) hcooperates.entryNameWrite
    · exact performs_pushed hroom3 rfl hword (pushed_word _ hroom3)
        hcooperates.libcWord (hcooperates.entryWrites _ _) hcooperates.tmpPathWrite
  · rw [← ht']
    exact ((hsinks1.trans hsinks2).trans hsinks3).memory

end Injecting

/-!
# From the seizure to the release
-/

/-- The zygote as it is started, with an entry that faults. -/
def brokenMemory (arch : Arch) (entryAddr slot : Nat) (memory : Memory) : Memory :=
  memory.write slot (leBytes arch.word (breakAddr arch entryAddr))

/-- The zygote at the trap, with its entry put back. -/
def mendedMemory (arch : Arch) (o : TraceOutcome) (entryAddr slot : Nat) (memory : Memory) :
    Memory :=
  (o.inject.ran (brokenMemory arch entryAddr slot memory)).write slot (leBytes arch.word entryAddr)

/-- What is left of the tracing once the registers are those of the entry. -/
def releasedRuns (arch : Arch) (o : TraceOutcome) (entryAddr : Nat) (trap : Regs)
    (back : Memory) : List Resumed :=
  [{ regs := some (trap.set arch.regIp entryAddr), memory := back },
   { regs := none, memory := o.firstRan back },
   { regs := none, memory := o.secondRan (o.firstRan back) }]

/-- The zygote has run up to its entry, has made the calls, and is at its entry with the
registers and the stack it had there. -/
def Injected (arch : Arch) (tmpPath : List Byte) (o : TraceOutcome) (memory : Memory)
    (entryAddr slot : Nat) (trap : Regs) (runs : List Resumed) : Prop :=
  exists calls back,
    runs = { regs := none, memory := brokenMemory arch entryAddr slot memory } ::
      (calls ++ releasedRuns arch o entryAddr trap back) ∧
    (exists handle injectorEntry, Resolved arch o.inject handle injectorEntry ∧
      List.Forall₂ (Performs arch o.inject.libcReturnAddr)
        (injectionCalls arch tmpPath o.inject handle injectorEntry) calls) ∧
    Memory.AgreeFrom (trap arch.regSp) (mendedMemory arch o entryAddr slot memory) back

section Released

variable {arch : Arch} {tmpPath : List Byte} {o : TraceOutcome} {memory : Memory}
  {t t' : Tracee} {fuel status entryAddr slot : Nat}

theorem not_isDetached_cont (t : Tracee) (ran : Memory -> Memory) :
    (t.cont ran).isDetached = false := by
  unfold Tracee.isDetached Tracee.cont
  rw [List.getLast?_concat]

theorem lastStop_isDetached {ran : Memory -> Memory}
    (h : lastStop o status (t.cont ran) = Ending.returned true t')
    (hdetached : t'.isDetached = true) :
    t' = (t.cont ran).request (Request.detach SIGCONT) := by
  have hnot := not_isDetached_cont t ran
  unfold lastStop detach at h
  split at h
  · split at h
    · cases h
      rfl
    · cases h
      rw [hnot] at hdetached
      cases hdetached
  · cases h
    rw [hnot] at hdetached
    cases hdetached

/-- A zygote that is released has been injected, and has stopped twice more. -/
theorem traceCommand_released
    (h : traceCommand arch tmpPath o fuel memory = some (Fate.released t')) :
    exists t, injectOnMain arch (libPath arch tmpPath) tmpPath o.inject fuel (seized memory) =
        some (Ending.returned true t) ∧
      t' = (((t.request (Request.kill SIGCONT)).cont o.firstRan).cont o.secondRan).request
        (Request.detach SIGCONT) := by
  rcases Option.map_eq_some_iff.mp h with ⟨ending, htrace, hfate⟩
  have hending : ending = Ending.returned true t' ∧ t'.isDetached = true := by
    split at hfate
    · cases hfate
    · cases hfate
    · split at hfate
      · rename_i hdetached
        cases hfate
        exact ⟨rfl, hdetached⟩
      · cases hfate
  rw [hending.left] at htrace
  by_cases hstarts : StartsInjection o
  · rw [traceZygote_of_starts hstarts] at htrace
    rcases Option.map_eq_some_iff.mp htrace with ⟨injected, hinject, hafter⟩
    cases injected with
    | exited => cases hafter
    | returned value t =>
        cases value with
        | false => cases hafter
        | true =>
            change afterInject o t = Ending.returned true t' at hafter
            rcases reaches_of_afterInject hafter with ⟨status, hreaches⟩
            rw [afterInject_of_reaches hreaches] at hafter
            exact ⟨t, hinject, lastStop_isDetached hafter hending.right⟩
  · rcases @traceZygote_of_not_starts arch tmpPath o memory hstarts fuel with hexit | ⟨t, hfalse⟩
    · rw [htrace] at hexit
      cases hexit
    · rw [htrace] at hfalse
      cases hfalse

/-- An injection that is reported as done ran at the entry that the walk has found. -/
theorem injectOnMain_true {libPath : List Byte} {o : InjectOutcome}
    (h : injectOnMain arch libPath tmpPath o fuel t = some (Ending.returned true t')) :
    exists start entryAddr slot, o.startRegs = some start ∧
      walk arch o fuel (start arch.regSp) = some (entryAddr, slot) ∧
      breakAtEntry arch libPath tmpPath o entryAddr slot t = Ending.returned true t' := by
  unfold injectOnMain at h
  split at h
  · cases h
  · rename_i start hstart
    split at h
    · cases h
    · rename_i found hwalk
      exact ⟨start, found.1, found.2, hstart, hwalk, Option.some.inj h⟩

theorem writeProc_memory {result : Int} {bytes : List Byte} (h : bytes.length ≤ result.toNat)
    (t : Tracee) (addr : Nat) :
    (t.writeProc result addr bytes).memory = t.memory.write addr bytes := by
  unfold Tracee.writeProc
  rw [List.take_of_length_le h]

/-- The walk ends, and a value that is not zero is the first entry. -/
theorem walk_ends {start : Regs} {args envs : List Nat} {aux : List (Nat × Nat)}
    {o : InjectOutcome}
    (hstack : InitialStack arch (start arch.regSp) args envs aux memory)
    (hreads : ReadsFrom arch o (start arch.regSp) memory) :
    exists fuel found, walk arch o fuel (start arch.regSp) = some found ∧
      (found.1 ≠ 0 -> exists before, FirstEntry aux before found.1 ∧
        found.2 = entrySlot arch (start arch.regSp) args envs before) := by
  rcases firstEntry_or_none aux with ⟨before, value, hfirst⟩ | hnone
  · rcases (walk_firstEntry hstack hreads hfirst).left with ⟨fuel, hfuel⟩
    exact ⟨fuel, _, hfuel, fun _ => ⟨before, hfirst, rfl⟩⟩
  · rcases walk_noEntry hstack hreads hnone with ⟨fuel, hfuel⟩
    exact ⟨fuel, _, hfuel, fun hno => absurd rfl hno⟩

/-- The `trace` command comes to an end. -/
theorem traceCommand_ends {start : Regs} {args envs : List Nat} {aux : List (Nat × Nat)}
    (hstart : o.inject.startRegs = some start)
    (hstack : InitialStack arch (start arch.regSp) args envs aux memory)
    (hreads : ReadsFrom arch o.inject (start arch.regSp) memory) :
    exists fuel fate, traceCommand arch tmpPath o fuel memory = some fate := by
  rcases walk_ends hstack hreads with ⟨fuel, found, hfuel, _⟩
  have hends : exists ending, traceZygote arch tmpPath o fuel memory = some ending := by
    by_cases hstarts : StartsInjection o
    · rw [traceZygote_of_starts hstarts, injectOnMain, hstart]
      simp only [hfuel]
      exact ⟨_, rfl⟩
    · rcases @traceZygote_of_not_starts arch tmpPath o memory hstarts fuel with hexit | ⟨t, hfalse⟩
      · exact ⟨_, hexit⟩
      · exact ⟨_, hfalse⟩
  rcases hends with ⟨ending, hending⟩
  refine ⟨fuel, Option.isSome_iff_exists.mp ?_⟩
  rw [traceCommand, Option.isSome_map, hending]
  rfl

end Released

/-- A call after which the zygote stops with its stack pointer there. -/
def stoppingCall (sp : Nat) : CallOutcome :=
  { sampleCall with regsAfter := some ((sampleRegs 0x7000).set Arch.x86_64.regSp sp) }

def releasedRun : TraceOutcome :=
  { sigchldRun with
    inject :=
      { readingInjection with
        dlopen := stoppingCall 4048
        dlsym := stoppingCall 4032
        entry := stoppingCall 4000 }
    thirdWait := Waitpid.reported (stoppedStatus SIGCONT 0) }

theorem cooperates_releasedRun :
    Cooperates Arch.x86_64 sampleTmpPath releasedRun.inject where
  breakWrite := by decide
  restoreWrite := by decide
  libPathWrite := by decide
  entryNameWrite := by decide
  tmpPathWrite := by decide
  dlopenWrites _ _ := ⟨Nat.zero_le _, Nat.le_refl _⟩
  dlsymWrites _ _ := ⟨Nat.zero_le _, Nat.le_refl _⟩
  entryWrites _ _ := ⟨Nat.zero_le _, Nat.le_refl _⟩
  entryRegs := rfl
  libcWord := by decide
  handleWord := by
    intro regs hregs
    cases hregs
    decide

end Tracer
end ReZygisk
