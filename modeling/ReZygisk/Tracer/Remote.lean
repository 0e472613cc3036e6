import ReZygisk.Foundation.Memory
import ReZygisk.Kernel.Abi
import ReZygisk.Kernel.Wait

/-!
# Remote operations of the tracer

The tracer changes a stopped zygote through `process_vm_writev` and through
whole register sets.  Everything the kernel and the zygote decide (how much of
a write went through, the registers read, the statuses waited for, what the
zygote's own code stores while it runs) is an outcome handed to the model, so
a result about these functions covers every outcome.
-/

namespace ReZygisk
namespace Tracer

open Foundation
open Kernel

/-!
# Architectures and registers

A `user_regs_struct` is a run of words, so a register is the index of its word.
-/

inductive Arch where
  | x86_64
  | i386
  | aarch64
  | arm
  deriving DecidableEq, Repr

namespace Arch

def lp : Arch -> Lp
  | x86_64 => Lp.lp64
  | i386 => Lp.lp32
  | aarch64 => Lp.lp64
  | arm => Lp.lp32

/-- `REG_SP`: `rsp`, `esp`, `sp` and `uregs[13]`. -/
def regSp : Arch -> Nat
  | x86_64 => 19
  | i386 => 15
  | aarch64 => 31
  | arm => 13

/-- `REG_IP`: `rip`, `eip`, `pc` and `uregs[15]`. -/
def regIp : Arch -> Nat
  | x86_64 => 16
  | i386 => 12
  | aarch64 => 32
  | arm => 15

/-- `REG_RET`: `rax`, `eax`, `regs[0]` and `uregs[0]`. -/
def regRet : Arch -> Nat
  | x86_64 => 10
  | i386 => 6
  | aarch64 => 0
  | arm => 0

/-- The argument registers that `remote_call` fills, in order; on x86_64 they
are `rdi`, `rsi`, `rdx`, `rcx`, `r8` and `r9`. -/
def argRegs : Arch -> List Nat
  | x86_64 => [14, 13, 12, 11, 9, 8]
  | i386 => []
  | aarch64 => [0, 1, 2, 3, 4, 5, 6, 7]
  | arm => [0, 1, 2, 3]

def word (arch : Arch) : Nat :=
  arch.lp.bytes

end Arch

abbrev Regs := Nat -> Nat

def Regs.set (regs : Regs) (reg value : Nat) : Regs :=
  fun r => if r = reg then value else regs r

@[simp] theorem Regs.set_same (regs : Regs) (reg value : Nat) :
    regs.set reg value reg = value := by
  simp [Regs.set]

theorem Regs.set_other (regs : Regs) {reg r : Nat} (value : Nat)
    (h : r ≠ reg) : regs.set reg value r = regs r := by
  simp [Regs.set, h]

/-!
# The traced zygote
-/

inductive Request where
  | seize
  | write (addr : Nat) (bytes : List Byte)
  | setRegs (regs : Regs)
  | cont
  | kill (sig : Nat)
  | detach (sig : Nat)

structure Tracee where
  memory : Memory
  requests : List Request

namespace Tracee

def request (t : Tracee) (r : Request) : Tracee :=
  { t with requests := t.requests ++ [r] }

/-- `write_proc` whose result is `result`: a short write stops early, and a
failed one (`-1`) writes nothing. -/
def writeProc (t : Tracee) (result : Int) (addr : Nat) (bytes : List Byte) :
    Tracee :=
  { memory := t.memory.write addr (bytes.take result.toNat),
    requests :=
      t.requests ++ [Request.write addr (bytes.take result.toNat)] }

def cont (t : Tracee) (ran : Memory -> Memory) : Tracee :=
  { memory := ran t.memory, requests := t.requests ++ [Request.cont] }

end Tracee

def lastSetRegs (requests : List Request) : Option Regs :=
  requests.foldl
    (fun last r =>
      match r with
      | Request.setRegs regs => some regs
      | _ => last)
    none

@[simp] theorem lastSetRegs_append_setRegs (requests : List Request)
    (regs : Regs) :
    lastSetRegs (requests ++ [Request.setRegs regs]) = some regs := by
  simp [lastSetRegs]

/-!
# Waiting
-/

/-- The results of the `waitpid` calls of one `wait_for_trace`: interrupted
ones are repeated until one is decisive. -/
inductive Waitpid where
  | interrupted (next : Waitpid)
  | failed
  | reported (status : Nat)
  deriving DecidableEq

def waitForTrace : Waitpid -> Option Nat
  | Waitpid.interrupted next => waitForTrace next
  | Waitpid.failed => none
  | Waitpid.reported status => if WIFSTOPPED status then some status else none

theorem wifstopped_of_waitForTrace {w : Waitpid} {status : Nat}
    (h : waitForTrace w = some status) : WIFSTOPPED status = true := by
  induction w with
  | interrupted next ih => exact ih h
  | failed => cases h
  | reported status' =>
      simp [waitForTrace] at h
      rw [← h.right]
      exact h.left

/-!
# The stack
-/

structure Session where
  regs : Regs
  zygote : Tracee

def alignStack (arch : Arch) (preserve : Nat) (regs : Regs) : Regs :=
  regs.set arch.regSp
    (arch.lp.sizeT ((regs arch.regSp : Int) - preserve) / 16 * 16)

def lowerStack (arch : Arch) (n : Nat) (regs : Regs) : Regs :=
  regs.set arch.regSp (arch.lp.sizeT ((regs arch.regSp : Int) - n))

/-- `push_string`; the address it returns is the new stack pointer. -/
def pushString (arch : Arch) (result : Int) (str : List Byte) (s : Session) :
    Session :=
  let regs := alignStack arch 0 (lowerStack arch (str.length + 1) s.regs)
  { regs := regs,
    zygote := s.zygote.writeProc result (regs arch.regSp) (str ++ [0]) }

/-!
# Calling a function of the zygote
-/

structure CallOutcome where
  argsWrite : Int
  returnWrite : Int
  setRegs : Bool
  ran : Memory -> Memory
  wait : Waitpid
  regsAfter : Option Regs

def setArgRegs (args : List Nat) (slots : List Nat) (regs : Regs) : Regs :=
  (slots.zip args).foldl (fun regs slot => regs.set slot.1 slot.2) regs

/-- The arguments that no register took.  The bytes come from the start of the
argument array, as in the source. -/
def pushArgs (arch : Arch) (c : CallOutcome) (args : List Nat) (s : Session) :
    Session :=
  if arch.argRegs.length < args.length then
    let remain := (args.length - arch.argRegs.length) * arch.word
    let regs := alignStack arch remain s.regs
    { regs := regs,
      zygote := s.zygote.writeProc c.argsWrite (regs arch.regSp)
        ((args.flatMap (leBytes arch.word)).take remain) }
  else s

def pushReturnAddr (arch : Arch) (c : CallOutcome) (returnAddr : Nat)
    (s : Session) : Session :=
  let regs := lowerStack arch arch.word s.regs
  { regs := regs,
    zygote := s.zygote.writeProc c.returnWrite (regs arch.regSp)
      (leBytes arch.word returnAddr) }

def CPSR_T_MASK : Nat := 32

/-- The program counter of the arm branch: an odd address is a Thumb one. -/
def setArmPc (funcAddr : Nat) (regs : Regs) : Regs :=
  if funcAddr % 2 = 1 then
    (regs.set 15 (funcAddr - 1)).set 16 (regs 16 ||| CPSR_T_MASK)
  else
    (regs.set 15 funcAddr).set 16
      (regs 16 - (regs 16 / CPSR_T_MASK % 2) * CPSR_T_MASK)

def aimCall (arch : Arch) (c : CallOutcome) (funcAddr returnAddr : Nat)
    (s : Session) : Session :=
  match arch with
  | Arch.x86_64 | Arch.i386 =>
      let pushed := pushReturnAddr arch c returnAddr s
      { pushed with regs := pushed.regs.set arch.regIp funcAddr }
  | Arch.aarch64 =>
      { s with regs := (s.regs.set 30 returnAddr).set arch.regIp funcAddr }
  | Arch.arm =>
      { s with regs := setArmPc funcAddr (s.regs.set 14 returnAddr) }

def prepareCall (arch : Arch) (c : CallOutcome) (funcAddr returnAddr : Nat)
    (args : List Nat) (s : Session) : Session :=
  let regs := setArgRegs args arch.argRegs (alignStack arch 0 s.regs)
  aimCall arch c funcAddr returnAddr (pushArgs arch c args { s with regs := regs })

inductive CallResult where
  | exited
  | returned (value : Nat) (s : Session)

def callValue (arch : Arch) (returnAddr status : Nat) (regs : Regs) : Nat :=
  if WSTOPSIG status = SIGSEGV then
    if regs arch.regIp ≠ returnAddr then 0 else regs arch.regRet
  else 0

def awaitCall (arch : Arch) (c : CallOutcome) (returnAddr : Nat)
    (s : Session) : CallResult :=
  let zygote := (s.zygote.request (Request.setRegs s.regs)).cont c.ran
  match waitForTrace c.wait, c.regsAfter with
  | none, _ => CallResult.exited
  | some _, none => CallResult.returned 0 { s with zygote := zygote }
  | some status, some regs =>
      CallResult.returned (callValue arch returnAddr status regs)
        { regs := regs, zygote := zygote }

def remoteCall (arch : Arch) (c : CallOutcome) (funcAddr returnAddr : Nat)
    (args : List Nat) (s : Session) : CallResult :=
  let prepared := prepareCall arch c funcAddr returnAddr args s
  if c.setRegs then awaitCall arch c returnAddr prepared
  else CallResult.returned 0 prepared

/-!
# The tracer stays below the stack pointer

Each operation lowers the stack pointer by a bounded amount and stores only
below the place where it stood, as long as it does not wrap.
-/

section Stack

variable {arch : Arch}

structure Room (arch : Arch) (need : Nat) (regs : Regs) : Prop where
  enough : need ≤ regs arch.regSp
  isWord : regs arch.regSp < 2 ^ arch.lp.bits

/-- `s'` follows `s` with the stack pointer lowered by at most `depth`, and
with memory unchanged from the earlier stack pointer on. -/
structure Sinks (arch : Arch) (depth : Nat) (s s' : Session) : Prop where
  memory : Memory.AgreeFrom (s.regs arch.regSp) s.zygote.memory s'.zygote.memory
  lower : s'.regs arch.regSp ≤ s.regs arch.regSp
  bound : s.regs arch.regSp ≤ s'.regs arch.regSp + depth

theorem Sinks.trans {depth depth' : Nat} {s s' s'' : Session}
    (h : Sinks arch depth s s') (h' : Sinks arch depth' s' s'') :
    Sinks arch (depth + depth') s s'' := by
  refine ⟨h.memory.trans h'.memory h.lower, ?_, ?_⟩
  · exact Nat.le_trans h'.lower h.lower
  · have hbound := h.bound
    have hbound' := h'.bound
    omega

theorem Sinks.room {depth need : Nat} {s s' : Session}
    (h : Sinks arch depth s s') (hroom : Room arch (depth + need) s.regs) :
    Room arch need s'.regs := by
  have henough := hroom.enough
  have hbound := h.bound
  exact ⟨by omega, Nat.lt_of_le_of_lt h.lower hroom.isWord⟩

theorem Room.mono {need need' : Nat} {regs : Regs} (h : Room arch need regs)
    (hle : need' ≤ need) : Room arch need' regs :=
  ⟨Nat.le_trans hle h.enough, h.isWord⟩

theorem alignStack_sp {preserve : Nat} {regs : Regs}
    (h : Room arch preserve regs) :
    alignStack arch preserve regs arch.regSp =
      (regs arch.regSp - preserve) / 16 * 16 := by
  rw [alignStack, Regs.set_same, Lp.sizeT_sub h.enough h.isWord]

theorem lowerStack_sp {n : Nat} {regs : Regs} (h : Room arch n regs) :
    lowerStack arch n regs arch.regSp = regs arch.regSp - n := by
  rw [lowerStack, Regs.set_same, Lp.sizeT_sub h.enough h.isWord]

/-- Bytes written at a lowered stack pointer, and not past the old one. -/
theorem sinks_write {depth : Nat} {s : Session} {regs : Regs} {result : Int}
    {bytes : List Byte}
    (hlower : regs arch.regSp + bytes.length ≤ s.regs arch.regSp)
    (hbound : s.regs arch.regSp ≤ regs arch.regSp + depth) :
    Sinks arch depth s
      { regs := regs,
        zygote := s.zygote.writeProc result (regs arch.regSp) bytes } := by
  refine ⟨?_, ?_, hbound⟩
  · apply Memory.agreeFrom_write
    rw [List.length_take]
    have hmin := Nat.min_le_right result.toNat bytes.length
    omega
  · show regs arch.regSp ≤ s.regs arch.regSp
    omega

theorem pushString_sp {str : List Byte} {s : Session} (result : Int)
    (h : Room arch (str.length + 1) s.regs) :
    (pushString arch result str s).regs arch.regSp =
      (s.regs arch.regSp - (str.length + 1)) / 16 * 16 := by
  have hlow := lowerStack_sp h
  have hroom : Room arch 0 (lowerStack arch (str.length + 1) s.regs) := by
    refine ⟨Nat.zero_le _, ?_⟩
    rw [hlow]
    exact Nat.lt_of_le_of_lt (Nat.sub_le _ _) h.isWord
  have hsp := alignStack_sp hroom
  rw [hlow, Nat.sub_zero] at hsp
  exact hsp

/-- A string ends where the stack pointer stood. -/
theorem pushString_end_le {str : List Byte} {s : Session} (result : Int)
    (h : Room arch (str.length + 1) s.regs) :
    (pushString arch result str s).regs arch.regSp + (str ++ [0]).length ≤
      s.regs arch.regSp := by
  have henough := h.enough
  rw [pushString_sp result h, List.length_append, List.length_singleton]
  omega

theorem sinks_pushString {str : List Byte} {s : Session} (result : Int)
    (h : Room arch (str.length + 1) s.regs) :
    Sinks arch (str.length + 16) s (pushString arch result str s) := by
  apply sinks_write (pushString_end_le result h)
  rw [pushString_sp result h]
  omega

theorem setArgRegs_other {slots : List Nat} {reg : Nat} (h : reg ∉ slots)
    (args : List Nat) (regs : Regs) :
    setArgRegs args slots regs reg = regs reg := by
  induction slots generalizing args regs with
  | nil => rfl
  | cons slot slots ih =>
      cases args with
      | nil => rfl
      | cons arg args =>
          have htail : reg ∉ slots := fun hmem => h (List.mem_cons_of_mem slot hmem)
          have hne : reg ≠ slot := fun heq => h (heq ▸ List.mem_cons_self)
          have hrest := ih htail args (regs.set slot arg)
          rw [Regs.set_other regs arg hne] at hrest
          exact hrest

theorem regSp_not_mem_argRegs (arch : Arch) : arch.regSp ∉ arch.argRegs := by
  cases arch <;> decide

theorem room_remain {args : List Nat} {regs : Regs}
    (h : Room arch (args.length * arch.word) regs) :
    Room arch ((args.length - arch.argRegs.length) * arch.word) regs :=
  h.mono (Nat.mul_le_mul_right _ (Nat.sub_le _ _))

/-- A block of `need` bytes at the lowered stack pointer ends where that stood. -/
theorem alignStack_end_le {need : Nat} {regs : Regs} (h : Room arch need regs)
    (bytes : List Byte) :
    alignStack arch need regs arch.regSp + (bytes.take need).length ≤ regs arch.regSp := by
  have henough := h.enough
  rw [alignStack_sp h, List.length_take]
  omega

theorem sinks_pushArgs (c : CallOutcome) {args : List Nat} {s : Session}
    (h : Room arch (args.length * arch.word) s.regs) :
    Sinks arch (args.length * arch.word + 15) s (pushArgs arch c args s) := by
  have hremain : (args.length - arch.argRegs.length) * arch.word ≤
      args.length * arch.word :=
    Nat.mul_le_mul_right _ (Nat.sub_le _ _)
  have hroom := room_remain h
  rw [pushArgs]
  split
  · apply sinks_write (alignStack_end_le hroom _)
    rw [alignStack_sp hroom]
    omega
  · exact ⟨Memory.agreeFrom_refl _ _, Nat.le_refl _, by omega⟩

theorem sinks_aimCall (c : CallOutcome) (funcAddr returnAddr : Nat)
    {s : Session} (h : Room arch arch.word s.regs) :
    Sinks arch arch.word s (aimCall arch c funcAddr returnAddr s) := by
  have hpush : Sinks arch arch.word s (pushReturnAddr arch c returnAddr s) := by
    have hsp := lowerStack_sp h
    have henough := h.enough
    apply sinks_write
    · rw [hsp, leBytes_length]
      omega
    · rw [hsp]
      omega
  have hagree := Memory.agreeFrom_refl (s.regs arch.regSp) s.zygote.memory
  cases arch with
  | x86_64 => exact ⟨hpush.memory, hpush.lower, hpush.bound⟩
  | i386 => exact ⟨hpush.memory, hpush.lower, hpush.bound⟩
  | aarch64 => exact ⟨hagree, Nat.le_refl _, Nat.le_add_right _ _⟩
  | arm =>
      have hsp : (aimCall Arch.arm c funcAddr returnAddr s).regs Arch.arm.regSp =
          s.regs Arch.arm.regSp := by
        simp only [aimCall, setArmPc]
        split <;> rfl
      exact ⟨hagree, Nat.le_of_eq hsp, by rw [hsp]; omega⟩

def callDepth (arch : Arch) (args : List Nat) : Nat :=
  15 + (args.length * arch.word + 15 + arch.word)

/-- The session of a call before its arguments are pushed. -/
def withArgRegs (arch : Arch) (args : List Nat) (s : Session) : Session :=
  { s with regs := setArgRegs args arch.argRegs (alignStack arch 0 s.regs) }

theorem sinks_withArgRegs {args : List Nat} {s : Session} (h : Room arch 0 s.regs) :
    Sinks arch 15 s (withArgRegs arch args s) := by
  have hsp : setArgRegs args arch.argRegs (alignStack arch 0 s.regs) arch.regSp =
      s.regs arch.regSp / 16 * 16 := by
    rw [setArgRegs_other (regSp_not_mem_argRegs arch), alignStack_sp h, Nat.sub_zero]
  refine ⟨Memory.agreeFrom_refl _ _, ?_, ?_⟩
  · show setArgRegs args arch.argRegs (alignStack arch 0 s.regs) arch.regSp ≤ _
    omega
  · show _ ≤ setArgRegs args arch.argRegs (alignStack arch 0 s.regs) arch.regSp + 15
    omega

theorem sinks_pushedArgs (c : CallOutcome) {args : List Nat} {s : Session}
    (h : Room arch (callDepth arch args) s.regs) :
    Sinks arch (15 + (args.length * arch.word + 15)) s
      (pushArgs arch c args (withArgRegs arch args s)) := by
  have hregs : Sinks arch 15 s (withArgRegs arch args s) :=
    sinks_withArgRegs (h.mono (Nat.zero_le _))
  have hargs := sinks_pushArgs c ((hregs.room h).mono (by
    show args.length * arch.word ≤ args.length * arch.word + 15 + arch.word
    omega))
  exact hregs.trans hargs

theorem room_pushedArgs (c : CallOutcome) {args : List Nat} {s : Session}
    (h : Room arch (callDepth arch args) s.regs) :
    Room arch arch.word (pushArgs arch c args (withArgRegs arch args s)).regs := by
  apply (sinks_pushedArgs c h).room
  apply h.mono
  show _ ≤ 15 + (args.length * arch.word + 15 + arch.word)
  omega

theorem sinks_prepareCall (c : CallOutcome) (funcAddr returnAddr : Nat)
    {args : List Nat} {s : Session} (h : Room arch (callDepth arch args) s.regs) :
    Sinks arch (callDepth arch args) s
      (prepareCall arch c funcAddr returnAddr args s) := by
  have hreturn := sinks_aimCall c funcAddr returnAddr (room_pushedArgs c h)
  have hall := (sinks_pushedArgs c h).trans hreturn
  rw [Nat.add_assoc] at hall
  exact hall

end Stack

/-!
# What a call leaves behind
-/

def CallOutcome.value (c : CallOutcome) (arch : Arch) (returnAddr : Nat) :
    Option Nat :=
  if c.setRegs then
    match waitForTrace c.wait, c.regsAfter with
    | none, _ => none
    | some _, none => some 0
    | some status, some regs => some (callValue arch returnAddr status regs)
  else some 0

/-- The code that a call runs leaves a range of the zygote's memory alone. -/
def CallOutcome.Spares (c : CallOutcome) (addr len : Nat) : Prop :=
  forall m : Memory, (c.ran m).read addr len = m.read addr len

section Call

variable {arch : Arch} {c : CallOutcome} {funcAddr returnAddr value : Nat}
  {args : List Nat} {s s' : Session}

theorem remoteCall_exited_iff :
    remoteCall arch c funcAddr returnAddr args s = CallResult.exited <->
      c.value arch returnAddr = none := by
  rw [remoteCall, CallOutcome.value]
  cases c.setRegs with
  | false => simp
  | true =>
      simp only [if_pos, awaitCall]
      cases waitForTrace c.wait with
      | none => simp
      | some status => cases c.regsAfter <;> simp

/-- A call that returns reports the value of its outcome.  One that returns a
value other than the null pointer leaves the registers the zygote stopped
with. -/
theorem remoteCall_returned
    (h : remoteCall arch c funcAddr returnAddr args s =
      CallResult.returned value s') :
    c.value arch returnAddr = some value ∧
      (value ≠ 0 -> c.regsAfter = some s'.regs) := by
  rw [remoteCall] at h
  rw [CallOutcome.value]
  cases hset : c.setRegs with
  | false =>
      simp [hset] at h
      exact ⟨by simp [h.left], fun hne => absurd h.left.symm hne⟩
  | true =>
      simp only [hset, if_pos, awaitCall] at h ⊢
      cases hwait : waitForTrace c.wait with
      | none => simp [hwait] at h
      | some status =>
          cases hregs : c.regsAfter with
          | none =>
              simp [hwait, hregs] at h
              exact ⟨by simp [h.left], fun hne => absurd h.left.symm hne⟩
          | some regs =>
              simp [hwait, hregs] at h
              refine ⟨by simp [h.left], fun _ => ?_⟩
              rw [← h.right]

theorem exists_remoteCall_returned (h : c.value arch returnAddr = some value)
    (funcAddr : Nat) (args : List Nat) (s : Session) :
    exists s', remoteCall arch c funcAddr returnAddr args s =
      CallResult.returned value s' := by
  cases hcall : remoteCall arch c funcAddr returnAddr args s with
  | exited =>
      rw [remoteCall_exited_iff, h] at hcall
      cases hcall
  | returned value' s' =>
      have hvalue := (remoteCall_returned hcall).left
      rw [h] at hvalue
      cases hvalue
      exact ⟨s', rfl⟩

/-- A call neither stores nor lets the zygote store into a range that lies
above the stack pointer and that the called code spares. -/
theorem remoteCall_spares {addr len : Nat}
    (hroom : Room arch (callDepth arch args) s.regs)
    (haddr : s.regs arch.regSp ≤ addr) (hspares : c.Spares addr len)
    (h : remoteCall arch c funcAddr returnAddr args s =
      CallResult.returned value s') :
    s'.zygote.memory.read addr len = s.zygote.memory.read addr len := by
  have hsinks := sinks_prepareCall c funcAddr returnAddr hroom
  have hread : forall len',
      (prepareCall arch c funcAddr returnAddr args s).zygote.memory.read addr len' =
        s.zygote.memory.read addr len' :=
    fun _ => hsinks.memory.read_eq haddr
  rw [remoteCall] at h
  cases hset : c.setRegs with
  | false =>
      simp [hset] at h
      rw [← h.right]
      exact hread len
  | true =>
      have hran := hspares
        (prepareCall arch c funcAddr returnAddr args s).zygote.memory
      simp only [hset, if_pos, awaitCall] at h
      cases hwait : waitForTrace c.wait with
      | none => simp [hwait] at h
      | some status =>
          cases hregs : c.regsAfter with
          | none =>
              simp [hwait, hregs] at h
              rw [← h.right]
              exact hran.trans (hread len)
          | some regs =>
              simp [hwait, hregs] at h
              rw [← h.right]
              exact hran.trans (hread len)

end Call

end Tracer
end ReZygisk
