import ReZygisk.Tracer.Remote

/-!
# The frame of a remote call

What the called function finds when it starts, and what the operations on the
zygote's stack leave alone.
-/

namespace ReZygisk
namespace Tracer

open Foundation
open Kernel

/-!
# The calling convention
-/

/-- Where the arguments on the stack begin: on x86 the return address lies before
them. -/
def stackArgs (arch : Arch) (regs : Regs) : Nat :=
  match arch with
  | Arch.x86_64 | Arch.i386 => regs arch.regSp + arch.word
  | Arch.aarch64 | Arch.arm => regs arch.regSp

def EntryAligned (arch : Arch) (regs : Regs) : Prop :=
  match arch with
  | Arch.x86_64 | Arch.i386 => (regs arch.regSp + arch.word) % 16 = 0
  | Arch.aarch64 => regs arch.regSp % 16 = 0
  | Arch.arm => regs arch.regSp % 8 = 0

def ReturnsTo (arch : Arch) (returnAddr : Nat) (s : Session) : Prop :=
  match arch with
  | Arch.x86_64 | Arch.i386 =>
      leValue (s.zygote.memory.read (s.regs arch.regSp) arch.word) = returnAddr
  | Arch.aarch64 => s.regs 30 = returnAddr
  | Arch.arm => s.regs 14 = returnAddr

/-- What the architecture's calling convention says of the start of a function. -/
structure Conforms (arch : Arch) (returnAddr : Nat) (args : List Nat) (s : Session) :
    Prop where
  inRegs : forall k reg a : Nat, arch.argRegs[k]? = some reg -> args[k]? = some a ->
    s.regs reg = a
  onStack : forall k a : Nat, args[arch.argRegs.length + k]? = some a ->
    leValue (s.zygote.memory.read (stackArgs arch s.regs + k * arch.word) arch.word) = a
  aligned : EntryAligned arch s.regs
  returns : ReturnsTo arch returnAddr s

/-- `write_proc` writes all it is given. -/
structure WritesInFull (arch : Arch) (c : CallOutcome) (args : List Nat) : Prop where
  args : (args.length - arch.argRegs.length) * arch.word ≤ c.argsWrite.toNat
  returnAddr : arch.word ≤ c.returnWrite.toNat

section Frame

variable {arch : Arch} {c : CallOutcome} {args : List Nat} {s : Session}
  {funcAddr returnAddr : Nat}

theorem pow_word (arch : Arch) : 256 ^ arch.word = 2 ^ arch.lp.bits := by
  cases arch <;> decide

/-- The registers take the first arguments. -/
theorem setArgRegs_get {slots : List Nat} (hslots : slots.Nodup) {k reg a : Nat}
    (hreg : slots[k]? = some reg) (ha : args[k]? = some a) (regs : Regs) :
    setArgRegs args slots regs reg = a := by
  induction slots generalizing args regs k with
  | nil => cases hreg
  | cons slot slots ih =>
      rw [List.nodup_cons] at hslots
      cases args with
      | nil => cases ha
      | cons arg args =>
          have hstep : setArgRegs (arg :: args) (slot :: slots) regs =
              setArgRegs args slots (regs.set slot arg) := rfl
          rw [hstep]
          cases k with
          | zero =>
              cases hreg
              cases ha
              rw [setArgRegs_other hslots.left, Regs.set_same]
          | succ k => exact ih hslots.right hreg ha _

theorem nodup_argRegs (arch : Arch) : arch.argRegs.Nodup := by
  cases arch <;> decide

/-- Neither the stack nor the way to the function and back uses an argument
register. -/
theorem aimCall_argReg {reg : Nat} (hreg : reg ∈ arch.argRegs) :
    (aimCall arch c funcAddr returnAddr s).regs reg = s.regs reg := by
  have hne : forall r, r ∉ arch.argRegs -> reg ≠ r := by
    intro r hr heq
    rw [heq] at hreg
    exact hr hreg
  cases arch with
  | x86_64 =>
      exact (Regs.set_other _ _ (hne 16 (by decide))).trans
        (Regs.set_other _ _ (hne 19 (by decide)))
  | i386 => cases hreg
  | aarch64 =>
      exact (Regs.set_other _ _ (hne 32 (by decide))).trans
        (Regs.set_other _ _ (hne 30 (by decide)))
  | arm =>
      have hpc : forall (value psr : Nat) (regs : Regs),
          ((regs.set 15 value).set 16 psr) reg = regs reg := by
        intro value psr regs
        rw [Regs.set_other _ _ (hne 16 (by decide)), Regs.set_other _ _ (hne 15 (by decide))]
      simp only [aimCall, setArmPc]
      split <;> rw [hpc, Regs.set_other _ _ (hne 14 (by decide))]

theorem pushArgs_argReg {reg : Nat} (hreg : reg ∈ arch.argRegs) :
    (pushArgs arch c args s).regs reg = s.regs reg := by
  have hne : reg ≠ arch.regSp := by
    intro heq
    rw [heq] at hreg
    exact regSp_not_mem_argRegs arch hreg
  unfold pushArgs
  split
  · exact Regs.set_other _ _ hne
  · rfl

theorem inRegs_prepareCall (c : CallOutcome) (funcAddr returnAddr : Nat) (s : Session)
    {k reg a : Nat} (hreg : arch.argRegs[k]? = some reg) (ha : args[k]? = some a) :
    (prepareCall arch c funcAddr returnAddr args s).regs reg = a := by
  have hmem := List.mem_of_getElem? hreg
  rw [prepareCall, aimCall_argReg hmem, pushArgs_argReg hmem]
  exact setArgRegs_get (nodup_argRegs arch) hreg ha _

/-- The words of the arguments, from the k-th on. -/
theorem take_words {k a remain : Nat} (ha : args[k]? = some a)
    (hfit : (k + 1) * arch.word ≤ remain) :
    (((args.flatMap (leBytes arch.word)).take remain).drop (k * arch.word)).take arch.word =
      leBytes arch.word a := by
  have hrest : args.drop k = a :: args.drop (k + 1) := by
    rcases List.getElem?_eq_some_iff.mp ha with ⟨hk, heq⟩
    rw [List.drop_eq_getElem_cons hk, heq]
  have hmin : min arch.word (remain - k * arch.word) = arch.word := by
    rw [Nat.succ_mul] at hfit
    omega
  rw [List.drop_take, List.take_take, hmin, drop_flatMap_leBytes, hrest, List.flatMap_cons,
    List.take_left' (leBytes_length arch.word a)]

/-- The k-th slot gets the k-th argument, whatever the registers took. -/
theorem pushArgs_slot (hwords : forall a, a ∈ args -> a < 2 ^ arch.lp.bits)
    (hfull : WritesInFull arch c args) {k a : Nat} (hk : arch.argRegs.length + k < args.length)
    (ha : args[k]? = some a) :
    leValue ((pushArgs arch c args s).zygote.memory.read
      ((pushArgs arch c args s).regs arch.regSp + k * arch.word) arch.word) = a := by
  have hmore : arch.argRegs.length < args.length := by omega
  have hfit : (k + 1) * arch.word ≤ (args.length - arch.argRegs.length) * arch.word :=
    Nat.mul_le_mul_right _ (by omega)
  have hword : a < 256 ^ arch.word := by
    rw [pow_word]
    exact hwords a (List.mem_of_getElem? ha)
  have hremain : (args.length - arch.argRegs.length) * arch.word ≤
      (args.flatMap (leBytes arch.word)).length := by
    have hlen : (args.flatMap (leBytes arch.word)).length = args.length * arch.word := by
      simp [List.length_flatMap, leBytes_length]
    rw [hlen]
    exact Nat.mul_le_mul_right _ (Nat.sub_le _ _)
  unfold pushArgs
  rw [if_pos hmore]
  simp only [Tracee.writeProc]
  rw [List.take_take, Nat.min_eq_right hfull.args, Memory.read_write_part,
    take_words ha hfit, leValue_leBytes_of_lt hword]
  rw [List.length_take, Nat.min_eq_left hremain, ← Nat.succ_mul]
  exact hfit

theorem aligned_pushedArgs (arch : Arch) (c : CallOutcome) (args : List Nat) (s : Session) :
    (pushArgs arch c args (withArgRegs arch args s)).regs arch.regSp % 16 = 0 := by
  have hregs : (withArgRegs arch args s).regs arch.regSp % 16 = 0 := by
    show setArgRegs args arch.argRegs (alignStack arch 0 s.regs) arch.regSp % 16 = 0
    rw [setArgRegs_other (regSp_not_mem_argRegs arch), alignStack, Regs.set_same]
    exact Nat.mul_mod_left _ 16
  unfold pushArgs
  split
  · show alignStack arch _ _ arch.regSp % 16 = 0
    rw [alignStack, Regs.set_same]
    exact Nat.mul_mod_left _ 16
  · exact hregs

theorem pushReturnAddr_sp (c : CallOutcome) (returnAddr : Nat)
    (h : Room arch arch.word s.regs) :
    (pushReturnAddr arch c returnAddr s).regs arch.regSp + arch.word =
      s.regs arch.regSp := by
  have hsp := lowerStack_sp h
  have henough := h.enough
  show lowerStack arch arch.word s.regs arch.regSp + arch.word = _
  omega

/-- The arguments on the stack begin where the pushed ones do. -/
theorem stackArgs_aimCall (c : CallOutcome) (funcAddr returnAddr : Nat)
    (h : Room arch arch.word s.regs) :
    stackArgs arch (aimCall arch c funcAddr returnAddr s).regs = s.regs arch.regSp := by
  cases arch with
  | x86_64 => exact pushReturnAddr_sp c returnAddr h
  | i386 => exact pushReturnAddr_sp c returnAddr h
  | aarch64 => rfl
  | arm =>
      simp only [stackArgs, aimCall, setArmPc]
      split <;> rfl

theorem entryAligned_of_stackArgs {regs : Regs} (h : stackArgs arch regs % 16 = 0) :
    EntryAligned arch regs := by
  cases arch with
  | x86_64 => exact h
  | i386 => exact h
  | aarch64 => exact h
  | arm =>
      have hsp : regs Arch.arm.regSp % 16 = 0 := h
      show regs Arch.arm.regSp % 8 = 0
      omega

theorem pushReturnAddr_read (hret : returnAddr < 2 ^ arch.lp.bits)
    (hfull : WritesInFull arch c args) :
    leValue ((pushReturnAddr arch c returnAddr s).zygote.memory.read
      ((pushReturnAddr arch c returnAddr s).regs arch.regSp) arch.word) = returnAddr := by
  have hword : returnAddr < 256 ^ arch.word := by
    rw [pow_word]
    exact hret
  have hlen := leBytes_length arch.word returnAddr
  have htake : (leBytes arch.word returnAddr).take c.returnWrite.toNat =
      leBytes arch.word returnAddr := by
    apply List.take_of_length_le
    rw [hlen]
    exact hfull.returnAddr
  have hread : forall (m : Memory) (sp : Nat),
      (m.write sp (leBytes arch.word returnAddr)).read (sp + 0) arch.word =
        leBytes arch.word returnAddr := by
    intro m sp
    rw [Memory.read_write_part m sp (by rw [hlen, Nat.zero_add]), List.drop_zero,
      List.take_of_length_le (Nat.le_of_eq hlen)]
  simp only [pushReturnAddr, Tracee.writeProc, htake]
  exact (congrArg leValue (hread _ _)).trans (leValue_leBytes_of_lt hword)

theorem returnsTo_aimCall (hret : returnAddr < 2 ^ arch.lp.bits)
    (hfull : WritesInFull arch c args) :
    ReturnsTo arch returnAddr (aimCall arch c funcAddr returnAddr s) := by
  cases arch with
  | x86_64 => exact pushReturnAddr_read hret hfull
  | i386 => exact pushReturnAddr_read hret hfull
  | aarch64 => rfl
  | arm =>
      simp only [ReturnsTo, aimCall, setArmPc]
      split <;> rfl

/-- What the slots hold when the function starts. -/
theorem prepareCall_slot (funcAddr returnAddr : Nat)
    (hroom : Room arch (callDepth arch args) s.regs)
    (hwords : forall a, a ∈ args -> a < 2 ^ arch.lp.bits)
    (hfull : WritesInFull arch c args) {k a : Nat} (hk : arch.argRegs.length + k < args.length)
    (ha : args[k]? = some a) :
    leValue ((prepareCall arch c funcAddr returnAddr args s).zygote.memory.read
      (stackArgs arch (prepareCall arch c funcAddr returnAddr args s).regs + k * arch.word)
      arch.word) = a := by
  have hpushed := room_pushedArgs c hroom
  have hmemory := (sinks_aimCall c funcAddr returnAddr hpushed).memory
  have hprepared : prepareCall arch c funcAddr returnAddr args s =
      aimCall arch c funcAddr returnAddr (pushArgs arch c args (withArgRegs arch args s)) :=
    rfl
  rw [hprepared, stackArgs_aimCall c funcAddr returnAddr hpushed, hmemory.read_eq (Nat.le_add_right _ _)]
  exact pushArgs_slot hwords hfull hk ha

/-- The function finds its arguments exactly if each one on the stack is the same
as the one that many places further to the front. -/
theorem prepareCall_conforms_iff (c : CallOutcome) (funcAddr returnAddr : Nat)
    (hroom : Room arch (callDepth arch args) s.regs)
    (hwords : forall a, a ∈ args -> a < 2 ^ arch.lp.bits)
    (hret : returnAddr < 2 ^ arch.lp.bits) (hfull : WritesInFull arch c args) :
    Conforms arch returnAddr args (prepareCall arch c funcAddr returnAddr args s) <->
      forall k, arch.argRegs.length + k < args.length ->
        args[arch.argRegs.length + k]? = args[k]? := by
  constructor
  · intro h k hk
    have hfirst : args[k]? = some args[k] := List.getElem?_eq_getElem (by omega)
    have hlater : args[arch.argRegs.length + k]? =
        some args[arch.argRegs.length + k] := List.getElem?_eq_getElem hk
    have hslot := prepareCall_slot funcAddr returnAddr hroom hwords hfull hk hfirst
    rw [hlater, hfirst, ← h.onStack k _ hlater, hslot]
  · intro h
    have haligned := aligned_pushedArgs arch c args s
    rw [← stackArgs_aimCall c funcAddr returnAddr (room_pushedArgs c hroom)] at haligned
    refine ⟨?_, ?_, entryAligned_of_stackArgs haligned, returnsTo_aimCall hret hfull⟩
    · intro k reg a hreg ha
      exact inRegs_prepareCall c funcAddr returnAddr s hreg ha
    · intro k a ha
      have hk : arch.argRegs.length + k < args.length := by
        rcases List.getElem?_eq_some_iff.mp ha with ⟨hk, _⟩
        exact hk
      rw [h k hk] at ha
      exact prepareCall_slot funcAddr returnAddr hroom hwords hfull hk ha

end Frame

/-- A zygote that is stopped with its stack pointer at `0x10000`. -/
def stoppedSession : Session :=
  { regs := fun r => if r = Arch.x86_64.regSp then 0x10000 else 0,
    zygote := { memory := fun _ => 0, requests := [] } }

/-- A call whose writes go through. -/
def writingCall : CallOutcome :=
  { argsWrite := 64, returnWrite := 8, setRegs := true, ran := id,
    wait := Waitpid.failed, regsAfter := none }

theorem prepareCall_conforms_two :
    (Room Arch.x86_64 (callDepth Arch.x86_64 [1, 2]) stoppedSession.regs ∧
      WritesInFull Arch.x86_64 writingCall [1, 2]) ∧
    (Conforms Arch.x86_64 0x2000 [1, 2]
        (prepareCall Arch.x86_64 writingCall 0x1000 0x2000 [1, 2] stoppedSession) <->
      forall k, Arch.x86_64.argRegs.length + k < [1, 2].length ->
        [1, 2][Arch.x86_64.argRegs.length + k]? = [1, 2][k]?) := by
  have hroom : Room Arch.x86_64 (callDepth Arch.x86_64 [1, 2]) stoppedSession.regs :=
    ⟨by decide, by decide⟩
  have hfull : WritesInFull Arch.x86_64 writingCall [1, 2] := ⟨by decide, by decide⟩
  exact ⟨⟨hroom, hfull⟩, prepareCall_conforms_iff writingCall 0x1000 0x2000 hroom
    (by decide) (by decide) hfull⟩

/-- The seventh argument belongs into the first slot, which gets the first one. -/
theorem not_conforms_seven :
    (Room Arch.x86_64 (callDepth Arch.x86_64 [1, 2, 3, 4, 5, 6, 7]) stoppedSession.regs ∧
      WritesInFull Arch.x86_64 writingCall [1, 2, 3, 4, 5, 6, 7]) ∧
    ¬ Conforms Arch.x86_64 0x2000 [1, 2, 3, 4, 5, 6, 7]
      (prepareCall Arch.x86_64 writingCall 0x1000 0x2000 [1, 2, 3, 4, 5, 6, 7]
        stoppedSession) := by
  have hroom : Room Arch.x86_64 (callDepth Arch.x86_64 [1, 2, 3, 4, 5, 6, 7])
      stoppedSession.regs :=
    ⟨by decide, by decide⟩
  have hfull : WritesInFull Arch.x86_64 writingCall [1, 2, 3, 4, 5, 6, 7] :=
    ⟨by decide, by decide⟩
  refine ⟨⟨hroom, hfull⟩, ?_⟩
  intro hconforms
  have hslot := prepareCall_slot 0x1000 0x2000 hroom (by decide) hfull
    (k := 0) (a := 1) (by decide) rfl
  have hseven := hconforms.onStack 0 7 rfl
  rw [hslot] at hseven
  cases hseven

/-!
# Runs of operations
-/

inductive StackOp where
  | push (result : Int) (str : List Byte)
  | call (c : CallOutcome) (funcAddr returnAddr : Nat) (args : List Nat)

namespace StackOp

/-- What the operation returns, and the session after it; a wait that fails ends
the tracer. -/
def run (arch : Arch) (s : Session) : StackOp -> Option (Nat × Session)
  | push result str =>
      let s' := pushString arch result str s
      some (s'.regs arch.regSp, s')
  | call c funcAddr returnAddr args =>
      match remoteCall arch c funcAddr returnAddr args s with
      | CallResult.exited => none
      | CallResult.returned value s' => some (value, s')

/-- The session when the operation has written all it writes. -/
def written (arch : Arch) (s : Session) : StackOp -> Session
  | push result str => pushString arch result str s
  | call c funcAddr returnAddr args => prepareCall arch c funcAddr returnAddr args s

def depth (arch : Arch) : StackOp -> Nat
  | push _ str => str.length + 16
  | call _ _ _ args => callDepth arch args

/-- The called function returns with the stack pointer of its convention, and
writes only below it. -/
def CalleeReturns (arch : Arch) (s : Session) : StackOp -> Prop
  | push _ _ => True
  | call c funcAddr returnAddr args =>
      let start := prepareCall arch c funcAddr returnAddr args s
      (forall regs, c.regsAfter = some regs ->
        regs arch.regSp = stackArgs arch start.regs) ∧
      Memory.AgreeFrom (stackArgs arch start.regs) start.zygote.memory
        (c.ran start.zygote.memory)

end StackOp

/-- An operation of a run, with the session it begins in. -/
structure Step where
  before : Session
  op : StackOp

def Step.result (arch : Arch) (step : Step) : Option (Nat × Session) :=
  step.op.run arch step.before

def trace (arch : Arch) : List StackOp -> Session -> List Step
  | [], _ => []
  | op :: rest, s =>
      ⟨s, op⟩ ::
        match op.run arch s with
        | none => []
        | some (_, s') => trace arch rest s'

def stackDepth (arch : Arch) (ops : List StackOp) : Nat :=
  (ops.map (StackOp.depth arch)).sum

/-- `s'` follows `s` with requests that write only below an address. -/
def WritesBelow (bound : Nat) (s s' : Session) : Prop :=
  exists made, s'.zygote.requests = s.zygote.requests ++ made ∧
    forall addr bytes, Request.write addr bytes ∈ made -> addr + bytes.length ≤ bound

section Writes

variable {arch : Arch} {c : CallOutcome} {args : List Nat} {s s' s'' : Session}
  {funcAddr returnAddr bound bound' : Nat}

theorem WritesBelow.mono (h : WritesBelow bound s s') (hle : bound ≤ bound') :
    WritesBelow bound' s s' := by
  rcases h with ⟨made, hmade, hbelow⟩
  exact ⟨made, hmade, fun addr bytes hmem => Nat.le_trans (hbelow addr bytes hmem) hle⟩

theorem WritesBelow.trans (h : WritesBelow bound s s') (h' : WritesBelow bound' s' s'')
    (hle : bound' ≤ bound) : WritesBelow bound s s'' := by
  rcases h with ⟨made, hmade, hbelow⟩
  rcases h'.mono hle with ⟨made', hmade', hbelow'⟩
  refine ⟨made ++ made', ?_, ?_⟩
  · rw [hmade', hmade, List.append_assoc]
  · intro addr bytes hmem
    rcases List.mem_append.mp hmem with hmem | hmem
    · exact hbelow addr bytes hmem
    · exact hbelow' addr bytes hmem

theorem writesBelow_same (h : s'.zygote = s.zygote) : WritesBelow bound s s' := by
  refine ⟨[], ?_, ?_⟩
  · rw [h, List.append_nil]
  · intro addr bytes hmem
    cases hmem

theorem writesBelow_writeProc {result : Int} {addr : Nat} {bytes : List Byte}
    (hz : s'.zygote = s.zygote.writeProc result addr bytes)
    (h : addr + bytes.length ≤ bound) : WritesBelow bound s s' := by
  refine ⟨[Request.write addr (bytes.take result.toNat)], ?_, ?_⟩
  · rw [hz]
    rfl
  · intro addr' bytes' hmem
    cases List.mem_singleton.mp hmem
    rw [List.length_take]
    have := Nat.min_le_right result.toNat bytes.length
    omega

theorem writesBelow_pushString {str : List Byte} (result : Int)
    (h : Room arch (str.length + 1) s.regs) :
    WritesBelow (s.regs arch.regSp) s (pushString arch result str s) :=
  writesBelow_writeProc rfl (pushString_end_le result h)

theorem writesBelow_pushArgs (c : CallOutcome)
    (h : Room arch (args.length * arch.word) s.regs) :
    WritesBelow (s.regs arch.regSp) s (pushArgs arch c args s) := by
  unfold pushArgs
  split
  · exact writesBelow_writeProc rfl (alignStack_end_le (room_remain h) _)
  · exact writesBelow_same rfl

theorem writesBelow_aimCall (c : CallOutcome) (funcAddr returnAddr : Nat)
    (h : Room arch arch.word s.regs) :
    WritesBelow (s.regs arch.regSp) s (aimCall arch c funcAddr returnAddr s) := by
  have hpush : WritesBelow (s.regs arch.regSp) s (pushReturnAddr arch c returnAddr s) := by
    refine writesBelow_writeProc rfl ?_
    rw [leBytes_length]
    exact Nat.le_of_eq (pushReturnAddr_sp c returnAddr h)
  cases arch with
  | x86_64 => exact hpush
  | i386 => exact hpush
  | aarch64 => exact writesBelow_same rfl
  | arm => exact writesBelow_same rfl

theorem writesBelow_prepareCall (c : CallOutcome) (funcAddr returnAddr : Nat)
    (h : Room arch (callDepth arch args) s.regs) :
    WritesBelow (s.regs arch.regSp) s
      (prepareCall arch c funcAddr returnAddr args s) := by
  have hregs : Sinks arch 15 s (withArgRegs arch args s) :=
    sinks_withArgRegs (h.mono (Nat.zero_le _))
  have hargs := writesBelow_pushArgs c ((hregs.room h).mono (by
    show args.length * arch.word ≤ args.length * arch.word + 15 + arch.word
    omega))
  have haim := writesBelow_aimCall c funcAddr returnAddr (room_pushedArgs c h)
  have hpushed : WritesBelow (s.regs arch.regSp) s
      (pushArgs arch c args (withArgRegs arch args s)) :=
    (writesBelow_same rfl).trans hargs hregs.lower
  exact hpushed.trans haim (sinks_pushedArgs c h).lower

end Writes

/-- What an operation of a run that began with the stack pointer at `top` keeps
to. -/
structure Keeps (arch : Arch) (top : Nat) (step : Step) : Prop where
  start : step.before.regs arch.regSp ≤ top
  written : WritesBelow (step.before.regs arch.regSp) step.before
    (step.op.written arch step.before)
  made : forall v s', step.result arch = some (v, s') ->
    WritesBelow (step.before.regs arch.regSp) step.before s' ∧ s'.regs arch.regSp ≤ top
  pushed : forall result str v s', step.op = StackOp.push result str ->
    step.result arch = some (v, s') ->
    s'.regs arch.regSp % 16 = 0 ∧ v = s'.regs arch.regSp

/-- A later operation leaves alone what lies from the stack pointer of an earlier
one on, where a pushed string begins. -/
def Spares (arch : Arch) (earlier later : Step) : Prop :=
  forall v s', earlier.result arch = some (v, s') ->
    WritesBelow (s'.regs arch.regSp) later.before (later.op.written arch later.before) ∧
    forall v' s'', later.result arch = some (v', s'') ->
      WritesBelow (s'.regs arch.regSp) later.before s'' ∧
      Memory.AgreeFrom (s'.regs arch.regSp) s'.zygote.memory s''.zygote.memory

section Runs

variable {arch : Arch} {c : CallOutcome} {args : List Nat} {s s' : Session}
  {funcAddr returnAddr v top : Nat} {op : StackOp} {ops : List StackOp} {step : Step}

/-- A call returns without running the function, or the function has run. -/
theorem remoteCall_returned_cases
    (h : remoteCall arch c funcAddr returnAddr args s = CallResult.returned v s') :
    s' = prepareCall arch c funcAddr returnAddr args s ∨
      (s'.zygote = ((prepareCall arch c funcAddr returnAddr args s).zygote.request
        (Request.setRegs (prepareCall arch c funcAddr returnAddr args s).regs)).cont c.ran ∧
        (s'.regs = (prepareCall arch c funcAddr returnAddr args s).regs ∨
          c.regsAfter = some s'.regs)) := by
  rw [remoteCall] at h
  cases hset : c.setRegs with
  | false =>
      simp only [hset, if_neg, Bool.false_eq_true, not_false_eq_true] at h
      cases h
      exact Or.inl rfl
  | true =>
      simp only [hset, if_pos, awaitCall] at h
      cases hwait : waitForTrace c.wait with
      | none => simp [hwait] at h
      | some status =>
          cases hregs : c.regsAfter with
          | none =>
              simp only [hwait, hregs] at h
              cases h
              exact Or.inr ⟨rfl, Or.inl rfl⟩
          | some regs =>
              simp only [hwait, hregs] at h
              cases h
              exact Or.inr ⟨rfl, Or.inr rfl⟩

theorem writesBelow_written (hroom : Room arch (op.depth arch) s.regs) :
    WritesBelow (s.regs arch.regSp) s (op.written arch s) := by
  cases op with
  | push result str =>
      exact writesBelow_pushString result (hroom.mono (Nat.add_le_add_left (by decide) _))
  | call c funcAddr returnAddr args =>
      exact writesBelow_prepareCall c funcAddr returnAddr hroom

theorem writesBelow_run (hroom : Room arch (op.depth arch) s.regs)
    (h : op.run arch s = some (v, s')) : WritesBelow (s.regs arch.regSp) s s' := by
  have hwritten := writesBelow_written hroom
  cases op with
  | push result str =>
      cases h
      exact hwritten
  | call c funcAddr returnAddr args =>
      simp only [StackOp.run] at h
      split at h
      · cases h
      · rename_i hcall
        cases h
        rcases remoteCall_returned_cases hcall with heq | ⟨hzygote, _⟩
        · rw [heq]
          exact hwritten
        · have hresumed : WritesBelow 0
              (prepareCall arch c funcAddr returnAddr args s) s' := by
            refine ⟨[Request.setRegs (prepareCall arch c funcAddr returnAddr args s).regs,
              Request.cont], ?_, ?_⟩
            · rw [hzygote]
              simp [Tracee.request, Tracee.cont]
            · intro addr bytes hmem
              simp at hmem
          exact hwritten.trans hresumed (Nat.zero_le _)

/-- An operation lowers the stack pointer, and keeps the memory above it. -/
theorem sinks_run (hroom : Room arch (op.depth arch) s.regs)
    (hreturns : op.CalleeReturns arch s) (h : op.run arch s = some (v, s')) :
    Sinks arch (op.depth arch) s s' := by
  cases op with
  | push result str =>
      cases h
      exact sinks_pushString result (hroom.mono (Nat.add_le_add_left (by decide) _))
  | call c funcAddr returnAddr args =>
      simp only [StackOp.run] at h
      split at h
      · cases h
      · rename_i hcall
        cases h
        have hprepared := sinks_prepareCall c funcAddr returnAddr hroom
        have hpushed := sinks_pushedArgs c hroom
        have htop : stackArgs arch (prepareCall arch c funcAddr returnAddr args s).regs =
            (pushArgs arch c args (withArgRegs arch args s)).regs arch.regSp :=
          stackArgs_aimCall c funcAddr returnAddr (room_pushedArgs c hroom)
        rcases remoteCall_returned_cases hcall with heq | ⟨hzygote, hregs⟩
        · rw [heq]
          exact hprepared
        · have hmemory : Memory.AgreeFrom (s.regs arch.regSp) s.zygote.memory
              s'.zygote.memory := by
            rw [hzygote]
            apply hprepared.memory.trans hreturns.right
            rw [htop]
            exact hpushed.lower
          rcases hregs with hregs | hregs
          · refine ⟨hmemory, ?_, ?_⟩
            · rw [hregs]
              exact hprepared.lower
            · rw [hregs]
              exact hprepared.bound
          · have hsp := hreturns.left s'.regs hregs
            refine ⟨hmemory, ?_, ?_⟩
            · rw [hsp, htop]
              exact hpushed.lower
            · have hbound := hpushed.bound
              rw [hsp, htop]
              show _ ≤ _ + (15 + (args.length * arch.word + 15 + arch.word))
              omega

/-- After its first operation, a run goes on from the session that this leaves. -/
theorem trace_cons {rest : List StackOp} (hroom : Room arch (stackDepth arch (op :: rest)) s.regs)
    (hreturns : forall step, step ∈ trace arch (op :: rest) s ->
      step.op.CalleeReturns arch step.before) :
    Room arch (op.depth arch) s.regs ∧
      (op.run arch s = none ∧ trace arch (op :: rest) s = [⟨s, op⟩] ∨
        exists v s', op.run arch s = some (v, s') ∧
          trace arch (op :: rest) s = ⟨s, op⟩ :: trace arch rest s' ∧
          Sinks arch (op.depth arch) s s' ∧ Room arch (stackDepth arch rest) s'.regs ∧
          forall step, step ∈ trace arch rest s' ->
            step.op.CalleeReturns arch step.before) := by
  have hdepth : stackDepth arch (op :: rest) = op.depth arch + stackDepth arch rest := by
    rw [stackDepth, List.map_cons, List.sum_cons]
    rfl
  rw [hdepth] at hroom
  have hop : Room arch (op.depth arch) s.regs := hroom.mono (Nat.le_add_right _ _)
  refine ⟨hop, ?_⟩
  cases hrun : op.run arch s with
  | none => exact Or.inl ⟨rfl, by rw [trace, hrun]⟩
  | some result =>
      rcases result with ⟨v, s'⟩
      have htrace : trace arch (op :: rest) s = ⟨s, op⟩ :: trace arch rest s' := by
        rw [trace, hrun]
      rw [htrace] at hreturns
      have hsinks := sinks_run hop (hreturns ⟨s, op⟩ List.mem_cons_self) hrun
      exact Or.inr ⟨v, s', rfl, htrace, hsinks, hsinks.room hroom,
        fun step hstep => hreturns step (List.mem_cons_of_mem _ hstep)⟩

/-- Every operation of a run begins below the first stack pointer, with room for
itself. -/
theorem trace_reaches (hroom : Room arch (stackDepth arch ops) s.regs)
    (hreturns : forall step, step ∈ trace arch ops s ->
      step.op.CalleeReturns arch step.before)
    (hstep : step ∈ trace arch ops s) :
    (exists depth, Sinks arch depth s step.before) ∧
      Room arch (step.op.depth arch) step.before.regs := by
  induction ops generalizing s with
  | nil => cases hstep
  | cons op rest ih =>
      rcases trace_cons hroom hreturns with ⟨hop, htail⟩
      have hfirst : (exists depth, Sinks arch depth s s) ∧ Room arch (op.depth arch) s.regs :=
        ⟨⟨0, Memory.agreeFrom_refl _ _, Nat.le_refl _, Nat.le_refl _⟩, hop⟩
      rcases htail with ⟨_, htrace⟩ | ⟨v, s', _, htrace, hsinks, hroom', hreturns'⟩
      · rw [htrace, List.mem_singleton] at hstep
        rw [hstep]
        exact hfirst
      · rw [htrace, List.mem_cons] at hstep
        rcases hstep with heq | hstep
        · rw [heq]
          exact hfirst
        · rcases ih hroom' hreturns' hstep with ⟨⟨depth, hlater⟩, hop'⟩
          exact ⟨⟨_, hsinks.trans hlater⟩, hop'⟩

theorem keeps_of_room (hstart : step.before.regs arch.regSp ≤ top)
    (hroom : Room arch (step.op.depth arch) step.before.regs)
    (hreturns : step.op.CalleeReturns arch step.before) : Keeps arch top step := by
  refine ⟨hstart, writesBelow_written hroom, ?_, ?_⟩
  · intro v s' hresult
    have hlower := (sinks_run hroom hreturns hresult).lower
    exact ⟨writesBelow_run hroom hresult, Nat.le_trans hlower hstart⟩
  · intro result str v s' hop hresult
    rw [Step.result, hop] at hresult
    cases hresult
    refine ⟨?_, rfl⟩
    show alignStack arch 0 _ arch.regSp % 16 = 0
    rw [alignStack, Regs.set_same]
    exact Nat.mul_mod_left _ 16

/-- What begins below a stack pointer leaves alone what lies above it. -/
theorem spares_of_sinks {earlier later : Step} {depth : Nat}
    (hearlier : earlier.result arch = some (v, s')) (hsinks : Sinks arch depth s' later.before)
    (hroom : Room arch (later.op.depth arch) later.before.regs)
    (hreturns : later.op.CalleeReturns arch later.before) : Spares arch earlier later := by
  intro v₁ s₁ hresult
  rw [hearlier] at hresult
  cases hresult
  refine ⟨(writesBelow_written hroom).mono hsinks.lower, ?_⟩
  intro v₂ s₂ hlater
  have hrun := sinks_run hroom hreturns hlater
  exact ⟨(writesBelow_run hroom hlater).mono hsinks.lower,
    (hsinks.trans hrun).memory⟩

/-- In every run the tracer writes below the stack pointer only, which never rises
above the first one, and no operation touches what an earlier one has pushed. -/
theorem trace_keeps (arch : Arch) (ops : List StackOp) (s : Session)
    (hroom : Room arch (stackDepth arch ops) s.regs)
    (hreturns : forall step, step ∈ trace arch ops s ->
      step.op.CalleeReturns arch step.before) :
    (forall step, step ∈ trace arch ops s -> Keeps arch (s.regs arch.regSp) step) ∧
      (trace arch ops s).Pairwise (Spares arch) := by
  constructor
  · intro step hstep
    rcases trace_reaches hroom hreturns hstep with ⟨⟨depth, hsinks⟩, hop⟩
    exact keeps_of_room hsinks.lower hop (hreturns step hstep)
  · induction ops generalizing s with
    | nil => exact List.Pairwise.nil
    | cons op rest ih =>
        rcases trace_cons hroom hreturns with
          ⟨_, ⟨_, htrace⟩ | ⟨v, s', hrun, htrace, _, hroom', hreturns'⟩⟩
        · rw [htrace]
          exact List.pairwise_singleton _ _
        · rw [htrace, List.pairwise_cons]
          refine ⟨?_, ih s' hroom' hreturns'⟩
          intro later hlater
          rcases trace_reaches hroom' hreturns' hlater with ⟨⟨depth, hsinks⟩, hop⟩
          exact spares_of_sinks hrun hsinks hop (hreturns' later hlater)

end Runs

/-- A call that returns with the stack pointer as it was. -/
def returningCall : CallOutcome :=
  { argsWrite := 0, returnWrite := 8, setRegs := true, ran := id,
    wait := Waitpid.reported (stoppedStatus SIGSEGV 0),
    regsAfter := some (fun r => if r = Arch.x86_64.regSp then 0xfff0 else 0) }

def sampleOps : List StackOp :=
  [StackOp.push 4 (bytesOf "lib"), StackOp.call returningCall 0x1000 0x2000 [1],
    StackOp.push 2 (bytesOf "x")]

theorem trace_keeps_sample :
    (Room Arch.x86_64 (stackDepth Arch.x86_64 sampleOps) stoppedSession.regs ∧
      forall step, step ∈ trace Arch.x86_64 sampleOps stoppedSession ->
        step.op.CalleeReturns Arch.x86_64 step.before) ∧
    (forall step, step ∈ trace Arch.x86_64 sampleOps stoppedSession ->
        Keeps Arch.x86_64 (stoppedSession.regs Arch.x86_64.regSp) step) ∧
      (trace Arch.x86_64 sampleOps stoppedSession).Pairwise (Spares Arch.x86_64) := by
  have hroom : Room Arch.x86_64 (stackDepth Arch.x86_64 sampleOps) stoppedSession.regs :=
    ⟨by decide, by decide⟩
  have hreturns : forall step, step ∈ trace Arch.x86_64 sampleOps stoppedSession ->
      step.op.CalleeReturns Arch.x86_64 step.before := by
    intro step hstep
    rw [sampleOps, trace, List.mem_cons] at hstep
    rcases hstep with heq | hstep
    · rw [heq]
      exact True.intro
    change step ∈ trace Arch.x86_64
      [StackOp.call returningCall 0x1000 0x2000 [1], StackOp.push 2 (bytesOf "x")]
      (pushString Arch.x86_64 4 (bytesOf "lib") stoppedSession) at hstep
    rw [trace, List.mem_cons] at hstep
    rcases hstep with heq | hstep
    · rw [heq]
      refine ⟨?_, Memory.agreeFrom_refl _ _⟩
      intro regs hregs
      cases hregs
      decide
    · have heq := List.mem_singleton.mp hstep
      rw [heq]
      exact True.intro
  exact ⟨⟨hroom, hreturns⟩, trace_keeps Arch.x86_64 sampleOps stoppedSession hroom hreturns⟩

end Tracer
end ReZygisk
