import ReZygisk.Tracer.Restore

/-!
# Finding the entry address

The kernel starts a process with its argument count, its arguments, its
environment and its auxiliary vector on the stack.  The walk of `inject_on_main`
goes through all of them to the first pair of type `AT_ENTRY`.
-/

namespace ReZygisk
namespace Tracer

open Foundation
open Kernel

/-!
# The stack of a new process
-/

/-- The words of a list lie one after the other in memory. -/
def HoldsWords (arch : Arch) (m : Memory) : Nat -> List Nat -> Prop
  | _, [] => True
  | addr, w :: rest =>
      leValue (m.read addr arch.word) = w ∧ HoldsWords arch m (addr + arch.word) rest

def auxWords (aux : List (Nat × Nat)) : List Nat :=
  aux.flatMap (fun pair => [pair.1, pair.2])

/-- What the kernel puts on the stack, up to the type of the last pair. -/
def stackWords (args envs : List Nat) (aux : List (Nat × Nat)) : List Nat :=
  args.length :: (args ++ 0 :: (envs ++ 0 :: (auxWords aux ++ [AT_NULL])))

/-- The kernel counts the arguments with an `int`. -/
structure InitialStack (arch : Arch) (sp : Nat) (args envs : List Nat)
    (aux : List (Nat × Nat)) (m : Memory) : Prop where
  words : HoldsWords arch m sp (stackWords args envs aux)
  fits : sp + (stackWords args envs aux).length * arch.word < 2 ^ arch.lp.bits
  count : args.length < 2 ^ 31
  envs : forall e, e ∈ envs -> e ≠ 0
  aux : forall pair, pair ∈ aux -> pair.1 ≠ AT_NULL

/-- All reads of the walk succeed. -/
structure ReadsFrom (arch : Arch) (o : InjectOutcome) (sp : Nat) (m : Memory) : Prop where
  argc : o.argc = int32 (leValue (m.read sp 4))
  envp : forall pass addr, o.envp pass addr = leValue (m.read addr arch.word)
  auxv : forall pass addr, o.auxv pass addr =
    (leValue (m.read addr arch.word), leValue (m.read (addr + arch.word) arch.word))

section Words

variable {arch : Arch} {m : Memory} {addr : Nat}

theorem holdsWords_append {ws rest : List Nat} :
    HoldsWords arch m addr (ws ++ rest) <->
      HoldsWords arch m addr ws ∧ HoldsWords arch m (addr + ws.length * arch.word) rest := by
  induction ws generalizing addr with
  | nil => simp [HoldsWords]
  | cons w ws ih =>
      have hnext : addr + arch.word + ws.length * arch.word =
          addr + (w :: ws).length * arch.word := by
        rw [List.length_cons, Nat.succ_mul]
        omega
      rw [List.cons_append, HoldsWords, HoldsWords, ih, hnext, and_assoc]

theorem length_auxWords (aux : List (Nat × Nat)) : (auxWords aux).length = 2 * aux.length := by
  induction aux with
  | nil => rfl
  | cons pair rest ih =>
      have hcons : auxWords (pair :: rest) = pair.1 :: pair.2 :: auxWords rest := rfl
      rw [hcons, List.length_cons, List.length_cons, List.length_cons, ih]
      omega

/-- The count is a word, of which the walk reads four bytes. -/
theorem leValue_read_int (arch : Arch) (m : Memory) (addr : Nat) :
    leValue (m.read addr 4) = leValue (m.read addr arch.word) % 2 ^ 32 := by
  have hword : 4 ≤ arch.word := by
    cases arch <;> decide
  have hpow : 256 ^ 4 = 2 ^ 32 := by decide
  rw [← Memory.take_read m addr hword, leValue_take, hpow]

theorem movePtr_of_fits (p n : Nat) (h : p + n * arch.word < 2 ^ arch.lp.bits) :
    movePtr arch p n = p + n * arch.word := by
  have hmove : (p : Int) + (n : Int) * arch.word = ((p + n * arch.word : Nat) : Int) := by
    rw [Int.natCast_add, Int.natCast_mul]
  rw [movePtr, hmove]
  exact Lp.sizeT_natCast h

end Words

/-!
# The two loops
-/

section Loops

variable {arch : Arch} {m : Memory} {o : InjectOutcome} {addr pass sp : Nat}

/-- The environment is passed up to its end. -/
theorem envp_returns (hreads : ReadsFrom arch o sp m) {envs rest : List Nat}
    (hwords : HoldsWords arch m addr (envs ++ 0 :: rest))
    (hfits : addr + envs.length * arch.word < 2 ^ arch.lp.bits)
    (henvs : forall e, e ∈ envs -> e ≠ 0) :
    LoopReturns (envpBody arch o) (pass, addr) (addr + envs.length * arch.word) := by
  induction envs generalizing addr pass with
  | nil =>
      apply loopReturns_of_done
      rw [envpBody, hreads.envp, hwords.left, if_pos rfl, List.length_nil, Nat.zero_mul,
        Nat.add_zero]
  | cons e envs ih =>
      have hlen : addr + (e :: envs).length * arch.word =
          addr + arch.word + envs.length * arch.word := by
        rw [List.length_cons, Nat.succ_mul]
        omega
      have hmove : movePtr arch addr 1 = addr + arch.word := by
        have hone : addr + 1 * arch.word < 2 ^ arch.lp.bits := by omega
        have hmoved := movePtr_of_fits addr 1 hone
        rw [Nat.one_mul] at hmoved
        exact hmoved
      have hbody : envpBody arch o (pass, addr) =
          LoopStep.again (pass + 1, addr + arch.word) := by
        rw [envpBody, hreads.envp, hwords.left, if_neg (henvs e List.mem_cons_self), hmove]
      rw [loopReturns_again_iff hbody, hlen]
      rw [hlen] at hfits
      exact ih hwords.right hfits (fun e' he' => henvs e' (List.mem_cons_of_mem e he'))

/-- Pairs of other types are passed. -/
theorem auxv_skip (hreads : ReadsFrom arch o sp m) {before : List (Nat × Nat)}
    {rest : List Nat} {r : Nat × Nat}
    (hwords : HoldsWords arch m addr (auxWords before ++ rest))
    (hfits : addr + 2 * before.length * arch.word < 2 ^ arch.lp.bits)
    (hother : forall pair, pair ∈ before -> pair.1 ≠ AT_ENTRY ∧ pair.1 ≠ AT_NULL) :
    LoopReturns (auxvBody arch o) (pass, addr) r <->
      LoopReturns (auxvBody arch o)
        (pass + before.length, addr + 2 * before.length * arch.word) r := by
  induction before generalizing addr pass with
  | nil =>
      rw [List.length_nil, Nat.mul_zero, Nat.zero_mul]
      exact Iff.rfl
  | cons pair before ih =>
      have hlen : addr + 2 * (pair :: before).length * arch.word =
          addr + 2 * arch.word + 2 * before.length * arch.word := by
        rw [List.length_cons, Nat.mul_succ, Nat.add_mul]
        omega
      have hpass : pass + (pair :: before).length = pass + 1 + before.length := by
        rw [List.length_cons]
        omega
      rw [hlen] at hfits
      have hmove : movePtr arch addr 2 = addr + 2 * arch.word :=
        movePtr_of_fits addr 2 (by omega)
      have htypes := hother pair List.mem_cons_self
      have hbody : auxvBody arch o (pass, addr) =
          LoopStep.again (pass + 1, addr + 2 * arch.word) := by
        rw [auxvBody, hreads.auxv, hwords.left, if_neg htypes.left, if_neg htypes.right, hmove]
      have hnext : addr + 2 * arch.word = addr + arch.word + arch.word := by
        omega
      rw [loopReturns_again_iff hbody, hlen, hpass]
      apply ih _ hfits (fun pair' hpair' => hother pair' (List.mem_cons_of_mem pair hpair'))
      rw [hnext]
      exact hwords.right.right

theorem auxv_returns_entry (hreads : ReadsFrom arch o sp m) {rest : List Nat} {value : Nat}
    (hwords : HoldsWords arch m addr (AT_ENTRY :: value :: rest))
    (hfits : addr + arch.word < 2 ^ arch.lp.bits) :
    LoopReturns (auxvBody arch o) (pass, addr) (value, addr + arch.word) := by
  have hone : addr + 1 * arch.word < 2 ^ arch.lp.bits := by omega
  have hmove := movePtr_of_fits addr 1 hone
  rw [Nat.one_mul] at hmove
  apply loopReturns_of_done
  rw [auxvBody, hreads.auxv, hwords.left, hwords.right.left, if_pos rfl]
  exact congrArg (fun p => LoopStep.done (value, p)) hmove

theorem auxv_returns_none (hreads : ReadsFrom arch o sp m) {rest : List Nat}
    (hwords : HoldsWords arch m addr (AT_NULL :: rest)) :
    LoopReturns (auxvBody arch o) (pass, addr) (0, 0) := by
  have hne : AT_NULL ≠ AT_ENTRY := by decide
  apply loopReturns_of_done
  rw [auxvBody, hreads.auxv, hwords.left, if_neg hne, if_pos rfl]

theorem walk_of_loops {arg p : Nat} {found : Nat × Nat}
    (henvp : LoopReturns (envpBody arch o) (0, movePtr arch arg (o.argc + 2)) p)
    (hauxv : LoopReturns (auxvBody arch o) (0, movePtr arch p 1) found) :
    exists fuel, walk arch o fuel arg = some found := by
  rcases henvp with ⟨fuel, hfuel⟩
  rcases hauxv with ⟨fuel', hfuel'⟩
  refine ⟨fuel + fuel', ?_⟩
  have hsum := iterate_add hfuel' fuel
  rw [Nat.add_comm] at hsum
  rw [walk, iterate_add hfuel fuel']
  exact hsum

end Loops

/-!
# The walk
-/

/-- Where the environment and the auxiliary vector begin. -/
def envpAddr (arch : Arch) (sp : Nat) (args : List Nat) : Nat :=
  sp + (args.length + 2) * arch.word

def auxvAddr (arch : Arch) (sp : Nat) (args envs : List Nat) : Nat :=
  sp + (args.length + envs.length + 3) * arch.word

section Stack

variable {arch : Arch} {m : Memory} {o : InjectOutcome} {sp : Nat} {args envs : List Nat}
  {aux : List (Nat × Nat)}

theorem length_stackWords (args envs : List Nat) (aux : List (Nat × Nat)) :
    (stackWords args envs aux).length = args.length + envs.length + 2 * aux.length + 4 := by
  simp only [stackWords, List.length_cons, List.length_append, length_auxWords,
    List.length_nil]
  omega

theorem fits_of_le (hstack : InitialStack arch sp args envs aux m) {k : Nat}
    (hk : k ≤ args.length + envs.length + 2 * aux.length + 4) :
    sp + k * arch.word < 2 ^ arch.lp.bits := by
  have hfits := hstack.fits
  have hle : k * arch.word ≤ (stackWords args envs aux).length * arch.word := by
    apply Nat.mul_le_mul_right
    rw [length_stackWords]
    exact hk
  omega

theorem holds_envp (hstack : InitialStack arch sp args envs aux m) :
    HoldsWords arch m (envpAddr arch sp args) (envs ++ 0 :: (auxWords aux ++ [AT_NULL])) := by
  have hargs := (holdsWords_append.mp hstack.words.right).right.right
  have haddr : sp + arch.word + args.length * arch.word + arch.word =
      envpAddr arch sp args := by
    rw [envpAddr, Nat.add_mul]
    omega
  rw [haddr] at hargs
  exact hargs

theorem envpAddr_add (arch : Arch) (sp : Nat) (args envs : List Nat) :
    envpAddr arch sp args + envs.length * arch.word + arch.word =
      auxvAddr arch sp args envs := by
  rw [envpAddr, auxvAddr, Nat.add_mul, Nat.add_mul, Nat.add_mul]
  omega

theorem holds_auxv (hstack : InitialStack arch sp args envs aux m) :
    HoldsWords arch m (auxvAddr arch sp args envs) (auxWords aux ++ [AT_NULL]) := by
  have henvs := (holdsWords_append.mp (holds_envp hstack)).right.right
  rw [envpAddr_add] at henvs
  exact henvs

theorem argc_eq (hstack : InitialStack arch sp args envs aux m)
    (hreads : ReadsFrom arch o sp m) : o.argc = args.length := by
  have hcount := hstack.count
  rw [hreads.argc, leValue_read_int arch, hstack.words.left, Nat.mod_eq_of_lt (by omega),
    int32_of_lt hcount]

/-- The argument count leads to the environment, and that to the auxiliary vector. -/
theorem walk_of_auxv (hstack : InitialStack arch sp args envs aux m)
    (hreads : ReadsFrom arch o sp m) {found : Nat × Nat}
    (hauxv : LoopReturns (auxvBody arch o) (0, auxvAddr arch sp args envs) found) :
    exists fuel, walk arch o fuel sp = some found := by
  have henvp : movePtr arch sp (o.argc + 2) = envpAddr arch sp args := by
    rw [argc_eq hstack hreads]
    exact movePtr_of_fits sp (args.length + 2) (fits_of_le hstack (by omega))
  have hauxvAt := fits_of_le hstack (k := args.length + envs.length + 3) (by omega)
  have hend := envpAddr_add arch sp args envs
  have hlast : movePtr arch (envpAddr arch sp args + envs.length * arch.word) 1 =
      auxvAddr arch sp args envs := by
    have hfits : envpAddr arch sp args + envs.length * arch.word + 1 * arch.word <
        2 ^ arch.lp.bits := by
      rw [Nat.one_mul, hend]
      exact hauxvAt
    have hmove := movePtr_of_fits _ 1 hfits
    rw [Nat.one_mul, hend] at hmove
    exact hmove
  apply walk_of_loops
  · rw [henvp]
    apply envp_returns hreads (holds_envp hstack) _ hstack.envs
    have hword : envpAddr arch sp args + envs.length * arch.word ≤
        auxvAddr arch sp args envs := by
      omega
    exact Nat.lt_of_le_of_lt hword hauxvAt
  · rw [hlast]
    exact hauxv

theorem auxWords_append (before after : List (Nat × Nat)) :
    auxWords (before ++ after) = auxWords before ++ auxWords after :=
  List.flatMap_append

/-- The first pair of type `AT_ENTRY`, behind some others. -/
def FirstEntry (aux before : List (Nat × Nat)) (value : Nat) : Prop :=
  (exists after, aux = before ++ (AT_ENTRY, value) :: after) ∧
    forall pair, pair ∈ before -> pair.1 ≠ AT_ENTRY

theorem firstEntry_or_none (aux : List (Nat × Nat)) :
    (exists before value, FirstEntry aux before value) ∨
      forall pair, pair ∈ aux -> pair.1 ≠ AT_ENTRY := by
  induction aux with
  | nil => exact Or.inr (fun pair hpair => by cases hpair)
  | cons pair rest ih =>
      by_cases heq : pair.1 = AT_ENTRY
      · refine Or.inl ⟨[], pair.2, ⟨rest, ?_⟩, fun other hother => by cases hother⟩
        rw [← heq]
        rfl
      · rcases ih with ⟨before, value, ⟨after, hsplit⟩, hbefore⟩ | hnone
        · refine Or.inl ⟨pair :: before, value, ⟨after, ?_⟩, ?_⟩
          · rw [hsplit]
            rfl
          · intro other hother
            rcases List.mem_cons.mp hother with hsame | hother
            · rw [hsame]
              exact heq
            · exact hbefore other hother
        · refine Or.inr ?_
          intro other hother
          rcases List.mem_cons.mp hother with hsame | hother
          · rw [hsame]
            exact heq
          · exact hnone other hother

def entrySlot (arch : Arch) (sp : Nat) (args envs : List Nat) (before : List (Nat × Nat)) :
    Nat :=
  auxvAddr arch sp args envs + 2 * before.length * arch.word + arch.word

/-- The walk finds the first pair, and its value where it says. -/
theorem walk_firstEntry (hstack : InitialStack arch sp args envs aux m)
    (hreads : ReadsFrom arch o sp m) {before : List (Nat × Nat)} {value : Nat}
    (hfirst : FirstEntry aux before value) :
    (exists fuel, walk arch o fuel sp =
      some (value, entrySlot arch sp args envs before)) ∧
      leValue (m.read (entrySlot arch sp args envs before) arch.word) = value := by
  rcases hfirst with ⟨⟨after, hsplit⟩, hbefore⟩
  have hholds := holds_auxv hstack
  have hwords : auxWords aux ++ [AT_NULL] =
      auxWords before ++ AT_ENTRY :: value :: (auxWords after ++ [AT_NULL]) := by
    rw [hsplit, auxWords_append, List.append_assoc]
    rfl
  rw [hwords] at hholds
  have hpair := (holdsWords_append.mp hholds).right
  rw [length_auxWords] at hpair
  have hslot : entrySlot arch sp args envs before =
      sp + (args.length + envs.length + 2 * before.length + 4) * arch.word := by
    simp only [entrySlot, auxvAddr, Nat.add_mul]
    omega
  have hfits : entrySlot arch sp args envs before < 2 ^ arch.lp.bits := by
    rw [hslot]
    apply fits_of_le hstack
    rw [hsplit, List.length_append]
    omega
  have hother : forall pair, pair ∈ before -> pair.1 ≠ AT_ENTRY ∧ pair.1 ≠ AT_NULL := by
    intro pair hpair
    refine ⟨hbefore pair hpair, hstack.aux pair ?_⟩
    rw [hsplit]
    exact List.mem_append_left _ hpair
  refine ⟨walk_of_auxv hstack hreads ?_, hpair.right.left⟩
  rw [auxv_skip hreads hholds _ hother]
  · exact auxv_returns_entry hreads hpair hfits
  · have hle : auxvAddr arch sp args envs + 2 * before.length * arch.word ≤
        entrySlot arch sp args envs before := Nat.le_add_right _ _
    exact Nat.lt_of_le_of_lt hle hfits

theorem walk_noEntry (hstack : InitialStack arch sp args envs aux m)
    (hreads : ReadsFrom arch o sp m) (hnone : forall pair, pair ∈ aux -> pair.1 ≠ AT_ENTRY) :
    exists fuel, walk arch o fuel sp = some (0, 0) := by
  have hholds := holds_auxv hstack
  have hlast := (holdsWords_append.mp hholds).right
  rw [length_auxWords] at hlast
  apply walk_of_auxv hstack hreads
  rw [auxv_skip hreads hholds]
  · exact auxv_returns_none hreads hlast
  · have hfits := fits_of_le hstack (k := args.length + envs.length + 3 + 2 * aux.length)
      (by omega)
    rw [Nat.add_mul, ← Nat.add_assoc] at hfits
    exact hfits
  · intro pair hpair
    exact ⟨hnone pair hpair, hstack.aux pair hpair⟩

end Stack

/-- The walk ends with the first `AT_ENTRY` pair; without one, or if its value is
zero, the zygote is left as it is. -/
theorem injectOnMain_entry (arch : Arch) (libPath tmpPath : List Byte) (o : InjectOutcome)
    (t : Tracee) {regs : Regs} (hregs : o.startRegs = some regs) {args envs : List Nat}
    {aux : List (Nat × Nat)}
    (hstack : InitialStack arch (regs arch.regSp) args envs aux t.memory)
    (hreads : ReadsFrom arch o (regs arch.regSp) t.memory) :
    (forall before value, FirstEntry aux before value ->
      (exists fuel, walk arch o fuel (regs arch.regSp) =
        some (value, entrySlot arch (regs arch.regSp) args envs before)) ∧
      leValue (t.memory.read (entrySlot arch (regs arch.regSp) args envs before)
        arch.word) = value) ∧
    ((forall before value, FirstEntry aux before value -> value = 0) ->
      exists fuel, injectOnMain arch libPath tmpPath o fuel t =
        some (Ending.returned false t)) := by
  refine ⟨fun before value hfirst => walk_firstEntry hstack hreads hfirst, ?_⟩
  intro hzero
  have hwalk : exists fuel slot, walk arch o fuel (regs arch.regSp) = some (0, slot) := by
    rcases firstEntry_or_none aux with ⟨before, value, hfirst⟩ | hnone
    · rcases (walk_firstEntry hstack hreads hfirst).left with ⟨fuel, hfuel⟩
      rw [hzero before value hfirst] at hfuel
      exact ⟨fuel, _, hfuel⟩
    · rcases walk_noEntry hstack hreads hnone with ⟨fuel, hfuel⟩
      exact ⟨fuel, 0, hfuel⟩
  rcases hwalk with ⟨fuel, slot, hwalk⟩
  refine ⟨fuel, ?_⟩
  rw [injectOnMain, hregs]
  simp only [hwalk, breakAtEntry, if_pos]

/-- A process with one argument, one variable and two pairs. -/
def startedZygote : Tracee :=
  { memory := Memory.write (fun _ => 0) 4096
      ((stackWords [0x2000] [0x3000] [(3, 0x40), (AT_ENTRY, 0x5000)]).flatMap (leBytes 8)),
    requests := [] }

def readingInjection : InjectOutcome :=
  { sampleInjection 8 with
    argc := int32 (leValue (startedZygote.memory.read 4096 4))
    envp := fun _ addr => leValue (startedZygote.memory.read addr 8)
    auxv := fun _ addr => (leValue (startedZygote.memory.read addr 8),
      leValue (startedZygote.memory.read (addr + 8) 8)) }

theorem injectOnMain_entry_started :
    (InitialStack Arch.x86_64 4096 [0x2000] [0x3000] [(3, 0x40), (AT_ENTRY, 0x5000)]
        startedZygote.memory ∧
      ReadsFrom Arch.x86_64 readingInjection 4096 startedZygote.memory) ∧
    (forall before value, FirstEntry [(3, 0x40), (AT_ENTRY, 0x5000)] before value ->
      (exists fuel, walk Arch.x86_64 readingInjection fuel 4096 =
        some (value, entrySlot Arch.x86_64 4096 [0x2000] [0x3000] before)) ∧
      leValue (startedZygote.memory.read
        (entrySlot Arch.x86_64 4096 [0x2000] [0x3000] before) 8) = value) ∧
    ((forall before value, FirstEntry [(3, 0x40), (AT_ENTRY, 0x5000)] before value ->
        value = 0) ->
      exists fuel, injectOnMain Arch.x86_64 sampleLibPath sampleTmpPath readingInjection fuel
        startedZygote = some (Ending.returned false startedZygote)) := by
  have hstack : InitialStack Arch.x86_64 4096 [0x2000] [0x3000]
      [(3, 0x40), (AT_ENTRY, 0x5000)] startedZygote.memory := by
    refine ⟨?_, by decide, by decide, by decide, by decide⟩
    refine ⟨?_, ?_, ?_, ?_, ?_, ?_, ?_, ?_, ?_, ?_, True.intro⟩ <;> decide +kernel
  have hreads : ReadsFrom Arch.x86_64 readingInjection 4096 startedZygote.memory :=
    ⟨rfl, fun _ _ => rfl, fun _ _ => rfl⟩
  have hregs : readingInjection.startRegs = some (sampleRegs 0) := rfl
  exact ⟨⟨hstack, hreads⟩, injectOnMain_entry Arch.x86_64 sampleLibPath sampleTmpPath
    readingInjection startedZygote hregs hstack hreads⟩

end Tracer
end ReZygisk
