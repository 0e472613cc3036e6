import ReZygisk.Tracer.Inject

/-!
# Putting the zygote back

What `inject_on_main` owes its caller when it reports success: the auxiliary
vector holds the entry address again, and the registers set last are those of
the trap with the entry as program counter.  The first part rests on a write
whose result is compared with `0` only, so it can be lost.
-/

namespace ReZygisk
namespace Tracer

open Foundation
open Kernel

variable {arch : Arch} {libPath tmpPath : List Byte} {o : InjectOutcome}

/-!
# Reporting success

Success is one path through the steps.  Each step is inverted once.
-/

section Success

variable {entryAddr slot status handle injectorEntry : Nat} {backup : Regs}
  {s : Session} {t t' : Tracee}

theorem restoreRegs_true_iff :
    restoreRegs arch o entryAddr backup t = Ending.returned true t' <->
      o.restoreRegs = true ∧
        t.request (Request.setRegs (backup.set arch.regIp entryAddr)) = t' := by
  rw [restoreRegs]
  cases o.restoreRegs <;> simp

theorem callEntry_true_iff :
    callEntry arch tmpPath o entryAddr backup handle injectorEntry s =
        Ending.returned true t' <->
      exists value s',
        remoteCall arch o.entry injectorEntry o.libcReturnAddr
            [handle, (pushString arch o.tmpPathWrite tmpPath s).regs arch.regSp]
            (pushString arch o.tmpPathWrite tmpPath s) =
          CallResult.returned value s' ∧
        restoreRegs arch o entryAddr backup s'.zygote =
          Ending.returned true t' := by
  simp only [callEntry]
  split <;> rename_i hcall <;> simp [hcall]

theorem resolveEntry_true_iff :
    resolveEntry arch tmpPath o entryAddr backup handle s =
        Ending.returned true t' <->
      o.funcAddr arch RemoteFunc.dlsym ≠ 0 ∧ exists value s',
        remoteCall arch o.dlsym (o.funcAddr arch RemoteFunc.dlsym)
            o.libcReturnAddr
            [handle, (pushString arch o.entryNameWrite (bytesOf "entry") s).regs
              arch.regSp]
            (pushString arch o.entryNameWrite (bytesOf "entry") s) =
          CallResult.returned value s' ∧ value ≠ 0 ∧
        callEntry arch tmpPath o entryAddr backup handle value s' =
          Ending.returned true t' := by
  simp only [resolveEntry]
  split
  · simp_all
  · split <;> rename_i hcall
    · simp [hcall]
    · split <;> simp_all

theorem reportDlerror_ne_true :
    reportDlerror arch o s ≠ Ending.returned true t' := by
  simp only [reportDlerror]
  split
  · simp
  · split
    · simp
    · split
      · simp
      · split <;> simp

theorem openLibrary_true_iff :
    openLibrary arch libPath tmpPath o entryAddr s = Ending.returned true t' <->
      o.funcAddr arch RemoteFunc.dlopen ≠ 0 ∧ exists value s',
        remoteCall arch o.dlopen (o.funcAddr arch RemoteFunc.dlopen)
            o.libcReturnAddr
            [(pushString arch o.libPathWrite libPath s).regs arch.regSp,
              RTLD_NOW arch]
            (pushString arch o.libPathWrite libPath s) =
          CallResult.returned value s' ∧ value ≠ 0 ∧
        resolveEntry arch tmpPath o entryAddr s.regs value s' =
          Ending.returned true t' := by
  simp only [openLibrary]
  split
  · simp_all
  · split <;> rename_i hcall
    · simp [hcall]
    · split
      · simp_all [reportDlerror_ne_true]
      · simp_all

theorem atTrap_true_iff {regs : Regs} :
    atTrap arch libPath tmpPath o entryAddr slot regs t =
        Ending.returned true t' <->
      o.restoreWrite ≠ 0 ∧
        openLibrary arch libPath tmpPath o entryAddr
          { regs := regs,
            zygote :=
              t.writeProc o.restoreWrite slot (leBytes arch.word entryAddr) } =
          Ending.returned true t' := by
  simp only [atTrap]
  split <;> simp_all

def trapped (arch : Arch) (o : InjectOutcome) (entryAddr slot : Nat)
    (t : Tracee) : Tracee :=
  (t.writeProc o.breakWrite slot
    (leBytes arch.word (breakAddr arch entryAddr))).cont o.ran

/-- The zygote reaches the false entry with these registers. -/
structure TrapsWith (arch : Arch) (o : InjectOutcome) (entryAddr : Nat)
    (regs : Regs) : Prop where
  entry : entryAddr ≠ 0
  placed : o.breakWrite ≠ 0
  faulted : exists status,
    waitForTrace o.stop = some status ∧ WSTOPSIG status = SIGSEGV
  captured : o.trapRegs = some regs
  atBreak : regs arch.regIp / 2 = breakAddr arch entryAddr / 2

theorem breakAtEntry_true_iff :
    breakAtEntry arch libPath tmpPath o entryAddr slot t =
        Ending.returned true t' <->
      exists regs, TrapsWith arch o entryAddr regs ∧
        atTrap arch libPath tmpPath o entryAddr slot regs
          (trapped arch o entryAddr slot t) = Ending.returned true t' := by
  constructor
  · intro h
    simp only [breakAtEntry] at h
    split at h
    · simp at h
    · rename_i hentry
      split at h
      · simp at h
      · rename_i hplaced
        split at h
        · simp at h
        · rename_i status hwait
          simp only [afterStop] at h
          split at h
          · rename_i hstop
            split at h
            · simp at h
            · rename_i regs hregs
              split at h
              · simp at h
              · rename_i hip
                exact ⟨regs, ⟨hentry, hplaced, ⟨status, hwait, hstop.right⟩, hregs,
                  not_not.mp hip⟩, h⟩
          · simp at h
  · intro h
    rcases h with ⟨regs, htrap, h⟩
    rcases htrap.faulted with ⟨status, hwait, hsig⟩
    have hstop := wifstopped_of_waitForTrace hwait
    simp only [breakAtEntry, afterStop, if_neg htrap.entry, if_neg htrap.placed,
      hwait, if_pos (And.intro hstop hsig), htrap.captured]
    rw [if_neg (not_not.mpr htrap.atBreak)]
    exact h

end Success

/-!
# The slot of the entry address

Once the entry address is written back, nothing the tracer does reaches it: it
lies above the stack, where the tracer stores only below the stack pointer.
That the zygote's own code leaves the auxiliary vector alone, and that the
kernel reports stack pointers of that stack, is assumed of the zygote.
-/

structure BelowSlot (arch : Arch) (slot : Nat) (str : List Byte)
    (regs : Regs) : Prop where
  room : Room arch (str.length + 16 + callDepth arch [0, 0]) regs
  below : regs arch.regSp ≤ slot

structure Undisturbed (arch : Arch) (libPath tmpPath : List Byte)
    (o : InjectOutcome) (slot : Nat) : Prop where
  trap : forall regs, o.trapRegs = some regs -> BelowSlot arch slot libPath regs
  dlopen : o.dlopen.Spares slot arch.word
  afterDlopen : forall regs, o.dlopen.regsAfter = some regs ->
    BelowSlot arch slot (bytesOf "entry") regs
  dlsym : o.dlsym.Spares slot arch.word
  afterDlsym : forall regs, o.dlsym.regsAfter = some regs ->
    BelowSlot arch slot tmpPath regs
  entry : o.entry.Spares slot arch.word

theorem pushCall_spares {slot : Nat} {str : List Byte} {c : CallOutcome}
    {funcAddr returnAddr a b value : Nat} {result : Int} {s s' : Session}
    (h : BelowSlot arch slot str s.regs) (hspares : c.Spares slot arch.word)
    (hcall : remoteCall arch c funcAddr returnAddr [a, b]
      (pushString arch result str s) = CallResult.returned value s') :
    s'.zygote.memory.read slot arch.word =
      s.zygote.memory.read slot arch.word := by
  have hpush : Sinks arch (str.length + 16) s (pushString arch result str s) :=
    sinks_pushString result (h.room.mono (by omega))
  have hroom : Room arch (callDepth arch [a, b])
      (pushString arch result str s).regs :=
    hpush.room h.room
  rw [remoteCall_spares hroom (Nat.le_trans hpush.lower h.below) hspares hcall]
  exact hpush.memory.read_eq h.below

structure Completes (arch : Arch) (o : InjectOutcome) : Prop where
  accepted : o.restoreWrite ≠ 0
  dlopenFound : o.funcAddr arch RemoteFunc.dlopen ≠ 0
  opened : exists handle, handle ≠ 0 ∧
    o.dlopen.value arch o.libcReturnAddr = some handle
  dlsymFound : o.funcAddr arch RemoteFunc.dlsym ≠ 0
  resolved : exists injectorEntry, injectorEntry ≠ 0 ∧
    o.dlsym.value arch o.libcReturnAddr = some injectorEntry
  called : exists value, o.entry.value arch o.libcReturnAddr = some value
  regsSet : o.restoreRegs = true

theorem openLibrary_of_completes (libPath tmpPath : List Byte)
    (h : Completes arch o) (entryAddr : Nat) (s : Session) :
    exists t', openLibrary arch libPath tmpPath o entryAddr s =
      Ending.returned true t' := by
  rcases h.opened with ⟨handle, hhandle, hopened⟩
  rcases exists_remoteCall_returned hopened _ _ _ with ⟨s1, hcall1⟩
  rcases h.resolved with ⟨injectorEntry, hentry, hresolved⟩
  rcases exists_remoteCall_returned hresolved _ _ _ with ⟨s2, hcall2⟩
  rcases h.called with ⟨value, hvalue⟩
  rcases exists_remoteCall_returned hvalue _ _ _ with ⟨s3, hcall3⟩
  refine ⟨_, openLibrary_true_iff.mpr ⟨h.dlopenFound, handle, s1, hcall1, hhandle,
    resolveEntry_true_iff.mpr ⟨h.dlsymFound, injectorEntry, s2, hcall2, hentry,
      callEntry_true_iff.mpr ⟨value, s3, hcall3,
        restoreRegs_true_iff.mpr ⟨h.regsSet, rfl⟩⟩⟩⟩⟩

/-- Success means that every step succeeded, that the registers of the trap
were set last, and that the slot still holds what it held at the start. -/
theorem openLibrary_true {entryAddr slot : Nat} {s : Session} {t' : Tracee}
    (hquiet : Undisturbed arch libPath tmpPath o slot)
    (htrap : o.trapRegs = some s.regs)
    (haccepted : o.restoreWrite ≠ 0)
    (h : openLibrary arch libPath tmpPath o entryAddr s =
      Ending.returned true t') :
    Completes arch o ∧
      lastSetRegs t'.requests = some (s.regs.set arch.regIp entryAddr) ∧
      t'.memory.read slot arch.word =
        s.zygote.memory.read slot arch.word := by
  rcases openLibrary_true_iff.mp h with
    ⟨hdlopen, handle, s1, hcall1, hhandle, h1⟩
  rcases resolveEntry_true_iff.mp h1 with
    ⟨hdlsym, injectorEntry, s2, hcall2, hentry, h2⟩
  rcases callEntry_true_iff.mp h2 with ⟨value, s3, hcall3, h3⟩
  rcases restoreRegs_true_iff.mp h3 with ⟨hset, ht'⟩
  rcases remoteCall_returned hcall1 with ⟨hvalue1, hregs1⟩
  rcases remoteCall_returned hcall2 with ⟨hvalue2, hregs2⟩
  refine ⟨?_, ?_, ?_⟩
  · exact ⟨haccepted, hdlopen, ⟨handle, hhandle, hvalue1⟩, hdlsym,
      ⟨injectorEntry, hentry, hvalue2⟩,
      ⟨value, (remoteCall_returned hcall3).left⟩, hset⟩
  · rw [← ht']
    exact lastSetRegs_append_setRegs _ _
  · rw [← ht']
    calc
      s3.zygote.memory.read slot arch.word
          = s2.zygote.memory.read slot arch.word :=
            pushCall_spares (hquiet.afterDlsym _ (hregs2 hentry)) hquiet.entry hcall3
      _ = s1.zygote.memory.read slot arch.word :=
            pushCall_spares (hquiet.afterDlopen _ (hregs1 hhandle)) hquiet.dlsym hcall2
      _ = s.zygote.memory.read slot arch.word :=
            pushCall_spares (hquiet.trap _ htrap) hquiet.dlopen hcall1

/-!
# Restoring the entry address
-/

def PutBack (arch : Arch) (entryAddr slot : Nat) (trap : Regs) (t : Tracee) :
    Prop :=
  t.memory.read slot arch.word = leBytes arch.word entryAddr ∧
    lastSetRegs t.requests = some (trap.set arch.regIp entryAddr)

/-- `inject_on_main` ends, and reports success only with the zygote put back.
It may also end the tracer from within a wait; the zygote is seized with
`PTRACE_O_EXITKILL`, so that kills it just as the caller does on failure. -/
def InjectsSafely (arch : Arch) (libPath tmpPath : List Byte)
    (o : InjectOutcome) (t : Tracee) : Prop :=
  exists fuel ending,
    injectOnMain arch libPath tmpPath o fuel t = some ending ∧
      forall t', ending = Ending.returned true t' ->
        exists start entryAddr slot trap,
          o.startRegs = some start ∧
          walk arch o fuel (start arch.regSp) = some (entryAddr, slot) ∧
          o.trapRegs = some trap ∧ PutBack arch entryAddr slot trap t'

/-- The restoring write reaches every byte of the slot that does not hold the
entry address's byte anyway. -/
def RestoreReaches (arch : Arch) (o : InjectOutcome) (entryAddr slot : Nat)
    (t : Tracee) : Prop :=
  ((trapped arch o entryAddr slot t).memory.read slot arch.word).drop
      o.restoreWrite.toNat =
    (leBytes arch.word entryAddr).drop o.restoreWrite.toNat

instance (arch : Arch) (o : InjectOutcome) (entryAddr slot : Nat) (t : Tracee) :
    Decidable (RestoreReaches arch o entryAddr slot t) :=
  inferInstanceAs (Decidable (_ = _))

/-- Both walks end, and on the path to success the entry address is written
back as far as it has to be. -/
def Restorable (arch : Arch) (o : InjectOutcome) (t : Tracee) : Prop :=
  forall start, o.startRegs = some start ->
    exists fuel entryAddr slot,
      walk arch o fuel (start arch.regSp) = some (entryAddr, slot) ∧
        forall regs, TrapsWith arch o entryAddr regs -> Completes arch o ->
          RestoreReaches arch o entryAddr slot t

theorem restored_iff_reaches {entryAddr slot : Nat} {t : Tracee} :
    ((trapped arch o entryAddr slot t).writeProc o.restoreWrite slot
          (leBytes arch.word entryAddr)).memory.read slot arch.word =
        leBytes arch.word entryAddr <->
      RestoreReaches arch o entryAddr slot t := by
  have h := Memory.read_write_take_eq_iff
    (trapped arch o entryAddr slot t).memory slot o.restoreWrite.toNat
    (leBytes arch.word entryAddr)
  rw [leBytes_length] at h
  exact h

section Claim

variable {t : Tracee}
  (hquiet : forall start fuel entryAddr slot, o.startRegs = some start ->
    walk arch o fuel (start arch.regSp) = some (entryAddr, slot) ->
      Undisturbed arch libPath tmpPath o slot)

include hquiet

theorem injectsSafely_of_restorable (h : Restorable arch o t) :
    InjectsSafely arch libPath tmpPath o t := by
  cases hstart : o.startRegs with
  | none =>
      refine ⟨0, Ending.returned false t, by simp [injectOnMain, hstart], ?_⟩
      intro t' ht'
      simp at ht'
  | some start =>
      rcases h start hstart with ⟨fuel, entryAddr, slot, hwalk, hreaches⟩
      refine ⟨fuel, breakAtEntry arch libPath tmpPath o entryAddr slot t,
        by simp [injectOnMain, hstart, hwalk], ?_⟩
      intro t' ht'
      rcases breakAtEntry_true_iff.mp ht' with ⟨regs, htrap, hat⟩
      rcases atTrap_true_iff.mp hat with ⟨haccepted, hopen⟩
      rcases openLibrary_true (hquiet start fuel entryAddr slot hstart hwalk)
        htrap.captured haccepted hopen with ⟨hcompletes, hset, hslot⟩
      refine ⟨start, entryAddr, slot, regs, hstart, hwalk, htrap.captured, ?_, hset⟩
      rw [hslot]
      exact restored_iff_reaches.mpr (hreaches regs htrap hcompletes)

theorem restorable_of_injectsSafely
    (h : InjectsSafely arch libPath tmpPath o t) : Restorable arch o t := by
  intro start hstart
  rcases h with ⟨fuel, ending, hinject, hsafe⟩
  cases hwalk : walk arch o fuel (start arch.regSp) with
  | none => simp [injectOnMain, hstart, hwalk] at hinject
  | some found =>
      refine ⟨fuel, found.1, found.2, hwalk, ?_⟩
      intro regs htrap hcompletes
      rcases openLibrary_of_completes libPath tmpPath hcompletes found.1
        { regs := regs,
          zygote := (trapped arch o found.1 found.2 t).writeProc o.restoreWrite
            found.2 (leBytes arch.word found.1) } with ⟨t', hopen⟩
      have hat := atTrap_true_iff.mpr ⟨hcompletes.accepted, hopen⟩
      have htrue := breakAtEntry_true_iff.mpr ⟨regs, htrap, hat⟩
      have hending : ending = Ending.returned true t' := by
        simp [injectOnMain, hstart, hwalk, htrue] at hinject
        exact hinject.symm
      rcases hsafe t' hending with
        ⟨start', entryAddr, slot, trap, hstart', hwalk', _, hback⟩
      rw [hstart] at hstart'
      cases hstart'
      rw [hwalk] at hwalk'
      cases hwalk'
      rcases openLibrary_true (hquiet start fuel entryAddr slot hstart hwalk)
        htrap.captured hcompletes.accepted hopen with ⟨_, _, hslot⟩
      rw [← restored_iff_reaches, ← hslot]
      exact hback.left

/-- For every outcome of the steps of `inject_on_main`, it ends and reports
success only with the zygote put back if and only if the walks end and the
entry address is written back as far as it has to be. -/
theorem injectsSafely_iff_restorable :
    InjectsSafely arch libPath tmpPath o t <-> Restorable arch o t :=
  ⟨restorable_of_injectsSafely hquiet, injectsSafely_of_restorable hquiet⟩

end Claim

/-!
# A lost restore

The outcomes of an injection on x86_64 in which every step succeeds, but for
the write that puts the entry address back.
-/

section Sample

def sampleRegs (ip : Nat) : Regs :=
  fun r => if r = Arch.x86_64.regIp then ip else 4096

def sampleMap : List MapInfo :=
  [{ start := 0x7000, endAddr := 0x8000, perms := 1, isPrivate := true,
     offset := 0, dev := 0, inode := 0, path := bytesOf "libc.so" },
   { start := 0x8000, endAddr := 0x9000, perms := 1, isPrivate := true,
     offset := 0, dev := 0, inode := 0, path := bytesOf "libdl.so" }]

def sampleCall : CallOutcome :=
  { argsWrite := 16, returnWrite := 8, setRegs := true, ran := id,
    wait := Waitpid.reported (stoppedStatus SIGSEGV 0),
    regsAfter := some (sampleRegs 0x7000) }

def sampleInjection (restoreWrite : Int) : InjectOutcome :=
  { startRegs := some (sampleRegs 0), argc := 0, envp := fun _ _ => 0,
    auxv := fun _ _ => (AT_ENTRY, 0x1000), breakWrite := 8, ran := id,
    stop := Waitpid.reported (stoppedStatus SIGSEGV 0),
    trapRegs := some (sampleRegs (breakAddr Arch.x86_64 0x1000)),
    restoreWrite := restoreWrite, remoteMap := sampleMap, localMap := sampleMap,
    sym := fun _ => 0x8100, libPathWrite := 38, dlopen := sampleCall,
    dlerror := sampleCall, strlen := sampleCall, entryNameWrite := 6,
    dlsym := sampleCall, tmpPathWrite := 19, entry := sampleCall,
    restoreRegs := true }

def sampleTmpPath : List Byte :=
  bytesOf "/data/adb/rezygisk"

def sampleLibPath : List Byte :=
  bytesOf "/data/adb/rezygisk/lib64/libzygisk.so"

def sampleZygote : Tracee :=
  { memory := fun _ => 0, requests := [] }

theorem sample_walk (restoreWrite : Int) :
    walk Arch.x86_64 (sampleInjection restoreWrite) 1 4096 =
      some (0x1000, 4128) := by
  rfl

theorem sample_undisturbed (restoreWrite : Int) :
    Undisturbed Arch.x86_64 sampleLibPath sampleTmpPath
      (sampleInjection restoreWrite) 4128 := by
  have hspares : sampleCall.Spares 4128 Arch.x86_64.word := fun _ => rfl
  have hbelow : forall str : List Byte, str.length ≤ 37 ->
      forall ip, BelowSlot Arch.x86_64 4128 str (sampleRegs ip) := by
    intro str hlen ip
    have hsp : sampleRegs ip Arch.x86_64.regSp = 4096 := rfl
    have hdepth : callDepth Arch.x86_64 [0, 0] = 54 := rfl
    exact ⟨⟨by omega, by rw [hsp]; decide⟩, by omega⟩
  refine ⟨?_, hspares, ?_, hspares, ?_, hspares⟩
  · intro regs hregs
    cases hregs
    exact hbelow _ (by decide) _
  · intro regs hregs
    cases hregs
    exact hbelow _ (by decide) _
  · intro regs hregs
    cases hregs
    exact hbelow _ (by decide) _

theorem sample_quiet (restoreWrite : Int) :
    forall start fuel entryAddr slot,
      (sampleInjection restoreWrite).startRegs = some start ->
      walk Arch.x86_64 (sampleInjection restoreWrite) fuel
          (start Arch.x86_64.regSp) = some (entryAddr, slot) ->
        Undisturbed Arch.x86_64 sampleLibPath sampleTmpPath
          (sampleInjection restoreWrite) slot := by
  intro start fuel entryAddr slot hstart hwalk
  cases hstart
  cases walk_unique hwalk (sample_walk restoreWrite)
  exact sample_undisturbed restoreWrite

theorem sample_completes {restoreWrite : Int} (h : restoreWrite ≠ 0) :
    Completes Arch.x86_64 (sampleInjection restoreWrite) := by
  have hvalue : sampleCall.value Arch.x86_64
      (sampleInjection restoreWrite).libcReturnAddr = some 4096 := by
    show sampleCall.value Arch.x86_64
      (findModuleReturnAddr sampleMap (bytesOf "libc.so")) = some 4096
    decide
  have hfound : forall func : RemoteFunc,
      findFuncAddr Lp.lp64 0x8100 sampleMap sampleMap func.module ≠ 0 := by
    intro func
    cases func <;> decide
  exact ⟨h, hfound RemoteFunc.dlopen, ⟨4096, by decide, hvalue⟩,
    hfound RemoteFunc.dlsym, ⟨4096, by decide, hvalue⟩, ⟨4096, hvalue⟩, rfl⟩

theorem sample_traps (restoreWrite : Int) :
    TrapsWith Arch.x86_64 (sampleInjection restoreWrite) 0x1000
      (sampleRegs (breakAddr Arch.x86_64 0x1000)) :=
  ⟨by decide, by show (8 : Int) ≠ 0; decide,
    ⟨stoppedStatus SIGSEGV 0, rfl, by decide⟩, rfl, rfl⟩

theorem sample_reports_success {restoreWrite : Int} (h : restoreWrite ≠ 0)
    {libPath tmpPath : List Byte} {fuel : Nat} {t : Tracee} {ending : Ending}
    (hinject : injectOnMain Arch.x86_64 libPath tmpPath
      (sampleInjection restoreWrite) fuel t = some ending) :
    exists t', ending = Ending.returned true t' := by
  have htrap := sample_traps restoreWrite
  rcases openLibrary_of_completes libPath tmpPath (sample_completes h) 0x1000
    { regs := sampleRegs (breakAddr Arch.x86_64 0x1000),
      zygote := (trapped Arch.x86_64 (sampleInjection restoreWrite) 0x1000 4128
        t).writeProc restoreWrite 4128 (leBytes 8 0x1000) } with ⟨t', hopen⟩
  have hat := atTrap_true_iff.mpr ⟨h, hopen⟩
  have htrue := breakAtEntry_true_iff.mpr ⟨_, htrap, hat⟩
  simp only [injectOnMain] at hinject
  split at hinject
  · rename_i hstart
    cases hstart
  · rename_i start hstart
    cases hstart
    split at hinject
    · cases hinject
    · rename_i found hwalk
      cases walk_unique hwalk (sample_walk restoreWrite)
      cases hinject
      exact ⟨t', htrue⟩

theorem injectsSafely_full_restore :
    Undisturbed Arch.x86_64 sampleLibPath sampleTmpPath (sampleInjection 8) 4128 ∧
      InjectsSafely Arch.x86_64 sampleLibPath sampleTmpPath (sampleInjection 8)
        sampleZygote := by
  refine ⟨sample_undisturbed 8,
    (injectsSafely_iff_restorable (sample_quiet 8)).mpr ?_⟩
  intro start hstart
  cases hstart
  refine ⟨1, 0x1000, 4128, sample_walk 8, ?_⟩
  intro regs _ _
  rfl

/-- A restoring write that fails with `-1` is taken for a success. -/
theorem not_injectsSafely_failed_restore :
    ¬ InjectsSafely Arch.x86_64 sampleLibPath sampleTmpPath
      (sampleInjection (-1)) sampleZygote := by
  intro h
  rcases restorable_of_injectsSafely (sample_quiet (-1)) h (sampleRegs 0) rfl with
    ⟨fuel, entryAddr, slot, hwalk, hreaches⟩
  cases walk_unique hwalk (sample_walk (-1))
  have hlost : ¬ RestoreReaches Arch.x86_64 (sampleInjection (-1)) 0x1000 4128
      sampleZygote := by
    decide
  exact hlost (hreaches _ (sample_traps (-1)) (sample_completes (by decide)))

end Sample

end Tracer
end ReZygisk
