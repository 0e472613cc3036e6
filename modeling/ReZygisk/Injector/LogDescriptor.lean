import ReZygisk.Foundation.System
import ReZygisk.Injector.ExemptFd

/-!
# The descriptor of the log

The injector keeps the number of its log socket.  The zygote and the processes it forks
close descriptors by their numbers and check which ones are open, so a number that is kept
too long would be one of another file, and a socket that is kept too long would end the
process.
-/

namespace ReZygisk
namespace Injector

open Foundation
open ReZygisk.Injector.Specialization (ModuleOp)

/-!
# A process of the zygote
-/

/-- `logfd` of the logging functions, the method that `g_ctx` stands for, and three things
that no function reads: under which number the log socket is open in fact, whether the
original method has closed its logs, and whether the process has become an app. -/
structure LogProcess where
  spec : Specialization
  call : Option HookKind
  logfd : Int
  socket : Option Nat
  logsClosed : Bool
  specialised : Bool

namespace LogProcess

/-- The descriptors change, and no open number is given out. -/
def withSpec (spec : Specialization) (p : LogProcess) : LogProcess :=
  { p with spec := spec, socket := p.socket.filter (fun n => n ∈ spec.fds) }

def setfd (fd : Int) (p : LogProcess) : LogProcess :=
  { p.withSpec { p.spec with fds := close p.spec.fds p.logfd } with logfd := fd }

/-- `entry`, which gets the log of a release build from the daemon: `connected` tells
whether the daemon could be reached a second time. -/
def entry (fds : Finset Nat) (release connected : Bool) : LogProcess :=
  let loaded : LogProcess :=
    { spec := Specialization.start fds none, call := none, logfd := -1, socket := none,
      logsClosed := false, specialised := false }
  if release then
    if connected then
      let fd := lowestFree fds
      setfd fd { loaded with spec := Specialization.start (insert fd fds) none, socket := some fd }
    else setfd (-1) loaded
  else loaded

/-- `new_android_log_close`, without the original. -/
def androidLogClose (p : LogProcess) : LogProcess :=
  let closed :=
    match p.call with
    | none => setfd (-1) p
    | some _ => if p.spec.ctx.skipFdSanitization then p else setfd (-1) p
  { closed with logsClosed := true }

/-- The pre part of a replaced method, in one of the processes that `fork` returns in. -/
def pre (kind : HookKind) (fork : ForkOutcome) (fdsToIgnore : Option (List Int))
    (modules : List ModuleOp) (alloc : Bool) (p : LogProcess) : Option LogProcess :=
  let entered := { p with call := some kind, logsClosed := false }
  match kind with
  | HookKind.forkAndSpecialize =>
      ((Specialization.start p.spec.fds fdsToIgnore).nativeForkAndSpecializePre fork p.logfd
        modules alloc).map (fun s => entered.withSpec s)
  | HookKind.forkSystemServer =>
      ((Specialization.start p.spec.fds none).nativeForkSystemServerPre fork modules alloc).map
        (fun s => entered.withSpec s)
  | HookKind.specializeAppProcess =>
      let started := Specialization.start p.spec.fds none
      some (entered.withSpec (Specialization.runModules modules
        { started with ctx := { started.ctx with skipFdSanitization := true } }))

def runModulesPost (modules : List ModuleOp) (p : LogProcess) : LogProcess :=
  p.withSpec (Specialization.runModules modules
    { p.spec with ctx := { p.spec.ctx with postSpecialize := true } })

def appSpecializePost (modules : List ModuleOp) (p : LogProcess) : LogProcess :=
  { setfd (-1) (p.runModulesPost modules) with specialised := true }

/-- The post part of a replaced method, and the end of its context. -/
def post (modules : List ModuleOp) (p : LogProcess) : Option LogProcess :=
  p.call.map (fun kind =>
    let posted :=
      match kind with
      | HookKind.forkAndSpecialize =>
          if p.spec.ctx.pid = 0 then p.appSpecializePost modules else p
      | HookKind.forkSystemServer => if p.spec.ctx.pid = 0 then p.runModulesPost modules else p
      | HookKind.specializeAppProcess => p.appSpecializePost modules
    { posted with call := none })

end LogProcess

/-- What happens in a process.  A fork of which no replaced method knows leaves both of
its processes as they are. -/
inductive LogEvent where
  | other (op : ModuleOp)
  | androidLogClose
  | pre (kind : HookKind) (fork : ForkOutcome) (fdsToIgnore : Option (List Int))
      (modules : List ModuleOp) (alloc : Bool)
  | post (modules : List ModuleOp)

def LogEvent.ops : LogEvent -> List ModuleOp
  | LogEvent.other op => [op]
  | LogEvent.androidLogClose => []
  | LogEvent.pre _ _ _ modules _ => modules
  | LogEvent.post modules => modules

namespace LogProcess

def step (p : LogProcess) : LogEvent -> Option LogProcess
  | LogEvent.other op => some (p.withSpec (p.spec.moduleStep op))
  | LogEvent.androidLogClose => some p.androidLogClose
  | LogEvent.pre kind fork fdsToIgnore modules alloc =>
      if p.call = none then p.pre kind fork fdsToIgnore modules alloc else none
  | LogEvent.post modules => p.post modules

/-- The runs of the processes that a zygote and its forks are, from the end of `entry`. -/
def system (fds : Finset Nat) (release connected : Bool) :
    TransitionSystem LogProcess LogEvent where
  init p := p = entry fds release connected
  step := step

/-!
# Safety
-/

/-- Nobody else closes the log socket. -/
def Spares (p : LogProcess) (e : LogEvent) : Prop :=
  forall n, p.socket = some n -> ModuleOp.closes n ∉ LogEvent.ops e

/-- The two methods that have the open descriptors of their process checked. -/
def Forking (p : LogProcess) : Prop :=
  p.call = some HookKind.forkAndSpecialize ∨ p.call = some HookKind.forkSystemServer

/-- The kept number is that of the log socket as long as it is open, and no number
afterwards.  Once the original method has closed its logs, which it does before the
checks, an open socket is on the list of what they ignore.  An app has none. -/
structure LogSafe (p : LogProcess) : Prop where
  number : p.logfd = p.socket.elim (-1) (fun n => (n : Int))
  isOpen : forall n, p.socket = some n -> n ∈ p.spec.fds
  ignored : p.Forking -> p.logsClosed = true ->
    forall n, p.socket = some n -> (n : Int) ∈ p.spec.fdsToIgnore.getD []
  gone : p.specialised = true -> p.socket = none

end LogProcess

/-!
# A descriptor from the fork to the original method
-/

namespace Specialization

/-- A descriptor that is open, that the last scan is not going to close, and that an app is
going to have ignored. -/
structure Ready (fd : Nat) (s : Specialization) : Prop where
  isOpen : fd ∈ s.fds
  skip : s.ctx.skipFdSanitization = false
  allowed : s.ctx.pid = 0 -> fd ∈ s.ctx.allowedFds
  exempted : s.ctx.appForkAndSpecialize = true -> (fd : Int) ∈ s.ctx.exemptedFds

section Keeping

variable {s s' : Specialization} {fd : Nat} {fork : ForkOutcome} {alloc : Bool}

/-- The scan of `fork_pre` leaves what it records. -/
theorem mem_recordFds (h : s.recordFds = some s') (hopen : fd ∈ s.fds)
    (hsmall : fd < MAX_FD_SIZE) :
    fd ∈ s'.fds ∧ fd ∈ s'.ctx.allowedFds := by
  have hother : fd ≠ lowestFree s.fds := by
    intro heq
    rw [heq] at hopen
    exact lowestFree_not_mem s.fds hopen
  have hscanned := mem_record (insert (lowestFree s.fds) s.fds).sort
    (insert (lowestFree s.fds) s.fds, s.ctx.allowedFds) fd
  simp only [recordFds] at h
  rw [foldl_fdEntries recordEntry _ recordEntry_dots] at h
  split at h
  · cases h
    constructor
    · refine mem_close.mpr ⟨hother, hscanned.left.mpr ⟨Finset.mem_insert_of_mem hopen, ?_⟩⟩
      intro hclosed
      exact absurd hsmall (Nat.not_lt.mpr hclosed.right)
    · refine Finset.mem_erase.mpr ⟨hother, hscanned.right.mpr (Or.inr ⟨?_, hsmall⟩)⟩
      exact (Finset.mem_sort _).mpr (Finset.mem_insert_of_mem hopen)
  · cases h

theorem recordFds_ctx (h : s.recordFds = some s') :
    s'.ctx.skipFdSanitization = s.ctx.skipFdSanitization ∧
      s'.ctx.appForkAndSpecialize = s.ctx.appForkAndSpecialize ∧
      s'.ctx.exemptedFds = s.ctx.exemptedFds := by
  simp only [recordFds] at h
  split at h
  · cases h
    exact ⟨rfl, rfl, rfl⟩
  · cases h

theorem ready_forkPre (h : s.forkPre fork = some s') (hopen : fd ∈ s.fds)
    (hsmall : fd < MAX_FD_SIZE) (hskip : s.ctx.skipFdSanitization = false)
    (hexempted : s.ctx.appForkAndSpecialize = true -> (fd : Int) ∈ s.ctx.exemptedFds) :
    Ready fd s' := by
  simp only [forkPre] at h
  split at h
  · rename_i hparent
    cases h
    refine ⟨hopen, hskip, ?_, hexempted⟩
    intro hpid
    rcases hparent with hne | hskipped
    · exact absurd hpid hne
    · exact Bool.noConfusion (hskip.symm.trans hskipped)
  · rcases mem_recordFds h hopen hsmall with ⟨hstill, hallowed⟩
    rcases recordFds_ctx h with ⟨hskip', happ, hexempted'⟩
    refine ⟨hstill, hskip'.trans hskip, fun _ => hallowed, ?_⟩
    rw [happ, hexempted']
    exact hexempted

theorem ready_moduleStep (h : Ready fd s) {op : ModuleOp} (hop : op ≠ ModuleOp.closes fd) :
    Ready fd (s.moduleStep op) := by
  have hopen := mem_moduleStep h.isOpen hop
  cases op with
  | opens fd' => exact ⟨hopen, h.skip, h.allowed, h.exempted⟩
  | closes fd' => exact ⟨hopen, h.skip, h.allowed, h.exempted⟩
  | exempts fd' =>
      change Ready fd (s.exemptFd fd').2
      unfold exemptFd
      split
      · exact h
      · split
        · exact h
        · exact ⟨h.isOpen, h.skip, h.allowed, fun happ => List.mem_append_left _ (h.exempted happ)⟩

theorem ready_runModules (h : Ready fd s) {ops : List ModuleOp}
    (hops : ModuleOp.closes fd ∉ ops) : Ready fd (s.runModules ops) := by
  induction ops generalizing s with
  | nil => exact h
  | cons op rest ih =>
      rw [List.mem_cons, not_or] at hops
      exact ih (ready_moduleStep h (Ne.symm hops.left)) hops.right

/-- Without an array, the checks of the original method are left to `close`. -/
theorem updateIgnored_skip (s : Specialization) :
    (s.updateIgnored false).ctx.skipFdSanitization = s.ctx.skipFdSanitization := by
  unfold updateIgnored
  split
  · rw [updateFdArray_none _ (Or.inr rfl)]
    rfl
  · rw [updateFdArray_none _ (Or.inr rfl)]
    rfl

/-- The list has every exempted descriptor once the checks are left to it. -/
theorem ready_updateIgnored (h : Ready fd s) (happ : s.ctx.appForkAndSpecialize = true)
    (hskip : (s.updateIgnored alloc).ctx.skipFdSanitization = true) :
    (fd : Int) ∈ (s.updateIgnored alloc).fdsToIgnore.getD [] := by
  cases alloc with
  | false =>
      rw [updateIgnored_skip, h.skip] at hskip
      cases hskip
  | true =>
      rw [(updated_updateIgnored true s).passed]
      exact mem_passedArray (h.exempted happ)

theorem ready_closeForbidden (h : Ready fd s) (hpid : s.ctx.pid = 0) (hsmall : fd < MAX_FD_SIZE) :
    fd ∈ s.closeForbidden.fds :=
  (mem_closeForbidden s fd).mpr ⟨h.isOpen, hsmall, h.allowed hpid⟩

/-- After `sanitize_fds` a recorded descriptor is still open, and where the checks are left
to the list, it is on it. -/
theorem ready_sanitizeFds (h : Ready fd s) (hsmall : fd < MAX_FD_SIZE) (alloc : Bool) :
    fd ∈ (s.sanitizeFds alloc).fds ∧
      ((s.sanitizeFds alloc).ctx.skipFdSanitization = true ->
        (fd : Int) ∈ (s.sanitizeFds alloc).fdsToIgnore.getD []) := by
  simp only [sanitizeFds, h.skip, Bool.false_eq_true, if_false]
  cases happ : s.ctx.appForkAndSpecialize with
  | true =>
      have hupdated := updated_updateIgnored alloc s
      have hopen : fd ∈ (s.updateIgnored alloc).fds := by
        rw [hupdated.fds]
        exact h.isOpen
      simp only [if_true]
      split
      · exact ⟨hopen, ready_updateIgnored h happ⟩
      · rename_i hpid
        refine ⟨(mem_closeForbidden _ _).mpr ⟨hopen, hsmall, ?_⟩, ready_updateIgnored h happ⟩
        rw [not_not, hupdated.pid] at hpid
        exact (hupdated.allowed fd).mpr (Or.inl (h.allowed hpid))
  | false =>
      simp only [Bool.false_eq_true, if_false]
      split
      · refine ⟨h.isOpen, ?_⟩
        intro hskip
        exact Bool.noConfusion (h.skip.symm.trans hskip)
      · rename_i hpid
        refine ⟨ready_closeForbidden h (not_not.mp hpid) hsmall, ?_⟩
        intro hskip
        exact Bool.noConfusion (h.skip.symm.trans hskip)

end Keeping

/-!
# The three pre parts
-/

section Pre

variable {fds : Finset Nat} {fdsToIgnore : Option (List Int)} {fork : ForkOutcome}
  {modules : List ModuleOp} {alloc : Bool} {s : Specialization} {fd : Nat}

theorem forkAndSpecializePre_keeps
    (h : (start fds fdsToIgnore).nativeForkAndSpecializePre fork fd modules alloc = some s)
    (hopen : fd ∈ fds) (hsmall : fd < MAX_FD_SIZE) (hspared : ModuleOp.closes fd ∉ modules) :
    fd ∈ s.fds ∧
      (s.ctx.skipFdSanitization = true -> (fd : Int) ∈ s.fdsToIgnore.getD []) := by
  rcases Option.map_eq_some_iff.mp h with ⟨prepared, hprepared, rfl⟩
  rcases Option.map_eq_some_iff.mp hprepared with ⟨forked, hforked, rfl⟩
  have hready : Ready fd forked := by
    refine ready_forkPre hforked hopen hsmall rfl ?_
    intro _
    have hne : (fd : Int) ≠ -1 := by omega
    show (fd : Int) ∈ [] ++ if (fd : Int) ≠ -1 then [(fd : Int)] else []
    rw [if_pos hne]
    exact List.mem_singleton_self _
  split
  · exact ready_sanitizeFds (ready_runModules hready hspared) hsmall alloc
  · exact ready_sanitizeFds hready hsmall alloc

theorem forkSystemServerPre_keeps
    (h : (start fds fdsToIgnore).nativeForkSystemServerPre fork modules alloc = some s)
    (hopen : fd ∈ fds) (hsmall : fd < MAX_FD_SIZE) (hspared : ModuleOp.closes fd ∉ modules) :
    fd ∈ s.fds ∧
      (s.ctx.skipFdSanitization = true -> (fd : Int) ∈ s.fdsToIgnore.getD []) := by
  rcases Option.map_eq_some_iff.mp h with ⟨prepared, hprepared, hs⟩
  rcases Option.map_eq_some_iff.mp hprepared with ⟨forked, hforked, hran⟩
  have hready : Ready fd forked :=
    ready_forkPre hforked hopen hsmall rfl (fun happ => Bool.noConfusion happ)
  have hprepared : Ready fd prepared := by
    rw [← hran]
    split
    · exact ready_runModules hready hspared
    · exact hready
  rw [← hs]
  split
  · refine ⟨hprepared.isOpen, ?_⟩
    intro hskip
    exact Bool.noConfusion (hprepared.skip.symm.trans hskip)
  · exact ready_sanitizeFds hprepared hsmall alloc

end Pre

/-- What runs beside the replaced methods leaves the list alone. -/
theorem moduleStep_list (s : Specialization) (op : ModuleOp) :
    (s.moduleStep op).fdsToIgnore = s.fdsToIgnore ∧
      (s.moduleStep op).ctx.skipFdSanitization = s.ctx.skipFdSanitization := by
  cases op with
  | opens fd => exact ⟨rfl, rfl⟩
  | closes fd => exact ⟨rfl, rfl⟩
  | exempts fd =>
      change (s.exemptFd fd).2.fdsToIgnore = _ ∧ (s.exemptFd fd).2.ctx.skipFdSanitization = _
      unfold exemptFd
      split
      · exact ⟨rfl, rfl⟩
      · split
        · exact ⟨rfl, rfl⟩
        · exact ⟨rfl, rfl⟩

end Specialization

/-!
# The socket in a run
-/

namespace LogProcess

/-- What every step keeps.  Whether the logs are closed is only known together with the
flag that it depends on. -/
structure LogInv (p : LogProcess) : Prop where
  number : p.logfd = p.socket.elim (-1) (fun n => (n : Int))
  isOpen : forall n, p.socket = some n -> n ∈ p.spec.fds
  small : forall n, p.socket = some n -> n < MAX_FD_SIZE
  listed : p.Forking -> p.spec.ctx.skipFdSanitization = true ->
    forall n, p.socket = some n -> (n : Int) ∈ p.spec.fdsToIgnore.getD []
  closed : p.Forking -> p.logsClosed = true -> p.spec.ctx.skipFdSanitization = false ->
    p.socket = none
  gone : p.specialised = true -> p.socket = none

section Steps

variable {p p' : LogProcess} {spec : Specialization} {modules : List ModuleOp} {n : Nat}

theorem safe_of_inv (h : LogInv p) : LogSafe p := by
  refine ⟨h.number, h.isOpen, ?_, h.gone⟩
  intro hforking hclosed
  cases hskip : p.spec.ctx.skipFdSanitization with
  | true => exact h.listed hforking hskip
  | false =>
      intro n hn
      rw [h.closed hforking hclosed hskip] at hn
      cases hn

/-- Without a socket and a number there is nothing to keep. -/
theorem inv_of_none (hsocket : p.socket = none) (hnumber : p.logfd = -1) : LogInv p := by
  have hno : forall {P : Nat -> Prop} n, p.socket = some n -> P n := by
    intro P n hn
    rw [hsocket] at hn
    cases hn
  refine ⟨?_, hno, hno, fun _ _ => hno, fun _ _ _ => hsocket, fun _ => hsocket⟩
  rw [hnumber, hsocket]
  rfl

theorem withSpec_eq (h : forall n, p.socket = some n -> n ∈ spec.fds) :
    p.withSpec spec = { p with spec := spec } := by
  unfold withSpec
  cases hsocket : p.socket with
  | none => rfl
  | some n => rw [Option.filter_some, if_pos (decide_eq_true (h n hsocket))]

theorem setfd_socket (hnumber : p.logfd = p.socket.elim (-1) (fun n => (n : Int))) :
    (setfd (-1) p).socket = none := by
  unfold setfd withSpec
  cases hsocket : p.socket with
  | none => rfl
  | some n =>
      have hclosed : n ∉ close p.spec.fds p.logfd := by
        rw [hnumber, hsocket]
        intro hmem
        exact (mem_close.mp hmem).left rfl
      simp only [Option.filter_some, decide_eq_true_eq, if_neg hclosed]

theorem inv_other (h : LogInv p) (op : ModuleOp)
    (hspared : forall n, p.socket = some n -> op ≠ ModuleOp.closes n) :
    LogInv (p.withSpec (p.spec.moduleStep op)) := by
  have hopen : forall n, p.socket = some n -> n ∈ (p.spec.moduleStep op).fds :=
    fun n hn => Specialization.mem_moduleStep (h.isOpen n hn) (hspared n hn)
  rcases Specialization.moduleStep_list p.spec op with ⟨hlist, hskip⟩
  rw [withSpec_eq hopen]
  refine ⟨h.number, hopen, h.small, ?_, ?_, h.gone⟩
  · rw [hlist, hskip]
    exact h.listed
  · rw [hskip]
    exact h.closed

theorem inv_androidLogClose (h : LogInv p) : LogInv p.androidLogClose := by
  have hclosed : LogInv { setfd (-1) p with logsClosed := true } :=
    inv_of_none (setfd_socket h.number) rfl
  unfold androidLogClose
  split
  · exact hclosed
  · split
    · rename_i hskip
      refine ⟨h.number, h.isOpen, h.small, h.listed, ?_, h.gone⟩
      intro _ _ hno
      exact Bool.noConfusion (hno.symm.trans hskip)
    · exact hclosed

/-- A method is entered with an open socket that is listed where its flag asks for it. -/
theorem inv_entered (h : LogInv p) (kind : HookKind)
    (hspec : forall n, p.socket = some n -> n ∈ spec.fds ∧
      (kind ≠ HookKind.specializeAppProcess -> spec.ctx.skipFdSanitization = true ->
        (n : Int) ∈ spec.fdsToIgnore.getD [])) :
    LogInv (withSpec spec { p with call := some kind, logsClosed := false }) := by
  have hopen : forall n, p.socket = some n -> n ∈ spec.fds := fun n hn => (hspec n hn).left
  rw [withSpec_eq (p := { p with call := some kind, logsClosed := false }) hopen]
  refine ⟨h.number, hopen, h.small, ?_, ?_, h.gone⟩
  · intro hforking hskip n hn
    refine (hspec n hn).right ?_ hskip
    intro heq
    rcases hforking with hkind | hkind
    · exact HookKind.noConfusion (heq.symm.trans (Option.some.inj hkind))
    · exact HookKind.noConfusion (heq.symm.trans (Option.some.inj hkind))
  · intro _ hno
    cases hno

theorem inv_pre (h : LogInv p) {kind : HookKind} {fork : ForkOutcome}
    {fdsToIgnore : Option (List Int)} {alloc : Bool}
    (hspared : forall n, p.socket = some n -> ModuleOp.closes n ∉ modules)
    (hpre : p.pre kind fork fdsToIgnore modules alloc = some p') : LogInv p' := by
  cases kind with
  | forkAndSpecialize =>
      rcases Option.map_eq_some_iff.mp hpre with ⟨spec, hspec, rfl⟩
      refine inv_entered h HookKind.forkAndSpecialize ?_
      intro n hn
      have hnumber : p.logfd = n := by
        rw [h.number, hn]
        rfl
      rw [hnumber] at hspec
      rcases Specialization.forkAndSpecializePre_keeps hspec (h.isOpen n hn) (h.small n hn)
        (hspared n hn) with ⟨hopen, hlisted⟩
      exact ⟨hopen, fun _ => hlisted⟩
  | forkSystemServer =>
      rcases Option.map_eq_some_iff.mp hpre with ⟨spec, hspec, rfl⟩
      refine inv_entered h HookKind.forkSystemServer ?_
      intro n hn
      rcases Specialization.forkSystemServerPre_keeps hspec (h.isOpen n hn) (h.small n hn)
        (hspared n hn) with ⟨hopen, hlisted⟩
      exact ⟨hopen, fun _ => hlisted⟩
  | specializeAppProcess =>
      cases hpre
      refine inv_entered h HookKind.specializeAppProcess ?_
      intro n hn
      exact ⟨Specialization.mem_runModules (h.isOpen n hn) (hspared n hn),
        fun hno => absurd rfl hno⟩

/-- Outside of the methods nothing is checked. -/
theorem inv_outside (hcall : p.call = none)
    (hnumber : p.logfd = p.socket.elim (-1) (fun n => (n : Int)))
    (hopen : forall n, p.socket = some n -> n ∈ p.spec.fds)
    (hsmall : forall n, p.socket = some n -> n < MAX_FD_SIZE)
    (hgone : p.specialised = true -> p.socket = none) : LogInv p := by
  have hno : ¬ p.Forking := by
    intro hforking
    unfold Forking at hforking
    rw [hcall] at hforking
    rcases hforking with hsome | hsome <;> cases hsome
  exact ⟨hnumber, hopen, hsmall, fun hforking => absurd hforking hno,
    fun hforking => absurd hforking hno, hgone⟩

theorem inv_left (h : LogInv p) : LogInv { p with call := none } :=
  inv_outside rfl h.number h.isOpen h.small h.gone

theorem inv_runModulesPost (h : LogInv p)
    (hspared : forall n, p.socket = some n -> ModuleOp.closes n ∉ modules) :
    LogInv { p.runModulesPost modules with call := none } := by
  have hopen : forall n, p.socket = some n -> n ∈ (Specialization.runModules modules
      { p.spec with ctx := { p.spec.ctx with postSpecialize := true } }).fds :=
    fun n hn => Specialization.mem_runModules (h.isOpen n hn) (hspared n hn)
  rw [runModulesPost, withSpec_eq hopen]
  exact inv_outside rfl h.number hopen h.small h.gone

theorem inv_appSpecializePost (h : LogInv p)
    (hspared : forall n, p.socket = some n -> ModuleOp.closes n ∉ modules) :
    LogInv { p.appSpecializePost modules with call := none } :=
  inv_of_none (setfd_socket (inv_runModulesPost h hspared).number) rfl

theorem inv_post (h : LogInv p)
    (hspared : forall n, p.socket = some n -> ModuleOp.closes n ∉ modules)
    (hpost : p.post modules = some p') : LogInv p' := by
  rcases Option.map_eq_some_iff.mp hpost with ⟨kind, _, rfl⟩
  cases kind with
  | forkAndSpecialize =>
      simp only
      split
      · exact inv_appSpecializePost h hspared
      · exact inv_left h
  | forkSystemServer =>
      simp only
      split
      · exact inv_runModulesPost h hspared
      · exact inv_left h
  | specializeAppProcess => exact inv_appSpecializePost h hspared

theorem inv_step {e : LogEvent} (h : LogInv p) (hspares : Spares p e)
    (hstep : p.step e = some p') : LogInv p' := by
  cases e with
  | other op =>
      cases hstep
      refine inv_other h op ?_
      intro n hn heq
      exact hspares n hn (List.mem_singleton.mpr heq.symm)
  | androidLogClose =>
      cases hstep
      exact inv_androidLogClose h
  | pre kind fork fdsToIgnore modules alloc =>
      change (if p.call = none then _ else none) = some p' at hstep
      split at hstep
      · exact inv_pre h hspares hstep
      · cases hstep
  | post modules => exact inv_post h hspares hstep

theorem inv_entry {fds : Finset Nat} (hsmall : lowestFree fds < MAX_FD_SIZE)
    (release connected : Bool) : LogInv (entry fds release connected) := by
  cases release with
  | false => exact inv_of_none rfl rfl
  | true =>
      cases connected with
      | false => exact inv_of_none rfl rfl
      | true =>
          have hopen : lowestFree fds ∈ close (insert (lowestFree fds) fds) (-1) := by
            unfold close
            rw [if_neg (by decide)]
            exact Finset.mem_insert_self _ _
          have hsocket : (entry fds true true).socket = some (lowestFree fds) := by
            simp only [entry, setfd, withSpec, if_true]
            rw [Option.filter_some]
            exact if_pos (decide_eq_true hopen)
          refine inv_outside rfl ?_ ?_ ?_ (fun hno => Bool.noConfusion hno)
          · rw [hsocket]
            rfl
          · intro n hn
            cases hsocket.symm.trans hn
            exact hopen
          · intro n hn
            cases hsocket.symm.trans hn
            exact hsmall

end Steps

/-- Whatever is opened, closed and exempted in a process, whatever `fork` returns and
whichever of the methods run: the log's number and socket go together, no check of the
zygote sees the socket unless it is told to ignore it, and an app is left without it. -/
theorem log_socket_safe {fds : Finset Nat} {release connected : Bool} {events : List LogEvent}
    {p : LogProcess} (hsmall : lowestFree fds < MAX_FD_SIZE)
    (hspared : (system fds release connected).AlongRun Spares (entry fds release connected) events)
    (hrun : (system fds release connected).run (entry fds release connected) events = some p) :
    LogSafe p :=
  safe_of_inv (TransitionSystem.run_invariant (I := LogInv)
    (fun _ _ _ h hspares hstep => inv_step h hspares hstep) (inv_entry hsmall release connected)
    hspared hrun)

theorem lowestFree_three : lowestFree {0, 1, 2} = 3 :=
  (Nat.find_eq_iff _).mpr ⟨by decide, by decide⟩

/-- An app is forked while the log is open under the number 3, and closes its logs. -/
theorem log_socket_safe_forked :
    exists p, (system {0, 1, 2} true true).run (entry {0, 1, 2} true true)
        [LogEvent.pre HookKind.forkAndSpecialize ForkOutcome.child none [] true,
          LogEvent.androidLogClose] = some p ∧ LogSafe p := by
  have hsmall : lowestFree {0, 1, 2} < MAX_FD_SIZE := by
    rw [lowestFree_three]
    decide
  have hfree : exists fd, fd < MAX_FD_SIZE ∧ fd ∉ (entry {0, 1, 2} true true).spec.fds := by
    refine ⟨4, by decide, ?_⟩
    show 4 ∉ close (insert (lowestFree {0, 1, 2}) {0, 1, 2}) (-1)
    rw [lowestFree_three]
    decide
  have hspared : (system {0, 1, 2} true true).AlongRun Spares (entry {0, 1, 2} true true)
      [LogEvent.pre HookKind.forkAndSpecialize ForkOutcome.child none [] true,
        LogEvent.androidLogClose] := by
    refine ⟨fun _ _ => List.not_mem_nil, ?_⟩
    intro p _
    exact ⟨fun _ _ => List.not_mem_nil, fun _ _ => True.intro⟩
  rcases Specialization.appPrepared_eq none (entry {0, 1, 2} true true).logfd hfree with
    ⟨forked, _, hprepared⟩
  have hpre : exists q, (entry {0, 1, 2} true true).step
      (LogEvent.pre HookKind.forkAndSpecialize ForkOutcome.child none [] true) = some q := by
    refine ⟨withSpec ((forked.runModules []).sanitizeFds true)
      { entry {0, 1, 2} true true with
        call := some HookKind.forkAndSpecialize, logsClosed := false }, ?_⟩
    show Option.map _ (Option.map _ (Specialization.appPrepared _ _ _ _)) = _
    rw [hprepared []]
    rfl
  rcases hpre with ⟨q, hq⟩
  have hrun : (system {0, 1, 2} true true).run (entry {0, 1, 2} true true)
      [LogEvent.pre HookKind.forkAndSpecialize ForkOutcome.child none [] true,
        LogEvent.androidLogClose] = some q.androidLogClose :=
    Option.bind_eq_some_iff.mpr ⟨q, hq, rfl⟩
  exact ⟨_, hrun, log_socket_safe hsmall hspared hrun⟩

end LogProcess

end Injector
end ReZygisk
