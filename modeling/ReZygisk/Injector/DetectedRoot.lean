import ReZygisk.Injector.Specialize
import ReZygisk.Zygiskd.Panics
import ReZygisk.Zygiskd.RootDetection

/-!
# From the device to the mounts that go

The daemon decides once whose device it is on.  The injector learns of it with the flags of
every app, and takes the mounts of that implementation away.
-/

namespace ReZygisk
namespace Injector
namespace Specialize

open Foundation
open Kernel
open Zygiskd

section Device

variable {b : Bounds} {d : SetupAnswers} {a : RootAnswers} {env : RequestEnv} {world : World}
  {uid : Nat} {reads : List ReadResult}

/-- A device on which a request for the flags of a uid has an answer.  Under Magisk that
takes a manager: one that was asked for, or that of the variant. -/
def Served (b : Bounds) (d : SetupAnswers) (a : RootAnswers) : Prop :=
  exists impl, Sole b d impl ∧ (impl = RootImpl.magisk ->
    Zygiskd.Magisk.requestedManager a ≠ none ∨ d.magiskName ≠ none)

theorem rootAnswersUid_iff : RootAnswersUid (detect b d) a <-> Served b d a := by
  have hknown : ManagerKnown a (detect b d) <->
      Zygiskd.Magisk.requestedManager a ≠ none ∨ d.magiskName ≠ none :=
    or_congr Iff.rfl (not_congr variant_none)
  constructor
  · intro h
    exact ⟨_, (detect_impl_iff h.left).mp rfl, fun himpl => hknown.mp (h.right himpl)⟩
  · intro h
    rcases h with ⟨impl, hsole, hmanager⟩
    have himpl := (detect_impl_iff (sole_supported hsole)).mpr hsole
    unfold RootAnswersUid
    rw [himpl]
    exact ⟨sole_supported hsole, fun heq => hknown.mpr (hmanager heq)⟩

theorem sole_of_verdict {uid : Int} (verdict : Verdict a (detect b d) uid) :
    exists impl, Sole b d impl ∧ implManager impl = some verdict.manager := by
  refine ⟨(detect b d).impl, ?_, verdict.impl⟩
  have himpl := verdict.impl
  refine (detect_impl_iff ?_).mp rfl
  cases hroot : (detect b d).impl with
  | kernelSU => exact Or.inl rfl
  | magisk => exact Or.inr (Or.inl rfl)
  | apatch => exact Or.inr (Or.inr rfl)
  | _ =>
      rw [hroot] at himpl
      cases himpl

/-- What a request comes to on a device: its flags, and whose mounts go for them. -/
structure ReadOnDevice (b : Bounds) (d : SetupAnswers) (env : RequestEnv) (world : World)
    (flags : Nat) : Prop where
  panics : Prog.Stops Stop.panicked (Zygiskd.getProcessFlags (detect b d) env) world <->
    ¬ Served b d env.answers
  named : forall world', Zygiskd.getProcessFlags (detect b d) env world = Outcome.ok () world' ->
    exists impl, Sole b d impl ∧ managerOf flags = implManager impl
  unnamed : (forall world',
    Zygiskd.getProcessFlags (detect b d) env world ≠ Outcome.ok () world') -> flags = 0
  reverted : forall events m, m ∈ (run (appSpecializePre flags) events).reverted ->
    exists impl, Sole b d impl ∧ implManager impl = some m

/-- A request that has no answer leaves a process without flags, and with its mounts. -/
theorem readOnDevice_of_none
    (hpanics : Prog.Stops Stop.panicked (Zygiskd.getProcessFlags (detect b d) env) world <->
      ¬ Served b d env.answers)
    (hnone : forall world',
      Zygiskd.getProcessFlags (detect b d) env world ≠ Outcome.ok () world') :
    ReadOnDevice b d env world 0 := by
  refine ⟨hpanics, fun world' hok => absurd hok (hnone world'), fun _ => rfl, ?_⟩
  intro events m hm
  rw [reverted_without_flags rfl rfl] at hm
  cases hm

/-- On every device: the request for the flags of a uid panics exactly if no implementation
is there alone in a supported version, or if it is Magisk without a manager; the flags of
an answer name the one that is alone; and no mounts are taken away but those of it. -/
theorem device_root_read (hinput : world.input = leBytes 4 uid) (hfresh : world.effects = [])
    (hclean : ReadResult.failed ∉ reads) :
    exists flags,
      getProcessFlags (some
        { items := requestItems (Zygiskd.getProcessFlags (detect b d) env world)
          reads := reads, recvs := [] }) = some flags ∧
        ReadOnDevice b d env world flags := by
  have hpanics : Prog.Stops Stop.panicked (Zygiskd.getProcessFlags (detect b d) env) world <->
      ¬ Served b d env.answers := by
    rw [getProcessFlags_panics_iff, rootAnswersUid_iff, hinput, leBytes_length]
    exact and_iff_right (Nat.le_refl 4)
  by_cases hanswered : exists world',
      Zygiskd.getProcessFlags (detect b d) env world = Outcome.ok () world'
  · rcases hanswered with ⟨world', hok⟩
    rcases requestItems_answered hfresh hok with ⟨verdict, hitems⟩
    rcases sole_of_verdict verdict with ⟨impl, hsole, hmanager⟩
    rw [hitems]
    refine ⟨verdict.flags, getProcessFlags_flags verdict.flags_read.left hclean, hpanics,
      ?_, fun hno => absurd hok (hno world'), ?_⟩
    · intro _ _
      exact ⟨impl, hsole, verdict.flags_read.right.right.left.trans hmanager.symm⟩
    · intro events m hm
      rw [reverted_of_flags verdict events] at hm
      rw [List.eq_of_mem_replicate hm]
      exact ⟨impl, hsole, hmanager⟩
  · have hnone := not_exists.mp hanswered
    rw [requestItems_unanswered hfresh hnone]
    exact ⟨0, getProcessFlags_silent hclean, readOnDevice_of_none hpanics hnone⟩

end Device

/-- A device with an APatch that prints its version after its name. -/
def apatchDevice : SetupAnswers :=
  { suPath := some "/system/bin/su\n".toList
    su := fun _ => some "10763 APatch\n".toList
    apd := some "apd 10763\n".toList
    ksuVersion := 0, magiskName := none, magiskVersion := none }

def builtFor : Bounds :=
  { minApatch := 10655, minKsu := 10940, maxKsu := 20000, minMagisk := 26402 }

example : (detect builtFor apatchDevice).impl = RootImpl.apatch := by decide

theorem device_root_read_apatch :
    exists flags,
      getProcessFlags (some
        { items := requestItems (Zygiskd.getProcessFlags (detect builtFor apatchDevice) plainEnv
            (requestWorld (leBytes 4 10123) (fun _ => none)))
          reads := [ReadResult.upTo 3], recvs := [] }) = some flags ∧
        ReadOnDevice builtFor apatchDevice plainEnv
          (requestWorld (leBytes 4 10123) (fun _ => none)) flags :=
  @device_root_read builtFor apatchDevice plainEnv
    (requestWorld (leBytes 4 10123) (fun _ => none)) 10123 [ReadResult.upTo 3] rfl rfl (by decide)

end Specialize
end Injector
end ReZygisk
