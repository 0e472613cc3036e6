import ReZygisk.Monitor.Transitions

/-!
# The status file follows the state

The file at `prop_path` holds what `updateStatus` wrote last.  Every handled
event that changes a rendered field ends in a write, except for the detach of
init, which leaves the rendering alone.
-/

namespace ReZygisk
namespace InitMonitor

open Foundation
open Kernel
open SigChldHandler

def propFile : List Effect -> Option (List Byte)
  | [] => none
  | Effect.writeProp content :: rest => some ((propFile rest).getD content)
  | _ :: rest => propFile rest

def propContent (m : Monitor) : List Byte :=
  m.preSection ++ bytesOf "[" ++ renderStatus m ++ bytesOf "] " ++ m.postSection

def Shown (m : Monitor) : Prop :=
  propFile m.effects = some (propContent m)

theorem propFile_append (es es' : List Effect) :
    propFile (es ++ es') = (propFile es').or (propFile es) := by
  induction es with
  | nil => simp [propFile]
  | cons e rest ih =>
      cases e with
      | writeProp content =>
          simp only [List.cons_append, propFile, ih]
          cases propFile es' <;> rfl
      | _ => exact ih

theorem propFile_of_inert {es : List Effect}
    (h : forall x, x ∈ es -> x.inert = true) : propFile es = none := by
  induction es with
  | nil => rfl
  | cons e rest ih =>
      have hrest := ih (fun x hx => h x (List.mem_cons_of_mem e hx))
      cases e with
      | writeProp content => cases h _ List.mem_cons_self
      | _ => exact hrest

/-!
# Rendered fields
-/

/-- The fields that `propContent` reads, with `STOPPING` and `STOPPED` taken
together. -/
structure SameRendering (m m' : Monitor) : Prop where
  tracing : m.tracingState = m'.tracingState ∨
    (m.tracingState = TracingState.stopping ∧
      m'.tracingState = TracingState.stopped)
  reason : m.monitorStopReason = m'.monitorStopReason
  status : forall abi, m.status abi = m'.status abi
  pre : m.preSection = m'.preSection
  post : m.postSection = m'.postSection

theorem writeStatusAbi_congr {m m' : Monitor} (h : SameRendering m m')
    (abi : Abi) : writeStatusAbi m abi = writeStatusAbi m' abi := by
  unfold writeStatusAbi
  rw [h.status abi]
  rcases h.tracing with heq | ⟨hstopping, hstopped⟩
  · rw [heq]
  · rw [hstopping, hstopped]
    simp only [ne_eq, reduceCtorEq, not_false_eq_true, if_true]

theorem propContent_congr {m m' : Monitor} (h : SameRendering m m') :
    propContent m = propContent m' := by
  have hrender : renderStatus m = renderStatus m' := by
    unfold renderStatus
    rw [writeStatusAbi_congr h, writeStatusAbi_congr h, h.reason]
    rcases h.tracing with heq | ⟨hstopping, hstopped⟩
    · rw [heq]
    · rw [hstopping, hstopped]
      simp only [ne_eq, reduceCtorEq, not_false_eq_true, true_and]
  unfold propContent
  rw [h.pre, h.post, hrender]

theorem Housekeeping.sameRendering {m m' : Monitor} (h : Housekeeping m m') :
    SameRendering m m' where
  tracing := Or.inl h.tracingState.symm
  reason := h.monitorStopReason.symm
  status abi := (h.status abi).symm
  pre := h.preSection.symm
  post := h.postSection.symm

/-- A step that appends no write and keeps the rendering keeps the file
current. -/
theorem shown_of_same {m m' : Monitor} {es : List Effect} (hm : Shown m)
    (hadded : m'.effects = m.effects ++ es) (hnone : propFile es = none)
    (hsame : SameRendering m m') : Shown m' := by
  unfold Shown
  rw [hadded, propFile_append, hnone, ← propContent_congr hsame]
  exact hm

theorem Housekeeping.shown {m m' : Monitor} (h : Housekeeping m m') (hm : Shown m) :
    Shown m' := by
  rcases h.added with ⟨es, heq, hes⟩
  exact shown_of_same hm heq (propFile_of_inert hes) h.sameRendering

theorem shown_updateStatus (m : Monitor) : Shown (updateStatus m) := by
  have hsame : SameRendering m (updateStatus m) :=
    ⟨Or.inl rfl, rfl, fun abi => (status_updateStatus m abi).symm, rfl, rfl⟩
  unfold Shown
  rw [← propContent_congr hsame]
  exact propFile_append m.effects [Effect.writeProp (propContent m)]

/-!
# Every step
-/

theorem shown_command {m m' : Monitor} {cmd : Option Command} (hm : Shown m)
    (h : CommandStep m cmd m') : Shown m' := by
  cases h with
  | unknown => exact hm
  | nothingToStop _ => exact hm
  | mount => exact (Housekeeping.emit m rfl).shown hm
  | exit => exact shown_updateStatus _
  | cancelStop _ => exact shown_updateStatus _
  | seizeInit _ => exact shown_updateStatus _
  | nothingToStart _ => exact shown_updateStatus _
  | requestStop _ => exact shown_updateStatus _
  | injected abi => exact shown_updateStatus _
  | info abi block => exact shown_updateStatus _
  | errorInfo abi block => exact shown_updateStatus _

theorem shown_result {m m' : Monitor} {e : WaitEvent} (hm : Shown m)
    (h : ResultStep m e m') : Shown m' := by
  cases h with
  | housekeeping _ hkeep _ => exact hkeep.shown hm
  | detachInit m1 hkeep hstopping =>
      have hm1 := hkeep.shown hm
      have hstate := hkeep.tracingState.trans hstopping
      have hsame : SameRendering m1
          { m1.emit (Effect.detach 1 0) with
            tracingState := TracingState.stopped } :=
        ⟨Or.inr ⟨hstate, rfl⟩, rfl, fun abi => by cases abi <;> rfl, rfl, rfl⟩
      exact shown_of_same hm1 rfl rfl hsame
  | daemonExit abi block m1 hkeep => exact shown_updateStatus _
  | exec program m1 m2 _ hsees hkeep hexec hreleased =>
      exact hreleased.shown (shown_updateStatus m2)

theorem shown_initial (preSection postSection : List Byte) :
    Shown (initial preSection postSection) := by
  have hwritten := shown_updateStatus
    { preSection := preSection, postSection := postSection }
  have hsame : SameRendering
      (updateStatus { preSection := preSection, postSection := postSection })
      (initial preSection postSection) :=
    ⟨Or.inl rfl, rfl, fun abi => by cases abi <;> rfl, rfl, rfl⟩
  exact shown_of_same hwritten rfl rfl hsame

theorem shown_of_reachable {lp : Lp} {sysSigname : Nat -> List Byte} {m : Monitor}
    (h : (system lp sysSigname).Reachable m) : Shown m := by
  refine TransitionSystem.reachable_invariant ?_ ?_ h
  · intro s hs
    rcases hs with ⟨preSection, postSection, heq⟩
    rw [heq]
    exact shown_initial preSection postSection
  · intro s event s' hs hstep
    cases step_cases hstep with
    | rejected d _ => exact hs
    | command d _ _ hcommand => exact shown_command hs hcommand
    | result e _ _ hresult => exact shown_result hs hresult

/-- Between two handled events the file shows the current state. -/
theorem propFile_eq_of_reachable (lp : Lp) (sysSigname : Nat -> List Byte)
    {m : Monitor} (h : (system lp sysSigname).Reachable m) :
    propFile m.effects =
      some (m.preSection ++ bytesOf "[" ++ renderStatus m ++ bytesOf "] " ++
        m.postSection) :=
  shown_of_reachable h

/-- Stopped by a command and detached from init, the one transition without a
write. -/
theorem propFile_stopped :
    exists m, (system Lp.lp64 (fun _ => [])).Reachable m ∧
      m.tracingState = TracingState.stopped ∧
      propFile m.effects =
        some (m.preSection ++ bytesOf "[" ++ renderStatus m ++ bytesOf "] " ++
          m.postSection) := by
  have hstart : (system Lp.lp64 (fun _ => [])).Reachable
      (initial (bytesOf "description=") (bytesOf "end")) :=
    TransitionSystem.Reachable.init ⟨_, _, rfl⟩
  have hstopping := hstart.step (e := Event.datagram [2, 0, 0, 0]) rfl
  have hstopped := hstopping.step
    (e := Event.wait
      { pid := 1, status := stoppedStatus SIGTRAP PTRACE_EVENT_STOP }) rfl
  exact ⟨_, hstopped, rfl, propFile_eq_of_reachable _ _ hstopped⟩

end InitMonitor
end ReZygisk
