import ReZygisk.Zygiskd.HandleAction

/-!
# Requests that leave the companions alone

The companion entries of the modules are behind their own locks, and only a
request for a companion takes one.
-/

namespace ReZygisk
namespace Zygiskd

open Foundation

section Wire

theorem keeps_readNumber (width : Nat) :
    Prog.Keeps World.companions (readNumber width) := by
  apply Prog.keeps_bind
  · intro w
    unfold readExact
    constructor
    · intro buf w' h
      split at h
      · cases h
        rfl
      · cases h
    · intro e w' h
      split at h
      · cases h
      · cases h
        rfl
  · intro buf
    exact Prog.keeps_pure _

theorem keeps_readString (env : Surroundings) :
    Prog.Keeps World.companions (readString env) := by
  intro w
  rw [readString_eq]
  constructor
  · intro text w' h
    split_ifs at h
    cases h
    rfl
  · intro e w' h
    split_ifs at h
    · cases h
      rfl
    · cases h
      rfl
    · cases h
      rfl

theorem keeps_tryEmit (env : Surroundings) (e : Effect) :
    Prog.Keeps World.companions (tryEmit env e) := by
  intro w
  unfold tryEmit
  constructor
  · intro a w' h
    split at h
    · cases h
      rfl
    · cases h
  · intro e w' h
    split at h
    · cases h
    · cases h
      rfl

theorem keeps_writeString (env : Surroundings) (value : List Byte) :
    Prog.Keeps World.companions (writeString env value) := by
  apply Prog.keeps_bind
  · exact keeps_tryEmit env _
  · intro _
    exact keeps_tryEmit env _

end Wire

section Handlers

variable (root : Root) (modules : List Module) (env : RequestEnv)

theorem keeps_logcatLoop (fuel : Nat) :
    Prog.Keeps World.companions (logcatLoop env fuel) := by
  induction fuel with
  | zero => exact Prog.keeps_pure ()
  | succ fuel ih =>
      apply Prog.keeps_bind
      · exact Prog.keeps_attempt (keeps_readNumber 1)
      · intro level
        cases level with
        | none => exact Prog.keeps_pure ()
        | some level =>
            apply Prog.keeps_bind (keeps_readString env.toSurroundings)
            intro tag
            apply Prog.keeps_bind (keeps_readString env.toSurroundings)
            intro message
            refine Prog.keeps_bind ?_ (fun _ => ih)
            rw [logRaw]
            split
            · exact Prog.keeps_fail _
            · exact Prog.keeps_modifyWorld (fun _ => rfl)

section Questions

variable {part : Type} {f : World -> part}

theorem keeps_rootFlag : Prog.Keeps f (rootFlag root) := by
  unfold rootFlag
  cases root.impl with
  | kernelSU => exact Prog.keeps_pure _
  | magisk => exact Prog.keeps_pure _
  | apatch => exact Prog.keeps_pure _
  | _ => exact Prog.keeps_stop _

theorem keeps_rootedFlags (uid : Int) :
    Prog.Keeps f (rootedFlags root env uid) := by
  have hgranted : Prog.Keeps f (uidGrantedRoot env.answers uid root) := by
    unfold uidGrantedRoot
    cases root.impl with
    | kernelSU => exact Prog.keeps_pure _
    | magisk => exact Prog.keeps_pure _
    | apatch => exact Prog.keeps_pure _
    | _ => exact Prog.keeps_stop _
  have humount : Prog.Keeps f
      (uidShouldUmount env.answers uid root) := by
    unfold uidShouldUmount
    cases root.impl with
    | kernelSU => exact Prog.keeps_pure _
    | magisk => exact Prog.keeps_pure _
    | apatch => exact Prog.keeps_pure _
    | _ => exact Prog.keeps_stop _
  apply Prog.keeps_bind hgranted
  intro granted
  apply Prog.keeps_bind humount
  intro umount
  exact Prog.keeps_pure _

theorem keeps_uidIsManager (uid : Int) :
    Prog.Keeps f (uidIsManager env.answers uid root) := by
  have hmagisk : Prog.Keeps f
      (Magisk.uidIsManager env.answers uid root.variant) := by
    unfold Magisk.uidIsManager
    split
    · exact Prog.keeps_pure _
    · exact Prog.keeps_pure _
    · exact Prog.keeps_stop _
  unfold uidIsManager
  cases root.impl with
  | kernelSU => exact Prog.keeps_pure _
  | magisk => exact hmagisk
  | apatch => exact Prog.keeps_pure _
  | _ => exact Prog.keeps_stop _

theorem keeps_uidFlags (uid : Int) :
    Prog.Keeps f (uidFlags root env uid) := by
  apply Prog.keeps_bind (keeps_uidIsManager root env uid)
  intro manager
  cases manager with
  | true => exact Prog.keeps_pure _
  | false => exact keeps_rootedFlags root env uid

end Questions

theorem keeps_getProcessFlags :
    Prog.Keeps World.companions (getProcessFlags root env) := by
  apply Prog.keeps_bind (keeps_readNumber 4)
  intro uid
  apply Prog.keeps_bind (keeps_uidFlags root env _)
  intro flags
  apply Prog.keeps_bind (keeps_rootFlag root)
  intro impl
  exact keeps_tryEmit _ _

theorem keeps_getInfo : Prog.Keeps World.companions (getInfo root modules env) := by
  apply Prog.keeps_bind (keeps_rootFlag root)
  intro impl
  apply Prog.keeps_bind (keeps_tryEmit env.toSurroundings _)
  intro _
  apply Prog.keeps_bind (keeps_tryEmit env.toSurroundings _)
  intro _
  apply Prog.keeps_bind (keeps_tryEmit env.toSurroundings _)
  intro _
  exact Prog.keeps_forEach (fun m => keeps_writeString env.toSurroundings m.name) modules

theorem keeps_readModules :
    Prog.Keeps World.companions (readModules modules env) := by
  apply Prog.keeps_bind (keeps_tryEmit env.toSurroundings _)
  intro _
  apply Prog.keeps_forEach
  intro m
  exact Prog.keeps_bind (keeps_writeString env.toSurroundings m.name)
    (fun _ => keeps_tryEmit env.toSurroundings _)

theorem keeps_getModuleDir :
    Prog.Keeps World.companions (getModuleDir modules env) := by
  apply Prog.keeps_bind (keeps_readNumber env.lp.bytes)
  intro index
  refine Prog.keeps_bind ?_ (fun m => ?_)
  · unfold getModule
    split
    · exact Prog.keeps_pure _
    · exact Prog.keeps_stop _
  · split
    · exact keeps_tryEmit env.toSurroundings _
    · exact Prog.keeps_fail _

/-- Only a request for a companion changes the companion entries. -/
theorem keeps_handleDaemonAction {action : DaemonSocketAction}
    (h : action ≠ DaemonSocketAction.requestCompanionSocket) :
    Prog.Keeps World.companions (handleDaemonAction root modules env action) := by
  cases action with
  | requestLogcatFd =>
      intro w
      exact keeps_logcatLoop env (w.input.length + 1) w
  | getProcessFlags => exact keeps_getProcessFlags root env
  | getInfo => exact keeps_getInfo root modules env
  | readModules => exact keeps_readModules modules env
  | getModuleDir => exact keeps_getModuleDir modules env
  | requestCompanionSocket => exact absurd rfl h
  | pingHeartbeat => exact Prog.keeps_pure ()
  | zygoteRestart => exact Prog.keeps_pure ()
  | systemServerStarted => exact Prog.keeps_pure ()

end Handlers

end Zygiskd
end ReZygisk
