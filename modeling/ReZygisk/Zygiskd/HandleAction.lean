import ReZygisk.Kernel.Wait
import ReZygisk.Zygiskd.RootImpl

/-!
# Serving one request

`handle_daemon_action` runs in a thread of its own for each connection.  The
daemon is built with `panic = "abort"`, so a panic in one such thread ends the
daemon for every client.
-/

namespace ReZygisk
namespace Zygiskd

open Foundation
open Kernel

inductive DaemonSocketAction where
  | pingHeartbeat
  | requestLogcatFd
  | getProcessFlags
  | getInfo
  | readModules
  | requestCompanionSocket
  | getModuleDir
  | zygoteRestart
  | systemServerStarted
  deriving DecidableEq

def DaemonSocketAction.tryFrom : Nat -> Option DaemonSocketAction
  | 0 => some pingHeartbeat
  | 1 => some requestLogcatFd
  | 2 => some getProcessFlags
  | 3 => some getInfo
  | 4 => some readModules
  | 5 => some requestCompanionSocket
  | 6 => some getModuleDir
  | 7 => some zygoteRestart
  | 8 => some systemServerStarted
  | _ => none

inductive ForkResult where
  | failed
  | parent
  | child
  deriving DecidableEq

/-- The outcomes of the steps of one `spawn_companion`: of the fork, of the
handshake in the daemon, and of the forked child's own steps. -/
structure SpawnOutcome where
  pair : Option Nat
  fork : ForkResult
  status : Nat
  nameWritten : Bool
  fdSent : Bool
  answer : Option Nat
  setFd : Bool
  spawned : Bool

structure RequestEnv extends Surroundings where
  answers : RootAnswers
  pid : Nat
  companionAlive : Bool
  spawn : SpawnOutcome
  /-- Whether the companion's socket takes the client's descriptor. -/
  clientPassed : Bool
  /-- The descriptor that opening a path gives. -/
  moduleDir : List Byte -> Option Nat

section Requests

variable (root : Root) (modules : List Module) (env : RequestEnv)

/-!
# Log records
-/

/-- `log_raw`: neither text may contain a NUL. -/
def logRaw (level : Nat) (tag message : List Byte) : Handler Unit :=
  if 0 ∈ tag ∨ 0 ∈ message then Prog.fail Error.interiorNul
  else
    Prog.modifyWorld (fun w => w.emit (Effect.logged ⟨level, tag, message⟩))

/-- The loop of `RequestLogcatFd`.  Each pass reads at least one byte, so fuel
beyond the number of bytes is never used up. -/
def logcatLoop : Nat -> Handler Unit
  | 0 => pure ()
  | fuel + 1 => do
      match ← Prog.attempt readU8 with
      | none => pure ()
      | some level =>
          let tag ← readString env.toSurroundings
          let message ← readString env.toSurroundings
          logRaw level tag message
          logcatLoop fuel

def requestLogcatFd : Handler Unit :=
  fun w => logcatLoop env (w.input.length + 1) w

/-!
# Process flags
-/

def PROCESS_GRANTED_ROOT : Nat := 2 ^ 0
def PROCESS_ON_DENYLIST : Nat := 2 ^ 1
def PROCESS_IS_MANAGER : Nat := 2 ^ 28
def PROCESS_ROOT_IS_APATCH : Nat := 2 ^ 27
def PROCESS_ROOT_IS_KSU : Nat := 2 ^ 29
def PROCESS_ROOT_IS_MAGISK : Nat := 2 ^ 30

def rootFlag : Handler Nat :=
  match root.impl with
  | RootImpl.kernelSU => pure PROCESS_ROOT_IS_KSU
  | RootImpl.magisk => pure PROCESS_ROOT_IS_MAGISK
  | RootImpl.apatch => pure PROCESS_ROOT_IS_APATCH
  | _ => Prog.stop Stop.panicked

def rootedFlags (uid : Int) : Handler Nat := do
  let granted ← uidGrantedRoot env.answers uid root
  let umount ← uidShouldUmount env.answers uid root
  pure ((if granted then PROCESS_GRANTED_ROOT else 0) |||
    (if umount then PROCESS_ON_DENYLIST else 0))

def uidFlags (uid : Int) : Handler Nat := do
  match ← uidIsManager env.answers uid root with
  | true => pure PROCESS_IS_MANAGER
  | false => rootedFlags root env uid

def getProcessFlags : Handler Unit := do
  let uid ← readU32
  let flags ← uidFlags root env (int32 uid)
  let impl ← rootFlag root
  writeU32 env.toSurroundings (flags ||| impl)

/-!
# Modules
-/

def writeName (m : Module) : Handler Unit :=
  writeString env.toSurroundings m.name

def writeNameAndFd (m : Module) : Handler Unit := do
  writeString env.toSurroundings m.name
  sendFd env.toSurroundings m.libFd

def getInfo : Handler Unit := do
  let impl ← rootFlag root
  writeU32 env.toSurroundings impl
  writeU32 env.toSurroundings env.pid
  writeUsize env.toSurroundings modules.length
  Prog.forEach (writeName env) modules

def readModules : Handler Unit := do
  writeUsize env.toSurroundings modules.length
  Prog.forEach (writeNameAndFd env) modules

def getModule (index : Nat) : Handler Module :=
  match modules[index]? with
  | some m => pure m
  | none => Prog.stop Stop.panicked

def PATH_MODULES_DIR : List Byte := bytesOf ".."

def modulePath (m : Module) : List Byte :=
  PATH_MODULES_DIR ++ bytesOf "/" ++ m.name

def getModuleDir : Handler Unit := do
  let index ← readUsize env.lp
  let m ← getModule modules index
  match env.moduleDir (modulePath m) with
  | some dir => sendFd env.toSurroundings dir
  | none => Prog.fail Error.openFailed

/-!
# Companions
-/

/-- The daemon's half of `spawn_companion`, once the fork is done. -/
def awaitCompanion (m : Module) (daemon : Nat) : Handler (Option Nat) := do
  if WIFEXITED env.spawn.status && WEXITSTATUS env.spawn.status == 0 &&
      env.spawn.nameWritten && env.spawn.fdSent then
    Prog.modifyWorld (fun w =>
      w.emit (Effect.startedCompanion daemon m.name m.libFd))
    match env.spawn.answer with
    | some 0 => pure none
    | some 1 => pure (some daemon)
    | _ => Prog.fail Error.spawnFailed
  else Prog.fail Error.spawnFailed

/-- The forked child, which leaves the process only once the companion runs. -/
def startCompanion : Handler (Option Nat) :=
  if env.spawn.setFd && env.spawn.spawned then Prog.stop (Stop.exited 0)
  else Prog.fail Error.spawnFailed

def spawnCompanion (m : Module) : Handler (Option Nat) :=
  match env.spawn.pair, env.spawn.fork with
  | none, _ => Prog.fail Error.spawnFailed
  | some _, ForkResult.failed => Prog.fail Error.spawnFailed
  | some daemon, ForkResult.parent => awaitCompanion env m daemon
  | some _, ForkResult.child => startCompanion env

def pollCompanion (companion : Option (Option Nat)) : Option (Option Nat) :=
  match companion with
  | some (some sock) => if env.companionAlive then some (some sock) else none
  | companion => companion

def ensureCompanion (index : Nat) (m : Module) :
    Handler (Option (Option Nat)) :=
  fun w =>
    match pollCompanion env (w.companions index) with
    | some companion => Outcome.ok (some companion) w
    | none => Prog.attempt (spawnCompanion env m) w

def setCompanion (index : Nat) (companion : Option (Option Nat)) :
    Handler Unit :=
  Prog.modifyWorld (fun w =>
    { w with
      companions := fun i => if i = index then companion else w.companions i })

def passClient (sock : Nat) : Handler Unit :=
  if env.clientPassed then
    Prog.modifyWorld (fun w => w.emit (Effect.passedClient sock))
  else
    Prog.fail Error.writeFailed

def answerClient (companion : Option (Option Nat)) : Handler Unit :=
  match companion with
  | some (some sock) => do
      match ← Prog.attempt (passClient env sock) with
      | some () => pure ()
      | none => writeU8 env.toSurroundings 0
  | _ => writeU8 env.toSurroundings 0

def requestCompanionSocket : Handler Unit := do
  let index ← readUsize env.lp
  let m ← getModule modules index
  let companion ← ensureCompanion env index m
  setCompanion index companion
  answerClient env companion

def handleDaemonAction (action : DaemonSocketAction) : Handler Unit :=
  match action with
  | DaemonSocketAction.requestLogcatFd => requestLogcatFd env
  | DaemonSocketAction.getProcessFlags => getProcessFlags root env
  | DaemonSocketAction.getInfo => getInfo root modules env
  | DaemonSocketAction.readModules => readModules modules env
  | DaemonSocketAction.requestCompanionSocket =>
      requestCompanionSocket modules env
  | DaemonSocketAction.getModuleDir => getModuleDir modules env
  | _ => pure ()

end Requests

/-!
# The log loop ends
-/

theorem attempt_readU8 (w : World) :
    Prog.attempt readU8 w =
      match w.input with
      | [] => Outcome.ok none w
      | b :: rest => Outcome.ok (some b.toNat) { w with input := rest } := by
  cases w with
  | mk input effects companions =>
      cases input with
      | nil => rfl
      | cons b rest => rfl

/-- The log loop ends with the bytes, not with the fuel. -/
theorem logcatLoop_fuel {env : RequestEnv} {w : World} {fuel : Nat}
    (h : w.input.length < fuel) :
    logcatLoop env fuel w = logcatLoop env (fuel + 1) w := by
  induction fuel generalizing w with
  | zero => exact absurd h (Nat.not_lt_zero _)
  | succ fuel ih =>
      apply Prog.bind_congr
      intro level w1 hlevel
      rw [attempt_readU8] at hlevel
      cases hinput : w.input with
      | nil =>
          rw [hinput] at hlevel
          cases hlevel
          rfl
      | cons b rest =>
          rw [hinput] at hlevel h
          cases hlevel
          apply Prog.bind_congr
          intro tag w2 htag
          rcases readString_ok_iff.mp htag with ⟨_, _, _, _, hw2⟩
          apply Prog.bind_congr
          intro message w3 hmessage
          rcases readString_ok_iff.mp hmessage with ⟨_, _, _, _, hw3⟩
          apply Prog.bind_congr
          intro _ w4 hlog
          have hinput4 : w4.input = w3.input := by
            rw [logRaw] at hlog
            split at hlog
            · cases hlog
            · cases hlog
              rfl
          apply ih
          rw [hinput4, ← hw3, ← hw2]
          have hle2 := length_afterText env.lp rest
          have hle3 := length_afterText env.lp (afterText env.lp rest)
          have hrest : rest.length < fuel := Nat.lt_of_succ_lt_succ h
          exact Nat.lt_of_le_of_lt hle3 (Nat.lt_of_le_of_lt hle2 hrest)

end Zygiskd
end ReZygisk
