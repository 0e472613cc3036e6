import ReZygisk.Zygiskd.AcceptLoop

/-!
# The daemon's report to the monitor

Before it listens, `main` tells the monitor which root implementation it found
and which modules it loaded, in one datagram: a command, the length of the text
with its terminator, the text and the terminator.
-/

namespace ReZygisk
namespace Zygiskd

open Foundation
open Kernel

def DAEMON_SET_INFO : Lp -> Nat
  | Lp.lp32 => 7
  | Lp.lp64 => 6

def DAEMON_SET_ERROR_INFO : Lp -> Nat
  | Lp.lp32 => 9
  | Lp.lp64 => 8

/-- What `{:?}` prints of the derived `Debug`. -/
def RootImpl.debug : RootImpl -> String
  | RootImpl.none => "None"
  | RootImpl.tooOld => "TooOld"
  | RootImpl.abnormal => "Abnormal"
  | RootImpl.multiple => "Multiple"
  | RootImpl.kernelSU => "KernelSU"
  | RootImpl.magisk => "Magisk"
  | RootImpl.apatch => "APatch"

/-- The bytes of `msg` once the text is chosen.  `len() as u32 + 1` is the sum
of a release build, which wraps. -/
def infoMessage (cmd : Nat) (info : List Byte) : List Byte :=
  leBytes 4 cmd ++ leBytes 4 ((info.length % 2 ^ 32 + 1) % 2 ^ 32) ++ info ++ [0]

def rootInfo (impl : RootImpl) (names : List (List Byte)) : List Byte :=
  bytesOf "Root: " ++ bytesOf impl.debug ++ bytesOf ",module(" ++
    bytesOf (toString names.length) ++ bytesOf "): " ++
    (names.intersperse (bytesOf ",")).flatten

def rootErrorInfo (impl : RootImpl) : List Byte :=
  bytesOf "Invalid root implementation: " ++ bytesOf impl.debug

def announcement (lp : Lp) (impl : RootImpl) (names : List (List Byte)) :
    List Byte :=
  match impl with
  | RootImpl.kernelSU | RootImpl.magisk | RootImpl.apatch =>
      infoMessage (DAEMON_SET_INFO lp) (rootInfo impl names)
  | _ => infoMessage (DAEMON_SET_ERROR_INFO lp) (rootErrorInfo impl)

/-!
# The shape of the datagrams
-/

@[simp] theorem infoMessage_length (cmd : Nat) (info : List Byte) :
    (infoMessage cmd info).length = info.length + 9 := by
  simp [infoMessage]
  omega

theorem announcement_cases (lp : Lp) (impl : RootImpl)
    (names : List (List Byte)) :
    announcement lp impl names =
        infoMessage (DAEMON_SET_INFO lp) (rootInfo impl names) ∨
      announcement lp impl names =
        infoMessage (DAEMON_SET_ERROR_INFO lp) (rootErrorInfo impl) := by
  cases impl with
  | kernelSU => exact Or.inl rfl
  | magisk => exact Or.inl rfl
  | apatch => exact Or.inl rfl
  | none => exact Or.inr rfl
  | tooOld => exact Or.inr rfl
  | abnormal => exact Or.inr rfl
  | multiple => exact Or.inr rfl

/-- An accepted connection makes the daemon send at most one datagram. -/
theorem acceptAction_datagrams (lp : Lp) (d : Daemon)
    (action : DaemonSocketAction) (rest : List Byte) (env : RequestEnv) :
    (acceptAction lp d action rest env).datagrams = d.datagrams ∨
      (acceptAction lp d action rest env).datagrams =
        d.datagrams ++ [leBytes 4 (ZYGOTE_INJECTED lp)] ∨
      (acceptAction lp d action rest env).datagrams =
        d.datagrams ++ [leBytes 4 SYSTEM_SERVER_STARTED] := by
  cases action with
  | pingHeartbeat => exact Or.inr (Or.inl rfl)
  | systemServerStarted => exact Or.inr (Or.inr rfl)
  | _ => exact Or.inl rfl

end Zygiskd
end ReZygisk
