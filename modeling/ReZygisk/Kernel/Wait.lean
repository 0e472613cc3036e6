import ReZygisk.Foundation.Text

/-!
# Wait statuses

The `wait(2)` status word as the C library's macros read it, the ptrace events
in its upper half, and `parse_status`, which turns it into text.
-/

namespace ReZygisk
namespace Kernel

open Foundation

/-!
# Signals and ptrace events
-/

def SIGTRAP : Nat := 5
def SIGKILL : Nat := 9
def SIGSEGV : Nat := 11
def SIGCONT : Nat := 18
def SIGSTOP : Nat := 19
def SIGTSTP : Nat := 20
def SIGTTIN : Nat := 21
def SIGTTOU : Nat := 22
def NSIG : Nat := 65

def PTRACE_EVENT_FORK : Nat := 1
def PTRACE_EVENT_VFORK : Nat := 2
def PTRACE_EVENT_CLONE : Nat := 3
def PTRACE_EVENT_EXEC : Nat := 4
def PTRACE_EVENT_VFORK_DONE : Nat := 5
def PTRACE_EVENT_EXIT : Nat := 6
def PTRACE_EVENT_SECCOMP : Nat := 7
def PTRACE_EVENT_STOP : Nat := 128

/-!
# Reading a status
-/

def WTERMSIG (status : Nat) : Nat :=
  status % 128

def WEXITSTATUS (status : Nat) : Nat :=
  status / 256 % 256

def WSTOPSIG (status : Nat) : Nat :=
  WEXITSTATUS status

def WIFEXITED (status : Nat) : Bool :=
  WTERMSIG status == 0

def WIFSTOPPED (status : Nat) : Bool :=
  WTERMSIG status == 0x7f

def WIFSIGNALED (status : Nat) : Bool :=
  decide (2 ≤ WTERMSIG (status + 1))

def WPTEVENT (status : Nat) : Nat :=
  status / 2 ^ 16

def stoppedStatus (sig event : Nat) : Nat :=
  0x7f + 256 * sig + 2 ^ 16 * event

/-!
# Status texts
-/

section Text

-- `sys_signame` belongs to the C library, so the texts are stated for any table.
variable (sysSigname : Nat -> List Byte)

def sigabbrevNp (sig : Nat) : List Byte :=
  if 0 < sig ∧ sig < NSIG then sysSigname sig else bytesOf "(unknown)"

def parsePtraceEvent (status : Nat) : List Byte :=
  bytesOf <|
    match WPTEVENT status with
    | 1 => "PTRACE_EVENT_FORK"
    | 2 => "PTRACE_EVENT_VFORK"
    | 3 => "PTRACE_EVENT_CLONE"
    | 4 => "PTRACE_EVENT_EXEC"
    | 5 => "PTRACE_EVENT_VFORK_DONE"
    | 6 => "PTRACE_EVENT_EXIT"
    | 7 => "PTRACE_EVENT_SECCOMP"
    | 128 => "PTRACE_EVENT_STOP"
    | _ => "(no event)"

def statusText (status : Nat) : List Byte :=
  bytesOf "0x" ++ hexText status ++ bytesOf " " ++
    if WIFEXITED status then
      bytesOf "exited with " ++ decText (WEXITSTATUS status)
    else if WIFSIGNALED status then
      bytesOf "signaled with " ++ sigabbrevNp sysSigname (WTERMSIG status) ++
        bytesOf "(" ++ decText (WTERMSIG status) ++ bytesOf ")"
    else if WIFSTOPPED status then
      bytesOf "stopped by " ++
        bytesOf "signal=" ++ sigabbrevNp sysSigname (WSTOPSIG status) ++
        bytesOf "(" ++ decText (WSTOPSIG status) ++ bytesOf ")," ++
        bytesOf "event=" ++ parsePtraceEvent status
    else
      bytesOf "unknown"

/-- `parse_status` into a buffer of `len` bytes.  Each `snprintf` appends to
what is there and cuts at the end of the buffer, so the result is the whole
text cut to `len - 1` bytes, and read as a C string. -/
def parseStatus (status len : Nat) : List Byte :=
  cstr ((statusText sysSigname status).take (len - 1))

/-- A buffer of two bytes already takes the leading `0`. -/
theorem parseStatus_ne_nil {len : Nat} (h : 2 ≤ len) (status : Nat) :
    parseStatus sysSigname status len ≠ [] := by
  have hhead : exists rest, statusText sysSigname status = 48 :: rest :=
    ⟨_, rfl⟩
  rcases hhead with ⟨rest, hrest⟩
  rcases Nat.exists_eq_add_of_le h with ⟨extra, hlen⟩
  unfold parseStatus
  rw [hrest, hlen, show 2 + extra - 1 = extra + 1 by omega, List.take_succ_cons]
  simp [cstr]

end Text

end Kernel
end ReZygisk
