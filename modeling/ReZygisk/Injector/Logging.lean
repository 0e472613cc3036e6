import ReZygisk.Foundation.Interleaving
import ReZygisk.Zygiskd.Logcat
import ReZygisk.Zygiskd.Panics

/-!
# Logging through the daemon

The library in the zygote sends its log records over one stream socket, and
every process that the zygote forks goes on with the same socket until it is
specialised.  A record is five write calls, and no lock is held between them.
-/

namespace ReZygisk
namespace Injector

open Foundation
open Kernel
open Zygiskd

def BUFSIZ : Nat := 1024

/-- What `vsnprintf` leaves in a buffer of `size` bytes: it cuts a longer text
to make room for the terminator. -/
def vsnprintf (size : Nat) (text : List Byte) : List Byte :=
  text.take (size - 1)

/-- A call of `logging::log`, with the text that its format and arguments stand
for.  The tag is a C string, and what the buffer holds of the text is UTF-8. -/
structure LogCall where
  prio : Nat
  tag : List Byte
  text : List Byte
  prio_lt : prio < 256
  tag_nulFree : (0 : Byte) ∉ tag
  tag_utf8 : validUtf8 tag = true
  message_utf8 : validUtf8 (cstr (vsnprintf BUFSIZ text)) = true

namespace LogCall

def message (c : LogCall) : List Byte :=
  cstr (vsnprintf BUFSIZ c.text)

def record (c : LogCall) : LogRecord :=
  ⟨c.prio, c.tag, c.message⟩

end LogCall

/-!
# Writing
-/

/-- A write call.  What its bytes stand for is not sent with them. -/
structure LogWrite where
  field : Field
  bytes : List Byte
  deriving DecidableEq

def writeU8 (field : Field) (value : Nat) : List LogWrite :=
  [⟨field, leBytes 1 value⟩]

def writeUsize (lp : Lp) (field : Field) (value : Nat) : List LogWrite :=
  [⟨field, leBytes lp.bytes value⟩]

/-- `write_string`: even an empty string makes a write call of its own. -/
def writeString (lp : Lp) (field : Field) (text : List Byte) : List LogWrite :=
  writeUsize lp Field.length text.length ++ [⟨field, text⟩]

def log (lp : Lp) (c : LogCall) : List LogWrite :=
  writeU8 Field.level c.prio ++
    (writeString lp Field.tag c.tag ++ writeString lp Field.message c.message)

def streamBytes (writes : List LogWrite) : List Byte :=
  writes.flatMap LogWrite.bytes

def streamFields (writes : List LogWrite) : List Field :=
  writes.flatMap (fun c => List.replicate c.bytes.length c.field)

/-- The processes that hold the socket, by their pid, and the writes they have
made on it. -/
abbrev LogSocket := SharedOutput Nat LogCall LogWrite

def logging (lp : Lp) (calls : Nat -> List LogCall) :
    TransitionSystem LogSocket Nat :=
  SharedOutput.interleaving (log lp) calls

/-!
# What the daemon makes of it
-/

/-- The daemon logs every record once and those of each process in its order,
and no byte of a message is taken for one of a length or a tag. -/
def DecodesExactly (env : RequestEnv) (calls : Nat -> List LogCall)
    (writes : List LogWrite) : Prop :=
  (forall w : World, w.input = streamBytes writes ->
    exists order, SharedOutput.Merges order calls ∧
      requestLogcatFd env w =
        Outcome.ok ()
          { w with
            input := []
            effects := w.effects ++
              order.map (fun c => Effect.logged c.2.record) }) ∧
  forall i : Nat, (streamFields writes)[i]? = some Field.message ->
    (fieldsRead env.toSurroundings (streamBytes writes))[i]? ≠
        some Field.length ∧
      (fieldsRead env.toSurroundings (streamBytes writes))[i]? ≠ some Field.tag

def HasRoom (env : Surroundings) (calls : Nat -> List LogCall) : Prop :=
  forall p c, c ∈ calls p ->
    env.Allocatable c.tag.length ∧ env.Allocatable c.message.length

theorem streamBytes_log (lp : Lp) (c : LogCall) :
    streamBytes (log lp c) = wireRecord lp c.record := by
  simp [streamBytes, log, writeU8, writeString, writeUsize, wireRecord, wireString,
    LogCall.record]

theorem streamFields_log (lp : Lp) (c : LogCall) :
    streamFields (log lp c) = recordFields lp c.record := by
  simp [streamFields, log, writeU8, writeString, writeUsize, recordFields,
    LogCall.record]

theorem loggable_record {env : Surroundings} {calls : Nat -> List LogCall}
    (hroom : HasRoom env calls) {p : Nat} {c : LogCall} (hc : c ∈ calls p) :
    Loggable env c.record where
  level := c.prio_lt
  tag := ⟨(hroom p c hc).left, c.tag_utf8, c.tag_nulFree⟩
  message := ⟨(hroom p c hc).right, c.message_utf8, not_mem_cstr _⟩

section Whole

variable {lp : Lp} (order : List (Nat × LogCall))

theorem streamBytes_order :
    streamBytes (order.flatMap (fun c => log lp c.2)) =
      (order.map (fun c => c.2.record)).flatMap (wireRecord lp) := by
  rw [streamBytes, List.flatMap_assoc, List.flatMap_map]
  simp only [← streamBytes_log, streamBytes]

theorem streamFields_order :
    streamFields (order.flatMap (fun c => log lp c.2)) =
      (order.map (fun c => c.2.record)).flatMap (recordFields lp) := by
  rw [streamFields, List.flatMap_assoc, List.flatMap_map]
  simp only [← streamFields_log, streamFields]

end Whole

theorem mem_calls_of_merges {calls : Nat -> List LogCall}
    {order : List (Nat × LogCall)} (h : SharedOutput.Merges order calls)
    {c : Nat × LogCall} (hc : c ∈ order) : c.2 ∈ calls c.1 := by
  rw [← h c.1]
  exact List.mem_map.mpr ⟨c, List.mem_filter.mpr ⟨hc, decide_eq_true rfl⟩, rfl⟩

theorem decodesExactly_of_whole {env : RequestEnv} {calls : Nat -> List LogCall}
    (hroom : HasRoom env.toSurroundings calls) {order : List (Nat × LogCall)}
    (hmerges : SharedOutput.Merges order calls) :
    DecodesExactly env calls (order.flatMap (fun c => log env.lp c.2)) := by
  have hloggable : forall r, r ∈ order.map (fun c => c.2.record) ->
      Loggable env.toSurroundings r := by
    intro r hr
    rcases List.mem_map.mp hr with ⟨c, hc, hrecord⟩
    rw [← hrecord]
    exact loggable_record hroom (mem_calls_of_merges hmerges hc)
  constructor
  · intro w hinput
    rw [streamBytes_order] at hinput
    refine ⟨order, hmerges, ?_⟩
    rw [requestLogcatFd_wireRecords hloggable hinput, List.map_map]
    rfl
  · intro i hmessage
    rw [streamBytes_order, fieldsRead_wireRecords hloggable,
      ← streamFields_order, hmessage]
    constructor
    · intro h
      cases h
    · intro h
      cases h

/-- In every run in which each write is made while no other process is in the
middle of a record, the daemon decodes exactly what was logged. -/
theorem decodesExactly_of_undivided {env : RequestEnv}
    {calls : Nat -> List LogCall} {schedule : List Nat} {s : LogSocket}
    (hroom : HasRoom env.toSurroundings calls)
    (hrun : (logging env.lp calls).run (SharedOutput.start calls) schedule = some s)
    (hfinished : s.Finished)
    (hundivided : TransitionSystem.AlongRun (logging env.lp calls)
      SharedOutput.Undivided (SharedOutput.start calls) schedule) :
    DecodesExactly env calls s.output := by
  rcases SharedOutput.exists_order_of_undivided hrun hundivided hfinished with
    ⟨order, hmerges, houtput⟩
  rw [houtput]
  exact decodesExactly_of_whole hroom hmerges

def shortCall (prio : Nat) (tag text : Byte) (hprio : prio < 256)
    (htag : tag ≠ 0 ∧ validUtf8 [tag] = true)
    (htext : validUtf8 (cstr [text]) = true) : LogCall where
  prio := prio
  tag := [tag]
  text := [text]
  prio_lt := hprio
  tag_nulFree := by simpa using Ne.symm htag.left
  tag_utf8 := htag.right
  message_utf8 := htext

/-- A zygote with pid 1 and a child of it with pid 2, which log once each. -/
def zygoteAndChild (p : Nat) : List LogCall :=
  match p with
  | 1 => [shortCall 4 97 98 (by decide) (by decide) (by decide)]
  | 2 => [shortCall 5 99 100 (by decide) (by decide) (by decide)]
  | _ => []

theorem hasRoom_zygoteAndChild :
    HasRoom plainEnv.toSurroundings zygoteAndChild := by
  intro p c hc
  match p with
  | 0 => cases hc
  | 1 =>
      rw [List.mem_singleton.mp hc]
      decide
  | 2 =>
      rw [List.mem_singleton.mp hc]
      decide
  | n + 3 => cases hc

theorem decodesExactly_one_after_the_other :
    exists s, (logging plainEnv.lp zygoteAndChild).run
        (SharedOutput.start zygoteAndChild) [1, 1, 1, 1, 1, 2, 2, 2, 2, 2] = some s ∧
      s.Finished ∧ DecodesExactly plainEnv zygoteAndChild s.output := by
  have hundivided : TransitionSystem.AlongRun (logging plainEnv.lp zygoteAndChild)
      SharedOutput.Undivided (SharedOutput.start zygoteAndChild)
      [1, 1, 1, 1, 1, 2, 2, 2, 2, 2] := by
    iterate 10
      refine ⟨?_, ?_⟩
      · intro q hq
        match q with
        | 0 => rfl
        | 1 => (first | rfl | exact absurd rfl hq)
        | 2 => (first | rfl | exact absurd rfl hq)
        | n + 3 => rfl
      intro s' hs'
      cases hs'
    trivial
  have hrun : exists s, (logging plainEnv.lp zygoteAndChild).run
      (SharedOutput.start zygoteAndChild) [1, 1, 1, 1, 1, 2, 2, 2, 2, 2] = some s ∧
      s.Finished := by
    refine ⟨_, rfl, ?_⟩
    intro p
    match p with
    | 0 => exact ⟨rfl, rfl⟩
    | 1 => exact ⟨rfl, rfl⟩
    | 2 => exact ⟨rfl, rfl⟩
    | n + 3 => exact ⟨rfl, rfl⟩
  rcases hrun with ⟨s, hrun, hfinished⟩
  exact ⟨s, hrun, hfinished,
    decodesExactly_of_undivided hasRoom_zygoteAndChild hrun hfinished hundivided⟩

/-- The child's first write comes between the zygote's first two, and the daemon
takes it for the low byte of the length of the tag. -/
theorem not_decodesExactly_divided :
    exists s, (logging plainEnv.lp zygoteAndChild).run
        (SharedOutput.start zygoteAndChild) [1, 2, 1, 1, 1, 1, 2, 2, 2, 2] = some s ∧
      s.Finished ∧ ¬ DecodesExactly plainEnv zygoteAndChild s.output := by
  refine ⟨_, rfl, ?_, ?_⟩
  · intro p
    match p with
    | 0 => exact ⟨rfl, rfl⟩
    | 1 => exact ⟨rfl, rfl⟩
    | 2 => exact ⟨rfl, rfl⟩
    | n + 3 => exact ⟨rfl, rfl⟩
  · intro h
    rcases h.left
      { input := _, effects := [], companions := fun _ => none } rfl with
      ⟨order, _, hrun⟩
    cases hrun

end Injector
end ReZygisk
