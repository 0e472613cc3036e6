import ReZygisk.Injector.DaemonClient

/-!
# Fields on the wire

The daemon and its clients exchange numbers and strings through two codecs, one
in Rust and one in C++.  A receiver's reads may be cut short and interrupted
anywhere; each codec has its own loop that goes on until a field is whole.
-/

namespace ReZygisk
namespace Injector

open Foundation
open Kernel
open Zygiskd (Surroundings Handler World)

/-!
# Fields
-/

/-- A field with a value that its type has: a number of its width, or a text
that fits in memory. -/
inductive WireField (lp : Lp) where
  | u8 (value : Nat) (fits : value < 256 ^ 1)
  | u32 (value : Nat) (fits : value < 256 ^ 4)
  | usize (value : Nat) (fits : value < 256 ^ lp.bytes)
  | string (text : List Byte) (fits : text.length ≤ lp.ptrdiffMax)

inductive FieldKind where
  | u8
  | u32
  | usize
  | string
  deriving DecidableEq

inductive FieldValue where
  | number (n : Nat)
  | text (bytes : List Byte)
  deriving DecidableEq

/-- The number of bytes of a number; a string begins with its length. -/
def FieldKind.width (lp : Lp) : FieldKind -> Nat
  | FieldKind.u8 => 1
  | FieldKind.u32 => 4
  | FieldKind.usize => lp.bytes
  | FieldKind.string => lp.bytes

namespace WireField

variable {lp : Lp}

def kind : WireField lp -> FieldKind
  | u8 _ _ => FieldKind.u8
  | u32 _ _ => FieldKind.u32
  | usize _ _ => FieldKind.usize
  | string _ _ => FieldKind.string

def value : WireField lp -> FieldValue
  | u8 n _ => FieldValue.number n
  | u32 n _ => FieldValue.number n
  | usize n _ => FieldValue.number n
  | string text _ => FieldValue.text text

/-- The field as it is on the wire. -/
def bytes : WireField lp -> List Byte
  | u8 n _ => leBytes 1 n
  | u32 n _ => leBytes 4 n
  | usize n _ => leBytes lp.bytes n
  | string text _ => leBytes lp.bytes text.length ++ text

end WireField

/-!
# The daemon's writes
-/

/-- The writes of `UnixStreamExt`. -/
def rustWrite (env : Surroundings) : WireField env.lp -> Handler Unit
  | WireField.u8 n _ => Zygiskd.writeU8 env n
  | WireField.u32 n _ => Zygiskd.writeU32 env n
  | WireField.usize n _ => Zygiskd.writeUsize env n
  | WireField.string text _ => Zygiskd.writeString env text

theorem dataItems_append (bytes bytes' : List Byte) :
    dataItems (bytes ++ bytes') = dataItems bytes ++ dataItems bytes' :=
  List.map_append

/-- What a client can read of a step of the daemon that sends `bytes`. -/
def Sends (bytes : List Byte) (w w' : World) : Prop :=
  exists written, w'.effects = w.effects ++ written ∧
    replyItems written = dataItems bytes

theorem sends_append {bytes bytes' : List Byte} {w w1 w2 : World}
    (h : Sends bytes w w1) (h' : Sends bytes' w1 w2) :
    Sends (bytes ++ bytes') w w2 := by
  rcases h with ⟨first, hfirst, hitems⟩
  rcases h' with ⟨others, hothers, hitems'⟩
  refine ⟨first ++ others, ?_, ?_⟩
  · rw [hothers, hfirst, List.append_assoc]
  · rw [replyItems, List.flatMap_append]
    change replyItems first ++ replyItems others = _
    rw [hitems, hitems', dataItems_append]

theorem sends_of_writeAll {env : Surroundings} {bytes : List Byte} {w w' : World}
    (h : Zygiskd.writeAll env bytes w = Outcome.ok () w') : Sends bytes w w' := by
  rw [Zygiskd.writeAll, Zygiskd.tryEmit] at h
  by_cases hwrites : env.writes w.effects.length
  · rw [if_pos hwrites] at h
    injection h with _ hw
    rw [← hw]
    exact ⟨[Zygiskd.Effect.wrote bytes], rfl, by simp [replyItems, effectItems]⟩
  · rw [if_neg hwrites] at h
    cases h

theorem sends_of_rustWrite {env : Surroundings} {field : WireField env.lp}
    {w w' : World} (h : rustWrite env field w = Outcome.ok () w') :
    Sends field.bytes w w' := by
  cases field with
  | u8 n _ => exact sends_of_writeAll h
  | u32 n _ => exact sends_of_writeAll h
  | usize n _ => exact sends_of_writeAll h
  | string text _ =>
      rcases Prog.exists_of_bind_ok h with ⟨_, w1, hlen, htext⟩
      exact sends_append (sends_of_writeAll hlen) (sends_of_writeAll htext)

theorem sends_of_forEach_rustWrite {env : Surroundings}
    {fields : List (WireField env.lp)} {w w' : World}
    (h : Prog.forEach (rustWrite env) fields w = Outcome.ok () w') :
    Sends (fields.flatMap WireField.bytes) w w' := by
  induction fields generalizing w with
  | nil =>
      injection h with _ hw
      rw [← hw]
      exact ⟨[], (List.append_nil _).symm, rfl⟩
  | cons field rest ih =>
      rcases Prog.exists_of_bind_ok h with ⟨_, w1, hfield, hrest⟩
      rw [List.flatMap_cons]
      exact sends_append (sends_of_rustWrite hfield) (ih hrest)

/-!
# The client's writes
-/

/-- What the kernel makes of a `write`: it takes at most `limit` bytes. -/
inductive WriteResult where
  | interrupted
  | failed
  | upTo (limit : Nat)
  deriving DecidableEq

/-- A sender's end: the bytes on the stream, and what the kernel makes of the
next calls; after those a `write` sends all. -/
structure Sender where
  sent : List Byte
  writes : List WriteResult

inductive WriteReturn where
  | eintr
  | error
  | count (n : Nat)

def Sender.write (buf : List Byte) (s : Sender) : WriteReturn × Sender :=
  match s.writes with
  | WriteResult.interrupted :: rest => (WriteReturn.eintr, { s with writes := rest })
  | WriteResult.failed :: rest => (WriteReturn.error, { s with writes := rest })
  | WriteResult.upTo limit :: rest =>
      (WriteReturn.count (min limit buf.length),
        { sent := s.sent ++ buf.take limit, writes := rest })
  | [] => (WriteReturn.count buf.length, { s with sent := s.sent ++ buf })

/-- One pass of the loop of `xwrite`, with the number of bytes written so far. -/
def xwritePass (buf : List Byte) (s : Nat × Sender) :
    LoopStep (Nat × Sender) (Nat × Sender) :=
  match s.2.write (buf.drop s.1) with
  | (WriteReturn.eintr, sender) =>
      if s.1 ≠ buf.length then LoopStep.again (s.1, sender)
      else LoopStep.done (s.1, sender)
  | (WriteReturn.error, sender) => LoopStep.done (s.1, sender)
  | (WriteReturn.count n, sender) =>
      if s.1 + n ≠ buf.length ∧ n ≠ 0 then LoopStep.again (s.1 + n, sender)
      else LoopStep.done (s.1 + n, sender)

/-- Every pass uses up a scheduled result or is the last. -/
def xwrite (buf : List Byte) (s : Sender) : Option (Nat × Sender) :=
  iterate (xwritePass buf) (s.writes.length + 1) (0, s)

/-- `write_exact`, on the bytes of the value. -/
def writeExact (buf : List Byte) (s : Sender) : Option (Bool × Sender) :=
  (xwrite buf s).map (fun r => (r.1 == buf.length, r.2))

/-- The writes of `socket_utils`. -/
def socketWrite {lp : Lp} (field : WireField lp) (s : Sender) :
    Option (Bool × Sender) :=
  match field with
  | WireField.u8 n _ => writeExact (leBytes 1 n) s
  | WireField.u32 n _ => writeExact (leBytes 4 n) s
  | WireField.usize n _ => writeExact (leBytes lp.bytes n) s
  | WireField.string text _ =>
      (writeExact (leBytes lp.bytes text.length) s).bind (fun r =>
        if r.1 then writeExact text r.2 else some r)

/-- A caller that writes field after field as long as the writes succeed. -/
def socketWriteAll {lp : Lp} :
    List (WireField lp) -> Sender -> Option (Bool × Sender)
  | [], s => some (true, s)
  | field :: rest, s =>
      (socketWrite field s).bind (fun r =>
        if r.1 then socketWriteAll rest r.2 else some r)

/-- `xwrite` has sent as much of the buffer as it says, and nothing else. -/
theorem xwrite_sent {buf : List Byte} {s s' : Sender} {n : Nat}
    (h : xwrite buf s = some (n, s')) :
    n ≤ buf.length ∧ s'.sent = s.sent ++ buf.take n := by
  let I : Nat × Sender -> Prop := fun r =>
    r.1 ≤ buf.length ∧ r.2.sent = s.sent ++ buf.take r.1
  -- `k` bytes more, of those that are left
  have hmore : forall (n k : Nat) (sender : Sender), I (n, sender) ->
      forall writes, I (n + min k (buf.drop n).length,
        { sent := sender.sent ++ (buf.drop n).take k, writes := writes }) := by
    intro n k sender hI writes
    rcases hI with ⟨hle, hsent⟩
    constructor
    · simp only [List.length_drop]
      omega
    · change sender.sent ++ _ = _
      simp only at hsent
      rw [hsent, List.append_assoc, List.take_add, ← List.take_eq_take_min]
  refine loopReturns_invariant (I := I) (P := I) ?_
    ⟨Nat.zero_le _, by simp⟩ ⟨_, h⟩
  intro r hr
  unfold xwritePass Sender.write
  cases hwrites : r.2.writes with
  | nil =>
      have hall := hmore r.1 (buf.drop r.1).length r.2 hr r.2.writes
      rw [Nat.min_self, List.take_length, hwrites] at hall
      simp only
      split
      · exact Or.inl ⟨_, rfl, hall⟩
      · exact Or.inr ⟨_, rfl, hall⟩
  | cons result writes =>
      cases result with
      | interrupted =>
          simp only
          split
          · exact Or.inl ⟨_, rfl, hr⟩
          · exact Or.inr ⟨_, rfl, hr⟩
      | failed => exact Or.inr ⟨_, rfl, hr⟩
      | upTo limit =>
          have hpart := hmore r.1 limit r.2 hr writes
          simp only
          split
          · exact Or.inl ⟨_, rfl, hpart⟩
          · exact Or.inr ⟨_, rfl, hpart⟩

theorem writeExact_sent {buf : List Byte} {s s' : Sender}
    (h : writeExact buf s = some (true, s')) : s'.sent = s.sent ++ buf := by
  rcases Option.map_eq_some_iff.mp h with ⟨r, hr, heq⟩
  injection heq with hall hs'
  have hsent := (xwrite_sent hr).right
  rw [beq_iff_eq.mp hall, List.take_length] at hsent
  rw [← hs', hsent]

/-- A write that succeeds after one that did. -/
theorem andThen_true {first : Option (Bool × Sender)}
    {next : Sender -> Option (Bool × Sender)} {s' : Sender}
    (h : first.bind (fun r => if r.1 then next r.2 else some r) = some (true, s')) :
    exists s1, first = some (true, s1) ∧ next s1 = some (true, s') := by
  rcases Option.bind_eq_some_iff.mp h with ⟨⟨ok, s1⟩, hfirst, hnext⟩
  cases ok with
  | false => cases hnext
  | true => exact ⟨s1, hfirst, hnext⟩

theorem socketWrite_sent {lp : Lp} {field : WireField lp} {s s' : Sender}
    (h : socketWrite field s = some (true, s')) :
    s'.sent = s.sent ++ field.bytes := by
  cases field with
  | u8 n _ => exact writeExact_sent h
  | u32 n _ => exact writeExact_sent h
  | usize n _ => exact writeExact_sent h
  | string text _ =>
      rcases andThen_true h with ⟨s1, hlen, htext⟩
      rw [writeExact_sent htext, writeExact_sent hlen, List.append_assoc]
      rfl

theorem socketWriteAll_sent {lp : Lp} {fields : List (WireField lp)} {s s' : Sender}
    (h : socketWriteAll fields s = some (true, s')) :
    s'.sent = s.sent ++ fields.flatMap WireField.bytes := by
  induction fields generalizing s with
  | nil =>
      injection h with h
      injection h with _ hs
      rw [← hs, List.flatMap_nil, List.append_nil]
  | cons field rest ih =>
      rcases andThen_true h with ⟨s1, hfield, hrest⟩
      rw [ih hrest, socketWrite_sent hfield, List.append_assoc, List.flatMap_cons]

/-!
# The daemon's reads

`read_exact` of the standard library asks for what is missing until nothing is,
and asks again when it was interrupted.
-/

inductive StreamError where
  | unexpectedEof
  | invalidUtf8
  | io
  deriving DecidableEq

abbrev StreamReader := Prog Conn StreamError

def readExactPass (count : Nat) (s : List Byte × Conn) :
    LoopStep (List Byte × Conn) (Outcome Conn StreamError (List Byte)) :=
  if s.1.length = count then LoopStep.done (Outcome.ok s.1 s.2)
  else
    match s.2.read (count - s.1.length) with
    | (ReadReturn.eintr, c) => LoopStep.again (s.1, c)
    | (ReadReturn.error, c) => LoopStep.done (Outcome.err StreamError.io c)
    | (ReadReturn.bytes new, c) =>
        if new = [] then LoopStep.done (Outcome.err StreamError.unexpectedEof c)
        else LoopStep.again (s.1 ++ new, c)

/-- Every pass uses up a scheduled result, reads a byte or is the last. -/
def rustReadExact (count : Nat) : StreamReader (List Byte) :=
  fun c =>
    (iterate (readExactPass count) (c.reads.length + count + 1) ([], c)).getD
      (Outcome.err StreamError.io c)

def rustReadNumber (width : Nat) : StreamReader Nat := do
  let buf ← rustReadExact width
  pure (leValue buf)

def rustReadString (env : Surroundings) : StreamReader (List Byte) := do
  let len ← rustReadNumber env.lp.bytes
  if env.Allocatable len then pure () else Prog.stop Stop.panicked
  let buf ← rustReadExact len
  if validUtf8 buf then pure buf else Prog.fail StreamError.invalidUtf8

def rustRead (env : Surroundings) : FieldKind -> StreamReader FieldValue
  | FieldKind.string => do
      let text ← rustReadString env
      pure (FieldValue.text text)
  | kind => do
      let n ← rustReadNumber (kind.width env.lp)
      pure (FieldValue.number n)

def rustReadAll (env : Surroundings) :
    List FieldKind -> StreamReader (List FieldValue)
  | [] => pure []
  | kind :: rest => do
      let value ← rustRead env kind
      let values ← rustReadAll env rest
      pure (value :: values)

/-- A pass that still needs bytes gets some, is interrupted, or finds the end of
the stream. -/
theorem readExactPass_cases {count need : Nat} {acc bytes : List Byte} {c : Conn}
    {rest : List WireItem} (hneed : acc.length + need = count) (hmore : need ≠ 0)
    (hitems : c.items = dataItems bytes ++ rest)
    (hthere : need ≤ bytes.length ∨ rest = [])
    (hclean : ReadResult.failed ∉ c.reads) :
    (exists n reads, n ≤ bytes.length ∧ n ≤ need ∧ ReadResult.failed ∉ reads ∧
      reads.length + (need - n) < c.reads.length + need ∧
      readExactPass count (acc, c) = LoopStep.again
        (acc ++ bytes.take n,
          { c with items := dataItems (bytes.drop n) ++ rest, reads := reads })) ∨
    (bytes = [] ∧ exists reads, ReadResult.failed ∉ reads ∧
      readExactPass count (acc, c) = LoopStep.done
        (Outcome.err StreamError.unexpectedEof
          { c with items := [], reads := reads })) := by
  have hleft : count - acc.length = need := by omega
  have hnot : acc.length ≠ count := by omega
  rcases Conn.read_available need hitems hthere hclean with
    ⟨reads, hclean', hless, hread⟩ | ⟨n, reads, hn, hle, hpos, hclean', hless, hread⟩
  · refine Or.inl ⟨0, reads, Nat.zero_le _, Nat.zero_le _, hclean', by omega, ?_⟩
    rw [List.take_zero, List.append_nil, List.drop_zero, ← hitems]
    simp only [readExactPass, if_neg hnot, hleft, hread]
  · by_cases hend : bytes = []
    · have hnil : rest = [] := by
        rw [hend] at hthere
        exact hthere.resolve_left (fun hno => hmore (Nat.le_zero.mp hno))
      refine Or.inr ⟨hend, reads, hclean', ?_⟩
      rw [hend, hnil] at hread
      simp only [readExactPass, if_neg hnot, hleft, hread, List.take_nil,
        List.drop_nil, if_true]
      rfl
    · have hsome := hpos hend (Nat.pos_of_ne_zero hmore)
      have hnew : bytes.take n ≠ [] := by
        rw [ne_eq, List.take_eq_nil_iff, not_or]
        exact ⟨Nat.ne_of_gt hsome, hend⟩
      refine Or.inl ⟨n, reads, hn, hle, hclean', by omega, ?_⟩
      simp only [readExactPass, if_neg hnot, hleft, hread, if_neg hnew]

/-- The loop of `read_exact` gets the bytes it needs if they are there, and
otherwise finds the end of the stream. -/
theorem iterate_readExactPass {count fuel need : Nat} (acc : List Byte)
    {bytes : List Byte} {c : Conn} {rest : List WireItem}
    (hneed : acc.length + need = count)
    (hitems : c.items = dataItems bytes ++ rest)
    (hthere : need ≤ bytes.length ∨ rest = [])
    (hclean : ReadResult.failed ∉ c.reads)
    (hfuel : c.reads.length + need < fuel) :
    exists reads, ReadResult.failed ∉ reads ∧
      iterate (readExactPass count) fuel (acc, c) =
        some (if need ≤ bytes.length then
            Outcome.ok (acc ++ bytes.take need)
              { c with items := dataItems (bytes.drop need) ++ rest, reads := reads }
          else Outcome.err StreamError.unexpectedEof
            { c with items := [], reads := reads }) := by
  induction fuel generalizing acc bytes c need with
  | zero => exact absurd hfuel (Nat.not_lt_zero _)
  | succ fuel ih =>
      by_cases hdone : need = 0
      · have hfull : acc.length = count := by omega
        refine ⟨c.reads, hclean, ?_⟩
        rw [iterate, readExactPass, if_pos hfull, hdone, if_pos (Nat.zero_le _),
          List.take_zero, List.append_nil, List.drop_zero, ← hitems]
      · rcases readExactPass_cases hneed hdone hitems hthere hclean with
          ⟨n, reads, hn, hle, hclean', hless, hpass⟩ | ⟨hend, reads, hclean', hpass⟩
        · have hneed' : (acc ++ bytes.take n).length + (need - n) = count := by
            rw [List.length_append, List.length_take]
            omega
          have hiff : need - n ≤ (bytes.drop n).length <-> need ≤ bytes.length := by
            rw [List.length_drop]
            omega
          rcases ih (acc ++ bytes.take n)
            (c := { c with items := dataItems (bytes.drop n) ++ rest, reads := reads })
            hneed' rfl (hthere.imp_left hiff.mpr) hclean' (by simp only; omega) with
            ⟨reads', hclean'', hrun⟩
          refine ⟨reads', hclean'', ?_⟩
          rw [iterate, hpass]
          simp only [hrun, hiff, List.append_assoc, take_take_drop hle, List.drop_drop,
            Nat.add_sub_cancel' hle]
        · have hnone : ¬ need ≤ bytes.length := by
            rw [hend]
            exact fun hno => hdone (Nat.le_zero.mp hno)
          refine ⟨reads, hclean', ?_⟩
          rw [iterate, hpass, if_neg hnone]

/-- `read_exact` does not depend on how its reads are cut. -/
theorem rustReadExact_available (count : Nat) {bytes : List Byte} {c : Conn}
    {rest : List WireItem} (hitems : c.items = dataItems bytes ++ rest)
    (hthere : count ≤ bytes.length ∨ rest = [])
    (hclean : ReadResult.failed ∉ c.reads) :
    exists reads, ReadResult.failed ∉ reads ∧
      rustReadExact count c =
        if count ≤ bytes.length then
          Outcome.ok (bytes.take count)
            { c with items := dataItems (bytes.drop count) ++ rest, reads := reads }
        else Outcome.err StreamError.unexpectedEof
          { c with items := [], reads := reads } := by
  rcases iterate_readExactPass [] (Nat.zero_add count) hitems hthere hclean
    (Nat.lt_succ_self _) with ⟨reads, hclean', hrun⟩
  refine ⟨reads, hclean', ?_⟩
  rw [rustReadExact, hrun]
  rfl

/-- The bytes of a field, with more after them. -/
theorem rustReadExact_dataItems {bytes : List Byte} {c : Conn} {rest : List WireItem}
    (hitems : c.items = dataItems bytes ++ rest)
    (hclean : ReadResult.failed ∉ c.reads) :
    exists reads, ReadResult.failed ∉ reads ∧
      rustReadExact bytes.length c =
        Outcome.ok bytes { c with items := rest, reads := reads } := by
  rcases rustReadExact_available _ hitems (Or.inl (Nat.le_refl _)) hclean with
    ⟨reads, hclean', hread⟩
  refine ⟨reads, hclean', ?_⟩
  rw [hread, if_pos (Nat.le_refl _), List.take_length, List.drop_length]
  rfl

theorem rustReadNumber_dataItems {width n : Nat} {c : Conn} {rest : List WireItem}
    (hitems : c.items = dataItems (leBytes width n) ++ rest)
    (hfits : n < 256 ^ width) (hclean : ReadResult.failed ∉ c.reads) :
    exists reads, ReadResult.failed ∉ reads ∧
      rustReadNumber width c =
        Outcome.ok n { c with items := rest, reads := reads } := by
  rcases rustReadExact_dataItems hitems hclean with ⟨reads, hclean', hread⟩
  rw [leBytes_length] at hread
  refine ⟨reads, hclean', ?_⟩
  rw [rustReadNumber, Prog.bind_of_ok hread, leValue_leBytes_of_lt hfits]
  rfl

/-- A number that the stream ends in is an error. -/
theorem rustReadNumber_short {width : Nat} {bytes : List Byte} {c : Conn}
    (hitems : c.items = dataItems bytes) (hshort : bytes.length < width)
    (hclean : ReadResult.failed ∉ c.reads) :
    exists c', rustReadNumber width c =
      Outcome.err StreamError.unexpectedEof c' := by
  rw [← List.append_nil (dataItems bytes)] at hitems
  rcases rustReadExact_available width hitems (Or.inr rfl) hclean with
    ⟨reads, _, hread⟩
  rw [if_neg (Nat.not_le.mpr hshort)] at hread
  exact ⟨_, Prog.bind_of_err hread⟩

/-- What the daemon can make of a field: a string is UTF-8, and there is memory
for it. -/
def WireField.ForDaemon (env : Surroundings) : WireField env.lp -> Prop
  | WireField.string text _ => env.Allocatable text.length ∧ validUtf8 text = true
  | _ => True

theorem rustReadString_dataItems {env : Surroundings} {text : List Byte} {c : Conn}
    {rest : List WireItem}
    (hitems : c.items = dataItems (leBytes env.lp.bytes text.length ++ text) ++ rest)
    (hfits : text.length ≤ env.lp.ptrdiffMax) (hroom : env.Allocatable text.length)
    (hclean : ReadResult.failed ∉ c.reads) :
    exists reads, ReadResult.failed ∉ reads ∧
      rustReadString env c =
        if validUtf8 text then Outcome.ok text { c with items := rest, reads := reads }
        else Outcome.err StreamError.invalidUtf8
          { c with items := rest, reads := reads } := by
  rw [dataItems_append, List.append_assoc] at hitems
  rcases rustReadNumber_dataItems hitems
    (Lp.fits_usize (Nat.le_succ_of_le hfits)) hclean with ⟨reads, hclean1, hlen⟩
  rcases rustReadExact_dataItems
    (c := { c with items := dataItems text ++ rest, reads := reads })
    rfl hclean1 with ⟨reads', hclean2, htext⟩
  refine ⟨reads', hclean2, ?_⟩
  rw [rustReadString, Prog.bind_of_ok hlen, if_pos hroom]
  change ((rustReadExact text.length >>= _) : StreamReader (List Byte)) _ = _
  rw [Prog.bind_of_ok htext]
  split <;> rfl

theorem rustRead_field {env : Surroundings} {field : WireField env.lp} {c : Conn}
    {rest : List WireItem} (hitems : c.items = dataItems field.bytes ++ rest)
    (hfor : field.ForDaemon env) (hclean : ReadResult.failed ∉ c.reads) :
    exists reads, ReadResult.failed ∉ reads ∧
      rustRead env field.kind c =
        Outcome.ok field.value { c with items := rest, reads := reads } := by
  cases field with
  | u8 n hn =>
      rcases rustReadNumber_dataItems hitems hn hclean with ⟨reads, hclean', hread⟩
      exact ⟨reads, hclean', Prog.bind_of_ok hread⟩
  | u32 n hn =>
      rcases rustReadNumber_dataItems hitems hn hclean with ⟨reads, hclean', hread⟩
      exact ⟨reads, hclean', Prog.bind_of_ok hread⟩
  | usize n hn =>
      rcases rustReadNumber_dataItems hitems hn hclean with ⟨reads, hclean', hread⟩
      exact ⟨reads, hclean', Prog.bind_of_ok hread⟩
  | string text hfits =>
      rcases rustReadString_dataItems hitems hfits hfor.left hclean with
        ⟨reads, hclean', hread⟩
      rw [if_pos hfor.right] at hread
      exact ⟨reads, hclean', Prog.bind_of_ok hread⟩

theorem rustReadAll_fields {env : Surroundings} {fields : List (WireField env.lp)}
    {c : Conn} {rest : List WireItem}
    (hitems : c.items = dataItems (fields.flatMap WireField.bytes) ++ rest)
    (hfor : forall field, field ∈ fields -> field.ForDaemon env)
    (hclean : ReadResult.failed ∉ c.reads) :
    exists reads, ReadResult.failed ∉ reads ∧
      rustReadAll env (fields.map WireField.kind) c =
        Outcome.ok (fields.map WireField.value)
          { c with items := rest, reads := reads } := by
  induction fields generalizing c with
  | nil =>
      refine ⟨c.reads, hclean, ?_⟩
      change c.items = rest at hitems
      rw [← hitems]
      rfl
  | cons field fields ih =>
      rw [List.flatMap_cons, dataItems_append, List.append_assoc] at hitems
      rcases rustRead_field hitems (hfor field List.mem_cons_self) hclean with
        ⟨reads, hclean1, hfield⟩
      rcases ih (c := { c with items := _, reads := reads }) rfl
        (fun f hf => hfor f (List.mem_cons_of_mem _ hf)) hclean1 with
        ⟨reads', hclean2, hrest⟩
      refine ⟨reads', hclean2, ?_⟩
      rw [List.map_cons, rustReadAll, Prog.bind_of_ok hfield, Prog.bind_of_ok hrest]
      rfl

/-!
# The client's reads
-/

/-- `read_exact_or<T>(fd, 0)` -/
def readExactOr (width : Nat) (c : Conn) : Option (Nat × Conn) :=
  (Conn.xread width c).map (fun r =>
    (if r.ok = true ∧ r.buf.length = width then leValue r.buf else 0, r.conn))

/-- The reads of `socket_utils`.  The buffer of `read_string` is on the stack,
and `none` stands for a stack that has no room for it. -/
def socketRead (lp : Lp) (uninit : Uninit) (room : Nat) (kind : FieldKind) (c : Conn) :
    Option (FieldValue × Conn) :=
  match kind with
  | FieldKind.string =>
      (Conn.readUsize lp c).bind (fun len =>
        if len.1 + 1 ≤ room then
          (Conn.readString lp uninit c).map (fun r => (FieldValue.text r.1, r.2))
        else none)
  | kind =>
      (readExactOr (kind.width lp) c).map (fun r => (FieldValue.number r.1, r.2))

def socketReadAll (lp : Lp) (uninit : Uninit) (room : Nat) :
    List FieldKind -> Conn -> Option (List FieldValue × Conn)
  | [], c => some ([], c)
  | kind :: rest, c =>
      (socketRead lp uninit room kind c).bind (fun value =>
        (socketReadAll lp uninit room rest value.2).map (fun values =>
          (value.1 :: values.1, values.2)))

/-- What a client can make of a field: a string has no NUL, and its buffer fits
on the stack. -/
def WireField.ForClient {lp : Lp} (room : Nat) : WireField lp -> Prop
  | WireField.string text _ => (0 : Byte) ∉ text ∧ text.length + 1 ≤ room
  | _ => True

/-- A number that the stream ends in is read as `0`. -/
theorem readExactOr_short {width : Nat} {bytes : List Byte} {c : Conn}
    (hitems : c.items = dataItems bytes) (hshort : bytes.length < width)
    (hclean : ReadResult.failed ∉ c.reads) :
    exists c', readExactOr width c = some (0, c') := by
  rw [← List.append_nil (dataItems bytes)] at hitems
  rcases Conn.xread_available width hitems (Or.inr rfl) hclean with ⟨reads, _, hread⟩
  have hpart : ¬ (true = true ∧ (bytes.take width).length = width) := by
    intro hno
    rw [List.length_take] at hno
    omega
  exact ⟨_, by rw [readExactOr, hread, Option.map_some, if_neg hpart]⟩

theorem socketRead_field {lp : Lp} (uninit : Uninit) {room : Nat}
    {field : WireField lp} {c : Conn} {rest : List WireItem}
    (hitems : c.items = dataItems field.bytes ++ rest)
    (hfor : field.ForClient room) (hclean : ReadResult.failed ∉ c.reads) :
    exists reads, ReadResult.failed ∉ reads ∧
      socketRead lp uninit room field.kind c =
        some (field.value, { c with items := rest, reads := reads }) := by
  cases field with
  | u8 n hn =>
      rcases Conn.xread_number hitems hn hclean with ⟨reads, hclean', hread⟩
      exact ⟨reads, hclean', congrArg (Option.map _) hread⟩
  | u32 n hn =>
      rcases Conn.xread_number hitems hn hclean with ⟨reads, hclean', hread⟩
      exact ⟨reads, hclean', congrArg (Option.map _) hread⟩
  | usize n hn =>
      rcases Conn.xread_number hitems hn hclean with ⟨reads, hclean', hread⟩
      exact ⟨reads, hclean', congrArg (Option.map _) hread⟩
  | string text hfits =>
      rw [WireField.bytes, dataItems_append] at hitems
      have hlt := Lp.fits_usize (Nat.le_succ_of_le hfits)
      rcases @Conn.readString_stringItems lp uninit text c rest hitems hlt hfor.left
        hclean with ⟨reads, hclean', hread⟩
      rw [List.append_assoc] at hitems
      rcases Conn.readUsize_dataItems hitems hlt hclean with ⟨_, _, hlen⟩
      refine ⟨reads, hclean', ?_⟩
      simp only [socketRead, WireField.kind, hlen, Option.bind_some,
        if_pos hfor.right, hread, Option.map_some]
      rfl

theorem socketReadAll_fields {lp : Lp} (uninit : Uninit) {room : Nat}
    {fields : List (WireField lp)} {c : Conn} {rest : List WireItem}
    (hitems : c.items = dataItems (fields.flatMap WireField.bytes) ++ rest)
    (hfor : forall field, field ∈ fields -> field.ForClient room)
    (hclean : ReadResult.failed ∉ c.reads) :
    exists reads, ReadResult.failed ∉ reads ∧
      socketReadAll lp uninit room (fields.map WireField.kind) c =
        some (fields.map WireField.value,
          { c with items := rest, reads := reads }) := by
  induction fields generalizing c with
  | nil =>
      refine ⟨c.reads, hclean, ?_⟩
      change c.items = rest at hitems
      rw [← hitems]
      rfl
  | cons field fields ih =>
      rw [List.flatMap_cons, dataItems_append, List.append_assoc] at hitems
      rcases socketRead_field uninit hitems (hfor field List.mem_cons_self) hclean with
        ⟨reads, hclean1, hfield⟩
      rcases ih (c := { c with items := _, reads := reads }) rfl
        (fun f hf => hfor f (List.mem_cons_of_mem _ hf)) hclean1 with
        ⟨reads', hclean2, hrest⟩
      refine ⟨reads', hclean2, ?_⟩
      rw [List.map_cons, socketReadAll, hfield, Option.bind_some, hrest,
        Option.map_some]
      rfl

/-!
# From one side to the other
-/

/-- The fields that one side wrote are the fields that the other reads, whatever
the kernel makes of its reads, and nothing after them is touched.  A number that
the stream ends in is `0` for a client and an error for the daemon. -/
theorem fields_read_back (env : Surroundings) (uninit : Uninit) (room : Nat)
    (fields : List (WireField env.lp)) :
    (forall (w w' : World) (c : Conn) (rest : List WireItem),
      Prog.forEach (rustWrite env) fields w = Outcome.ok () w' ->
      (forall field, field ∈ fields -> field.ForClient room) ->
      c.items = replyItems (w'.effects.drop w.effects.length) ++ rest ->
      ReadResult.failed ∉ c.reads ->
      exists reads, ReadResult.failed ∉ reads ∧
        socketReadAll env.lp uninit room (fields.map WireField.kind) c =
          some (fields.map WireField.value,
            { c with items := rest, reads := reads })) ∧
    (forall (s s' : Sender) (c : Conn) (rest : List WireItem),
      socketWriteAll fields s = some (true, s') ->
      (forall field, field ∈ fields -> field.ForDaemon env) ->
      c.items = dataItems (s'.sent.drop s.sent.length) ++ rest ->
      ReadResult.failed ∉ c.reads ->
      exists reads, ReadResult.failed ∉ reads ∧
        rustReadAll env (fields.map WireField.kind) c =
          Outcome.ok (fields.map WireField.value)
            { c with items := rest, reads := reads }) ∧
    forall (kind : FieldKind) (bytes : List Byte) (c : Conn),
      kind ≠ FieldKind.string -> bytes.length < kind.width env.lp ->
      c.items = dataItems bytes -> ReadResult.failed ∉ c.reads ->
      (exists c', socketRead env.lp uninit room kind c =
        some (FieldValue.number 0, c')) ∧
      exists c', rustRead env kind c =
        Outcome.err StreamError.unexpectedEof c' := by
  refine ⟨?_, ?_, ?_⟩
  · intro w w' c rest hwrite hfor hitems hclean
    rcases sends_of_forEach_rustWrite hwrite with ⟨written, heffects, hwritten⟩
    rw [heffects, List.drop_left, hwritten] at hitems
    exact socketReadAll_fields uninit hitems hfor hclean
  · intro s s' c rest hwrite hfor hitems hclean
    rw [socketWriteAll_sent hwrite, List.drop_left] at hitems
    exact rustReadAll_fields hitems hfor hclean
  · intro kind bytes c hkind hshort hitems hclean
    rcases readExactOr_short hitems hshort hclean with ⟨c1, hread⟩
    rcases rustReadNumber_short hitems hshort hclean with ⟨c2, herr⟩
    cases kind with
    | string => exact absurd rfl hkind
    | u8 =>
        exact ⟨⟨c1, congrArg (Option.map _) hread⟩, c2, Prog.bind_of_err herr⟩
    | u32 =>
        exact ⟨⟨c1, congrArg (Option.map _) hread⟩, c2, Prog.bind_of_err herr⟩
    | usize =>
        exact ⟨⟨c1, congrArg (Option.map _) hread⟩, c2, Prog.bind_of_err herr⟩

/-- A system of 64 bits in which every call succeeds. -/
def plainSurroundings : Surroundings :=
  { lp := Lp.lp64, alloc := fun _ => true, writes := fun _ => true }

def hiField : WireField plainSurroundings.lp :=
  WireField.string [0x68, 0x69] (by decide)

def levelField : WireField plainSurroundings.lp :=
  WireField.u8 7 (by decide)

/-- A level and a text, read in pieces and with an interruption, in either
direction; and the first three bytes of a `usize`. -/
theorem fields_read_back_level_text :
    (exists reads, socketReadAll Lp.lp64 ⟨fun _ => 0, 0⟩ 64
        [FieldKind.u8, FieldKind.string]
        { items := dataItems (levelField.bytes ++ hiField.bytes),
          reads := [ReadResult.upTo 0, ReadResult.interrupted, ReadResult.upTo 4],
          recvs := [] } =
      some ([FieldValue.number 7, FieldValue.text [0x68, 0x69]],
        { items := [], reads := reads, recvs := [] })) ∧
    (exists reads, rustReadAll plainSurroundings [FieldKind.u8, FieldKind.string]
        { items := dataItems (levelField.bytes ++ hiField.bytes),
          reads := [ReadResult.upTo 0, ReadResult.interrupted, ReadResult.upTo 4],
          recvs := [] } =
      Outcome.ok [FieldValue.number 7, FieldValue.text [0x68, 0x69]]
        { items := [], reads := reads, recvs := [] }) ∧
    exists c', rustRead plainSurroundings FieldKind.usize
        { items := dataItems [1, 0, 0], reads := [ReadResult.interrupted],
          recvs := [] } =
      Outcome.err StreamError.unexpectedEof c' := by
  have h := fields_read_back plainSurroundings ⟨fun _ => 0, 0⟩ 64 [levelField, hiField]
  have hclient : forall field, field ∈ [levelField, hiField] -> field.ForClient 64 := by
    intro field hfield
    rcases List.mem_pair.mp hfield with hfield | hfield
    · rw [hfield]
      exact trivial
    · rw [hfield]
      exact ⟨by decide, by decide⟩
  have hdaemon : forall field, field ∈ [levelField, hiField] ->
      field.ForDaemon plainSurroundings := by
    intro field hfield
    rcases List.mem_pair.mp hfield with hfield | hfield
    · rw [hfield]
      exact trivial
    · rw [hfield]
      exact ⟨by decide, by decide⟩
  refine ⟨?_, ?_, ?_⟩
  · rcases h.left ⟨[], [], fun _ => none⟩ _
      { items := dataItems (levelField.bytes ++ hiField.bytes),
        reads := [ReadResult.upTo 0, ReadResult.interrupted, ReadResult.upTo 4],
        recvs := [] }
      [] rfl hclient rfl (by decide) with
      ⟨reads, _, hread⟩
    exact ⟨reads, hread⟩
  · rcases h.right.left ⟨[], [WriteResult.interrupted, WriteResult.upTo 1]⟩ _
      { items := dataItems (levelField.bytes ++ hiField.bytes),
        reads := [ReadResult.upTo 0, ReadResult.interrupted, ReadResult.upTo 4],
        recvs := [] }
      [] rfl
      hdaemon rfl (by decide) with
      ⟨reads, _, hread⟩
    exact ⟨reads, hread⟩
  · exact (h.right.right FieldKind.usize [1, 0, 0]
      { items := dataItems [1, 0, 0], reads := [ReadResult.interrupted], recvs := [] }
      (by decide) (by decide) rfl (by decide)).right

/-- A text of the single byte `0xff` is written by a client, and is an error for
the daemon. -/
theorem not_read_back_invalid_utf8 :
    exists (field : WireField plainSurroundings.lp) (s' : Sender) (c' : Conn),
      socketWriteAll [field] ⟨[], []⟩ = some (true, s') ∧
      field.kind = FieldKind.string ∧
      rustReadAll plainSurroundings [FieldKind.string]
        { items := dataItems s'.sent, reads := [], recvs := [] } =
        Outcome.err StreamError.invalidUtf8 c' :=
  ⟨WireField.string [0xff] (by decide), _, _, rfl, rfl, rfl⟩

end Injector
end ReZygisk
