import ReZygisk.Foundation.Loop
import ReZygisk.Zygiskd.HandleAction

/-!
# The client's side of a connection

A reply of the daemon is a stream of bytes with descriptor messages between
them.  The kernel decides how much a `read` gets and whether it is interrupted;
`xread` goes on until it has all, so what is read does not depend on it.
-/

namespace ReZygisk
namespace Injector

open Foundation
open Kernel
open Zygiskd

/-!
# Streams
-/

inductive WireItem where
  | data (b : Byte)
  | message (fd : Nat)
  deriving DecidableEq

/-- The payload of a descriptor message, of the size of an `int`. -/
def messagePayload : List Byte := leBytes 4 0

def dataItems (bytes : List Byte) : List WireItem :=
  bytes.map WireItem.data

def effectItems : Effect -> List WireItem
  | Effect.wrote bytes => dataItems bytes
  | Effect.sentFd fd => [WireItem.message fd]
  | _ => []

/-- What the client can read of what a request thread did. -/
def replyItems (effects : List Effect) : List WireItem :=
  effects.flatMap effectItems

def takeData : Nat -> List WireItem -> List Byte × List WireItem
  | n + 1, WireItem.data b :: rest =>
      ((b :: (takeData n rest).1), (takeData n rest).2)
  | _, items => ([], items)

/-- One `read` of up to `n` bytes.  It stops before a descriptor message; one
that starts there reads the payload and loses the descriptor. -/
def readItems (n : Nat) (items : List WireItem) : List Byte × List WireItem :=
  match n, items with
  | 0, items => ([], items)
  | n + 1, WireItem.message _ :: rest =>
      (messagePayload.take (n + 1),
        dataItems (messagePayload.drop (n + 1)) ++ rest)
  | n + 1, items => takeData (n + 1) items

/-- What the kernel makes of a `read`: it gives at most `limit + 1` bytes. -/
inductive ReadResult where
  | interrupted
  | failed
  | upTo (limit : Nat)
  deriving DecidableEq

inductive RecvResult where
  | interrupted
  | whole
  deriving DecidableEq

/-- A connection: what is still to be read, and what the kernel makes of the
next calls; after those a `read` gets what there is. -/
structure Conn where
  items : List WireItem
  reads : List ReadResult
  recvs : List RecvResult

/-- Memory that is read before it is written: the bytes of a buffer, and the
descriptor in a control buffer. -/
structure Uninit where
  byte : Nat -> Byte
  fd : Int

inductive ReadReturn where
  | eintr
  | error
  | bytes (buf : List Byte)

namespace Conn

def read (count : Nat) (c : Conn) : ReadReturn × Conn :=
  match c.reads with
  | ReadResult.interrupted :: rest => (ReadReturn.eintr, { c with reads := rest })
  | ReadResult.failed :: rest => (ReadReturn.error, { c with reads := rest })
  | ReadResult.upTo limit :: rest =>
      let r := readItems (min count (limit + 1)) c.items
      (ReadReturn.bytes r.1, { c with items := r.2, reads := rest })
  | [] =>
      let r := readItems count c.items
      (ReadReturn.bytes r.1, { c with items := r.2 })

/-!
# Reading
-/

/-- What `xread` leaves: the bytes in the buffer, and whether it returns their
number. -/
structure XRead where
  buf : List Byte
  ok : Bool
  conn : Conn

/-- One pass of the loop of `xread`, with the bytes read so far.  The `continue`
after an interrupted `read` goes to the condition of the loop. -/
def xreadPass (count : Nat) (s : List Byte × Conn) : LoopStep (List Byte × Conn) XRead :=
  match s.2.read (count - s.1.length) with
  | (ReadReturn.eintr, c) =>
      if s.1.length ≠ count then LoopStep.again (s.1, c)
      else LoopStep.done { buf := s.1, ok := true, conn := c }
  | (ReadReturn.error, c) => LoopStep.done { buf := s.1, ok := false, conn := c }
  | (ReadReturn.bytes new, c) =>
      if (s.1 ++ new).length ≠ count ∧ new ≠ [] then LoopStep.again (s.1 ++ new, c)
      else LoopStep.done { buf := s.1 ++ new, ok := true, conn := c }

/-- Every pass uses up a scheduled result, reads a byte or is the last. -/
def xread (count : Nat) (c : Conn) : Option XRead :=
  iterate (xreadPass count) (c.reads.length + count + 1) ([], c)

/-- `read_exact_or<size_t>(fd, 0)` -/
def readUsize (lp : Lp) (c : Conn) : Option (Nat × Conn) :=
  (xread lp.bytes c).map (fun r =>
    (if r.ok = true ∧ r.buf.length = lp.bytes then leValue r.buf else 0, r.conn))

/-- `read_string`.  The buffer is a C string with a terminator after `len`
bytes; what `xread` did not fill is not initialised. -/
def readString (lp : Lp) (uninit : Uninit) (c : Conn) : Option (List Byte × Conn) :=
  (readUsize lp c).bind (fun len =>
    (xread len.1 len.2).map (fun r =>
      let rest := (List.range (len.1 - r.buf.length)).map uninit.byte
      (cstr (r.buf ++ rest ++ [0]), r.conn)))

/-- `recv_fd`.  An interrupted `recvmsg` is not repeated, and the control buffer
is then looked at as it is; bytes without a descriptor give `-1`. -/
def recvFd (uninit : Uninit) (c : Conn) : Int × Conn :=
  match c.recvs, c.items with
  | RecvResult.interrupted :: rest, _ => (uninit.fd, { c with recvs := rest })
  | recvs, WireItem.message fd :: rest =>
      ((fd : Int), { c with items := rest, recvs := recvs.tail })
  | recvs, items =>
      (-1, { c with items := (takeData 4 items).2, recvs := recvs.tail })

/-!
# The requests of a module
-/

def readModulesLoop (lp : Lp) (uninit : Uninit) :
    Nat -> Conn -> Option (List (List Byte × Int))
  | 0, _ => some []
  | len + 1, c =>
      (readString lp uninit c).bind (fun name =>
        let fd := name.2.recvFd uninit
        (readModulesLoop lp uninit len fd.2).map (fun modules =>
          (name.1, fd.1) :: modules))

/-- `ReadModules` on its connection, if it gets one. -/
def readModules (lp : Lp) (uninit : Uninit) (conn : Option Conn) :
    Option (List (List Byte × Int)) :=
  match conn with
  | none => some []
  | some c =>
      (readUsize lp c).bind (fun len => readModulesLoop lp uninit len.1 len.2)

end Conn

/-!
# What is read does not depend on the fragments
-/

section Reading

/-- The first bytes, and then some of the others. -/
theorem take_take_drop {bytes : List Byte} {n k : Nat} (h : n ≤ k) :
    bytes.take n ++ (bytes.drop n).take (k - n) = bytes.take k := by
  rw [← List.take_add, Nat.add_sub_cancel' h]

theorem takeData_dataItems (bytes : List Byte) (rest : List WireItem) {n : Nat}
    (h : n ≤ bytes.length) :
    takeData n (dataItems bytes ++ rest) =
      (bytes.take n, dataItems (bytes.drop n) ++ rest) := by
  induction bytes generalizing n with
  | nil =>
      rw [Nat.le_zero.mp h]
      rfl
  | cons b bytes ih =>
      cases n with
      | zero => rfl
      | succ n =>
          show ((b :: (takeData n (dataItems bytes ++ rest)).1),
            (takeData n (dataItems bytes ++ rest)).2) = _
          rw [ih (Nat.le_of_succ_le_succ h)]
          rfl

theorem readItems_dataItems (bytes : List Byte) (rest : List WireItem) {n : Nat}
    (h : n ≤ bytes.length) :
    readItems n (dataItems bytes ++ rest) =
      (bytes.take n, dataItems (bytes.drop n) ++ rest) := by
  cases n with
  | zero => rfl
  | succ n =>
      cases bytes with
      | nil => exact absurd h (Nat.not_succ_le_zero n)
      | cons b bytes => exact takeData_dataItems (b :: bytes) rest h

theorem takeData_all {bytes : List Byte} {n : Nat} (h : bytes.length ≤ n) :
    takeData n (dataItems bytes) = (bytes, []) := by
  induction bytes generalizing n with
  | nil => cases n <;> rfl
  | cons b bytes ih =>
      cases n with
      | zero => exact absurd h (Nat.not_succ_le_zero _)
      | succ n =>
          show ((b :: (takeData n (dataItems bytes)).1),
            (takeData n (dataItems bytes)).2) = _
          rw [ih (Nat.le_of_succ_le_succ h)]

theorem readItems_all {bytes : List Byte} {n : Nat} (h : bytes.length ≤ n) :
    readItems n (dataItems bytes) = (bytes, []) := by
  cases n with
  | zero =>
      rw [List.length_eq_zero_iff.mp (Nat.le_zero.mp h)]
      rfl
  | succ n =>
      cases bytes with
      | nil => rfl
      | cons b bytes => exact takeData_all h

/-- Bytes that are there, or all that is left of the stream. -/
theorem readItems_available {bytes : List Byte} {rest : List WireItem} {n : Nat}
    (h : n ≤ bytes.length ∨ rest = []) :
    readItems n (dataItems bytes ++ rest) =
      (bytes.take (min n bytes.length),
        dataItems (bytes.drop (min n bytes.length)) ++ rest) := by
  rcases Nat.le_total n bytes.length with hle | hge
  · rw [Nat.min_eq_left hle, readItems_dataItems bytes rest hle]
  · rw [Nat.min_eq_right hge, List.take_length, List.drop_length]
    rcases h with hle | hnil
    · rw [Nat.le_antisymm hle hge, readItems_dataItems bytes rest (Nat.le_refl _),
        List.take_length, List.drop_length]
    · rw [hnil, List.append_nil]
      exact readItems_all hge

namespace Conn

/-- A `read` of bytes that are there, or of what is left of the stream: it is
interrupted, or gets some of them. -/
theorem read_available (count : Nat) {c : Conn} {bytes : List Byte}
    {rest : List WireItem} (hitems : c.items = dataItems bytes ++ rest)
    (hthere : count ≤ bytes.length ∨ rest = [])
    (hclean : ReadResult.failed ∉ c.reads) :
    (exists reads, ReadResult.failed ∉ reads ∧ reads.length < c.reads.length ∧
      c.read count = (ReadReturn.eintr, { c with reads := reads })) ∨
    (exists n reads, n ≤ bytes.length ∧ n ≤ count ∧
      (bytes ≠ [] -> 0 < count -> 0 < n) ∧
      ReadResult.failed ∉ reads ∧ reads.length ≤ c.reads.length ∧
      c.read count = (ReadReturn.bytes (bytes.take n),
        { c with items := dataItems (bytes.drop n) ++ rest, reads := reads })) := by
  have hget : forall k, k ≤ count -> readItems k (dataItems bytes ++ rest) =
      (bytes.take (min k bytes.length),
        dataItems (bytes.drop (min k bytes.length)) ++ rest) := by
    intro k hk
    exact readItems_available (hthere.imp_left (Nat.le_trans hk))
  have hpos : bytes ≠ [] -> 0 < bytes.length := List.length_pos_iff.mpr
  unfold read
  cases hreads : c.reads with
  | nil =>
      refine Or.inr ⟨min count bytes.length, [], Nat.min_le_right _ _,
        Nat.min_le_left _ _, ?_, List.not_mem_nil, Nat.le_refl 0, ?_⟩
      · intro hne hcount
        exact Nat.lt_min.mpr ⟨hcount, hpos hne⟩
      · simp only [hitems, hget count (Nat.le_refl _)]
  | cons result reads =>
      rw [hreads, List.mem_cons, not_or] at hclean
      cases result with
      | interrupted => exact Or.inl ⟨reads, hclean.right, Nat.lt_succ_self _, rfl⟩
      | failed => exact absurd rfl hclean.left
      | upTo limit =>
          refine Or.inr ⟨min (min count (limit + 1)) bytes.length, reads,
            Nat.min_le_right _ _,
            Nat.le_trans (Nat.min_le_left _ _) (Nat.min_le_left _ _), ?_,
            hclean.right, Nat.le_succ _, ?_⟩
          · intro hne hcount
            exact Nat.lt_min.mpr
              ⟨Nat.lt_min.mpr ⟨hcount, Nat.succ_pos limit⟩, hpos hne⟩
          · simp only [hitems, hget _ (Nat.min_le_left _ _)]

/-- A pass of the loop has all that it needs and can get, or leaves less to do. -/
theorem xreadPass_cases {count need : Nat} {acc bytes : List Byte} {c : Conn}
    {rest : List WireItem} (hneed : acc.length + need = count)
    (hitems : c.items = dataItems bytes ++ rest)
    (hthere : need ≤ bytes.length ∨ rest = [])
    (hclean : ReadResult.failed ∉ c.reads) :
    (exists reads, ReadResult.failed ∉ reads ∧
      xreadPass count (acc, c) = LoopStep.done
        { buf := acc ++ bytes.take need, ok := true,
          conn := { c with
            items := dataItems (bytes.drop need) ++ rest, reads := reads } }) ∨
    (exists n reads, n ≤ bytes.length ∧ n ≤ need ∧ ReadResult.failed ∉ reads ∧
      reads.length + (need - n) < c.reads.length + need ∧
      xreadPass count (acc, c) = LoopStep.again
        (acc ++ bytes.take n,
          { c with items := dataItems (bytes.drop n) ++ rest, reads := reads })) := by
  have hleft : count - acc.length = need := by omega
  rcases read_available need hitems hthere hclean with
    ⟨reads, hclean', hless, hread⟩ | ⟨n, reads, hn, hle, hpos, hclean', hless, hread⟩
  · -- The `continue` goes to the condition of the loop.
    simp only [xreadPass, hleft, hread]
    by_cases hzero : need = 0
    · have hfull : ¬ acc.length ≠ count := by omega
      refine Or.inl ⟨reads, hclean', ?_⟩
      rw [if_neg hfull, hzero, List.take_zero, List.append_nil, List.drop_zero, ← hitems]
    · have hmore : acc.length ≠ count := by omega
      refine Or.inr ⟨0, reads, Nat.zero_le _, Nat.zero_le _, hclean', by omega, ?_⟩
      rw [if_pos hmore, List.take_zero, List.append_nil, List.drop_zero, ← hitems]
  · have hlength : (acc ++ bytes.take n).length = acc.length + n := by
      rw [List.length_append, List.length_take, Nat.min_eq_left hn]
    simp only [xreadPass, hleft, hread]
    by_cases hmore : (acc ++ bytes.take n).length ≠ count ∧ bytes.take n ≠ []
    · have hsome : n ≠ 0 := by
        intro hzero
        rw [hzero] at hmore
        exact hmore.right rfl
      refine Or.inr ⟨n, reads, hn, hle, hclean', by omega, ?_⟩
      rw [if_pos hmore]
    · -- The bytes are there, or the stream has ended.
      have hall : n = need ∨ bytes = [] := by
        by_contra hno
        rw [not_or] at hno
        have hsome : 0 < n := hpos hno.right (by omega)
        apply hmore
        constructor
        · omega
        · rw [ne_eq, List.take_eq_nil_iff, not_or]
          exact ⟨Nat.ne_of_gt hsome, hno.right⟩
      refine Or.inl ⟨reads, hclean', ?_⟩
      rw [if_neg hmore]
      rcases hall with hall | hall
      · rw [hall]
      · rw [hall, List.take_nil, List.take_nil, List.drop_nil, List.drop_nil]

theorem iterate_xreadPass {count fuel need : Nat} (acc : List Byte) {bytes : List Byte}
    {c : Conn} {rest : List WireItem} (hneed : acc.length + need = count)
    (hitems : c.items = dataItems bytes ++ rest)
    (hthere : need ≤ bytes.length ∨ rest = [])
    (hclean : ReadResult.failed ∉ c.reads)
    (hfuel : c.reads.length + need < fuel) :
    exists reads, ReadResult.failed ∉ reads ∧
      iterate (xreadPass count) fuel (acc, c) =
        some
          { buf := acc ++ bytes.take need, ok := true,
            conn := { c with
              items := dataItems (bytes.drop need) ++ rest, reads := reads } } := by
  induction fuel generalizing acc bytes c need with
  | zero => exact absurd hfuel (Nat.not_lt_zero _)
  | succ fuel ih =>
      rcases xreadPass_cases hneed hitems hthere hclean with
        ⟨reads, hclean', hpass⟩ | ⟨n, reads, hn, hle, hclean', hless, hpass⟩
      · refine ⟨reads, hclean', ?_⟩
        rw [iterate, hpass]
      · have hneed' : (acc ++ bytes.take n).length + (need - n) = count := by
          rw [List.length_append, List.length_take]
          omega
        have hthere' : need - n ≤ (bytes.drop n).length ∨ rest = [] := by
          rw [List.length_drop]
          exact hthere.imp_left (fun hthere => Nat.sub_le_sub_right hthere n)
        rcases ih (acc ++ bytes.take n)
          (c := { c with items := dataItems (bytes.drop n) ++ rest, reads := reads })
          hneed' rfl hthere' hclean' (by simp only; omega) with
          ⟨reads', hclean'', hrun⟩
        refine ⟨reads', hclean'', ?_⟩
        rw [iterate, hpass]
        simp only
        rw [hrun, List.append_assoc, take_take_drop hle, List.drop_drop,
          Nat.add_sub_cancel' hle]

/-- `xread` has the bytes that it was asked for, or what was left of the stream,
and has read nothing after them. -/
theorem xread_available (count : Nat) {bytes : List Byte} {c : Conn}
    {rest : List WireItem} (hitems : c.items = dataItems bytes ++ rest)
    (hthere : count ≤ bytes.length ∨ rest = [])
    (hclean : ReadResult.failed ∉ c.reads) :
    exists reads, ReadResult.failed ∉ reads ∧
      xread count c =
        some
          { buf := bytes.take count, ok := true,
            conn := { c with
              items := dataItems (bytes.drop count) ++ rest, reads := reads } } :=
  iterate_xreadPass [] (Nat.zero_add count) hitems hthere hclean (Nat.lt_succ_self _)

/-- `xread` of bytes that are there reads them, and nothing after them. -/
theorem xread_dataItems {bytes : List Byte} {c : Conn} {rest : List WireItem}
    (hitems : c.items = dataItems bytes ++ rest)
    (hclean : ReadResult.failed ∉ c.reads) :
    exists reads, ReadResult.failed ∉ reads ∧
      xread bytes.length c =
        some
          { buf := bytes, ok := true,
            conn := { c with items := rest, reads := reads } } := by
  rcases xread_available bytes.length hitems (Or.inl (Nat.le_refl _)) hclean with
    ⟨reads, hclean', hread⟩
  refine ⟨reads, hclean', ?_⟩
  rw [hread, List.take_length, List.drop_length]
  rfl

/-- `read_exact_or` of a number that is there. -/
theorem xread_number {width n : Nat} {c : Conn} {rest : List WireItem}
    (hitems : c.items = dataItems (leBytes width n) ++ rest)
    (hfits : n < 256 ^ width) (hclean : ReadResult.failed ∉ c.reads) :
    exists reads, ReadResult.failed ∉ reads ∧
      (xread width c).map (fun r =>
        (if r.ok = true ∧ r.buf.length = width then leValue r.buf else 0, r.conn)) =
        some (n, { c with items := rest, reads := reads }) := by
  rcases xread_dataItems hitems hclean with ⟨reads, hclean', hread⟩
  rw [leBytes_length] at hread
  refine ⟨reads, hclean', ?_⟩
  rw [hread, Option.map_some]
  simp only [leBytes_length, and_self, if_true, leValue_leBytes_of_lt hfits]

theorem readUsize_dataItems {lp : Lp} {n : Nat} {c : Conn} {rest : List WireItem}
    (hitems : c.items = dataItems (leBytes lp.bytes n) ++ rest)
    (hfits : n < 256 ^ lp.bytes) (hclean : ReadResult.failed ∉ c.reads) :
    exists reads, ReadResult.failed ∉ reads ∧
      readUsize lp c = some (n, { c with items := rest, reads := reads }) :=
  xread_number hitems hfits hclean

/-- The items of a string. -/
def stringItems (lp : Lp) (text : List Byte) : List WireItem :=
  dataItems (leBytes lp.bytes text.length) ++ dataItems text

theorem readString_stringItems {lp : Lp} {uninit : Uninit} {text : List Byte}
    {c : Conn} {rest : List WireItem} (hitems : c.items = stringItems lp text ++ rest)
    (hfits : text.length < 256 ^ lp.bytes) (hnul : (0 : Byte) ∉ text)
    (hclean : ReadResult.failed ∉ c.reads) :
    exists reads, ReadResult.failed ∉ reads ∧
      readString lp uninit c =
        some (text, { c with items := rest, reads := reads }) := by
  unfold stringItems at hitems
  rw [List.append_assoc] at hitems
  rcases readUsize_dataItems hitems hfits hclean with ⟨reads, hclean1, hlen⟩
  rcases xread_dataItems (c := { c with items := dataItems text ++ rest, reads := reads })
    rfl hclean1 with ⟨reads', hclean2, hread⟩
  refine ⟨reads', hclean2, ?_⟩
  unfold readString
  rw [hlen, Option.bind_some, hread, Option.map_some]
  simp only [Nat.sub_self, List.range_zero, List.map_nil, List.append_nil,
    cstr_terminated hnul]

theorem recvFd_message (uninit : Uninit) {fd : Nat} {c : Conn}
    {rest : List WireItem} (hitems : c.items = WireItem.message fd :: rest)
    (hwhole : RecvResult.interrupted ∉ c.recvs) :
    c.recvFd uninit = ((fd : Int), { c with items := rest, recvs := c.recvs.tail }) := by
  unfold recvFd
  rw [hitems]
  cases hrecvs : c.recvs with
  | nil => rfl
  | cons result recvs =>
      cases result with
      | interrupted =>
          rw [hrecvs] at hwhole
          exact absurd List.mem_cons_self hwhole
      | whole => rfl

/-- The items of one module in the reply to `ReadModules`. -/
def moduleItems (lp : Lp) (m : Module) : List WireItem :=
  stringItems lp m.name ++ [WireItem.message m.libFd]

theorem readModulesLoop_items {lp : Lp} {uninit : Uninit} {modules : List Module}
    {c : Conn} (hitems : c.items = modules.flatMap (moduleItems lp))
    (hfits : forall m, m ∈ modules -> m.name.length < 256 ^ lp.bytes)
    (hnul : forall m, m ∈ modules -> (0 : Byte) ∉ m.name)
    (hclean : ReadResult.failed ∉ c.reads)
    (hwhole : RecvResult.interrupted ∉ c.recvs) :
    readModulesLoop lp uninit modules.length c =
      some (modules.map (fun m => (m.name, (m.libFd : Int)))) := by
  induction modules generalizing c with
  | nil => rfl
  | cons m rest ih =>
      have hfirst : c.items = stringItems lp m.name ++
          (WireItem.message m.libFd :: rest.flatMap (moduleItems lp)) := by
        rw [hitems, List.flatMap_cons, moduleItems, List.append_assoc]
        rfl
      rcases readString_stringItems hfirst (hfits m List.mem_cons_self)
        (hnul m List.mem_cons_self) hclean with ⟨reads, hclean', hname⟩
      have hfd := recvFd_message uninit
        (c := { c with
          items := WireItem.message m.libFd :: rest.flatMap (moduleItems lp)
          reads := reads }) rfl hwhole
      have hwhole' : RecvResult.interrupted ∉ c.recvs.tail := by
        intro hno
        exact hwhole (List.mem_of_mem_tail hno)
      have hrest := ih
        (c := { c with
          items := rest.flatMap (moduleItems lp)
          reads := reads
          recvs := c.recvs.tail })
        rfl (fun m' hm' => hfits m' (List.mem_cons_of_mem m hm'))
        (fun m' hm' => hnul m' (List.mem_cons_of_mem m hm')) hclean' hwhole'
      rw [List.length_cons, readModulesLoop, hname, Option.bind_some]
      simp only [hfd]
      rw [hrest]
      rfl

end Conn

end Reading

end Injector
end ReZygisk
