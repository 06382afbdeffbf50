import CProxy.Foundation.Rounds
import CProxy.Lib.WriteToSock
import CProxy.Wire.HostileFrame

/-! # One direction of a control connection

A sender's `SendMsg` and `handleWrite`, the byte stream, and the `handleRead` of the
receiver. Every `write(2)` takes something, and the input neither ends nor fails.
-/

namespace CProxy

open Foundation Wire

/-- The size of the body that the senders of a message type give to `MakeCtlMsg`. -/
def sentBodySize : Nat → Option Nat
  | 0 => some 1
  -- the five characters of the identifier and their terminator
  | 1 => some 6
  | 2 => some 24
  | 3 => some 60
  | 4 => some 16
  | 5 => some 24
  | 6 => some 20
  | _ => none

/-- A message of the repository's senders. -/
structure SentMsg where
  type : Nat
  body : List UInt8
  sized : sentBodySize type = some body.length

namespace SentMsg

def msg (sent : SentMsg) : Msg := makeMsg sent.type sent.body

/-- The bytes of the struct, with its length in network order. -/
def structBytes (sent : SentMsg) : List UInt8 :=
  beBytes 4 sent.msg.len ++ leBytes 4 sent.msg.type ++ sent.msg.data

end SentMsg

/-- A handler that is called, with the bytes of the struct it gets. Bytes that were not
copied have no value. -/
structure HandlerCall where
  type : Nat
  arg : List (Option UInt8)
  deriving DecidableEq

/-- The copy behind a `case`. One that is too long for its struct is undefined. -/
def Wire.Destination.fill (len : Nat) (body : List UInt8) : Destination → Option (List (Option UInt8))
  | .struct size =>
      if bodySize len ≤ size then
        some (body.map some ++ List.replicate (size - bodySize len) none)
      else none
  | .block => some (body.map some)

/-- The `switch` of `CtlConn::handleRead`, with the type that was read. -/
def dispatch : ReadOutcome → Option (List HandlerCall)
  | .switch len got =>
      if got.length < 4 then none
      else
        match ctlDestination (leValue (got.take 4)) with
        | none => some []
        | some dest =>
            (dest.fill len (got.drop 4)).map fun arg => [⟨leValue (got.take 4), arg⟩]
  | _ => some []

/-- `reading` tells that the receiver is in a call of `handleRead`. The last three fields
are history: the messages `SendMsg` has accepted, the bytes that went into the stream and
the handlers called. -/
structure CtlStream where
  outBuffer : Buffer
  reader : MsgReader
  reading : Bool := false
  accepted : List SentMsg := []
  sent : List UInt8 := []
  handled : List HandlerCall := []

inductive CtlEvent where
  | sendMsg (sent : SentMsg)
  /-- A `write(2)` in the loop of `handleWrite`. -/
  | write (count : Nat)
  /-- The receiver's loop calls `handleRead`. -/
  | ready
  /-- A `read(2)` in that call. -/
  | read (count : Nat)

/-- What may happen on one direction of the control connection: messages come from the
handlers only. -/
inductive SocketEvent where
  /-- A `write(2)` of the sender. -/
  | write (count : Nat)
  /-- The receiver's loop calls `handleRead`. -/
  | ready
  /-- A `read(2)` in that call. -/
  | read (count : Nat)

def SocketEvent.ctl : SocketEvent → CtlEvent
  | write count => .write count
  | ready => .ready
  | read count => .read count

namespace CtlStream

def sendMsg (s : CtlStream) (sent : SentMsg) : Option CtlStream := do
  let (writeNum, buffer) ← s.outBuffer.writeToBuffer sent.structBytes sent.msg.len
  if writeNum ≠ sent.msg.len then some { s with outBuffer := buffer }
  else some { s with outBuffer := buffer, accepted := s.accepted ++ [sent] }

/-- The reader with more bytes at its socket. -/
def arrive (reader : MsgReader) (bytes : List UInt8) : MsgReader :=
  { reader with incoming := reader.incoming ++ bytes, arrived := reader.arrived ++ bytes }

/-- What a round of `WriteToSock` has handed over is at the receiver. -/
def written (s : CtlStream) (writer : SockWriter) : CtlStream :=
  { s with
    outBuffer := writer.buffer
    sent := s.sent ++ writer.handed.map (·.getD 0)
    reader := arrive s.reader (writer.handed.map (·.getD 0)) }

/-- `WriteToSock` is not called, or its loop is left, once the buffer is empty. -/
def write (s : CtlStream) (count : Nat) : Option CtlStream := do
  let unread ← s.outBuffer.getUnreadSize
  if unread = 0 then some s
  else some (s.written (({ buffer := s.outBuffer } : SockWriter).answer (.wrote count)))

/-- The next call of `handleRead` starts with the bytes that were left. -/
def nextCall (reader : MsgReader) : MsgReader :=
  { incoming := reader.incoming, inBufferEmpty := reader.inBufferEmpty }

/-- `handleRead` has called its handler and returned. -/
def readDone (s : CtlStream) (reader : MsgReader) (calls : List HandlerCall) : CtlStream :=
  { s with
    reader := nextCall reader
    reading := false
    handled := s.handled ++ calls }

def read (s : CtlStream) (count : Nat) : Option CtlStream :=
  if ¬ s.reading then some s
  else do
    let reader ← s.reader.step (.read count)
    match reader.point with
    | .returned outcome => (dispatch outcome).map (s.readDone reader)
    | _ => some { s with reader := reader }

/-- Every event is possible; `none` stands for a step the language does not define. -/
def step (s : CtlStream) : CtlEvent → Option CtlStream
  | .sendMsg sent => s.sendMsg sent
  | .write count => s.write count
  | .ready => some { s with reading := true }
  | .read count => s.read count

/-- The bytes of the messages `SendMsg` accepted have all been read. -/
def Drained (s : CtlStream) : Prop :=
  s.outBuffer.getUnreadSize = some 0 ∧ s.reader.arrived = []

end CtlStream

/-! ## One message -/

/-- The struct of a message has the size of its body, where it is not made to measure. -/
theorem sentBodySize_bounds {type size : Nat} (hsized : sentBodySize type = some size) :
    type < 7 ∧ size ≤ 60 ∧
      (ctlDestination type = some (.struct size) ∨ ctlDestination type = some .block) := by
  match type with
  | 0 | 1 | 2 | 3 | 4 | 5 | 6 =>
      obtain rfl := Option.some.inj hsized
      decide
  | rest + 7 => cases hsized

namespace SentMsg

theorem body_le (sent : SentMsg) : sent.body.length ≤ 60 := (sentBodySize_bounds sent.sized).2.1

theorem body_le_maxMsgLen (sent : SentMsg) : sent.body.length ≤ maxMsgLen := by
  have hbody := sent.body_le
  unfold maxMsgLen
  omega

theorem structBytes_take (sent : SentMsg) :
    sent.structBytes.take sent.msg.len = sent.msg.wire := rfl

theorem len_le_structBytes (sent : SentMsg) : sent.msg.len ≤ sent.structBytes.length := by
  have hwire := congrArg List.length sent.structBytes_take
  rw [msg, makeMsg_wire_length, List.length_take] at hwire
  have hlen : (makeMsg sent.type sent.body).len = 8 + sent.body.length := rfl
  rw [msg]
  omega

/-- The call that the message is for. -/
def call (sent : SentMsg) : HandlerCall := ⟨sent.type, sent.body.map some⟩

/-- A message that has been read whole reaches its handler, with its bytes and no others. -/
theorem dispatch_switch (sent : SentMsg) :
    dispatch (.switch (8 + sent.body.length) (leBytes 4 sent.type ++ sent.body)) =
      some [sent.call] := by
  obtain ⟨htype, hbody, hdest⟩ := sentBodySize_bounds sent.sized
  have hlong : ¬ (leBytes 4 sent.type ++ sent.body).length < 4 := by
    rw [List.length_append, leBytes_length]
    omega
  have hread : leValue (leBytes 4 sent.type) = sent.type :=
    leValue_leBytes 4 sent.type (htype.trans (by decide))
  have hsize : bodySize (8 + sent.body.length) = sent.body.length := by
    rw [bodySize_eq (Nat.le_add_right 8 _), Nat.add_sub_cancel_left]
    unfold msgSize maxMsgLen
    omega
  rw [dispatch, if_neg hlong, List.take_left' (leBytes_length 4 _),
    List.drop_left' (leBytes_length 4 _), hread]
  rcases hdest with hdest | hdest
  · rw [hdest]
    simp only [Destination.fill, hsize, le_refl, if_true, Nat.sub_self, List.replicate_zero,
      List.append_nil, Option.map_some]
    rfl
  · rw [hdest]
    rfl

end SentMsg

/-! ## The bytes between the two ends -/

namespace CtlStream

/-- The bytes of the accepted messages that no handler has got: some are at the receiver,
the rest is in the sender's buffer. -/
structure Streamed (s : CtlStream) (queue : BoundedQueue UInt8) (pending : List SentMsg) :
    Prop where
  represents : s.outBuffer.Represents queue
  reader : MsgReader.ReaderInv true s.reader
  running : ¬ s.reader.Returned
  handled : s.accepted.map SentMsg.call = s.handled ++ pending.map SentMsg.call
  sent : s.accepted.flatMap (fun sent => sent.msg.wire) = s.sent ++ queue.items
  bytes : pending.flatMap (fun sent => sent.msg.wire) = s.reader.arrived ++ queue.items

variable {s s' : CtlStream} {queue : BoundedQueue UInt8} {pending : List SentMsg}

/-- A message is refused, without a trace, only where the buffer neither holds it nor can
grow for it. -/
theorem Streamed.sendMsg_cases (hstreamed : Streamed s queue pending) (sent : SentMsg) :
    (s.sendMsg sent = some s ∧ s.outBuffer.capacity < queue.items.length + sent.msg.len ∧
      s.outBuffer.maxCapacity < s.outBuffer.capacity + sent.msg.len) ∨
    ∃ s' queue', s.sendMsg sent = some s' ∧ s'.accepted = s.accepted ++ [sent] ∧
      Streamed s' queue' (pending ++ [sent]) := by
  have hbody := sent.body_le
  have hlen : sent.msg.len = 8 + sent.body.length := rfl
  have hdata : (sent.msg.len : Int) ≤ sent.structBytes.length := by
    exact_mod_cast sent.len_le_structBytes
  rcases hstreamed.represents.writeToBuffer (show (0 : Int) < sent.msg.len by omega) (by omega)
    hdata with ⟨hrefused, hfull, hmax⟩ | ⟨buffer, written, haccepted, hwritten, hitems, -⟩
  · left
    rw [Int.toNat_natCast, ← hstreamed.represents.capacity] at hfull hmax
    rw [← hstreamed.represents.maxCapacity] at hmax
    refine ⟨?_, hfull, hmax⟩
    rw [CtlStream.sendMsg, hrefused]
    simp only [Option.bind_eq_bind, Option.bind_some]
    rw [if_pos (by omega)]
  · right
    refine ⟨{ s with outBuffer := buffer, accepted := s.accepted ++ [sent] }, written, ?_, rfl, ?_⟩
    · rw [CtlStream.sendMsg, haccepted]
      simp only [Option.bind_eq_bind, Option.bind_some, Int.toNat_natCast]
      rw [if_neg (not_not.mpr rfl)]
    · exact {
        represents := hwritten
        reader := hstreamed.reader
        running := hstreamed.running
        handled := by
          simp only [List.map_append, hstreamed.handled, List.append_assoc]
        sent := by
          rw [hitems, Int.toNat_natCast, sent.structBytes_take, ← List.append_assoc,
            ← hstreamed.sent, List.flatMap_append, List.flatMap_singleton]
        bytes := by
          rw [hitems, Int.toNat_natCast, sent.structBytes_take, ← List.append_assoc,
            ← hstreamed.bytes, List.flatMap_append, List.flatMap_singleton] }

theorem Streamed.sendMsg (hstreamed : Streamed s queue pending) (sent : SentMsg) :
    ∃ s' queue' pending', s.sendMsg sent = some s' ∧ Streamed s' queue' pending' := by
  rcases hstreamed.sendMsg_cases sent with ⟨hrefused, -⟩ | ⟨s', queue', hsend, -, hafter⟩
  · exact ⟨s, queue, pending, hrefused, hstreamed⟩
  · exact ⟨s', queue', pending ++ [sent], hsend, hafter⟩

theorem arrive_eq_step {reader : MsgReader} (hinv : MsgReader.ReaderInv true reader)
    (hrunning : ¬ reader.Returned) (bytes : List UInt8) :
    reader.step (.arrive bytes) = some (arrive reader bytes) := by
  rw [MsgReader.step, if_neg hrunning]
  exact if_neg (by simp [hinv.closed rfl])

/-- There is nothing to be written, or the oldest bytes of the queue go over. -/
theorem Streamed.write_cases (hstreamed : Streamed s queue pending) (count : Nat) :
    (queue.items.length = 0 ∧ s.write count = some s) ∨
    ∃ writer rest, s.write count = some (s.written writer) ∧ writer.buffer.Represents rest ∧
      queue.items = writer.handed.map (·.getD 0) ++ rest.items ∧
      rest.items.length < queue.items.length := by
  have hrep := hstreamed.represents
  rw [CtlStream.write, hrep.getUnreadSize, Option.bind_eq_bind, Option.bind_some]
  by_cases hempty : queue.items.length = 0
  · exact Or.inl ⟨hempty, if_pos hempty⟩
  · obtain ⟨rest, hrest, -, hbytes, hless⟩ :=
      @SockWriter.exists_rest_of_wrote _ _ hrep (mt List.length_eq_zero_iff.mpr hempty) count _ rfl
    exact Or.inr ⟨_, rest, if_neg hempty, hrest, hbytes, hless⟩

theorem Streamed.write (hstreamed : Streamed s queue pending) (count : Nat) :
    ∃ s' queue', s.write count = some s' ∧ Streamed s' queue' pending := by
  rcases hstreamed.write_cases count with ⟨-, hnone⟩ | ⟨writer, rest, hwrite, hrest, hbytes, -⟩
  · exact ⟨s, queue, hnone, hstreamed⟩
  · exact ⟨s.written writer, rest, hwrite, {
      represents := hrest
      reader := hstreamed.reader.step
        (fun _ => show MsgReader.Calm (.arrive _) from trivial)
        (arrive_eq_step hstreamed.reader hstreamed.running _)
      running := hstreamed.running
      handled := hstreamed.handled
      sent := by
        change s.accepted.flatMap _ = s.sent ++ _ ++ _
        rw [hstreamed.sent, List.append_assoc, ← hbytes]
      bytes := by
        change _ = s.reader.arrived ++ _ ++ _
        rw [hstreamed.bytes, List.append_assoc, ← hbytes] }⟩

/-- The length that was read is that of the oldest message under way, and what was read
behind it is that message. -/
theorem behind_pending {arrived got incoming rest : List UInt8} {len : Nat}
    (hbehind : MsgReader.Behind arrived len got incoming)
    (hbytes : pending.flatMap (fun sent => sent.msg.wire) = arrived ++ rest) :
    ∃ sent later, pending = sent :: later ∧ len = 8 + sent.body.length ∧
      leBytes 4 sent.type ++ sent.body ++ later.flatMap (fun sent => sent.msg.wire) =
        got ++ (incoming ++ rest) := by
  obtain ⟨hfour, hvalue, hdrop⟩ := hbehind.split
  cases pending with
  | nil =>
      have hlength := congrArg List.length hbytes
      simp only [List.flatMap_nil, List.length_nil, List.length_append] at hlength
      omega
  | cons sent later =>
      rw [List.flatMap_cons, SentMsg.msg, makeMsg_wire, List.append_assoc] at hbytes
      have hhead : arrived.take 4 = beBytes 4 (8 + sent.body.length) := by
        have htake := congrArg (List.take 4) hbytes
        rw [List.take_left' (beBytes_length 4 _), List.take_append_of_le_length hfour] at htake
        exact htake.symm
      refine ⟨sent, later, rfl, ?_, ?_⟩
      · rw [hvalue, hhead, beValue_len _ sent.body_le_maxMsgLen]
      · have htail := congrArg (List.drop 4) hbytes
        rw [List.drop_left' (beBytes_length 4 _), List.drop_append_of_le_length hfour,
          hdrop, List.append_assoc got] at htail
        exact htail

theorem read_of_step {count : Nat} {reader : MsgReader} (hreading : s.reading = true)
    (hread : s.reader.step (.read count) = some reader) :
    s.read count = match reader.point with
      | .returned outcome => (dispatch outcome).map (s.readDone reader)
      | _ => some { s with reader := reader } := by
  rw [CtlStream.read, if_neg (not_not.mpr hreading), hread, Option.bind_eq_bind, Option.bind_some]

theorem Streamed.read (hstreamed : Streamed s queue pending) (count : Nat) :
    ∃ s' pending', s.read count = some s' ∧ Streamed s' queue pending' := by
  by_cases hreading : s.reading = true
  · obtain ⟨reader, hread⟩ := MsgReader.exists_step_read hstreamed.running count
    have hinv : MsgReader.ReaderInv true reader :=
      hstreamed.reader.step (fun _ => show MsgReader.Calm (.read _) from trivial) hread
    have hbytes := hstreamed.bytes
    rw [← MsgReader.arrived_of_read hread] at hbytes
    by_cases hreturned : ∃ outcome, reader.point = .returned outcome
    · obtain ⟨outcome, hpoint⟩ := hreturned
      have hshape := hinv.shape
      rw [hpoint] at hshape
      cases hshape with
      | @switch len got hlow hhigh hgot hbehind =>
          -- it is the oldest message under way that has been read
          obtain ⟨sent, later, rfl, rfl, htail⟩ := behind_pending hbehind hbytes
          have hlength : (leBytes 4 sent.type ++ sent.body).length = got.length := by
            rw [List.length_append, leBytes_length, hgot]
            omega
          obtain ⟨rfl, hlater⟩ := List.append_inj htail hlength
          refine ⟨s.readDone reader [sent.call], later, ?_, ?_⟩
          · rw [read_of_step hreading hread, hpoint]
            simp only [sent.dispatch_switch, Option.map_some]
          · exact {
              represents := hstreamed.represents
              reader := MsgReader.readerInv_start true reader.inBufferEmpty reader.incoming
              running := by
                rintro ⟨outcome, hreturned⟩
                cases hreturned
              handled := by
                change s.accepted.map SentMsg.call = s.handled ++ [sent.call] ++ _
                rw [hstreamed.handled, List.map_cons, List.append_cons]
              sent := hstreamed.sent
              bytes := hlater }
      | refused hnot hlen =>
          -- a refused length would be the length of a message that was sent
          obtain ⟨len, hbad, hbehind⟩ := hlen rfl
          obtain ⟨sent, later, -, rfl, -⟩ := behind_pending hbehind hbytes
          have hbody := sent.body_le_maxMsgLen
          unfold msgSize at hbad
          omega
    · refine ⟨{ s with reader := reader }, pending, ?_, ?_⟩
      · rw [read_of_step hreading hread]
        split
        · next outcome hpoint => exact absurd ⟨outcome, hpoint⟩ hreturned
        · rfl
      · exact {
          represents := hstreamed.represents
          reader := hinv
          running := hreturned
          handled := hstreamed.handled
          sent := hstreamed.sent
          bytes := hbytes }
  · refine ⟨s, pending, ?_, hstreamed⟩
    rw [CtlStream.read, if_pos hreading]

theorem Streamed.step (hstreamed : Streamed s queue pending) (event : CtlEvent) :
    ∃ s' queue' pending', s.step event = some s' ∧ Streamed s' queue' pending' := by
  cases event with
  | sendMsg sent => exact hstreamed.sendMsg sent
  | write count =>
      obtain ⟨s', queue', hstep, hstreamed'⟩ := hstreamed.write count
      exact ⟨s', queue', pending, hstep, hstreamed'⟩
  | ready => exact ⟨_, queue, pending, rfl, { hstreamed with }⟩
  | read count =>
      obtain ⟨s', pending', hstep, hstreamed'⟩ := hstreamed.read count
      exact ⟨s', queue, pending', hstep, hstreamed'⟩

theorem Streamed.run (hstreamed : Streamed s queue pending) (events : List CtlEvent) :
    ∃ s' queue' pending', run CtlStream.step s events = some s' ∧
      Streamed s' queue' pending' := by
  induction events generalizing s queue pending with
  | nil => exact ⟨s, queue, pending, rfl, hstreamed⟩
  | cons event rest ih =>
      obtain ⟨next, _, _, hnext, hafter⟩ := hstreamed.step event
      obtain ⟨final, queue', pending', hfinal, hdone⟩ := ih hafter
      exact ⟨final, queue', pending', (run_cons hnext rest).trans hfinal, hdone⟩

theorem dispatch_length {outcome : ReadOutcome} {calls : List HandlerCall}
    (hcalls : dispatch outcome = some calls) : calls.length ≤ 1 := by
  unfold dispatch at hcalls
  split at hcalls
  · split at hcalls
    · cases hcalls
    · split at hcalls
      · rw [← Option.some.inj hcalls]
        exact Nat.zero_le 1
      · obtain ⟨arg, -, rfl⟩ := Option.map_eq_some_iff.mp hcalls
        exact Nat.le_refl 1
  · rw [← Option.some.inj hcalls]
    exact Nat.zero_le 1

/-- What happens at a socket accepts no message and calls one handler at most. -/
theorem socket_handled {event : SocketEvent} (hstep : s.step event.ctl = some s') :
    s'.accepted = s.accepted ∧ ∃ calls, s'.handled = s.handled ++ calls ∧ calls.length ≤ 1 := by
  cases event with
  | write count =>
      change s.write count = some s' at hstep
      rw [write, Option.bind_eq_bind, Option.bind_eq_some_iff] at hstep
      obtain ⟨unread, -, hsome⟩ := hstep
      split at hsome
      · rw [← Option.some.inj hsome]
        exact ⟨rfl, [], by simp, by simp⟩
      · rw [← Option.some.inj hsome]
        exact ⟨rfl, [], by simp [written], by simp⟩
  | ready =>
      rw [← Option.some.inj hstep]
      exact ⟨rfl, [], by simp, by simp⟩
  | read count =>
      change s.read count = some s' at hstep
      unfold read at hstep
      split at hstep
      · rw [← Option.some.inj hstep]
        exact ⟨rfl, [], by simp, by simp⟩
      · rw [Option.bind_eq_bind, Option.bind_eq_some_iff] at hstep
        obtain ⟨reader, -, hsome⟩ := hstep
        split at hsome
        · obtain ⟨calls, hcalls, rfl⟩ := Option.map_eq_some_iff.mp hsome
          exact ⟨rfl, calls, rfl, dispatch_length hcalls⟩
        · rw [← Option.some.inj hsome]
          exact ⟨rfl, [], by simp, by simp⟩

/-- Nothing is left under way of a message that has been handled, nor of one refused. -/
theorem Streamed.handled_eq (hstreamed : Streamed s queue pending) (hdrained : s.Drained) :
    s.handled = s.accepted.map SentMsg.call := by
  obtain ⟨hsent, harrived⟩ := hdrained
  rw [hstreamed.represents.getUnreadSize, Option.some.injEq] at hsent
  have hbytes := hstreamed.bytes
  rw [harrived, List.eq_nil_of_length_eq_zero hsent, List.append_nil] at hbytes
  cases pending with
  | nil => simpa using hstreamed.handled.symm
  | cons sent later =>
      have hlength := congrArg List.length hbytes
      rw [List.flatMap_cons, List.length_append, SentMsg.msg, makeMsg_wire_length] at hlength
      simp only [List.length_nil] at hlength
      omega

/-! ## The way to the last byte -/

/-- What the sender, the receiver's loop and its `handleRead` do. -/
inductive SocketKind where
  | write
  | ready
  | read
  deriving DecidableEq

def SocketEvent.kind : SocketEvent → SocketKind
  | .write _ => .write
  | .ready => .ready
  | .read _ => .read

def unsent (s : CtlStream) : Nat := s.outBuffer.getUnreadSize.getD 0

/-- What is left to be done, where a byte to be written counts for three, and one to be
read for two. The call of `handleRead` that is under way has been begun. -/
def left (s : CtlStream) : Nat :=
  3 * s.unsent + (2 * s.reader.incoming.length - if s.reading then 1 else 0)

/-- What takes some of it off. -/
def helpful (s : CtlStream) : SocketKind :=
  if 0 < s.unsent then .write else if s.reading then .read else .ready

theorem Streamed.unsent_eq (hstreamed : Streamed s queue pending) :
    s.unsent = queue.items.length := by
  rw [unsent, hstreamed.represents.getUnreadSize, Option.getD_some]

/-- A `write(2)` finds nothing, or some bytes go over to the receiver. -/
theorem Streamed.write_left (hstreamed : Streamed s queue pending) {count : Nat}
    (hwrite : s.write count = some s') :
    s.unsent = 0 ∧ s' = s ∨ s'.left < s.left := by
  have hunsent := hstreamed.unsent_eq
  rcases hstreamed.write_cases count with
    ⟨hempty, hnone⟩ | ⟨writer, rest, hsome, hrest, hbytes, hless⟩
  · exact Or.inl ⟨hunsent.trans hempty, Option.some.inj (hwrite.symm.trans hnone)⟩
  · right
    obtain rfl := Option.some.inj (hwrite.symm.trans hsome)
    have hlater : (s.written writer).unsent = rest.items.length :=
      congrArg (·.getD 0) hrest.getUnreadSize
    have hlength := congrArg List.length hbytes
    rw [List.length_append] at hlength
    have harrived : (s.written writer).reader.incoming.length =
        s.reader.incoming.length + (writer.handed.map (·.getD 0)).length :=
      List.length_append
    have hreading : (s.written writer).reading = s.reading := rfl
    unfold left
    rw [hlater, harrived, hreading, hunsent]
    split <;> omega

/-- A `read(2)` is not made, finds nothing, or takes some bytes. -/
theorem Streamed.read_left (hstreamed : Streamed s queue pending) {count : Nat}
    (hread : s.read count = some s') :
    (s.reading = false ∨ s.reader.incoming = []) ∧ s' = s ∨ s'.left < s.left := by
  by_cases hreading : s.reading = true
  · obtain ⟨reader, hstep⟩ := MsgReader.exists_step_read hstreamed.running count
    rw [read_of_step hreading hstep] at hread
    rcases MsgReader.step_read_cases hstep with
      ⟨hincoming, rfl⟩ | ⟨-, hclosed, -⟩ | ⟨hnone, -, rfl⟩
    · right
      have hpositive := List.length_pos_iff.mpr hincoming
      have htaken : (s.reader.take (s.reader.handed count)).incoming.length <
          s.reader.incoming.length := by
        have hone : 1 ≤ s.reader.handed count := Nat.le_max_left _ _
        cases hreader : s.reader
        simp only [hreader] at hone hpositive ⊢
        simp only [MsgReader.take, List.length_drop]
        omega
      have hfewer : s'.outBuffer = s.outBuffer ∧
          s'.reader.incoming.length < s.reader.incoming.length := by
        split at hread
        · obtain ⟨calls, -, rfl⟩ := Option.map_eq_some_iff.mp hread
          exact ⟨rfl, htaken⟩
        · obtain rfl := Option.some.inj hread
          exact ⟨rfl, htaken⟩
      unfold left unsent
      rw [hfewer.1, hreading, if_pos rfl]
      omega
    · rw [hstreamed.reader.closed rfl] at hclosed
      cases hclosed
    · left
      refine ⟨Or.inr hnone, ?_⟩
      split at hread
      · next outcome hpoint => exact absurd ⟨outcome, hpoint⟩ hstreamed.running
      · exact (Option.some.inj hread).symm
  · rw [CtlStream.read, if_pos hreading] at hread
    exact Or.inl ⟨Or.inl (Bool.not_eq_true _ ▸ hreading), (Option.some.inj hread).symm⟩

/-- With no byte left to come, the receiver is in the middle of no message. -/
theorem Streamed.drained (hstreamed : Streamed s queue pending) (hleft : s.left = 0) :
    s.Drained := by
  have hunsent : queue.items.length = 0 := by
    rw [← hstreamed.unsent_eq]
    unfold left at hleft
    omega
  have hincoming : s.reader.incoming = [] := by
    apply List.eq_nil_of_length_eq_zero
    unfold left at hleft
    split at hleft <;> omega
  have hbytes := hstreamed.bytes
  have hshape := hstreamed.reader.shape
  rw [hincoming] at hshape
  refine ⟨hstreamed.represents.getUnreadSize.trans (congrArg some hunsent), ?_⟩
  rw [List.eq_nil_of_length_eq_zero hunsent] at hbytes
  generalize hpoint : s.reader.point = point at hshape
  cases hshape with
  | @length got hgot harrived =>
      cases pending with
      | nil => exact (List.append_eq_nil_iff.mp hbytes.symm).1
      | cons sent later =>
          -- a whole message is more than the part of a length that is there
          have hlength := congrArg List.length hbytes
          rw [harrived, List.flatMap_cons, List.length_append, SentMsg.msg,
            makeMsg_wire_length] at hlength
          simp only [List.append_nil] at hlength
          omega
  | @body len got hlow hhigh hgot hbehind =>
      obtain ⟨sent, later, -, rfl, htail⟩ := behind_pending hbehind hbytes
      have hlength := congrArg List.length htail
      simp only [List.length_append, leBytes_length, List.append_nil] at hlength
      omega
  | switch => exact absurd ⟨_, hpoint⟩ hstreamed.running
  | refused => exact absurd ⟨_, hpoint⟩ hstreamed.running

/-- Events at the sockets take from what is left, and accept no message. -/
theorem wearing (accepted : List SentMsg) :
    Wearing (fun s event => step s (SocketEvent.ctl event))
      (fun s => (∃ queue pending, Streamed s queue pending) ∧ s.accepted = accepted)
      left SocketEvent.kind helpful where
  next := by
    rintro s event ⟨⟨queue, pending, hstreamed⟩, haccepted⟩
    obtain ⟨s', queue', pending', hstep, hafter⟩ := hstreamed.step event.ctl
    exact ⟨s', hstep, ⟨queue', pending', hafter⟩, (socket_handled hstep).1.trans haccepted⟩
  le := by
    rintro s event s' ⟨⟨queue, pending, hstreamed⟩, -⟩ hstep
    cases event with
    | write count =>
        rcases hstreamed.write_left hstep with ⟨-, rfl⟩ | hless
        · exact le_refl _
        · exact hless.le
    | ready =>
        obtain rfl := Option.some.inj hstep
        simp only [left, unsent, if_true]
        split <;> omega
    | read count =>
        rcases hstreamed.read_left hstep with ⟨-, rfl⟩ | hless
        · exact le_refl _
        · exact hless.le
  helps := by
    rintro s event s' ⟨⟨queue, pending, hstreamed⟩, -⟩ hpositive hstep hsame
    cases event with
    | write count =>
        rcases hstreamed.write_left hstep with ⟨hnone, rfl⟩ | hless
        · refine ⟨?_, rfl⟩
          rw [helpful, if_neg (by omega)]
          split <;> simp [SocketEvent.kind]
        · omega
    | ready =>
        obtain rfl := Option.some.inj hstep
        change 3 * s.unsent + (2 * s.reader.incoming.length - 1) = s.left at hsame
        change SocketKind.ready ≠ s.helpful ∧ (if 0 < s.unsent then _ else _) = s.helpful
        unfold left at hpositive hsame
        unfold helpful
        by_cases hunsent : 0 < s.unsent
        · simp [hunsent]
        · -- a byte is there to be read, so the call was under way
          have hreading : s.reading = true := by
            by_contra hidle
            rw [if_neg hidle] at hpositive hsame
            omega
          simp [hunsent, hreading]
    | read count =>
        rcases hstreamed.read_left hstep with ⟨hidle, rfl⟩ | hless
        · refine ⟨?_, rfl⟩
          unfold left at hpositive
          unfold helpful
          split
          · simp [SocketEvent.kind]
          · split
            · next hnone hreading =>
                rcases hidle with hidle | hempty
                · simp [hidle] at hreading
                · simp [hempty, Nat.eq_zero_of_not_pos hnone] at hpositive
            · simp [SocketEvent.kind]
        · omega

/-- `CtlConn` before its first message. `in_buffer_empty_` is not initialised. -/
def init (inBufferEmpty : Bool) : Option CtlStream :=
  (Buffer.new 1024 65536).map fun buffer =>
    { outBuffer := buffer, reader := { inBufferEmpty := inBufferEmpty } }

theorem streamed_init {inBufferEmpty : Bool} {first : CtlStream}
    (hinit : init inBufferEmpty = some first) : ∃ queue, first.Streamed queue [] := by
  obtain ⟨buffer, hbuffer, hrep⟩ := @Buffer.represents_new 1024 65536 (by decide) (by decide)
  rw [init, hbuffer, Option.map_some] at hinit
  obtain rfl := Option.some.inj hinit
  exact ⟨_, {
    represents := hrep
    reader := MsgReader.readerInv_start true inBufferEmpty []
    running := by
      rintro ⟨outcome, hreturned⟩
      cases hreturned
    handled := rfl
    sent := rfl
    bytes := rfl }⟩

theorem init_isSome (inBufferEmpty : Bool) : (init inBufferEmpty).isSome = true := by
  obtain ⟨buffer, hbuffer, -⟩ := @Buffer.represents_new 1024 65536 (by decide) (by decide)
  rw [init, hbuffer]
  rfl

/-- Whatever is sent and however the kernel cuts the stream, only the accepted messages
contribute to it, and the handlers called are theirs, in order and with their bytes; once
all bytes have been read there is one call for each message. A message is refused only
where the buffer can neither hold it nor grow for it. Enough rounds of writes, calls of
`handleRead` and reads, of any sizes and in any order, bring every accepted message to its
handler. -/
theorem ctl_messages_delivered (inBufferEmpty : Bool) (events : List CtlEvent) :
    ∃ first final, init inBufferEmpty = some first ∧ Foundation.run step first events = some final ∧
      final.sent <+: final.accepted.flatMap (fun sent => sent.msg.wire) ∧
      final.handled <+: final.accepted.map SentMsg.call ∧
      (final.Drained → final.handled = final.accepted.map SentMsg.call) ∧
      (∀ sent, (∃ next, final.sendMsg sent = some next ∧ next.accepted = final.accepted ++ [sent]) ∨
        final.sendMsg sent = some final ∧ ∃ unread, final.outBuffer.getUnreadSize = some unread ∧
          final.outBuffer.capacity < unread + sent.msg.len ∧
          final.outBuffer.maxCapacity < final.outBuffer.capacity + sent.msg.len) ∧
      ∀ rounds : List (List SocketEvent), (∀ round ∈ rounds, Round SocketEvent.kind round) →
        final.left ≤ rounds.length →
        ∃ last, Foundation.run step final (rounds.flatten.map SocketEvent.ctl) = some last ∧
          last.accepted = final.accepted ∧ last.Drained ∧
          last.handled = final.accepted.map SentMsg.call := by
  obtain ⟨first, hinit⟩ := Option.isSome_iff_exists.mp (init_isSome inBufferEmpty)
  obtain ⟨queue, hfirst⟩ := streamed_init hinit
  obtain ⟨final, queue', pending, hrun, hfinal⟩ := hfirst.run events
  refine ⟨first, final, hinit, hrun, ?_, ?_, hfinal.handled_eq, ?_, ?_⟩
  · rw [hfinal.sent]
    exact List.prefix_append _ _
  · rw [hfinal.handled]
    exact List.prefix_append _ _
  · intro sent
    rcases hfinal.sendMsg_cases sent with ⟨hrefused, hfull, hmax⟩ | ⟨next, -, hsend, hadded, -⟩
    · exact Or.inr ⟨hrefused, _, hfinal.represents.getUnreadSize, hfull, hmax⟩
    · exact Or.inl ⟨next, hsend, hadded⟩
  · intro rounds hrounds henough
    obtain ⟨last, hlast, ⟨⟨_, _, hstreamed⟩, haccepted⟩, hdone⟩ :=
      (wearing final.accepted).run_rounds ⟨⟨queue', pending, hfinal⟩, rfl⟩ hrounds henough
    have hdrained := hstreamed.drained hdone
    rw [← run_map] at hlast
    refine ⟨last, hlast, haccepted, hdrained, ?_⟩
    rw [hstreamed.handled_eq hdrained, haccepted]

end CtlStream

/-! ## A sample -/

def sampleStream : CtlStream := (CtlStream.init true).get (CtlStream.init_isSome true)

/-- A FreeProxyConnReq and a NewCtlReq. -/
def sampleMsgs : List SentMsg := [⟨6, List.replicate 20 65, rfl⟩, ⟨0, [0], rfl⟩]

/-- Both are sent; the first has gone into the stream in part, and been read in part. -/
def sampleCut : List CtlEvent :=
  sampleMsgs.map .sendMsg ++ [.write 11, .ready, .read 3]

def sampleRounds : List (List SocketEvent) :=
  List.replicate 110 [.read 2, .ready, .write 3]

/-- Pieces of two and of three bytes bring both messages to their handlers. -/
theorem CtlStream.ctl_messages_delivered_sample :
    ∃ final last, run step sampleStream sampleCut = some final ∧ final.handled = [] ∧
      run step final (sampleRounds.flatten.map SocketEvent.ctl) = some last ∧
      last.handled = sampleMsgs.map SentMsg.call := by
  obtain ⟨first, final, hinit, hrun, -, -, -, -, hrounds⟩ :=
    ctl_messages_delivered true sampleCut
  obtain rfl : first = sampleStream :=
    Option.some.inj (hinit.symm.trans (Option.some_get (init_isSome true)).symm)
  have hcut : (run step sampleStream sampleCut).map
      (fun s => (s.left, s.handled, s.accepted.map SentMsg.call)) =
        some (93, [], sampleMsgs.map SentMsg.call) := by
    decide +kernel
  rw [hrun, Option.map_some, Option.some.injEq, Prod.mk.injEq, Prod.mk.injEq] at hcut
  obtain ⟨hleft, hnone, haccepted⟩ := hcut
  obtain ⟨last, hlast, -, -, hall⟩ := hrounds sampleRounds
    (by
      intro round hround kind
      obtain rfl := List.eq_of_mem_replicate hround
      cases kind <;> simp [SocketEvent.kind])
    (by rw [hleft, sampleRounds, List.length_replicate]; decide)
  exact ⟨final, last, hrun, hnone, hlast, hall.trans haccepted⟩

end CProxy
