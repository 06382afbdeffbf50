import CProxy.Lib.WriteToSock
import CProxy.Wire.Frame
import Mathlib.Data.Finset.Insert
import Mathlib.Data.Finset.Lattice.Basic

/-! # Connections with a buffer of outgoing messages

`CtlConn` and `ProxyConn` share the text of `SendMsg`, `handleWrite` and `postHandle`
(apart from a lock). `Channel::HandleEvents` calls the last two on the connection's own
thread; the interest mask in the poller is what later wakes that thread. Calls of
`epoll_ctl` succeed.
-/

namespace CProxy

open Foundation Wire

inductive EpollFlag where
  | epollin
  | epollpri
  | epollout
  | epollerr
  | epollhup
  | epollrdhup
  | epollet
  deriving DecidableEq

structure Channel where
  events : Finset EpollFlag
  revents : Finset EpollFlag := ∅
  peerClosed : Bool

/-- `polled` is the mask the poller holds for the channel. `closed` is history: whether
`close_handler_` has run. -/
structure BufferedConn where
  channel : Channel
  inBufferEmpty : Bool
  outBuffer : Buffer
  polled : Finset EpollFlag := ∅
  closed : Bool := false

/-- What the read handler does to its own connection: whether a read has returned 0, and
the messages that the handlers it calls send. -/
structure ReadEffect where
  sawEnd : Bool := false
  sends : List Msg := []

/-- The bytes of the struct, with its length in network order. -/
def Wire.Msg.structBytes (msg : Msg) : List UInt8 :=
  beBytes 4 msg.len ++ leBytes 4 msg.type ++ msg.data

namespace BufferedConn

/-- `EPOLLET | EPOLLIN | EPOLLRDHUP`. -/
def readMask : Finset EpollFlag := {.epollet, .epollin, .epollrdhup}

/-- The constructors, for the values they find in `in_buffer_empty_` and `peer_closed_`. -/
def new (inBufferEmpty peerClosed : Bool) : Option BufferedConn :=
  (Buffer.new 1024 65536).map fun buffer => {
    channel := { events := insert .epollout readMask, peerClosed := peerClosed }
    inBufferEmpty := inBufferEmpty
    outBuffer := buffer }

def setEvents (conn : BufferedConn) (events : Finset EpollFlag) : BufferedConn :=
  { conn with channel := { conn.channel with events := events } }

def addEvents (conn : BufferedConn) (events : Finset EpollFlag) : BufferedConn :=
  conn.setEvents (conn.channel.events ∪ events)

/-- `Epoll::PollAdd` and `Epoll::PollMod`. -/
def updateToPoller (conn : BufferedConn) : BufferedConn :=
  { conn with polled := conn.channel.events }

def sendMsg (conn : BufferedConn) (msg : Msg) : Option BufferedConn :=
  let msgLen := uint32 msg.len
  (conn.outBuffer.writeToBuffer msg.structBytes (int32 msgLen)).map fun written =>
    let conn := { conn with outBuffer := written.2 }
    if written.1 ≠ msgLen then conn else (conn.addEvents {.epollout}).updateToPoller

def sendAll (conn : BufferedConn) : List Msg → Option BufferedConn
  | [] => some conn
  | msg :: rest => (conn.sendMsg msg).bind fun conn => conn.sendAll rest

def handleRead (conn : BufferedConn) (effect : ReadEffect) : Option BufferedConn :=
  ({ conn with inBufferEmpty := conn.inBufferEmpty || effect.sawEnd }).sendAll effect.sends

/-- `WriteToSock`, when these are the answers of `write(2)` up to its return. -/
def writeToSock (buffer : Buffer) (answers : List WriteAnswer) : Option SockWriter :=
  (run SockWriter.step { buffer := buffer } answers).bind fun writer =>
    if writer.Returned then some writer else none

def handleWrite (conn : BufferedConn) (answers : List WriteAnswer) : Option BufferedConn :=
  conn.outBuffer.getUnreadSize.bind fun unread =>
    if unread ≤ 0 then some conn
    else
      (writeToSock conn.outBuffer answers).bind fun writer =>
        writer.buffer.getUnreadSize.map fun left =>
          let conn := { conn with outBuffer := writer.buffer }
          if left > 0 then conn.addEvents {.epollout} else conn

def postHandle (conn : BufferedConn) : Option BufferedConn :=
  if conn.inBufferEmpty ∧ conn.channel.peerClosed then some { conn with closed := true }
  else
    conn.outBuffer.getUnreadSize.map fun unread =>
      let conn := conn.setEvents readMask
      let conn := if unread > 0 then conn.addEvents {.epollout} else conn
      conn.updateToPoller

/-- The head of `HandleEvents`, with the events that `getReadyChannels` has set. The
`error_handler_` of these connections does nothing. -/
def noteRevents (conn : BufferedConn) (revents : Finset EpollFlag) : BufferedConn :=
  { conn with channel := {
      events := ∅
      revents := revents
      peerClosed :=
        conn.channel.peerClosed || decide (.epollhup ∈ revents ∨ .epollrdhup ∈ revents) } }

/-- `Channel::HandleEvents`. -/
def handleEvents (conn : BufferedConn) (revents : Finset EpollFlag) (effect : ReadEffect)
    (answers : List WriteAnswer) : Option BufferedConn :=
  let conn := conn.noteRevents revents
  if revents = ∅ then some conn
  else
    let read :=
      if .epollin ∈ revents ∨ .epollpri ∈ revents then conn.handleRead effect else some conn
    read.bind fun conn =>
      let written :=
        if .epollout ∈ revents ∧ conn.channel.peerClosed = false then conn.handleWrite answers
        else some conn
      written.bind postHandle

end BufferedConn

inductive ConnEvent where
  | sendMsg (msg : Msg)
  | handleEvents (revents : Finset EpollFlag) (effect : ReadEffect) (answers : List WriteAnswer)

/-- `epoll_wait` reports no channel without an event. -/
def ConnEvent.Delivered : ConnEvent → Prop
  | .sendMsg _ => True
  | .handleEvents revents _ _ => revents ≠ ∅

namespace BufferedConn

def step (conn : BufferedConn) : ConnEvent → Option BufferedConn
  | .sendMsg msg => conn.sendMsg msg
  | .handleEvents revents effect answers => conn.handleEvents revents effect answers

/-- The poller wakes the thread for input and for the end of input, and for room at the
socket while bytes are waiting. -/
structure Woken (conn : BufferedConn) : Prop where
  reads : readMask ⊆ conn.polled
  writes : conn.outBuffer.getUnreadSize ≠ some 0 → .epollout ∈ conn.polled

/-- The poller has the channel's mask, and that mask is enough. -/
structure WakeInv (conn : BufferedConn) : Prop extends Woken conn where
  events : conn.channel.events = conn.polled

variable {conn conn' : BufferedConn} {msg : Msg} {revents : Finset EpollFlag}
  {effect : ReadEffect} {answers : List WriteAnswer} {event : ConnEvent}

/-! ## What is refused changes nothing -/

/-- `WriteToBuffer` takes all bytes or none. -/
theorem writeToBuffer_cases {buffer next : Buffer} {data : List UInt8} {expectLen : Int}
    {writeNum : Nat} (hwrite : buffer.writeToBuffer data expectLen = some (writeNum, next)) :
    writeNum = 0 ∧ next = buffer ∨ 0 < expectLen ∧ writeNum = expectLen.toNat := by
  unfold Buffer.writeToBuffer at hwrite
  by_cases hpos : expectLen ≤ 0
  · rw [if_pos hpos, Option.some.injEq, Prod.mk.injEq] at hwrite
    exact Or.inl ⟨hwrite.1.symm, hwrite.2.symm⟩
  · rw [if_neg hpos, Option.bind_eq_bind, Option.bind_eq_some_iff] at hwrite
    obtain ⟨result, -, hwrite⟩ := hwrite
    cases result with
    | error message =>
        simp only [Option.some.injEq, Prod.mk.injEq] at hwrite
        exact Or.inl ⟨hwrite.1.symm, hwrite.2.symm⟩
    | ok grown =>
        simp only [Option.bind_eq_bind, Option.bind_eq_some_iff, Option.some.injEq,
          Prod.mk.injEq] at hwrite
        obtain ⟨-, -, -, -, hnum, -⟩ := hwrite
        exact Or.inr ⟨Int.not_le.mp hpos, hnum.symm⟩

/-- The two conversions of a message's length come to the same number. -/
theorem toNat_int32_uint32 {len : Nat} (hpos : 0 < int32 (uint32 len)) :
    (int32 (uint32 len)).toNat = uint32 len := by
  unfold int32 at hpos ⊢
  have hlt := uint32_lt len
  omega

theorem sendMsg_cases (hsend : conn.sendMsg msg = some conn') :
    conn' = conn ∨ ∃ buffer, conn' =
      (({ conn with outBuffer := buffer } : BufferedConn).addEvents {.epollout}).updateToPoller := by
  unfold sendMsg at hsend
  obtain ⟨⟨writeNum, buffer⟩, hwrite, hnext⟩ := Option.map_eq_some_iff.mp hsend
  dsimp only at hnext
  rcases writeToBuffer_cases hwrite with ⟨rfl, rfl⟩ | ⟨hpos, hnum⟩
  · by_cases hzero : 0 ≠ uint32 msg.len
    · rw [if_pos hzero] at hnext
      exact Or.inl hnext.symm
    · rw [if_neg hzero] at hnext
      exact Or.inr ⟨_, hnext.symm⟩
  · rw [hnum, toNat_int32_uint32 hpos, if_neg (not_not.mpr rfl)] at hnext
    exact Or.inr ⟨buffer, hnext.symm⟩

theorem sendMsg_closed (hsend : conn.sendMsg msg = some conn') : conn'.closed = conn.closed := by
  rcases sendMsg_cases hsend with rfl | ⟨buffer, rfl⟩
  · rfl
  · rfl

/-- A message that is taken asks for room at the socket, one that is refused finds the
request made for the bytes that are there. -/
theorem WakeInv.sendMsg (hinv : WakeInv conn) (hsend : conn.sendMsg msg = some conn') :
    WakeInv conn' := by
  rcases sendMsg_cases hsend with rfl | ⟨buffer, rfl⟩
  · exact hinv
  · have hpolled : ((({ conn with outBuffer := buffer } : BufferedConn).addEvents
        {.epollout}).updateToPoller).polled = conn.polled ∪ {.epollout} := by
      rw [← hinv.events]
      rfl
    refine ⟨⟨?_, ?_⟩, rfl⟩
    · rw [hpolled]
      exact hinv.reads.trans Finset.subset_union_left
    · intro _
      rw [hpolled]
      exact Finset.mem_union_right _ (Finset.mem_singleton_self _)

/-! ## The end of every dispatch -/

theorem WakeInv.postHandle (hpost : conn.postHandle = some conn') (hopen : conn'.closed = false) :
    WakeInv conn' := by
  unfold BufferedConn.postHandle at hpost
  by_cases hend : conn.inBufferEmpty ∧ conn.channel.peerClosed
  · rw [if_pos hend] at hpost
    obtain rfl := Option.some.inj hpost
    cases hopen
  · rw [if_neg hend] at hpost
    obtain ⟨unread, hunread, rfl⟩ := Option.map_eq_some_iff.mp hpost
    by_cases hwaiting : unread > 0
    · simp only [if_pos hwaiting]
      refine ⟨⟨Finset.subset_union_left, ?_⟩, rfl⟩
      exact fun _ => Finset.mem_union_right _ (Finset.mem_singleton_self _)
    · simp only [if_neg hwaiting]
      refine ⟨⟨Finset.Subset.refl _, ?_⟩, rfl⟩
      intro hsome
      obtain rfl : unread = 0 := Nat.eq_zero_of_not_pos hwaiting
      exact absurd hunread hsome

/-- Whatever the handlers did to the mask, the last of them sets it anew. -/
theorem WakeInv.handleEvents (hrevents : revents ≠ ∅)
    (hhandle : conn.handleEvents revents effect answers = some conn')
    (hopen : conn'.closed = false) : WakeInv conn' := by
  unfold BufferedConn.handleEvents at hhandle
  simp only [if_neg hrevents] at hhandle
  obtain ⟨read, -, hread⟩ := Option.bind_eq_some_iff.mp hhandle
  obtain ⟨written, -, hpost⟩ := Option.bind_eq_some_iff.mp hread
  exact WakeInv.postHandle hpost hopen

/-! ## Any sequence of steps -/

theorem WakeInv.step (hinv : conn.closed = false → WakeInv conn) (hevent : event.Delivered)
    (hstep : conn.step event = some conn') (hopen : conn'.closed = false) : WakeInv conn' := by
  cases event with
  | sendMsg msg =>
      rw [BufferedConn.step] at hstep
      rw [sendMsg_closed hstep] at hopen
      exact (hinv hopen).sendMsg hstep
  | handleEvents revents effect answers =>
      rw [BufferedConn.step] at hstep
      exact WakeInv.handleEvents hevent hstep hopen

/-- A new connection that has been added to the poller. -/
def added (inBufferEmpty peerClosed : Bool) : Option BufferedConn :=
  (new inBufferEmpty peerClosed).map updateToPoller

theorem exists_added (inBufferEmpty peerClosed : Bool) :
    ∃ conn, added inBufferEmpty peerClosed = some conn ∧ WakeInv conn := by
  obtain ⟨buffer, hbuffer, -⟩ := @Buffer.represents_new 1024 65536 (by omega) (by omega)
  rw [added, new, hbuffer, Option.map_some, Option.map_some]
  refine ⟨_, rfl, ?_⟩
  constructor
  · constructor
    · exact Finset.subset_insert _ _
    · exact fun _ => Finset.mem_insert_self _ _
  · rfl

/-- As long as the connection has not closed, the poller wakes its thread for all that it
waits for. -/
theorem no_lost_wakeup (inBufferEmpty peerClosed : Bool) (events : List ConnEvent)
    (hdelivered : ∀ event ∈ events, event.Delivered) :
    ∃ start, added inBufferEmpty peerClosed = some start ∧
      ∀ final, run step start events = some final → final.closed = false → Woken final := by
  obtain ⟨start, hstart, hinv⟩ := exists_added inBufferEmpty peerClosed
  refine ⟨start, hstart, ?_⟩
  intro final hrun hopen
  have hfinal : final.closed = false → WakeInv final :=
    run_invariant_of_takes (fun _ _ _ hinv hevent hstep => WakeInv.step hinv hevent hstep)
      (fun _ => hinv) (takes_of_forall hdelivered start) hrun
  exact (hfinal hopen).toWoken

/-- A message, an event in whose handler another one is sent, room at the socket for both
in two pieces, and an event in whose handler a third is sent. -/
def sampleWakes : List ConnEvent :=
  [.sendMsg (makeMsg 0 [0]), .handleEvents {.epollin} { sends := [makeMsg 0 [1]] } [],
    .handleEvents {.epollout} {} [.wrote 5, .wrote 13],
    .handleEvents {.epollin} { sends := [makeMsg 0 [2]] } []]

/-- The third message waits, and the poller wakes the thread for it. -/
theorem no_lost_wakeup_sample :
    ∃ start final, added false false = some start ∧ run step start sampleWakes = some final ∧
      final.outBuffer.getUnreadSize = some 9 ∧ .epollout ∈ final.polled := by
  obtain ⟨start, hstart, hwoken⟩ :=
    no_lost_wakeup false false sampleWakes (by simp [sampleWakes, ConnEvent.Delivered])
  have hrun : ((added false false).bind fun start => run step start sampleWakes).map
      (fun final => (final.closed, final.outBuffer.getUnreadSize)) = some (false, some 9) := by
    decide +kernel
  rw [hstart, Option.bind_some] at hrun
  obtain ⟨final, hfinal, hends⟩ := Option.map_eq_some_iff.mp hrun
  obtain ⟨hopen, hunread⟩ := Prod.mk.inj hends
  refine ⟨start, final, hstart, hfinal, hunread, (hwoken final hfinal hopen).writes ?_⟩
  rw [hunread]
  decide

end BufferedConn

end CProxy
