import CProxy.Foundation.Frames
import CProxy.Lib.BufferedConn
import CProxy.Lib.CtlConn

/-! # When a control connection is closed

The constructors of `Conn` and `Channel` leave `in_buffer_empty_` and `peer_closed_` as they
find them. Both are set and never cleared: the one by a `read(2)` that returns 0, the other
by an event that tells of a hang-up. `HandleEvents` reads one message at a time and closes
the connection once both are set.
-/

namespace CProxy

open Foundation Wire

/-- A call of `handleRead`. `sawEnd` is history: a `read(2)` has returned 0. -/
structure ReadCall where
  reader : MsgReader
  sawEnd : Bool := false
  deriving DecidableEq

/-- The next `read(2)` returns 0. -/
def Wire.MsgReader.AtEnd (reader : MsgReader) : Prop :=
  reader.incoming = [] ∧ reader.closed = true

instance (reader : MsgReader) : Decidable reader.AtEnd :=
  inferInstanceAs (Decidable (_ ∧ _))

/-- The kernel reports that a connection is broken once what has arrived is read. -/
def ReadCall.step (call : ReadCall) (event : ReaderEvent) : Option ReadCall :=
  match event with
  | .read count => (call.reader.step (.read count)).map fun reader =>
      { reader := reader, sawEnd := call.sawEnd || decide call.reader.AtEnd }
  | .broken =>
      if call.reader.AtEnd then
        (call.reader.step .broken).map fun reader => { call with reader := reader }
      else none
  | event => (call.reader.step event).map fun reader => { call with reader := reader }

/-- A `CtlConn` and its socket: what has arrived and is unread, and whether the peer has hung
up. The last four fields are history: the bytes read, the handlers called, whether a
`read(2)` has returned 0, and whether `HandleEvents` has ignored EPOLLOUT. -/
structure EndingConn where
  conn : BufferedConn
  incoming : List UInt8 := []
  hungUp : Bool := false
  consumed : List UInt8 := []
  handled : List HandlerCall := []
  sawEnd : Bool := false
  ignored : Bool := false

inductive EndingEvent where
  | arrive (bytes : List UInt8)
  | hangUp
  | sendMsg (msg : Msg)
  /-- `reads` is what happens until `handleRead` returns, `sends` what its handlers send. -/
  | handleEvents (revents : Finset EpollFlag) (reads : List ReaderEvent) (sends : List Msg)
      (answers : List WriteAnswer)

namespace EndingConn

/-- The constructors, for the values they find in the two fields, and `AddToPoller`. -/
def init (inBufferEmpty peerClosed : Bool) : Option EndingConn :=
  (BufferedConn.added inBufferEmpty peerClosed).map fun conn => { conn := conn }

/-- All that has come to the socket. -/
def stream (s : EndingConn) : List UInt8 := s.consumed ++ s.incoming

def startRead (s : EndingConn) : ReadCall where
  reader := {
    incoming := s.incoming
    closed := s.hungUp
    inBufferEmpty := s.conn.inBufferEmpty }

def readDone (s : EndingConn) (call : ReadCall) (calls : List HandlerCall) : EndingConn :=
  { s with
    incoming := call.reader.incoming
    hungUp := call.reader.closed
    consumed := s.consumed ++
      call.reader.arrived.take (call.reader.arrived.length - call.reader.incoming.length)
    handled := s.handled ++ calls
    sawEnd := s.sawEnd || call.sawEnd }

/-- `CtlConn::handleRead`, with what it does to the connection. -/
def handleRead (s : EndingConn) (reads : List ReaderEvent) (sends : List Msg) :
    Option (EndingConn × ReadEffect) :=
  (run ReadCall.step s.startRead reads).bind fun call =>
    match call.reader.point with
    | .returned outcome => (dispatch outcome).map fun calls =>
        (s.readDone call calls, { sawEnd := call.sawEnd, sends := sends })
    | _ => none

/-- `Channel::HandleEvents`. The kernel reports a hang-up only when there is one. -/
def handleEvents (s : EndingConn) (revents : Finset EpollFlag) (reads : List ReaderEvent)
    (sends : List Msg) (answers : List WriteAnswer) : Option EndingConn :=
  if (.epollhup ∈ revents ∨ .epollrdhup ∈ revents) ∧ s.hungUp = false then none
  else
    let read :=
      if .epollin ∈ revents ∨ .epollpri ∈ revents then s.handleRead reads sends else some (s, {})
    read.bind fun (s, effect) =>
      (s.conn.handleEvents revents effect answers).map fun conn => { s with
        conn := conn
        ignored := s.ignored || decide (.epollout ∈ revents ∧ conn.channel.peerClosed = true) }

def step (s : EndingConn) : EndingEvent → Option EndingConn
  | .arrive bytes =>
      if s.hungUp then none else some { s with incoming := s.incoming ++ bytes }
  | .hangUp => some { s with hungUp := true }
  | .sendMsg msg => (s.conn.sendMsg msg).map fun conn => { s with conn := conn }
  | .handleEvents revents reads sends answers => s.handleEvents revents reads sends answers

/-- The bytes of one message, which begins with its length and its type. -/
def CompleteFrame (frame : List UInt8) : Prop :=
  8 ≤ frame.length ∧ frame.length ≤ msgSize ∧ beValue (frame.take 4) = frame.length

/-- The handlers called for a message. -/
def frameCalls (frame : List UInt8) : Option (List HandlerCall) :=
  dispatch (.switch frame.length (frame.drop 4))

/-- `close_handler_` runs after a read that has returned 0, and then every message has been
handed to its handler. EPOLLOUT is ignored only after the peer has hung up. -/
structure CloseAfterEnd (s : EndingConn) : Prop where
  sawEnd : s.conn.closed = true → s.sawEnd = true
  delivered : s.conn.closed = true → Delivered CompleteFrame frameCalls s.stream s.handled
  hungUp : s.ignored = true → s.hungUp = true

end EndingConn

/-! ## The two flags of a connection -/

namespace BufferedConn

/-- What `postHandle` and `HandleEvents` decide by, and whether the connection has closed. -/
def flags (conn : BufferedConn) : Bool × Bool × Bool :=
  (conn.inBufferEmpty, conn.channel.peerClosed, conn.closed)

variable {conn conn' : BufferedConn} {revents : Finset EpollFlag} {effect : ReadEffect}
  {answers : List WriteAnswer}

theorem sendMsg_flags {msg : Msg} (hsend : conn.sendMsg msg = some conn') :
    conn'.flags = conn.flags := by
  rcases sendMsg_cases hsend with rfl | ⟨buffer, rfl⟩
  · rfl
  · rfl

theorem sendAll_flags {msgs : List Msg} (hsend : conn.sendAll msgs = some conn') :
    conn'.flags = conn.flags := by
  induction msgs generalizing conn with
  | nil =>
      obtain rfl := Option.some.inj hsend
      rfl
  | cons msg rest ih =>
      obtain ⟨middle, hmiddle, hrest⟩ := Option.bind_eq_some_iff.mp hsend
      exact (ih hrest).trans (sendMsg_flags hmiddle)

theorem handleWrite_flags (hwrite : conn.handleWrite answers = some conn') :
    conn'.flags = conn.flags := by
  obtain ⟨unread, -, hwrite⟩ := Option.bind_eq_some_iff.mp hwrite
  by_cases hnone : unread ≤ 0
  · rw [if_pos hnone, Option.some.injEq] at hwrite
    rw [hwrite]
  · rw [if_neg hnone] at hwrite
    obtain ⟨writer, -, hwrite⟩ := Option.bind_eq_some_iff.mp hwrite
    obtain ⟨left, -, rfl⟩ := Option.map_eq_some_iff.mp hwrite
    by_cases hleft : left > 0
    · simp only [if_pos hleft]
      rfl
    · simp only [if_neg hleft]
      rfl

theorem postHandle_flags (hpost : conn.postHandle = some conn') :
    conn'.flags = (conn.inBufferEmpty, conn.channel.peerClosed,
      conn.closed || (conn.inBufferEmpty && conn.channel.peerClosed)) := by
  unfold postHandle at hpost
  by_cases hend : conn.inBufferEmpty ∧ conn.channel.peerClosed
  · rw [if_pos hend] at hpost
    obtain rfl := Option.some.inj hpost
    simp [flags, hend.1, hend.2]
  · rw [if_neg hend] at hpost
    obtain ⟨unread, -, rfl⟩ := Option.map_eq_some_iff.mp hpost
    have hboth : (conn.inBufferEmpty && conn.channel.peerClosed) = false := by
      simpa using hend
    rw [hboth, Bool.or_false]
    by_cases hunread : unread > 0
    · simp only [if_pos hunread]
      rfl
    · simp only [if_neg hunread]
      rfl

/-- `HandleEvents` sets the flags by the event and by what has been read, and closes the
connection when both are set. -/
theorem handleEvents_flags (hread : effect.sawEnd = true → .epollin ∈ revents ∨ .epollpri ∈ revents)
    (hhandle : conn.handleEvents revents effect answers = some conn') :
    conn'.inBufferEmpty = (conn.inBufferEmpty || effect.sawEnd) ∧
      conn'.channel.peerClosed =
        (conn.channel.peerClosed || decide (.epollhup ∈ revents ∨ .epollrdhup ∈ revents)) ∧
      (conn'.closed = true → conn.closed = true ∨
        conn'.inBufferEmpty = true ∧ conn'.channel.peerClosed = true) := by
  unfold handleEvents at hhandle
  by_cases hnone : revents = ∅
  · rw [if_pos hnone] at hhandle
    obtain rfl := Option.some.inj hhandle
    have hsaw : effect.sawEnd = false := by
      rw [Bool.eq_false_iff]
      intro hsaw
      simpa [hnone] using hread hsaw
    simp only [hsaw, Bool.or_false]
    exact ⟨rfl, rfl, Or.inl⟩
  · rw [if_neg hnone] at hhandle
    obtain ⟨afterRead, hafterRead, hhandle⟩ := Option.bind_eq_some_iff.mp hhandle
    obtain ⟨afterWrite, hafterWrite, hpost⟩ := Option.bind_eq_some_iff.mp hhandle
    have hfirst : afterRead.flags = (conn.inBufferEmpty || effect.sawEnd,
        (conn.noteRevents revents).channel.peerClosed, conn.closed) := by
      by_cases hin : .epollin ∈ revents ∨ .epollpri ∈ revents
      · rw [if_pos hin] at hafterRead
        exact sendAll_flags hafterRead
      · rw [if_neg hin] at hafterRead
        obtain rfl := Option.some.inj hafterRead
        have hsaw : effect.sawEnd = false := by
          rw [Bool.eq_false_iff]
          exact fun hsaw => hin (hread hsaw)
        rw [hsaw, Bool.or_false]
        rfl
    have hsecond : afterWrite.flags = afterRead.flags := by
      by_cases hout : .epollout ∈ revents ∧ afterRead.channel.peerClosed = false
      · rw [if_pos hout] at hafterWrite
        exact handleWrite_flags hafterWrite
      · rw [if_neg hout] at hafterWrite
        rw [Option.some.inj hafterWrite]
    have hlast := postHandle_flags hpost
    simp only [flags, Prod.mk.injEq] at hfirst hsecond hlast
    obtain ⟨hempty, hpeer, hclosed⟩ := hfirst
    obtain ⟨hempty', hpeer', hclosed'⟩ := hsecond
    obtain ⟨hempty'', hpeer'', hclosed''⟩ := hlast
    refine ⟨hempty''.trans (hempty'.trans hempty), hpeer''.trans (hpeer'.trans hpeer), ?_⟩
    intro hend
    rw [hclosed'', hclosed', hclosed, Bool.or_eq_true, Bool.and_eq_true] at hend
    rcases hend with hbefore | hboth
    · exact Or.inl hbefore
    · rw [hempty'', hpeer'']
      exact Or.inr hboth

end BufferedConn

namespace EndingConn

/-! ## Messages in the stream -/

theorem CompleteFrame.length_eq {stream first rest : List UInt8} (hframe : CompleteFrame first)
    (heq : stream = first ++ rest) : beValue (stream.take 4) = first.length := by
  have hfour : 4 ≤ first.length := le_trans (by omega) hframe.1
  rw [heq, List.take_append_of_le_length hfour]
  exact hframe.2.2

/-- The length comes first, so a message is not the beginning of another. -/
theorem completeFrame_prefixFree : PrefixFree CompleteFrame := by
  intro first second rest rest' hfirst hsecond heq
  have hlength : first.length = second.length :=
    (hfirst.length_eq rfl).symm.trans (hsecond.length_eq heq)
  exact (List.append_inj heq hlength).1

theorem not_completeFrame_nil : ¬ CompleteFrame [] := by
  intro hframe
  exact absurd hframe.1 (by decide)

/-- A length that no message has. -/
theorem noFrame_of_refused {arrived incoming more : List UInt8} {len : Nat}
    (hbad : len ≤ 4 ∨ msgSize < len) (hbehind : MsgReader.Behind arrived len [] incoming)
    {head : List UInt8} (harrived : arrived = head ++ incoming) :
    NoFrame CompleteFrame (head ++ more) := by
  obtain ⟨found, hfound, hvalue, hsplit⟩ := hbehind
  rw [List.nil_append, harrived] at hsplit
  obtain rfl := List.append_cancel_right hsplit
  intro first rest hframe heq
  have hlength := hframe.length_eq heq
  rw [List.take_left' hfound, hvalue] at hlength
  have hlow := hframe.1
  have hhigh := hframe.2.1
  omega

/-- A message of which the end is missing. -/
theorem noFrame_of_running {arrived : List UInt8} {point : ReaderPoint}
    (hshape : MsgReader.Shape true arrived [] point)
    (hrunning : ∀ outcome, point ≠ .returned outcome) : NoFrame CompleteFrame arrived := by
  intro first rest hframe heq
  have hlow := hframe.1
  have hlengths := congrArg List.length heq
  rw [List.length_append] at hlengths
  cases hshape with
  | length hgot harrived =>
      rw [List.append_nil] at harrived
      rw [harrived] at hlengths
      omega
  | body hlen hhigh hgot hbehind =>
      obtain ⟨-, hvalue, hrest⟩ := hbehind.split
      have hlength := hframe.length_eq heq
      have hdrop := congrArg List.length hrest
      rw [List.append_nil, List.length_drop] at hdrop
      omega
  | switch hlen hhigh hgot hbehind => exact absurd rfl (hrunning _)
  | refused hnot hlen => exact absurd rfl (hrunning _)

/-! ## A call of the read handler -/

/-- The call has come to the end of the input in the middle of a message. -/
structure CutOff (reader : MsgReader) : Prop where
  atEnd : reader.AtEnd
  noFrame : NoFrame CompleteFrame reader.arrived
  returned : ∃ outcome, reader.point = .returned outcome ∧ ∀ len got, outcome ≠ .switch len got

structure CallInv (s : EndingConn) (call : ReadCall) : Prop where
  arrived : ∃ new, call.reader.arrived = s.incoming ++ new ∧ (s.hungUp = true → new = [])
  hungUp : s.hungUp = true → call.reader.closed = true
  inBufferEmpty : call.reader.inBufferEmpty = (s.conn.inBufferEmpty || call.sawEnd)
  sawEnd : call.sawEnd = true → call.reader.AtEnd
  shape : MsgReader.Shape true call.reader.arrived call.reader.incoming call.reader.point ∨
    CutOff call.reader

variable {s s' : EndingConn} {call call' : ReadCall} {reads : List ReaderEvent}
  {sends : List Msg} {effect : ReadEffect}

theorem callInv_start (s : EndingConn) : CallInv s s.startRead where
  arrived := ⟨[], (List.append_nil _).symm, fun _ => rfl⟩
  hungUp := id
  inBufferEmpty := (Bool.or_false _).symm
  sawEnd := by simp [startRead]
  shape := Or.inl (.length (by simp) rfl)

/-- As long as the call goes on, it has part of a message. -/
theorem CallInv.running (hinv : CallInv s call)
    (hrunning : ∀ outcome, call.reader.point ≠ .returned outcome) :
    MsgReader.Shape true call.reader.arrived call.reader.incoming call.reader.point := by
  rcases hinv.shape with hshape | hcut
  · exact hshape
  · obtain ⟨outcome, hreturned, -⟩ := hcut.returned
    exact absurd hreturned (hrunning outcome)

/-- At the end of the input the call returns without a message. -/
theorem cutOff_leave {reader : MsgReader} (hend : reader.AtEnd)
    (hshape : MsgReader.Shape true reader.arrived reader.incoming reader.point)
    (hrunning : ∀ outcome, reader.point ≠ .returned outcome) (inBufferEmpty : Bool) {num : Nat}
    (hshort : num ≠ MsgReader.size reader.point) :
    CutOff { reader with
      inBufferEmpty := inBufferEmpty
      point := MsgReader.leave inBufferEmpty reader.point num } where
  atEnd := hend
  noFrame := by
    rw [hend.1] at hshape
    exact noFrame_of_running hshape hrunning
  returned := MsgReader.leave_short inBufferEmpty hrunning hshort

theorem CallInv.read (hinv : CallInv s call) {count : Nat}
    (hstep : call.step (.read count) = some call') : CallInv s call' := by
  obtain ⟨reader, hread, rfl⟩ := Option.map_eq_some_iff.mp hstep
  have hrunning := MsgReader.running_of_step hread
  have hshape := hinv.running hrunning
  rcases MsgReader.step_read_cases hread with
    ⟨hincoming, rfl⟩ | ⟨hnil, hclosed, rfl⟩ | ⟨hnil, hopen, rfl⟩
  · have hmore : decide call.reader.AtEnd = false := by
      rw [decide_eq_false_iff_not]
      exact fun hend => hincoming hend.1
    have hnot : call.sawEnd = false := by
      rw [Bool.eq_false_iff]
      exact fun hsaw => hincoming (hinv.sawEnd hsaw).1
    refine ⟨?_, ?_, ?_, ?_, ?_⟩
    · rw [MsgReader.take_arrived]
      exact hinv.arrived
    · rw [MsgReader.take_closed]
      exact hinv.hungUp
    · rw [MsgReader.take_inBufferEmpty, hmore, Bool.or_false]
      exact hinv.inBufferEmpty
    · rw [hmore, hnot]
      simp
    · exact Or.inl (MsgReader.shape_handed hshape hrunning hincoming count)
  · have hend : call.reader.AtEnd := ⟨hnil, hclosed⟩
    refine ⟨hinv.arrived, hinv.hungUp, ?_, fun _ => hend, ?_⟩
    · rw [decide_eq_true hend, Bool.or_true, Bool.or_true]
    · exact Or.inr (cutOff_leave hend hshape hrunning true (hshape.readNum_ne hrunning))
  · have hmore : decide call.reader.AtEnd = false := by
      rw [decide_eq_false_iff_not]
      intro hend
      rw [hend.2] at hopen
      cases hopen
    rw [hmore, Bool.or_false]
    exact hinv

theorem CallInv.step (hinv : CallInv s call) {event : ReaderEvent}
    (hstep : call.step event = some call') : CallInv s call' := by
  cases event with
  | read count => exact hinv.read hstep
  | arrive bytes =>
      obtain ⟨reader, hread, rfl⟩ := Option.map_eq_some_iff.mp hstep
      have hrunning := MsgReader.running_of_step hread
      simp only [MsgReader.step, Option.ite_none_left_eq_some, Option.some.injEq] at hread
      obtain ⟨-, hopen, rfl⟩ := hread
      obtain ⟨new, harrived, hnew⟩ := hinv.arrived
      have hnot : s.hungUp = false := by
        rw [Bool.eq_false_iff]
        exact fun hungUp => hopen (hinv.hungUp hungUp)
      refine ⟨⟨new ++ bytes, ?_, ?_⟩, hinv.hungUp, hinv.inBufferEmpty, ?_, ?_⟩
      · rw [← List.append_assoc, ← harrived]
      · rw [hnot]
        simp
      · exact fun hsaw => absurd (hinv.sawEnd hsaw).2 hopen
      · exact Or.inl (MsgReader.shape_arrive (hinv.running hrunning) hrunning bytes)
  | hangUp =>
      obtain ⟨reader, hread, rfl⟩ := Option.map_eq_some_iff.mp hstep
      have hrunning := MsgReader.running_of_step hread
      simp only [MsgReader.step, Option.ite_none_left_eq_some, Option.some.injEq] at hread
      obtain ⟨-, rfl⟩ := hread
      exact ⟨hinv.arrived, fun _ => rfl, hinv.inBufferEmpty,
        fun hsaw => ⟨(hinv.sawEnd hsaw).1, rfl⟩, Or.inl (hinv.running hrunning)⟩
  | interrupted =>
      obtain ⟨reader, hread, rfl⟩ := Option.map_eq_some_iff.mp hstep
      simp only [MsgReader.step, Option.ite_none_left_eq_some, Option.some.injEq] at hread
      obtain ⟨-, rfl⟩ := hread
      exact hinv
  | broken =>
      simp only [ReadCall.step, Option.ite_none_right_eq_some] at hstep
      obtain ⟨hend, hstep⟩ := hstep
      obtain ⟨reader, hread, rfl⟩ := Option.map_eq_some_iff.mp hstep
      have hrunning := MsgReader.running_of_step hread
      have hshape := hinv.running hrunning
      simp only [MsgReader.step, Option.ite_none_left_eq_some, Option.some.injEq] at hread
      obtain ⟨-, rfl⟩ := hread
      exact ⟨hinv.arrived, hinv.hungUp, hinv.inBufferEmpty, fun _ => hend, Or.inr (cutOff_leave hend
        hshape hrunning call.reader.inBufferEmpty (hshape.sizeMax_ne hrunning))⟩

/-- What may still come behind the bytes that were read. -/
def Future (s : EndingConn) (more : List UInt8) : Prop :=
  s.incoming <+: more ∧ (s.hungUp = true → more = s.incoming)

/-- A call takes one message, or takes bytes behind which there is none. -/
theorem CallInv.returned (hinv : CallInv s call) {outcome : ReadOutcome}
    {calls : List HandlerCall} (hpoint : call.reader.point = .returned outcome)
    (hcalls : dispatch outcome = some calls) :
    ∃ bytes, call.reader.arrived = bytes ++ call.reader.incoming ∧
      (CompleteFrame bytes ∧ frameCalls bytes = some calls ∨
        ∀ more, (s.readDone call calls).Future more → NoFrame CompleteFrame (bytes ++ more)) := by
  rcases hinv.shape with hshape | ⟨⟨hnil, hclosed⟩, hnoFrame, -⟩
  · rw [hpoint] at hshape
    cases hshape with
    | @switch len got hlow hhigh hgot hbehind =>
        obtain ⟨head, hhead, hvalue, harrived⟩ := hbehind
        have hlength : (head ++ got).length = len := by
          rw [List.length_append]
          omega
        have htype : 4 ≤ got.length := by
          by_contra hshort
          simp only [dispatch, if_pos (Nat.not_le.mp hshort)] at hcalls
          cases hcalls
        refine ⟨head ++ got, by rw [harrived, List.append_assoc], Or.inl ⟨⟨?_, ?_, ?_⟩, ?_⟩⟩
        · rw [List.length_append]
          omega
        · rw [hlength]
          exact hhigh
        · rw [List.take_left' hhead, hlength, hvalue]
        · rw [frameCalls, hlength, List.drop_left' hhead]
          exact hcalls
    | refused hnot hlen =>
        obtain ⟨len, hbad, hbehind⟩ := hlen rfl
        have hsplit := hbehind
        obtain ⟨head, -, -, harrived⟩ := hsplit
        exact ⟨head, harrived, Or.inr fun more _ => noFrame_of_refused hbad hbehind harrived⟩
  · refine ⟨call.reader.arrived, by rw [hnil, List.append_nil], Or.inr ?_⟩
    rintro more ⟨-, hmore⟩
    rw [hmore hclosed]
    change NoFrame CompleteFrame (call.reader.arrived ++ call.reader.incoming)
    rw [hnil, List.append_nil]
    exact hnoFrame

/-! ## What a connection keeps whose flags were clear -/

structure EndInv (s : EndingConn) : Prop where
  inBufferEmpty : s.conn.inBufferEmpty = s.sawEnd
  peerClosed : s.conn.channel.peerClosed = true → s.hungUp = true
  sawEnd : s.sawEnd = true → s.hungUp = true ∧ s.incoming = []
  progress : Progress CompleteFrame frameCalls s.Future s.consumed s.handled
  closed : s.conn.closed = true → s.sawEnd = true
  ignored : s.ignored = true → s.hungUp = true

theorem EndInv.closeAfterEnd (hinv : EndInv s) : CloseAfterEnd s where
  sawEnd := hinv.closed
  delivered := by
    intro hclosed
    obtain ⟨hungUp, hnil⟩ := hinv.sawEnd (hinv.closed hclosed)
    have hend : s.Future [] := by
      rw [Future, hnil]
      exact ⟨List.prefix_rfl, fun _ => rfl⟩
    rw [stream, hnil, List.append_nil]
    exact hinv.progress.delivered completeFrame_prefixFree not_completeFrame_nil hend
  hungUp := hinv.ignored

/-- The read handler leaves the connection to its loop, except for what it has read. -/
structure ReadKeeps (s s' : EndingConn) (effect : ReadEffect) : Prop where
  conn : s'.conn = s.conn
  sawEnd : s'.sawEnd = (s.sawEnd || effect.sawEnd)
  atEnd : s'.sawEnd = true → s'.hungUp = true ∧ s'.incoming = []
  hungUp : s.hungUp = true → s'.hungUp = true
  ignored : s'.ignored = s.ignored
  progress : Progress CompleteFrame frameCalls s'.Future s'.consumed s'.handled

theorem EndInv.handleRead (hinv : EndInv s)
    (hread : s.handleRead reads sends = some (s', effect)) : ReadKeeps s s' effect := by
  obtain ⟨call, hrun, hread⟩ := Option.bind_eq_some_iff.mp hread
  have hcall : CallInv s call := run_invariant
    (fun _ _ _ hcall hstep => CallInv.step hcall hstep) (callInv_start s) hrun
  cases hpoint : call.reader.point with
  | length got => simp [hpoint] at hread
  | body len got => simp [hpoint] at hread
  | returned outcome =>
      simp only [hpoint] at hread
      obtain ⟨calls, hcalls, hsame⟩ := Option.map_eq_some_iff.mp hread
      obtain ⟨rfl, rfl⟩ := Prod.mk.inj hsame
      obtain ⟨bytes, harrived, hbytes⟩ := hcall.returned hpoint hcalls
      obtain ⟨new, hnew, hnone⟩ := hcall.arrived
      refine ⟨rfl, rfl, ?_, hcall.hungUp, rfl, ?_⟩
      · intro hsaw
        rcases Bool.or_eq_true_iff.mp hsaw with hbefore | hnow
        · obtain ⟨hungUp, hnil⟩ := hinv.sawEnd hbefore
          refine ⟨hcall.hungUp hungUp, ?_⟩
          rw [hnil, hnone hungUp, harrived] at hnew
          exact (List.append_eq_nil_iff.mp hnew).2
        · exact ⟨(hcall.sawEnd hnow).2, (hcall.sawEnd hnow).1⟩
      · have htaken : call.reader.arrived.take
            (call.reader.arrived.length - call.reader.incoming.length) = bytes := by
          rw [harrived, List.length_append, Nat.add_sub_cancel_right, List.take_left]
        change Progress _ _ _ (s.consumed ++ call.reader.arrived.take _) (s.handled ++ calls)
        rw [htaken]
        apply hinv.progress.step hbytes
        rintro more ⟨hmore, hend⟩
        have hbehind : call.reader.arrived <+: bytes ++ more := by
          rw [harrived]
          exact List.prefix_append_right_inj bytes |>.mpr hmore
        refine ⟨(hnew ▸ List.prefix_append _ _).trans hbehind, ?_⟩
        intro hungUp
        rw [hend (hcall.hungUp hungUp)]
        change bytes ++ call.reader.incoming = s.incoming
        rw [← harrived, hnew, hnone hungUp, List.append_nil]

theorem EndInv.handleEvents (hinv : EndInv s) {revents : Finset EpollFlag}
    {answers : List WriteAnswer}
    (hstep : s.handleEvents revents reads sends answers = some s') : EndInv s' := by
  rw [EndingConn.handleEvents, Option.ite_none_left_eq_some] at hstep
  obtain ⟨hreported, hstep⟩ := hstep
  obtain ⟨⟨middle, effect⟩, hmiddle, hstep⟩ := Option.bind_eq_some_iff.mp hstep
  obtain ⟨conn, hconn, rfl⟩ := Option.map_eq_some_iff.mp hstep
  have hkeeps : ReadKeeps s middle effect := by
    by_cases hin : .epollin ∈ revents ∨ .epollpri ∈ revents
    · rw [if_pos hin] at hmiddle
      exact hinv.handleRead hmiddle
    · rw [if_neg hin, Option.some.injEq] at hmiddle
      obtain ⟨rfl, rfl⟩ := Prod.mk.inj hmiddle
      exact ⟨rfl, (Bool.or_false _).symm, hinv.sawEnd, id, rfl, hinv.progress⟩
  have hread : effect.sawEnd = true → .epollin ∈ revents ∨ .epollpri ∈ revents := by
    intro hsaw
    by_contra hin
    rw [if_neg hin, Option.some.injEq] at hmiddle
    obtain ⟨-, rfl⟩ := Prod.mk.inj hmiddle
    cases hsaw
  obtain ⟨hempty, hpeer, hclosed⟩ := BufferedConn.handleEvents_flags hread hconn
  rw [hkeeps.conn] at hempty hpeer hclosed
  have hpeerClosed : conn.channel.peerClosed = true → middle.hungUp = true := by
    intro hnow
    rw [hpeer, Bool.or_eq_true, decide_eq_true_eq] at hnow
    apply hkeeps.hungUp
    rcases hnow with hbefore | hreport
    · exact hinv.peerClosed hbefore
    · by_contra hnot
      exact hreported ⟨hreport, Bool.not_eq_true _ ▸ hnot⟩
  have hinBufferEmpty : conn.inBufferEmpty = middle.sawEnd := by
    rw [hempty, hkeeps.sawEnd, hinv.inBufferEmpty]
  refine ⟨hinBufferEmpty, hpeerClosed, hkeeps.atEnd, hkeeps.progress, ?_, ?_⟩
  · intro hnow
    rcases hclosed hnow with hbefore | ⟨hboth, -⟩
    · change middle.sawEnd = true
      rw [hkeeps.sawEnd, hinv.closed hbefore, Bool.true_or]
    · exact hinBufferEmpty ▸ hboth
  · intro hnow
    rw [Bool.or_eq_true, decide_eq_true_eq, hkeeps.ignored] at hnow
    rcases hnow with hbefore | ⟨-, hnow⟩
    · exact hkeeps.hungUp (hinv.ignored hbefore)
    · exact hpeerClosed hnow

theorem EndInv.step (hinv : EndInv s) {event : EndingEvent} (hstep : s.step event = some s') :
    EndInv s' := by
  cases event with
  | arrive bytes =>
      simp only [EndingConn.step, Option.ite_none_left_eq_some, Option.some.injEq] at hstep
      obtain ⟨hopen, rfl⟩ := hstep
      refine { hinv with sawEnd := ?_, progress := hinv.progress.mono ?_ }
      · exact fun hsaw => absurd (hinv.sawEnd hsaw).1 hopen
      · rintro more ⟨hmore, -⟩
        exact ⟨(List.prefix_append _ _).trans hmore, fun hungUp => absurd hungUp hopen⟩
  | hangUp =>
      obtain rfl := Option.some.inj hstep
      refine { hinv with
        peerClosed := fun _ => rfl
        sawEnd := fun hsaw => ⟨rfl, (hinv.sawEnd hsaw).2⟩
        progress := hinv.progress.mono ?_
        ignored := fun _ => rfl }
      rintro more ⟨hmore, hend⟩
      exact ⟨hmore, fun _ => hend rfl⟩
  | sendMsg msg =>
      rw [EndingConn.step] at hstep
      obtain ⟨conn, hsend, rfl⟩ := Option.map_eq_some_iff.mp hstep
      have hflags := BufferedConn.sendMsg_flags hsend
      simp only [BufferedConn.flags, Prod.mk.injEq] at hflags
      obtain ⟨hempty, hpeer, hclosed⟩ := hflags
      refine ⟨hempty.trans hinv.inBufferEmpty, ?_, hinv.sawEnd, hinv.progress, ?_, hinv.ignored⟩
      · intro hnow
        exact hinv.peerClosed (hpeer.symm.trans hnow)
      · intro hnow
        exact hinv.closed (hclosed.symm.trans hnow)
  | handleEvents revents reads sends answers => exact hinv.handleEvents hstep

/-! ## What stale flags do -/

/-- The constructors leave the flags as they find them. -/
theorem exists_init (inBufferEmpty peerClosed : Bool) : ∃ conn : BufferedConn,
    init inBufferEmpty peerClosed = some { conn := conn } ∧
      conn.flags = (inBufferEmpty, peerClosed, false) ∧ conn.outBuffer.getUnreadSize = some 0 := by
  obtain ⟨buffer, hbuffer, hempty⟩ := @Buffer.represents_new 1024 65536 (by omega) (by omega)
  rw [init, BufferedConn.added, BufferedConn.new, hbuffer, Option.map_some, Option.map_some,
    Option.map_some]
  exact ⟨_, rfl, rfl, hempty.getUnreadSize⟩

theorem endInv_init {conn : BufferedConn} (hflags : conn.flags = (false, false, false)) :
    EndInv { conn := conn } := by
  simp only [BufferedConn.flags, Prod.mk.injEq] at hflags
  obtain ⟨hempty, hpeer, hclosed⟩ := hflags
  refine ⟨hempty, ?_, by simp, progress_nil, ?_, by simp⟩
  · rw [hpeer]
    simp
  · rw [hclosed]
    simp

def sampleFrame : List UInt8 := [0, 0, 0, 9, 0, 0, 0, 0, 1]

/-- Two messages and a hang-up are there when the first is read. -/
def samplePending : List EndingEvent :=
  [.arrive (sampleFrame ++ sampleFrame), .hangUp,
    .handleEvents {.epollin, .epollrdhup} [.read 4, .read 5] [] []]

/-- The first message is read, and the connection closed, with the second unread. -/
theorem closes_early {conn : BufferedConn} (hstale : conn.inBufferEmpty = true) :
    ∃ s, run step { conn := conn } samplePending = some s ∧ s.conn.closed = true ∧
      s.sawEnd = false ∧ s.incoming = sampleFrame := by
  let pending : EndingConn :=
    { conn := conn, incoming := sampleFrame ++ sampleFrame, hungUp := true }
  have hcall : run ReadCall.step pending.startRead [.read 4, .read 5] = some { reader := {
      point := .returned (.switch 9 [0, 0, 0, 0, 1])
      incoming := sampleFrame
      closed := true
      inBufferEmpty := true
      arrived := sampleFrame ++ sampleFrame } } := by
    rw [startRead, hstale]
    change run ReadCall.step { reader := {
      incoming := sampleFrame ++ sampleFrame, closed := true, inBufferEmpty := true } } _ = _
    decide
  obtain ⟨middle, hread, hsame, hsaw, hleft⟩ : ∃ middle,
      pending.handleRead [.read 4, .read 5] [] = some (middle, {}) ∧ middle.conn = conn ∧
        middle.sawEnd = false ∧ middle.incoming = sampleFrame := by
    rw [handleRead, hcall]
    exact ⟨_, rfl, rfl, rfl, rfl⟩
  have hconn : conn.handleEvents {.epollin, .epollrdhup} {} [] = some
      { conn.noteRevents {.epollin, .epollrdhup} with closed := true } := by
    simp [BufferedConn.handleEvents, BufferedConn.noteRevents, BufferedConn.handleRead,
      BufferedConn.sendAll, BufferedConn.postHandle, hstale]
  have hlast : pending.handleEvents {.epollin, .epollrdhup} [.read 4, .read 5] [] [] =
      some { middle with
        conn := { conn.noteRevents {.epollin, .epollrdhup} with closed := true }
        ignored := middle.ignored || false } := by
    rw [handleEvents, if_neg (by simp [pending]), if_pos (by simp), hread]
    change (middle.conn.handleEvents _ _ _).map _ = _
    rw [hsame, hconn]
    rfl
  have harrived : run step { conn := conn } [.arrive (sampleFrame ++ sampleFrame), .hangUp] =
      some pending := rfl
  exact ⟨_, (run_concat harrived _).trans hlast, rfl, hsaw, hleft⟩

/-- Room at the socket is not used, and the peer is there. -/
theorem ignores_output {conn : BufferedConn} (hempty : conn.inBufferEmpty = false)
    (hstale : conn.channel.peerClosed = true) (hunread : conn.outBuffer.getUnreadSize = some 0) :
    ∃ s, run step { conn := conn } [.handleEvents {.epollout} [] [] []] = some s ∧
      s.ignored = true ∧ s.hungUp = false := by
  have hconn : conn.handleEvents {.epollout} {} [] = some
      ((conn.noteRevents {.epollout}).setEvents BufferedConn.readMask).updateToPoller := by
    simp [BufferedConn.handleEvents, BufferedConn.noteRevents, BufferedConn.postHandle,
      BufferedConn.setEvents, hempty, hstale, hunread]
  have hlast : handleEvents { conn := conn } {.epollout} [] [] [] = some {
      conn := ((conn.noteRevents {.epollout}).setEvents BufferedConn.readMask).updateToPoller
      ignored := true } := by
    rw [handleEvents, if_neg (by simp), if_neg (by simp)]
    change (conn.handleEvents _ _ _).map _ = _
    rw [hconn]
    simp [BufferedConn.updateToPoller, BufferedConn.setEvents, BufferedConn.noteRevents, hstale]
  exact ⟨_, (run_concat (run_nil _) _).trans hlast, rfl, rfl⟩

/-! ## The claim, for every content of the two fields -/

/-- The connection closes after the end of the input, and writes to a live peer, in every run
exactly when the constructors found both fields clear. -/
theorem close_after_end_iff (inBufferEmpty peerClosed : Bool) :
    (∃ start, init inBufferEmpty peerClosed = some start ∧
        ∀ events, Visits step CloseAfterEnd start events) ↔
      inBufferEmpty = false ∧ peerClosed = false := by
  obtain ⟨conn, hinit, hflags, hunread⟩ := exists_init inBufferEmpty peerClosed
  constructor
  · rintro ⟨start, hstart, hall⟩
    rw [hinit, Option.some.injEq] at hstart
    subst hstart
    simp only [BufferedConn.flags, Prod.mk.injEq] at hflags
    obtain ⟨hempty, hpeer, -⟩ := hflags
    have hclear : inBufferEmpty = false := by
      rw [Bool.eq_false_iff]
      rintro rfl
      obtain ⟨s, hrun, hclosed, hsaw, -⟩ := closes_early hempty
      rw [(hall samplePending samplePending s List.prefix_rfl hrun).sawEnd hclosed] at hsaw
      cases hsaw
    subst hclear
    refine ⟨rfl, ?_⟩
    rw [Bool.eq_false_iff]
    rintro rfl
    obtain ⟨s, hrun, hignored, hthere⟩ := ignores_output hempty hpeer hunread
    rw [(hall _ _ s List.prefix_rfl hrun).hungUp hignored] at hthere
    cases hthere
  · rintro ⟨rfl, rfl⟩
    refine ⟨_, hinit, ?_⟩
    intro events before middle _ hrun
    have hinv : EndInv middle :=
      run_invariant (fun _ _ _ hinv hstep => EndInv.step hinv hstep) (endInv_init hflags) hrun
    exact hinv.closeAfterEnd

/-- `in_buffer_empty_` happens to hold true. -/
theorem not_close_after_end :
    ¬ (∀ inBufferEmpty peerClosed, ∃ start, init inBufferEmpty peerClosed = some start ∧
        ∀ events, Visits step CloseAfterEnd start events) ∧
      ∃ start s, init true false = some start ∧ run step start samplePending = some s ∧
        s.conn.closed = true ∧ s.sawEnd = false ∧ s.incoming = sampleFrame := by
  obtain ⟨conn, hinit, hflags, -⟩ := exists_init true false
  simp only [BufferedConn.flags, Prod.mk.injEq] at hflags
  obtain ⟨s, hrun, hclosed, hsaw, hleft⟩ := closes_early hflags.1
  refine ⟨?_, _, s, hinit, hrun, hclosed, hsaw, hleft⟩
  intro hall
  obtain ⟨start, hstart, hruns⟩ := hall true false
  rw [hinit, Option.some.injEq] at hstart
  subst hstart
  rw [(hruns samplePending samplePending s List.prefix_rfl hrun).sawEnd hclosed] at hsaw
  cases hsaw

end EndingConn

end CProxy
