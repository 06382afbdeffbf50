import CProxy.Foundation.Word

/-! # Length-prefixed messages

`CtlMsg` and `ProxyCtlMsg` share one layout: a 32-bit length in network order,
a 32-bit type in host order and up to 2048 bytes of data. The length counts the
whole message. `CtlConn::handleRead` and the idle half of
`ProxyConn::handleRead` read it back the same way, one message a call.
-/

namespace CProxy.Wire

open Foundation

/-- `MAX_CTL_MSG_LEN` and `MAX_MSG_LEN`. -/
def maxMsgLen : Nat := 2048

/-- `sizeof(CtlMsg)` and `sizeof(ProxyCtlMsg)`. -/
def msgSize : Nat := 4 + 4 + maxMsgLen

/-- A message struct; `type` is the number of its enumerator. -/
structure Msg where
  len : Nat
  type : Nat
  data : List UInt8
  deriving DecidableEq, Repr

/-- `MakeCtlMsg` and `make_proxy_ctl_msg`: the data array is zeroed before the copy. -/
def makeMsg (type : Nat) (body : List UInt8) : Msg where
  len := 4 + 4 + body.length
  type := type
  data := body ++ List.replicate (maxMsgLen - body.length) 0

/-- The first `len` bytes of the struct once its length is in network order,
which is what every sender hands to the socket or its buffer. -/
def Msg.wire (msg : Msg) : List UInt8 :=
  (beBytes 4 msg.len ++ leBytes 4 msg.type ++ msg.data).take msg.len

/-- What one call of the reader makes of the bytes of its socket. -/
inductive Received where
  /-- `readn` waits for the rest of a message. -/
  | waiting
  /-- The message is given up after its length was read. -/
  | dropped (rest : List UInt8)
  /-- The body is too short for the type, which is then used unset. -/
  | unset (rest : List UInt8)
  | message (type : Nat) (body rest : List UInt8)
  deriving DecidableEq, Repr

/-- What the call leaves on the socket; `readn` takes all there is of a message
that is not there whole. -/
def Received.rest : Received → List UInt8
  | waiting => []
  | dropped rest => rest
  | unset rest => rest
  | message _ _ rest => rest

/-- The reader of both connection classes, up to its `switch`. -/
def readMsg (stream : List UInt8) : Received :=
  if stream.length < 4 then
    .waiting
  else
    let len := beValue (stream.take 4)
    let rest := stream.drop 4
    -- below 4 the `size_t` difference wraps and `readn` gets a negative `int`
    if len > msgSize ∨ len < 4 then
      .dropped rest
    else if rest.length < len - 4 then
      .waiting
    else if len < 8 then
      .unset (rest.drop (len - 4))
    else
      .message (leValue (rest.take 4)) ((rest.take (len - 4)).drop 4) (rest.drop (len - 4))

theorem makeMsg_wire (type : Nat) (body : List UInt8) :
    (makeMsg type body).wire = beBytes 4 (8 + body.length) ++ (leBytes 4 type ++ body) := by
  simp only [Msg.wire, makeMsg, List.append_assoc]
  rw [← List.append_assoc (leBytes 4 type), ← List.append_assoc (beBytes 4 _)]
  apply List.take_left'
  simp
  omega

@[simp] theorem makeMsg_wire_length (type : Nat) (body : List UInt8) :
    (makeMsg type body).wire.length = 8 + body.length := by
  simp [makeMsg_wire]
  omega

theorem readMsg_short {stream : List UInt8} (hshort : stream.length < 4) :
    readMsg stream = .waiting := by
  simp [readMsg, hshort]

/-- A reader that finds bytes takes some of them. -/
theorem readMsg_rest_length_lt {stream : List UInt8} (hstream : stream ≠ []) :
    (readMsg stream).rest.length < stream.length := by
  have hlength : 0 < stream.length := List.length_pos_iff.mpr hstream
  unfold readMsg
  split
  · exact hlength
  · next hlong =>
      dsimp only
      split
      · simp only [Received.rest, List.length_drop]
        omega
      · split
        · exact hlength
        · split <;> simp only [Received.rest, List.length_drop] <;> omega

/-- The same reading, with more bytes behind what the call has left. -/
def Received.followedBy (more : List UInt8) : Received → Received
  | waiting => waiting
  | dropped rest => dropped (rest ++ more)
  | unset rest => unset (rest ++ more)
  | message type body rest => message type body (rest ++ more)

/-- The four length bytes decide how the rest of the stream is taken. -/
theorem readMsg_append {head : List UInt8} (hhead : head.length = 4) (rest : List UInt8) :
    readMsg (head ++ rest) =
      if beValue head > msgSize ∨ beValue head < 4 then .dropped rest
      else if rest.length < beValue head - 4 then .waiting
      else if beValue head < 8 then .unset (rest.drop (beValue head - 4))
      else .message (leValue (rest.take 4)) ((rest.take (beValue head - 4)).drop 4)
        (rest.drop (beValue head - 4)) := by
  have hlong : ¬ (head ++ rest).length < 4 := by simp [hhead]
  simp only [readMsg, if_neg hlong, List.take_left' hhead, List.drop_left' hhead]

/-- A call that does not wait has not looked at what comes later. -/
theorem readMsg_followedBy {stream : List UInt8} (hread : readMsg stream ≠ .waiting)
    (more : List UInt8) : readMsg (stream ++ more) = (readMsg stream).followedBy more := by
  have hlong : 4 ≤ stream.length := Nat.le_of_not_lt fun hshort => hread (readMsg_short hshort)
  have hhead : (stream.take 4).length = 4 := List.length_take_of_le hlong
  rw [← List.take_append_drop 4 stream, readMsg_append hhead] at hread
  rw [← List.take_append_drop 4 stream, List.append_assoc, readMsg_append hhead,
    readMsg_append hhead]
  split
  · rfl
  · next hsize =>
      rw [if_neg hsize] at hread
      have hthere : ¬ (stream.drop 4).length < beValue (stream.take 4) - 4 :=
        fun hmissing => hread (if_pos hmissing)
      have hstill : ¬ (stream.drop 4 ++ more).length < beValue (stream.take 4) - 4 := by
        rw [List.length_append]
        omega
      rw [if_neg hthere, if_neg hstill, List.drop_append_of_le_length (Nat.le_of_not_lt hthere),
        List.take_append_of_le_length (Nat.le_of_not_lt hthere)]
      split
      · rfl
      · rw [List.take_append_of_le_length (by omega)]
        rfl

theorem beValue_len (body : List UInt8) (hbody : body.length ≤ maxMsgLen) :
    beValue (beBytes 4 (8 + body.length)) = 8 + body.length := by
  apply beValue_beBytes
  simp only [maxMsgLen] at hbody
  omega

/-- Whatever follows it on the stream, a sent message is read back whole and
nothing beyond it is consumed. -/
theorem readMsg_wire (type : Nat) (body rest : List UInt8) (htype : type < 4294967296)
    (hbody : body.length ≤ maxMsgLen) :
    readMsg ((makeMsg type body).wire ++ rest) = .message type body rest := by
  have hpayload : (leBytes 4 type ++ body).length = 8 + body.length - 4 := by
    simp
    omega
  have hsize : ¬ (8 + body.length > msgSize ∨ 8 + body.length < 4) := by
    simp only [msgSize, maxMsgLen] at *
    omega
  have hthere : ¬ ((leBytes 4 type ++ body) ++ rest).length < 8 + body.length - 4 := by
    rw [List.length_append, hpayload]
    omega
  rw [makeMsg_wire, List.append_assoc, readMsg_append (beBytes_length 4 _), beValue_len body hbody,
    if_neg hsize, if_neg hthere, if_neg (by omega), List.take_left' hpayload,
    List.drop_left' hpayload, List.append_assoc, List.take_left' (leBytes_length 4 type),
    List.drop_left' (leBytes_length 4 type), leValue_leBytes 4 type (by simpa using htype)]

end CProxy.Wire
