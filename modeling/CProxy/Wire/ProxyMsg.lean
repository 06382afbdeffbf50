import CProxy.Wire.Frame
import Mathlib.Data.List.TakeWhile

/-! # Messages of a proxy connection

Identifiers are the five-character strings of `rand_str`. They travel as
NUL-terminated strings in fixed character arrays; a public descriptor travels
as a 32-bit number in network order.
-/

namespace CProxy.Wire

open Foundation

/-- The bytes of a `std::string`. -/
abbrev Str := List UInt8

/-- The characters `rand_str` draws: `0`-`9` and `A`-`Z`. -/
def isRandChar (char : UInt8) : Bool :=
  (48 ≤ char && char ≤ 57) || (65 ≤ char && char ≤ 90)

/-- A result of `rand_str(5)`. -/
structure RandStr where
  chars : Str
  length_eq : chars.length = 5
  alnum : ∀ char ∈ chars, isRandChar char = true
  deriving DecidableEq

theorem RandStr.ne_zero (id : RandStr) : ∀ char ∈ id.chars, char ≠ 0 := by
  rintro char hchar rfl
  exact absurd (id.alnum 0 hchar) (by decide)

theorem RandStr.chars_injective : Function.Injective RandStr.chars := by
  rintro ⟨first, _, _⟩ ⟨second, _, _⟩ heq
  subst heq
  rfl

/-! ## Strings in character arrays -/

/-- A `char[size]` after `strcpy`. The bytes behind the terminator, which
`strcpy` leaves alone and no reader looks at, are shown as zero. -/
def charArray (size : Nat) (text : Str) : List UInt8 :=
  text ++ List.replicate (size - text.length) 0

/-- `std::string(const char *)`: the bytes before the first NUL. -/
def cString (bytes : List UInt8) : Str := bytes.takeWhile (· ≠ 0)

theorem charArray_length {size : Nat} {text : Str} (hfits : text.length ≤ size) :
    (charArray size text).length = size := by
  simp [charArray]
  omega

theorem cString_charArray {size : Nat} {text : Str} (hfits : text.length < size)
    (hzero : ∀ char ∈ text, char ≠ 0) (rest : List UInt8) :
    cString (charArray size text ++ rest) = text := by
  obtain ⟨pad, hpad⟩ : ∃ pad, size - text.length = pad + 1 := ⟨size - text.length - 1, by omega⟩
  unfold cString charArray
  rw [hpad, List.replicate_succ, List.append_assoc, List.cons_append,
    List.takeWhile_append_of_pos (by simpa using hzero)]
  simp

/-! ## The three messages -/

inductive ProxyCtlMsg where
  | proxyMetaSet (ctlId tunId proxyId : Str)
  | startProxyConnReq (publicFd : Nat) (proxyId : Str)
  | startProxyConnRsp (publicFd : Nat) (proxyId : Str)
  deriving DecidableEq, Repr

namespace ProxyCtlMsg

/-- The enumerator in `ProxyCtlMsgType`. -/
def type : ProxyCtlMsg → Nat
  | proxyMetaSet .. => 0
  | startProxyConnReq .. => 1
  | startProxyConnRsp .. => 2

/-- `StartProxyConnReqMsg` and `StartProxyConnRspMsg`: the descriptor, the
identifier and two bytes of padding. -/
def startBody (publicFd : Nat) (proxyId : Str) : List UInt8 :=
  beBytes 4 publicFd ++ (charArray 10 proxyId ++ [0, 0])

/-- The message struct as the sender fills it. -/
def body : ProxyCtlMsg → List UInt8
  | proxyMetaSet ctlId tunId proxyId =>
      charArray 10 ctlId ++ (charArray 10 tunId ++ charArray 10 proxyId)
  | startProxyConnReq publicFd proxyId => startBody publicFd proxyId
  | startProxyConnRsp publicFd proxyId => startBody publicFd proxyId

/-- The bytes `SendMsg` or `send_msg_dirct` puts on the proxy connection. -/
def wire (msg : ProxyCtlMsg) : List UInt8 := (makeMsg msg.type msg.body).wire

/-- The `switch` of `ProxyConn::handleRead`. A type without a case is ignored
(`some none`); a body of another size than its struct has no defined reading. -/
def decode (type : Nat) (body : List UInt8) : Option (Option ProxyCtlMsg) :=
  match type with
  | 0 =>
      if body.length = 30 then
        some (some (proxyMetaSet (cString body) (cString (body.drop 10)) (cString (body.drop 20))))
      else none
  | 1 =>
      if body.length = 16 then
        some (some (startProxyConnReq (beValue (body.take 4)) (cString (body.drop 4))))
      else none
  | 2 =>
      if body.length = 16 then
        some (some (startProxyConnRsp (beValue (body.take 4)) (cString (body.drop 4))))
      else none
  | _ => some none

/-- The messages the two programs build: identifiers from `rand_str` and
descriptors that fit an `int`. -/
inductive Sent : ProxyCtlMsg → Prop
  | proxyMetaSet (ctlId tunId proxyId : RandStr) :
      Sent (proxyMetaSet ctlId.chars tunId.chars proxyId.chars)
  | startProxyConnReq (publicFd : Nat) (hfd : publicFd ≤ 2147483647) (proxyId : RandStr) :
      Sent (startProxyConnReq publicFd proxyId.chars)
  | startProxyConnRsp (publicFd : Nat) (hfd : publicFd ≤ 2147483647) (proxyId : RandStr) :
      Sent (startProxyConnRsp publicFd proxyId.chars)

theorem charArray_randStr_length (id : RandStr) : (charArray 10 id.chars).length = 10 :=
  charArray_length (by simp [id.length_eq])

theorem cString_randStr (id : RandStr) (rest : List UInt8) :
    cString (charArray 10 id.chars ++ rest) = id.chars :=
  cString_charArray (by simp [id.length_eq]) id.ne_zero rest

theorem startBody_length (publicFd : Nat) (id : RandStr) :
    (startBody publicFd id.chars).length = 16 := by
  simp [startBody, charArray_randStr_length]

theorem startBody_publicFd {publicFd : Nat} (hfd : publicFd ≤ 2147483647) (proxyId : Str) :
    beValue ((startBody publicFd proxyId).take 4) = publicFd := by
  rw [startBody, List.take_left' (beBytes_length 4 publicFd)]
  exact beValue_beBytes 4 publicFd (by omega)

theorem startBody_proxyId (publicFd : Nat) (id : RandStr) :
    cString ((startBody publicFd id.chars).drop 4) = id.chars := by
  rw [startBody, List.drop_left' (beBytes_length 4 publicFd)]
  exact cString_randStr id [0, 0]

theorem body_length {msg : ProxyCtlMsg} (hsent : Sent msg) :
    msg.body.length = if msg.type = 0 then 30 else 16 := by
  cases hsent with
  | proxyMetaSet => simp [body, type, charArray_randStr_length]
  | startProxyConnReq => simp [body, type, startBody_length]
  | startProxyConnRsp => simp [body, type, startBody_length]

theorem decode_proxyMetaSet {bytes : List UInt8} (hlength : bytes.length = 30) :
    decode 0 bytes = some (some
      (proxyMetaSet (cString bytes) (cString (bytes.drop 10)) (cString (bytes.drop 20)))) := by
  simp [decode, hlength]

theorem decode_body {msg : ProxyCtlMsg} (hsent : Sent msg) :
    decode msg.type msg.body = some (some msg) := by
  cases hsent with
  | proxyMetaSet ctlId tunId proxyId =>
      have hlength : (charArray 10 ctlId.chars ++
          (charArray 10 tunId.chars ++ charArray 10 proxyId.chars)).length = 30 := by
        simp [charArray_randStr_length]
      have htun : (charArray 10 ctlId.chars ++
          (charArray 10 tunId.chars ++ charArray 10 proxyId.chars)).drop 10 =
            charArray 10 tunId.chars ++ charArray 10 proxyId.chars :=
        List.drop_left' (charArray_randStr_length ctlId)
      have hproxy : (charArray 10 ctlId.chars ++
          (charArray 10 tunId.chars ++ charArray 10 proxyId.chars)).drop 20 =
            charArray 10 proxyId.chars ++ [] := by
        rw [← List.append_assoc, List.append_nil]
        exact List.drop_left' (by simp [charArray_randStr_length])
      change decode 0 (charArray 10 ctlId.chars ++ _) = _
      rw [decode_proxyMetaSet hlength, htun, hproxy]
      simp only [cString_randStr]
  | startProxyConnReq publicFd hfd proxyId =>
      simp [decode, type, body, startBody_length, startBody_publicFd hfd, startBody_proxyId]
  | startProxyConnRsp publicFd hfd proxyId =>
      simp [decode, type, body, startBody_length, startBody_publicFd hfd, startBody_proxyId]

theorem wire_ne_nil (msg : ProxyCtlMsg) : msg.wire ≠ [] := by
  intro hnil
  have hlength := makeMsg_wire_length msg.type msg.body
  rw [← wire, hnil] at hlength
  simp at hlength
  omega

/-- A message is read back from the front of the stream, with the bytes behind it untouched. -/
theorem readMsg_wire {msg : ProxyCtlMsg} (hsent : Sent msg) (rest : List UInt8) :
    readMsg (msg.wire ++ rest) = .message msg.type msg.body rest := by
  apply Wire.readMsg_wire
  · cases hsent <;> simp [type]
  · rw [body_length hsent, maxMsgLen]
    split <;> omega

/-- Two streams that start with a sent message and are equal have that message in common. -/
theorem wire_append_inj {first second : ProxyCtlMsg} (hfirst : Sent first) (hsecond : Sent second)
    {rest others : List UInt8} (heq : first.wire ++ rest = second.wire ++ others) :
    first = second ∧ rest = others := by
  have hread := readMsg_wire hfirst rest
  rw [heq, readMsg_wire hsecond others] at hread
  injection hread with htype hbody hrest
  have hdecode := decode_body hfirst
  rw [← htype, ← hbody, decode_body hsecond] at hdecode
  exact ⟨(Option.some.inj (Option.some.inj hdecode)).symm, hrest.symm⟩

end ProxyCtlMsg

end CProxy.Wire
