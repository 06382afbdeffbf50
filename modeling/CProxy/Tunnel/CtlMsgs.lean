import CProxy.Control.Registration
import CProxy.Lib.CtlConn
import CProxy.Tunnel.System

/-! # The messages about a tunnel, in the structs of `Msg.h`

The senders fill a struct on their stack field by field and hand all of its bytes to
`MakeCtlMsg`, those they have not written included. The handlers read their fields
back out of the struct that `CtlConn::handleRead` has copied.
-/

namespace CProxy

open Foundation Wire Registration

/-- What a struct on the stack holds before it is filled. -/
abbrev Stale := Nat → UInt8

def Stale.struct (stale : Stale) (size : Nat) : List UInt8 := (List.range size).map stale

@[simp] theorem Stale.struct_length (stale : Stale) (size : Nat) :
    (stale.struct size).length = size := by
  simp [Stale.struct]

/-- `std::string::c_str`, as `strcpy` reads it. -/
def cStr (text : Str) : CString where
  chars := text.takeWhile (· ≠ 0)
  noNul := by
    intro char hchar
    simpa using List.mem_takeWhile_imp hchar

@[simp] theorem cStr_randStr (id : RandStr) : (cStr id.chars).chars = id.chars := by
  rw [cStr, List.takeWhile_eq_self_iff]
  simpa using id.ne_zero

/-- The bytes of the struct a handler gets, all of them copied. -/
def HandlerCall.struct (call : HandlerCall) : Option (List UInt8) :=
  if call.arg.all Option.isSome then some (call.arg.map (·.getD 0)) else none

namespace CtlMsg

/-- The enumerator in `CtlMsgType`. -/
def type : CtlMsg → Nat
  | notifyClientNeedProxy => 4
  | notifyProxyShutdownPeerConn .. => 5
  | freeProxyConnReq .. => 6

/-- The struct of the message, filled by `Control::notifyClientNeedProxy`, by
`Control::shutdownFromPublic` or `Client::shutdownFromLocal`, or by the client's
`shutdonwLocalConn`. -/
def fill (tunId : RandStr) (proxyPort : Nat) (stale : Stale) : CtlMsg → Option (List UInt8)
  | notifyClientNeedProxy => do
      let block ← Memory.strcpy (stale.struct 16) 0 (cStr tunId.chars)
      -- two bytes of padding are before the port
      storeWord block 12 proxyPort
  | notifyProxyShutdownPeerConn proxyId tranCount => do
      let block ← Memory.store (stale.struct 24) 20 (beBytes 4 tranCount)
      let block ← Memory.strcpy block 0 (cStr tunId.chars)
      Memory.strcpy block 10 (cStr proxyId)
  | freeProxyConnReq proxyId => do
      let block ← Memory.strcpy (stale.struct 20) 0 (cStr tunId.chars)
      Memory.strcpy block 10 (cStr proxyId)

/-- What `SendMsg` is called with. -/
def toSent (tunId : RandStr) (proxyPort : Nat) (stale : Stale) (msg : CtlMsg) : Option SentMsg :=
  (msg.fill tunId proxyPort stale).bind fun block =>
    if hsized : sentBodySize msg.type = some block.length then some ⟨msg.type, block, hsized⟩
    else none

/-- The fields that the handler of a message reads, `tun_id` first. Other types are
not about a tunnel. -/
def read (call : HandlerCall) : Option (Str × CtlMsg) := do
  let bytes ← call.struct
  let tunId ← Memory.readString bytes 0
  match call.type with
  | 4 => some (tunId.chars, notifyClientNeedProxy)
  | 5 => do
      let proxyId ← Memory.readString bytes 10
      let tranCount ← Memory.load bytes 20 4
      some (tunId.chars, notifyProxyShutdownPeerConn proxyId.chars (beValue tranCount))
  | 6 => do
      let proxyId ← Memory.readString bytes 10
      some (tunId.chars, freeProxyConnReq proxyId.chars)
  | _ => none

/-- `server_proxy_port`, which `Client::handleProxyNotify` connects to. -/
def serverProxyPort (call : HandlerCall) : Option Nat :=
  call.struct.bind fun bytes => loadWord bytes 12

/-- A message of the two programs: an identifier from `rand_str` and a `u_int32_t`. -/
inductive Named : CtlMsg → Prop
  | notifyClientNeedProxy : Named notifyClientNeedProxy
  | notifyProxyShutdownPeerConn (id : RandStr) {tranCount : Nat} (hcount : tranCount < 4294967296) :
      Named (notifyProxyShutdownPeerConn id.chars tranCount)
  | freeProxyConnReq (id : RandStr) : Named (freeProxyConnReq id.chars)

/-- A message of the server's senders. -/
inductive FromServer : CtlMsg → Prop
  | notifyClientNeedProxy : FromServer notifyClientNeedProxy
  | notifyProxyShutdownPeerConn (id : RandStr) {tranCount : Nat} (hcount : tranCount < 4294967296) :
      FromServer (notifyProxyShutdownPeerConn id.chars tranCount)

/-- A message of the client's senders. -/
inductive FromClient : CtlMsg → Prop
  | notifyProxyShutdownPeerConn (id : RandStr) {tranCount : Nat} (hcount : tranCount < 4294967296) :
      FromClient (notifyProxyShutdownPeerConn id.chars tranCount)
  | freeProxyConnReq (id : RandStr) : FromClient (freeProxyConnReq id.chars)

theorem FromServer.named {msg : CtlMsg} (hmsg : msg.FromServer) : msg.Named := by
  cases hmsg with
  | notifyClientNeedProxy => exact .notifyClientNeedProxy
  | notifyProxyShutdownPeerConn id hcount => exact .notifyProxyShutdownPeerConn id hcount

theorem FromClient.named {msg : CtlMsg} (hmsg : msg.FromClient) : msg.Named := by
  cases hmsg with
  | notifyProxyShutdownPeerConn id hcount => exact .notifyProxyShutdownPeerConn id hcount
  | freeProxyConnReq id => exact .freeProxyConnReq id

end CtlMsg

@[simp] theorem SentMsg.call_struct (sent : SentMsg) : sent.call.struct = some sent.body := by
  simp [HandlerCall.struct, SentMsg.call, Function.comp_def]

/-! ## A filled struct -/

variable {tunId : RandStr} {proxyPort : Nat} {stale : Stale} {block : List UInt8}

/-- An identifier that has been copied into a struct is there, and what is before it and
behind its terminator stays. -/
theorem exists_strcpy_randStr (block : List UInt8) (offset : Nat) (id : RandStr)
    (hfits : offset + 6 ≤ block.length) :
    ∃ next, Memory.strcpy block offset (cStr id.chars) = some next ∧
      next.length = block.length ∧ Memory.Holds next offset (id.chars ++ [0]) ∧
      ∀ place bytes, Memory.Holds block place bytes →
        place + bytes.length ≤ offset ∨ offset + 6 ≤ place → Memory.Holds next place bytes := by
  have hlength : ((cStr id.chars).chars ++ [0]).length = 6 := by simp [id.length_eq]
  obtain ⟨next, hnext⟩ := @Memory.exists_store block ((cStr id.chars).chars ++ [0]) offset
    (by omega)
  refine ⟨next, hnext, Memory.store_length hnext, ?_, ?_⟩
  · have hholds := Memory.holds_store hnext
    rwa [cStr_randStr] at hholds
  · intro place bytes hholds hapart
    exact hholds.store (by omega) hnext

theorem readString_randStr {id : RandStr} {offset : Nat}
    (hholds : Memory.Holds block offset (id.chars ++ [0])) :
    Memory.readString block offset = some ⟨id.chars, id.ne_zero⟩ :=
  @Memory.Holds.readString block offset ⟨id.chars, id.ne_zero⟩ hholds

/-- A struct that has the size its type is sent with. -/
theorem CtlMsg.toSent_of_fill {msg : CtlMsg} (hfill : msg.fill tunId proxyPort stale = some block)
    (hsized : sentBodySize msg.type = some block.length) :
    msg.toSent tunId proxyPort stale = some ⟨msg.type, block, hsized⟩ := by
  rw [CtlMsg.toSent, hfill, Option.bind_some, dif_pos hsized]

/-- Whatever was in the struct, a message of the two programs has the size that its
handler expects and is read back as it was filled in. -/
theorem CtlMsg.Named.exists_toSent {msg : CtlMsg} (hnamed : msg.Named) (tunId : RandStr)
    (proxyPort : Nat) (stale : Stale) :
    ∃ sent, msg.toSent tunId proxyPort stale = some sent ∧
      CtlMsg.read sent.call = some (tunId.chars, msg) ∧
      (msg = .notifyClientNeedProxy → proxyPort < 4294967296 →
        CtlMsg.serverProxyPort sent.call = some proxyPort) := by
  cases hnamed with
  | notifyClientNeedProxy =>
      obtain ⟨named, hnamed, hlength, htun, -⟩ :=
        exists_strcpy_randStr (stale.struct 16) 0 tunId (by simp)
      rw [Stale.struct_length] at hlength
      obtain ⟨block, hblock, hsame, hport, hkept⟩ :=
        exists_storeWord named 12 proxyPort (by omega)
      have hfill : CtlMsg.fill tunId proxyPort stale .notifyClientNeedProxy = some block := by
        rw [fill, hnamed, Option.bind_eq_bind, Option.bind_some, hblock]
      refine ⟨_, toSent_of_fill hfill (by rw [hsame, hlength]; rfl), ?_, ?_⟩
      · have hread := readString_randStr (hkept 0 _ htun (by simp [tunId.length_eq]))
        simp [CtlMsg.read, hread, SentMsg.call, type, HandlerCall.struct, Function.comp_def]
      · intro _ hfits
        simp only [serverProxyPort, SentMsg.call_struct, Option.bind_some]
        exact loadWord_of_holds hport hfits
  | @notifyProxyShutdownPeerConn id tranCount hcount =>
      obtain ⟨counted, hcounted⟩ :=
        @Memory.exists_store (stale.struct 24) (beBytes 4 tranCount) 20 (by simp)
      have htotal := Memory.holds_store hcounted
      have hsize := Memory.store_length hcounted
      rw [Stale.struct_length] at hsize
      obtain ⟨named, hnamed, hlength, htun, hfirst⟩ :=
        exists_strcpy_randStr counted 0 tunId (by omega)
      obtain ⟨block, hblock, hsame, hproxy, hsecond⟩ :=
        exists_strcpy_randStr named 10 id (by omega)
      have hfill : CtlMsg.fill tunId proxyPort stale
          (.notifyProxyShutdownPeerConn id.chars tranCount) = some block := by
        simp only [fill, hcounted, hnamed, hblock, Option.bind_eq_bind, Option.bind_some]
      refine ⟨_, toSent_of_fill hfill (by rw [hsame, hlength, hsize]; rfl), ?_, by simp⟩
      have htunId := readString_randStr (hsecond 0 _ htun (by simp [tunId.length_eq]))
      have hproxyId := readString_randStr hproxy
      have hload := (hsecond 20 _ (hfirst 20 _ htotal (by simp)) (by simp)).load
        (List.ne_nil_of_length_pos (by simp))
      rw [beBytes_length] at hload
      simp [CtlMsg.read, htunId, hproxyId, hload, SentMsg.call, type, HandlerCall.struct,
        Function.comp_def, beValue_beBytes 4 tranCount hcount]
  | freeProxyConnReq id =>
      obtain ⟨named, hnamed, hlength, htun, -⟩ :=
        exists_strcpy_randStr (stale.struct 20) 0 tunId (by simp)
      rw [Stale.struct_length] at hlength
      obtain ⟨block, hblock, hsame, hproxy, hkept⟩ :=
        exists_strcpy_randStr named 10 id (by omega)
      have hfill : CtlMsg.fill tunId proxyPort stale (.freeProxyConnReq id.chars) =
          some block := by
        simp only [fill, hnamed, hblock, Option.bind_eq_bind, Option.bind_some]
      refine ⟨_, toSent_of_fill hfill (by rw [hsame, hlength]; rfl), ?_, by simp⟩
      have htunId := readString_randStr (hkept 0 _ htun (by simp [tunId.length_eq]))
      have hproxyId := readString_randStr hproxy
      simp [CtlMsg.read, htunId, hproxyId, SentMsg.call, type, HandlerCall.struct,
        Function.comp_def]

end CProxy
