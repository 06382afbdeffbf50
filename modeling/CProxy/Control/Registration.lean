import CProxy.Foundation.Memory
import CProxy.Wire.ProxyMsg

/-! # Registering a tunnel

The client's `reqNewTunnel` and `handleNewTunnelRsp` and the server's `handleNewTunnelReq`,
with the structs of the two messages as blocks of bytes. `none` stands for what the
language does not define.
-/

namespace CProxy.Registration

open Foundation Wire

/-! ## The structs -/

/-- A `char` array in a struct. -/
structure CharField where
  offset : Nat
  size : Nat

/-- `sizeof(NewTunnelReqMsg)`. -/
def reqSize : Nat := 24

def reqLocalServerHost : CharField := ⟨0, 20⟩

def reqLocalServerPort : Nat := 20

/-- `sizeof(NewTunnelRspMsg)`. -/
def rspSize : Nat := 60

def rspTunId : CharField := ⟨0, 10⟩

/-- Two bytes of padding are before it. -/
def rspLocalServerPort : Nat := 12

def rspProxyServerPort : Nat := 16

def rspProxyServerHost : CharField := ⟨20, 20⟩

def rspLocalServerHost : CharField := ⟨40, 20⟩

structure Copy where
  field : CharField
  text : CString

/-- A struct that is being filled. `copies` is history: the calls of `strcpy`. -/
structure Filling where
  block : List UInt8
  copies : List Copy := []

def Filling.strcpy (s : Filling) (field : CharField) (text : CString) : Option Filling :=
  (Memory.strcpy s.block field.offset text).map fun block =>
    { block := block, copies := s.copies ++ [⟨field, text⟩] }

def storeWord (block : List UInt8) (offset value : Nat) : Option (List UInt8) :=
  Memory.store block offset (leBytes 4 value)

def loadWord (block : List UInt8) (offset : Nat) : Option Nat :=
  (Memory.load block offset 4).map leValue

/-! ## What the programs put into them -/

def digitChar (digit : Nat) : UInt8 := UInt8.ofNat (48 + digit)

/-- The decimal digits of a byte. -/
def byteDigits (byte : UInt8) : List UInt8 :=
  if byte.toNat < 10 then [digitChar byte.toNat]
  else if byte.toNat < 100 then [digitChar (byte.toNat / 10), digitChar (byte.toNat % 10)]
  else [digitChar (byte.toNat / 100), digitChar (byte.toNat / 10 % 10), digitChar (byte.toNat % 10)]

theorem digitChar_ne_zero {digit : Nat} (hdigit : digit < 10) : digitChar digit ≠ 0 := by
  intro hzero
  have hnat := congrArg UInt8.toNat hzero
  rw [digitChar, UInt8.toNat_ofNat', UInt8.toNat_zero] at hnat
  omega

theorem byteDigits_ne_zero (byte : UInt8) : ∀ char ∈ byteDigits byte, char ≠ 0 := by
  have hbyte := byte.toNat_lt
  unfold byteDigits
  split
  · simp [digitChar_ne_zero ‹_›]
  · split
    · simp [digitChar_ne_zero (show byte.toNat / 10 < 10 by omega),
        digitChar_ne_zero (show byte.toNat % 10 < 10 by omega)]
    · simp [digitChar_ne_zero (show byte.toNat / 100 < 10 by omega),
        digitChar_ne_zero (show byte.toNat / 10 % 10 < 10 by omega),
        digitChar_ne_zero (show byte.toNat % 10 < 10 by omega)]

theorem byteDigits_length (byte : UInt8) : (byteDigits byte).length ≤ 3 := by
  unfold byteDigits
  split
  · simp
  · split <;> simp

/-- The bytes of an `in_addr`. -/
structure InAddr where
  first : UInt8
  second : UInt8
  third : UInt8
  fourth : UInt8

/-- `inet_ntoa`. -/
def inetNtoa (address : InAddr) : CString where
  chars := byteDigits address.first ++ 46 :: (byteDigits address.second ++
    46 :: (byteDigits address.third ++ 46 :: byteDigits address.fourth))
  noNul := by
    intro char hchar
    simp only [List.mem_append, List.mem_cons] at hchar
    rcases hchar with hfirst | rfl | hsecond | rfl | hthird | rfl | hfourth
    · exact byteDigits_ne_zero _ char hfirst
    · decide
    · exact byteDigits_ne_zero _ char hsecond
    · decide
    · exact byteDigits_ne_zero _ char hthird
    · decide
    · exact byteDigits_ne_zero _ char hfourth

theorem inetNtoa_length (address : InAddr) : (inetNtoa address).chars.length ≤ 15 := by
  have hfirst := byteDigits_length address.first
  have hsecond := byteDigits_length address.second
  have hthird := byteDigits_length address.third
  have hfourth := byteDigits_length address.fourth
  simp only [inetNtoa, List.length_append, List.length_cons]
  omega

/-- What the server chooses for a tunnel: a random identifier, and the address and port
that `getsockname` tells. -/
structure NewTunnel where
  tunId : RandStr
  listenAddr : InAddr
  listenPort : Nat
  listenPort_lt : listenPort < 65536

def NewTunnel.tunIdString (tun : NewTunnel) : CString := ⟨tun.tunId.chars, tun.tunId.ne_zero⟩

/-- The client's tunnel. -/
structure ClientTunnel where
  tunId : CString
  localServerHost : CString
  localServerPort : Nat
  proxyServerHost : CString
  proxyServerPort : Nat
  deriving DecidableEq

/-! ## The two programs -/

/-- A local server that the client's `main` accepts. -/
structure LocalServer where
  host : CString
  port : Nat
  host_ne_nil : host.chars ≠ []
  port_ne_zero : port ≠ 0
  port_lt : port < 4294967296

/-- What the two handlers find in their structs. -/
structure StaleStructs where
  req : List UInt8
  rsp : List UInt8
  req_length : req.length = reqSize
  rsp_length : rsp.length = rspSize

def reqNewTunnel (stale : List UInt8) (server : LocalServer) : Option Filling := do
  let block ← storeWord stale reqLocalServerPort server.port
  ({ block := block } : Filling).strcpy reqLocalServerHost server.host

/-- The struct that the reader at the other end copies out of the message. -/
def delivered (type : Nat) (block : List UInt8) : Option (List UInt8) :=
  match readMsg (makeMsg type block).wire with
  | .message got body _ => if got = type then some body else none
  | _ => none

def handleNewTunnelReq (stale : List UInt8) (tun : NewTunnel) (msg : List UInt8) :
    Option Filling := do
  let port ← loadWord msg reqLocalServerPort
  let block ← storeWord stale rspLocalServerPort port
  let block ← storeWord block rspProxyServerPort tun.listenPort
  let named ← ({ block := block } : Filling).strcpy rspTunId tun.tunIdString
  let listening ← named.strcpy rspProxyServerHost (inetNtoa tun.listenAddr)
  let host ← Memory.readString msg reqLocalServerHost.offset
  listening.strcpy rspLocalServerHost host

def handleNewTunnelRsp (msg : List UInt8) : Option ClientTunnel := do
  let tunId ← Memory.readString msg rspTunId.offset
  let localServerHost ← Memory.readString msg rspLocalServerHost.offset
  let proxyServerHost ← Memory.readString msg rspProxyServerHost.offset
  let localServerPort ← loadWord msg rspLocalServerPort
  let proxyServerPort ← loadWord msg rspProxyServerPort
  some {
    tunId := tunId
    localServerHost := localServerHost
    localServerPort := localServerPort
    proxyServerHost := proxyServerHost
    proxyServerPort := proxyServerPort }

structure Registered where
  tunnel : ClientTunnel
  copies : List Copy

/-- The three functions in their order. The types are those of NewTunnelReq and
NewTunnelRsp. -/
def registerTunnel (stale : StaleStructs) (server : LocalServer) (tun : NewTunnel) :
    Option Registered := do
  let req ← reqNewTunnel stale.req server
  let reqMsg ← delivered 2 req.block
  let rsp ← handleNewTunnelReq stale.rsp tun reqMsg
  let rspMsg ← delivered 3 rsp.block
  let tunnel ← handleNewTunnelRsp rspMsg
  some { tunnel := tunnel, copies := req.copies ++ rsp.copies }

/-- Whatever the structs held before and whatever the server chooses, the client's tunnel
has the server that was configured and what was chosen, and every string fits its field.
The client has no way to refuse a server. -/
def Survives (server : LocalServer) : Prop :=
  ∀ stale tun, ∃ done, registerTunnel stale server tun = some done ∧
    done.tunnel.localServerHost = server.host ∧ done.tunnel.localServerPort = server.port ∧
    done.tunnel.tunId = tun.tunIdString ∧ done.tunnel.proxyServerPort = tun.listenPort ∧
    ∀ copy ∈ done.copies, copy.text.chars.length < copy.field.size

/-! ## One write -/

variable {block next : List UInt8} {offset value : Nat} {s s' : Filling} {field : CharField}
  {text : CString} {server : LocalServer} {stale : StaleStructs} {tun : NewTunnel}

theorem loadWord_of_holds (hholds : Memory.Holds block offset (leBytes 4 value))
    (hvalue : value < 4294967296) : loadWord block offset = some value := by
  have hload := hholds.load (List.ne_nil_of_length_pos (by simp))
  rw [leBytes_length] at hload
  rw [loadWord, hload, Option.map_some, leValue_leBytes 4 value (by simpa using hvalue)]

/-- A word that fits stands where it was written, and nothing else is touched. -/
theorem exists_storeWord (block : List UInt8) (offset value : Nat)
    (hfits : offset + 4 ≤ block.length) : ∃ next, storeWord block offset value = some next ∧
      next.length = block.length ∧ Memory.Holds next offset (leBytes 4 value) ∧
      ∀ place bytes, Memory.Holds block place bytes →
        place + bytes.length ≤ offset ∨ offset + 4 ≤ place → Memory.Holds next place bytes := by
  obtain ⟨next, hnext⟩ := @Memory.exists_store block (leBytes 4 value) offset (by simpa using hfits)
  refine ⟨next, hnext, Memory.store_length hnext, Memory.holds_store hnext, ?_⟩
  intro place bytes hholds hapart
  exact hholds.store (by simpa using hapart) hnext

theorem Filling.exists_strcpy (s : Filling) (field : CharField) (text : CString)
    (hfits : field.offset + text.chars.length < s.block.length) :
    ∃ s', s.strcpy field text = some s' ∧ s'.copies = s.copies ++ [⟨field, text⟩] ∧
      s'.block.length = s.block.length ∧
      Memory.Holds s'.block field.offset (text.chars ++ [0]) ∧
      ∀ place bytes, Memory.Holds s.block place bytes →
        place + bytes.length ≤ field.offset ∨ field.offset + text.chars.length < place →
        Memory.Holds s'.block place bytes := by
  have hlength : (text.chars ++ [0]).length = text.chars.length + 1 := List.length_append
  obtain ⟨next, hnext⟩ := @Memory.exists_store s.block (text.chars ++ [0]) field.offset (by omega)
  refine ⟨{ block := next, copies := s.copies ++ [⟨field, text⟩] }, ?_, rfl,
    Memory.store_length hnext, Memory.holds_store hnext, ?_⟩
  · rw [Filling.strcpy, Memory.strcpy, hnext]
    rfl
  · intro place bytes hholds hapart
    exact hholds.store (by omega) hnext

theorem Filling.strcpy_fits (hcopy : s.strcpy field text = some s') :
    s'.block.length = s.block.length ∧ field.offset + text.chars.length < s.block.length := by
  obtain ⟨next, hnext, rfl⟩ := Option.map_eq_some_iff.mp hcopy
  refine ⟨Memory.store_length hnext, ?_⟩
  by_contra hover
  have hnone : Memory.strcpy s.block field.offset text = none := by
    apply Memory.store_eq_none.mpr
    rw [List.length_append, List.length_singleton]
    omega
  rw [hnone] at hnext
  cases hnext

theorem delivered_eq (type : Nat) (htype : type < 4294967296) (hbody : block.length ≤ maxMsgLen) :
    delivered type block = some block := by
  have hread := readMsg_wire type block [] htype hbody
  rw [List.append_nil] at hread
  rw [delivered, hread]
  exact if_pos rfl

/-! ## A host that fits -/

theorem reqNewTunnel_eq {stale : List UInt8} (hstale : stale.length = reqSize)
    (hshort : server.host.chars.length < 20) : ∃ req, reqNewTunnel stale server = some req ∧
      req.copies = [⟨reqLocalServerHost, server.host⟩] ∧ req.block.length = reqSize ∧
      Memory.Holds req.block 0 (server.host.chars ++ [0]) ∧
      Memory.Holds req.block 20 (leBytes 4 server.port) := by
  unfold reqSize at *
  obtain ⟨first, hfirst, hlength, hport, -⟩ :=
    exists_storeWord stale reqLocalServerPort server.port (by simp only [reqLocalServerPort]; omega)
  obtain ⟨req, hreq, hcopies, hreqLength, hhost, hkept⟩ :=
    Filling.exists_strcpy { block := first } reqLocalServerHost server.host (by
      simp only [reqLocalServerHost]
      omega)
  refine ⟨req, ?_, hcopies, hreqLength.trans (hlength.trans hstale), hhost, ?_⟩
  · rw [reqNewTunnel, hfirst]
    exact hreq
  · apply hkept _ _ hport
    simp only [reqLocalServerHost, reqLocalServerPort]
    omega

theorem tunIdString_length (tun : NewTunnel) : tun.tunIdString.chars.length = 5 :=
  tun.tunId.length_eq

/-- What stands in a block of NewTunnelRsp. -/
structure RspHolds (server : LocalServer) (tun : NewTunnel) (rsp : List UInt8) : Prop where
  length : rsp.length = rspSize
  tunId : Memory.Holds rsp 0 (tun.tunIdString.chars ++ [0])
  localServerPort : Memory.Holds rsp 12 (leBytes 4 server.port)
  proxyServerPort : Memory.Holds rsp 16 (leBytes 4 tun.listenPort)
  proxyServerHost : Memory.Holds rsp 20 ((inetNtoa tun.listenAddr).chars ++ [0])
  localServerHost : Memory.Holds rsp 40 (server.host.chars ++ [0])

theorem handleNewTunnelReq_eq {stale req : List UInt8} (hstale : stale.length = rspSize)
    (hshort : server.host.chars.length < 20)
    (hhost : Memory.Holds req 0 (server.host.chars ++ [0]))
    (hport : Memory.Holds req 20 (leBytes 4 server.port)) : ∃ rsp,
    handleNewTunnelReq stale tun req = some rsp ∧
      rsp.copies = [⟨rspTunId, tun.tunIdString⟩, ⟨rspProxyServerHost, inetNtoa tun.listenAddr⟩,
        ⟨rspLocalServerHost, server.host⟩] ∧ RspHolds server tun rsp.block := by
  have htunId := tunIdString_length tun
  have haddr := inetNtoa_length tun.listenAddr
  have hwords (value : Nat) : (leBytes 4 value).length = 4 := leBytes_length 4 value
  have hstrings (text : CString) : (text.chars ++ [0]).length = text.chars.length + 1 :=
    List.length_append
  unfold rspSize at *
  obtain ⟨first, hfirst, hfirstLength, hlocal, -⟩ :=
    exists_storeWord stale rspLocalServerPort server.port (by simp only [rspLocalServerPort]; omega)
  obtain ⟨second, hsecond, hsecondLength, hproxy, hkept⟩ :=
    exists_storeWord first rspProxyServerPort tun.listenPort (by
      simp only [rspProxyServerPort]
      omega)
  obtain ⟨third, hthird, hthirdCopies, hthirdLength, hid, hkeptThird⟩ :=
    Filling.exists_strcpy { block := second } rspTunId tun.tunIdString (by
      simp only [rspTunId]
      omega)
  dsimp only at hthirdLength
  obtain ⟨fourth, hfourth, hfourthCopies, hfourthLength, hlisten, hkeptFourth⟩ :=
    third.exists_strcpy rspProxyServerHost (inetNtoa tun.listenAddr) (by
      simp only [rspProxyServerHost]
      omega)
  obtain ⟨rsp, hrsp, hcopies, hlength, hserver, hkeptLast⟩ :=
    fourth.exists_strcpy rspLocalServerHost server.host (by
      simp only [rspLocalServerHost]
      omega)
  have hword : loadWord req reqLocalServerPort = some server.port :=
    loadWord_of_holds hport server.port_lt
  have hread : Memory.readString req reqLocalServerHost.offset = some server.host :=
    hhost.readString
  have hrun : handleNewTunnelReq stale tun req = some rsp := by
    simp only [handleNewTunnelReq, hword, hfirst, hsecond, hthird, hfourth, hread, hrsp,
      Option.bind_eq_bind, Option.bind_some]
  refine ⟨rsp, hrun, ?_, ?_⟩
  · rw [hcopies, hfourthCopies, hthirdCopies]
    rfl
  · simp only [rspLocalServerPort, rspProxyServerPort, rspTunId, rspProxyServerHost,
      rspLocalServerHost] at *
    constructor
    · exact hlength.trans (hfourthLength.trans (hthirdLength.trans
        (hsecondLength.trans (hfirstLength.trans hstale))))
    · apply hkeptLast _ _ (hkeptFourth _ _ hid _)
      · rw [hstrings]
        omega
      · rw [hstrings]
        omega
    · apply hkeptLast _ _ (hkeptFourth _ _ (hkeptThird _ _ (hkept _ _ hlocal _) _) _)
      all_goals
        rw [hwords]
        omega
    · apply hkeptLast _ _ (hkeptFourth _ _ (hkeptThird _ _ hproxy _) _)
      all_goals
        rw [hwords]
        omega
    · apply hkeptLast _ _ hlisten
      rw [hstrings]
      omega
    · exact hserver

/-- The tunnel that the client should have. -/
def intended (server : LocalServer) (tun : NewTunnel) : ClientTunnel where
  tunId := tun.tunIdString
  localServerHost := server.host
  localServerPort := server.port
  proxyServerHost := inetNtoa tun.listenAddr
  proxyServerPort := tun.listenPort

theorem RspHolds.handleNewTunnelRsp {rsp : List UInt8} (hrsp : RspHolds server tun rsp) :
    handleNewTunnelRsp rsp = some (intended server tun) := by
  have hlisten : tun.listenPort < 4294967296 := tun.listenPort_lt.trans (by omega)
  have hlocal : loadWord rsp rspLocalServerPort = some server.port :=
    loadWord_of_holds hrsp.localServerPort server.port_lt
  have hproxy : loadWord rsp rspProxyServerPort = some tun.listenPort :=
    loadWord_of_holds hrsp.proxyServerPort hlisten
  have htunId : Memory.readString rsp rspTunId.offset = some tun.tunIdString :=
    hrsp.tunId.readString
  have hhost : Memory.readString rsp rspLocalServerHost.offset = some server.host :=
    hrsp.localServerHost.readString
  have haddr : Memory.readString rsp rspProxyServerHost.offset = some (inetNtoa tun.listenAddr) :=
    hrsp.proxyServerHost.readString
  simp only [Registration.handleNewTunnelRsp, hlocal, hproxy, htunId, hhost, haddr,
    Option.bind_eq_bind, Option.bind_some, intended]

theorem survives_of_short (hshort : server.host.chars.length < 20) : Survives server := by
  intro stale tun
  obtain ⟨req, hreq, hreqCopies, hreqLength, hhost, hport⟩ :=
    reqNewTunnel_eq stale.req_length hshort
  obtain ⟨rsp, hrsp, hrspCopies, hholds⟩ :=
    @handleNewTunnelReq_eq _ tun _ _ stale.rsp_length hshort hhost hport
  have hreqBody : req.block.length ≤ maxMsgLen := by
    rw [hreqLength]
    decide
  have hrspBody : rsp.block.length ≤ maxMsgLen := by
    rw [hholds.length]
    decide
  have hdone : registerTunnel stale server tun =
      some { tunnel := intended server tun, copies := req.copies ++ rsp.copies } := by
    simp only [registerTunnel, hreq, delivered_eq 2 (by omega) hreqBody, hrsp,
      delivered_eq 3 (by omega) hrspBody, hholds.handleNewTunnelRsp, Option.bind_eq_bind,
      Option.bind_some]
  refine ⟨_, hdone, rfl, rfl, rfl, rfl, ?_⟩
  have htunId := tunIdString_length tun
  have haddr := inetNtoa_length tun.listenAddr
  simp only [hreqCopies, hrspCopies, List.mem_append, List.mem_cons, List.not_mem_nil, or_false,
    rspTunId, rspProxyServerHost, rspLocalServerHost, reqLocalServerHost]
  rintro copy (rfl | rfl | rfl | rfl)
  · exact hshort
  · dsimp only
    omega
  · dsimp only
    omega
  · exact hshort

/-! ## A host that does not -/

/-- The string is read back from the request, and in the response it is the last field. -/
theorem handleNewTunnelReq_fits {stale req : List UInt8} {rsp : Filling}
    (hstale : stale.length = rspSize) (hhost : Memory.Holds req 0 (text.chars ++ [0]))
    (hrsp : handleNewTunnelReq stale tun req = some rsp) : text.chars.length < 20 := by
  unfold handleNewTunnelReq at hrsp
  simp only [Option.bind_eq_bind, Option.bind_eq_some_iff] at hrsp
  obtain ⟨port, -, first, hfirst, second, hsecond, third, hthird, fourth, hfourth, host, hread,
    hlast⟩ := hrsp
  obtain rfl : text = host := Option.some.inj (hhost.readString.symm.trans hread)
  have hlength := (Filling.strcpy_fits hfourth).1.trans ((Filling.strcpy_fits hthird).1.trans
    ((Memory.store_length hsecond).trans ((Memory.store_length hfirst).trans hstale)))
  have hfits := (Filling.strcpy_fits hlast).2
  rw [hlength] at hfits
  simp only [rspLocalServerHost, rspSize] at hfits
  omega

theorem registerTunnel_short {done : Registered}
    (hdone : registerTunnel stale server tun = some done) : server.host.chars.length < 20 := by
  unfold registerTunnel at hdone
  simp only [Option.bind_eq_bind, Option.bind_eq_some_iff] at hdone
  obtain ⟨req, hreq, reqMsg, hreqMsg, rsp, hrsp, -⟩ := hdone
  obtain ⟨first, hfirst, hcopy⟩ := Option.bind_eq_some_iff.mp hreq
  obtain ⟨block, hblock, rfl⟩ := Option.map_eq_some_iff.mp hcopy
  have hlength : block.length = reqSize :=
    (Memory.store_length hblock).trans ((Memory.store_length hfirst).trans stale.req_length)
  have hbody : block.length ≤ maxMsgLen := by
    rw [hlength]
    decide
  rw [delivered_eq 2 (by omega) hbody] at hreqMsg
  obtain rfl := Option.some.inj hreqMsg
  exact handleNewTunnelReq_fits stale.rsp_length (Memory.holds_store hblock) hrsp

/-- A tunnel's parameters survive exactly when the host has fewer than twenty characters. -/
theorem survives_iff (server : LocalServer) :
    Survives server ↔ server.host.chars.length < 20 := by
  constructor
  · intro hsurvives
    let stale : StaleStructs :=
      ⟨List.replicate reqSize 0, List.replicate rspSize 0, by simp, by simp⟩
    let tun : NewTunnel :=
      ⟨⟨[65, 65, 65, 65, 65], rfl, List.all_eq_true.mp rfl⟩, ⟨0, 0, 0, 0⟩, 1, by decide⟩
    obtain ⟨done, hdone, -⟩ := hsurvives stale tun
    exact registerTunnel_short hdone
  · exact survives_of_short

/-- A host of exactly twenty characters: its NUL is put over the port. -/
def sampleServer : LocalServer where
  host := ⟨List.replicate 20 97, by simp⟩
  port := 8080
  host_ne_nil := by decide
  port_ne_zero := by decide
  port_lt := by decide

theorem not_survives : ¬ ∀ server, Survives server := by
  intro hall
  let stale : StaleStructs :=
    ⟨List.replicate reqSize 1, List.replicate rspSize 1, by simp, by simp⟩
  let tun : NewTunnel :=
    ⟨⟨[66, 66, 66, 66, 66], rfl, List.all_eq_true.mp rfl⟩, ⟨0, 0, 0, 0⟩, 2, by decide⟩
  obtain ⟨done, hdone, -⟩ := hall sampleServer stale tun
  exact absurd (registerTunnel_short hdone) (by decide)

end CProxy.Registration
