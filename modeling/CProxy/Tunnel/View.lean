import CProxy.Tunnel.Step
import CProxy.Conn.Session
import Mathlib.Algebra.BigOperators.Fin

/-! # What a tunnel is to one proxy connection

The view of a proxy connection is its link, how often each container of the
server holds it, and the control messages about it. A step of the tunnel is one
of the steps below for each connection; for all but one of them it is `stay`.
-/

namespace CProxy

open Foundation Wire

/-- A control message to the server about one proxy connection. -/
inductive Notice where
  | shutdownPeer (tranCount : Nat)
  | freeReq
  deriving DecidableEq

namespace CtlMsg

/-- The part of a message to the server that is about `id`. -/
def toNotice (id : RandStr) : CtlMsg → Option Notice
  | notifyClientNeedProxy => none
  | notifyProxyShutdownPeerConn proxyId tranCount =>
      if proxyId = id.chars then some (.shutdownPeer tranCount) else none
  | freeProxyConnReq proxyId => if proxyId = id.chars then some .freeReq else none

/-- The total a message to the client announces for `id`. -/
def toTotal (id : RandStr) : CtlMsg → Option Nat
  | notifyProxyShutdownPeerConn proxyId tranCount =>
      if proxyId = id.chars then some tranCount else none
  | _ => none

end CtlMsg

/-- The totals announced by a list of notices. -/
def totals (notices : List Notice) : List Nat :=
  notices.filterMap fun notice => match notice with
    | .shutdownPeer tranCount => some tranCount
    | .freeReq => none

@[ext] structure View where
  link : Link := {}
  created : Bool := false
  unclaimed : Nat := 0
  mapped : Nat := 0
  waiting : Nat := 0
  free : Nat := 0
  ctlToServer : List Notice := []
  ctlToClient : List Nat := []

def System.view (s : System) (id : RandStr) : View where
  link := s.link id
  created := (s.clientProxyConnMap.lookup id.chars).isSome
  unclaimed := ∑ idx, occurrences (s.unclaimed idx) id
  mapped := occurrences s.proxyConnMap id
  waiting := occurrences s.waitForStartProxyConnMap id
  free := s.freeProxyConns.count id
  ctlToServer := s.ctlToServer.filterMap (CtlMsg.toNotice id)
  ctlToClient := s.ctlToClient.filterMap (CtlMsg.toTotal id)

/-- What an event of the tunnel is to one proxy connection. -/
inductive LinkEvent where
  | stay
  | connect (proxyFd localFd : Fd)
  | accept (acceptFd : Fd)
  | request (publicFd : Fd)
  | serverRead (count : Nat)
  | publicRead (bytes : List UInt8)
  | serverNotice (notice : Notice)
  | clientNotice (tranCount : Nat)
  | clientRead (count : Nat) (localFd : Fd)
  | localRead (bytes : List UInt8)
  | strayFreeReq

def Event.about (s : System) (id : RandStr) : Event → LinkEvent
  | .newPublicConn acceptFd =>
      if s.freeProxyConns.getLast? = some id then .request acceptFd else .stay
  | .newProxyConn other acceptFd => if other = id then .accept acceptFd else .stay
  | .serverProxyRead other count => if other = id then .serverRead count else .stay
  | .publicRead other bytes => if other = id then .publicRead bytes else .stay
  | .serverCtlRead =>
      match s.ctlToServer.head?.bind (CtlMsg.toNotice id) with
      | some notice => .serverNotice notice
      | none => .stay
  | .clientCtlRead other proxyFd localFd =>
      match s.ctlToClient.head? with
      | some .notifyClientNeedProxy => if other = id then .connect proxyFd localFd else .stay
      | some msg =>
          match CtlMsg.toTotal id msg with
          | some tranCount => .clientNotice tranCount
          | none => .stay
      | none => .stay
  | .clientProxyRead other count localFd => if other = id then .clientRead count localFd else .stay
  | .localRead other bytes => if other = id then .localRead bytes else .stay
  | .strayFreeReq proxyId => if proxyId = id.chars then .strayFreeReq else .stay

/-- Only an accept on the public side offers a descriptor to a free connection. -/
theorem about_ne_request {s : System} {event : Event}
    (hevent : ∀ fd, event ≠ .newPublicConn fd) (id : RandStr) (fd : Fd) :
    event.about s id ≠ .request fd := by
  cases event with
  | newPublicConn acceptFd => exact absurd rfl (hevent acceptFd)
  | newProxyConn other | serverProxyRead other | publicRead other | clientProxyRead other
  | localRead other | strayFreeReq other =>
      simp only [Event.about]
      split <;> simp
  | serverCtlRead =>
      simp only [Event.about]
      split <;> simp
  | clientCtlRead other proxyFd localFd =>
      simp only [Event.about]
      split
      · split <;> simp
      · split <;> simp
      · simp

/-- Only the server's reads are events at its end of a connection. -/
theorem about_ne_serverRead {s : System} {event : Event}
    (hread : ∀ id count, event ≠ .serverProxyRead id count) (hctl : event ≠ .serverCtlRead)
    (id : RandStr) : (∀ count, event.about s id ≠ .serverRead count) ∧
      ∀ notice, event.about s id ≠ .serverNotice notice := by
  cases event with
  | serverProxyRead other count => exact absurd rfl (hread other count)
  | serverCtlRead => exact absurd rfl hctl
  | newPublicConn other | newProxyConn other | publicRead other | clientProxyRead other
  | localRead other | strayFreeReq other =>
      simp only [Event.about]
      split <;> simp
  | clientCtlRead other proxyFd localFd =>
      simp only [Event.about]
      split
      · split <;> simp
      · split <;> simp
      · simp

namespace View

def mapLink (v : View) (update : Link → Link) : View := { v with link := update v.link }

/-! ## The handlers, seen from the connection -/

def freeProxyConn (v : View) : View :=
  if v.mapped = 0 ∨ v.link.server.proxy.isStart = true then v
  else { v with mapped := 0, free := v.free + 1 }

def shutdownPublicConn (v : View) : View :=
  let settled := v.mapLink fun link => { link with server := link.server.settle }
  if v.link.server.proxy.shutdownWhenComplete.2 then settled.freeProxyConn else settled

def shutdonwLocalConn (v : View) : View :=
  let settled := v.mapLink fun link => { link with client := link.client.settle }
  if v.link.client.proxy.shutdownWhenComplete.2 then
    { settled with ctlToServer := v.ctlToServer ++ [.freeReq] }
  else settled

def handleShutdownPublicConn (v : View) (tranCount : Nat) : View :=
  if v.mapped = 0 then v
  else (v.mapLink fun link => link.mapServer fun conn =>
    conn.incrTheoreticalTotalRecvCount tranCount).shutdownPublicConn

def handleShutdownLocalConn (v : View) (tranCount : Nat) : View :=
  (v.mapLink fun link => link.mapClient fun conn =>
    conn.incrTheoreticalTotalRecvCount tranCount).shutdonwLocalConn

def shutdownFromPublic (v : View) (tranCount : Nat) : View :=
  if v.mapped = 0 then v
  else { v.mapLink fun link => link.mapServer fun conn => conn.shutdownFromLocal.1 with
    ctlToClient := v.ctlToClient ++ [tranCount] }

def shutdownFromLocal (v : View) (tranCount : Nat) : View :=
  { v.mapLink fun link => link.mapClient fun conn => conn.shutdownFromLocal.1 with
    ctlToServer := v.ctlToServer ++ [.shutdownPeer tranCount] }

/-- The client's connection and its first message. -/
def connect (v : View) (cfg : Config) (id : RandStr) (proxyFd localFd : Fd) : View :=
  { v with
    created := true
    link := { v.link with client := { v.link.client with
        proxy := { fd := proxyFd, proxyId := id.chars } } }.sendAndStart
      (.proxyMetaSet cfg.ctlId.chars cfg.tunId.chars id.chars) localFd }

def accept (v : View) (acceptFd : Fd) : View :=
  { v with
    link := { v.link with
      accepted := true
      server := { v.link.server with proxy := { fd := acceptFd } } }
    unclaimed := v.unclaimed + 1 }

def startServer (v : View) (msg : ProxyCtlMsg) (rest : List UInt8) (id : RandStr) (publicFd : Fd) :
    View :=
  { v with
    link := { v.link.parseAtServer (.parsed msg) rest with
      claimed := true
      server := ({ v.link.server with
        proxy := { v.link.server.proxy with proxyId := id.chars } } : End).start
          { fd := publicFd, proxyId := id.chars } }
    mapped := 1 }

end View

/-- The steps of one proxy connection. -/
inductive LinkStep (cfg : Config) (id : RandStr) : View → LinkEvent → View → Prop
  | stay (v : View) : LinkStep cfg id v .stay v
  | connect (v : View) (proxyFd localFd : Fd) (hcreated : v.created = false)
      (hlocal : 0 < localFd) :
      LinkStep cfg id v (.connect proxyFd localFd) (v.connect cfg id proxyFd localFd)
  | accept (v : View) (acceptFd : Fd) (hcreated : v.created = true)
      (haccepted : v.link.accepted = false) :
      LinkStep cfg id v (.accept acceptFd) (v.accept acceptFd)
  | request (v : View) (publicFd : Fd) (hfree : 0 < v.free) (hfd : publicFd ≤ 2147483647) :
      LinkStep cfg id v (.request publicFd)
        { v.mapLink fun link => link.request publicFd with waiting := 1, free := v.free - 1 }
  | claim (v : View) (count : Nat) (publicFd : Fd) (rest : List UInt8)
      (haccepted : v.link.accepted = true) (hclaimed : v.link.claimed = false)
      (hstart : v.link.server.proxy.isStart = false)
      (hframe : v.link.toServer = (ProxyCtlMsg.proxyMetaSet cfg.ctlId.chars cfg.tunId.chars
        id.chars).wire ++ rest) :
      LinkStep cfg id v (.serverRead count)
        { v.startServer (.proxyMetaSet cfg.ctlId.chars cfg.tunId.chars id.chars) rest id publicFd
          with unclaimed := 0 }
  | bind (v : View) (count : Nat) (publicFd : Fd) (rest : List UInt8)
      (hwaiting : v.waiting = 1) (hclaimed : v.link.claimed = true)
      (hstart : v.link.server.proxy.isStart = false) (hreq : v.link.reqFd = some publicFd)
      (hframe : v.link.toServer =
        (ProxyCtlMsg.startProxyConnRsp publicFd id.chars).wire ++ rest) :
      LinkStep cfg id v (.serverRead count)
        { v.startServer (.startProxyConnRsp publicFd id.chars) rest id publicFd with waiting := 0 }
  | forwardAtServer (v : View) (count : Nat) (hstart : v.link.server.proxy.isStart = true)
      (hsplice : SpliceLen count) (hcount : count ≤ v.link.toServer.length)
      (hfits : v.link.server.proxy.recvCount + count ≤ intMax) :
      LinkStep cfg id v (.serverRead count)
        (v.mapLink fun link => link.forwardAtServer count).shutdownPublicConn
  | relayAtServer (v : View) (conn : EdgeConn) (bytes : List UInt8)
      (hpeer : v.link.server.peer = some conn) (hopen : conn.closing = false)
      (hbytes : bytes ≠ []) (hfits : conn.tranCount + bytes.length ≤ intMax) :
      LinkStep cfg id v (.publicRead bytes) (v.mapLink fun link => link.relayAtServer bytes)
  | closeAtServer (v : View) (conn : EdgeConn) (hpeer : v.link.server.peer = some conn)
      (hopen : conn.closing = false) :
      LinkStep cfg id v (.publicRead [])
        ((v.shutdownFromPublic (uint32 conn.tranCount)).mapLink fun link =>
          { link with server := link.server.close })
  | reclosedAtServer (v : View) (conn : EdgeConn) (hpeer : v.link.server.peer = some conn)
      (hclosing : conn.closing = true) : LinkStep cfg id v (.publicRead []) v
  | hearAtServer (v : View) (tranCount : Nat) (rest : List Notice)
      (hctl : v.ctlToServer = .shutdownPeer tranCount :: rest) :
      LinkStep cfg id v (.serverNotice (.shutdownPeer tranCount))
        ({ v with ctlToServer := rest }.handleShutdownPublicConn tranCount)
  | freeAtServer (v : View) (rest : List Notice) (hctl : v.ctlToServer = .freeReq :: rest) :
      LinkStep cfg id v (.serverNotice .freeReq) { v with ctlToServer := rest }.freeProxyConn
  | strayFreeReq (v : View) : LinkStep cfg id v .strayFreeReq v.freeProxyConn
  | hearAtClient (v : View) (tranCount : Nat) (rest : List Nat) (hcreated : v.created = true)
      (hctl : v.ctlToClient = tranCount :: rest) :
      LinkStep cfg id v (.clientNotice tranCount)
        ({ v with ctlToClient := rest }.handleShutdownLocalConn tranCount)
  | startAtClient (v : View) (count : Nat) (localFd publicFd : Fd) (hlocal : 0 < localFd)
      (hcreated : v.created = true) (hstart : v.link.client.proxy.isStart = false)
      (hreq : v.link.reqFd = some publicFd) (hfd : publicFd ≤ 2147483647)
      (hframe : v.link.toClient = (ProxyCtlMsg.startProxyConnReq publicFd id.chars).wire) :
      LinkStep cfg id v (.clientRead count localFd)
        (v.mapLink fun link => { link with toClient := [] }.sendAndStart
          (.startProxyConnRsp publicFd id.chars) localFd)
  | forwardAtClient (v : View) (count : Nat) (localFd : Fd)
      (hstart : v.link.client.proxy.isStart = true) (hsplice : SpliceLen count)
      (hcount : count ≤ v.link.toClient.length)
      (hfits : v.link.client.proxy.recvCount + count ≤ intMax) :
      LinkStep cfg id v (.clientRead count localFd)
        (v.mapLink fun link => link.forwardAtClient count).shutdonwLocalConn
  | relayAtClient (v : View) (conn : EdgeConn) (bytes : List UInt8)
      (hpeer : v.link.client.peer = some conn) (hopen : conn.closing = false)
      (hbytes : bytes ≠ []) (hfits : conn.tranCount + bytes.length ≤ intMax) :
      LinkStep cfg id v (.localRead bytes) (v.mapLink fun link => link.relayAtClient bytes)
  | closeAtClient (v : View) (conn : EdgeConn) (hpeer : v.link.client.peer = some conn)
      (hopen : conn.closing = false) :
      LinkStep cfg id v (.localRead [])
        ((v.shutdownFromLocal (uint32 conn.tranCount)).mapLink fun link =>
          { link with client := link.client.close })
  | reclosedAtClient (v : View) (conn : EdgeConn) (hpeer : v.link.client.peer = some conn)
      (hclosing : conn.closing = true) : LinkStep cfg id v (.localRead []) v

end CProxy
