import CProxy.Foundation.KeyedMap
import CProxy.Conn.ProxyConn

/-! # The state of a tunnel and its two ends

One server `Tunnel`, the client `Tunnel` with the same identifier, and the
channels between them. A proxy connection is named by the identifier the client
draws for it, also before the server has learnt that identifier.
-/

namespace CProxy

open Foundation Wire

/-- The identifiers of the control connection and of the tunnel. -/
structure Config where
  ctlId : RandStr
  tunId : RandStr

/-- The messages about one tunnel on the control connection; its `tun_id`, the
same in all of them, is left out. -/
inductive CtlMsg where
  | notifyClientNeedProxy
  | notifyProxyShutdownPeerConn (proxyId : Str) (tranCount : Nat)
  | freeProxyConnReq (proxyId : Str)
  deriving DecidableEq

/-- What a client puts on a proxy connection, data being numbered by session. -/
inductive StreamItem where
  | frame (msg : ProxyCtlMsg)
  | data (session : Nat) (byte : UInt8)
  deriving DecidableEq

/-- What the server's `ProxyConn::handleRead` makes of its input. -/
inductive Handled where
  | parsed (msg : ProxyCtlMsg)
  /-- A message that is too long, or of a type without a case. -/
  | skipped
  | forwarded (peerConnFd : Option Fd) (byte : UInt8)
  deriving DecidableEq

/-- A proxy connection: its two ends and the bytes under way between them.
`claimed` tells that the server's tunnel has set its handlers. The last three
fields are history: the descriptor in the latest StartProxyConnReq, what the
client has sent and what the server has made of it. -/
structure Link where
  accepted : Bool := false
  claimed : Bool := false
  server : End := {}
  client : End := {}
  toServer : List UInt8 := []
  toClient : List UInt8 := []
  reqFd : Option Fd := none
  sent : List StreamItem := []
  handled : List Handled := []
  deriving DecidableEq

/-- `safe_unordered_map`, whose `add` is an `emplace`. -/
abbrev ConnMap (κ : Type) := AList (fun _ : κ => RandStr)

/-- The number of buckets the unclaimed connections are spread over. -/
abbrev unclaimedProxyMapLen : Nat := 4

/-- `accepted` is history: the descriptors the server's `accept` calls returned. -/
structure System where
  accepted : List Fd := []
  undealPublicFds : List Fd := []
  unclaimed : Fin unclaimedProxyMapLen → ConnMap Fd := fun _ => ∅
  proxyConnMap : ConnMap Str := ∅
  waitForStartProxyConnMap : ConnMap Str := ∅
  freeProxyConns : List RandStr := []
  clientProxyConnMap : ConnMap Str := ∅
  ctlToServer : List CtlMsg := []
  ctlToClient : List CtlMsg := []
  link : RandStr → Link := fun _ => {}

/-- The tunnel before its first public connection. -/
def System.init : System := {}

def System.mapLink (s : System) (id : RandStr) (update : Link → Link) : System :=
  { s with link := Function.update s.link id (update (s.link id)) }

/-- `getUnclaimedProxyMapByFd`. -/
def unclaimedIndex (fd : Fd) : Fin unclaimedProxyMapLen :=
  ⟨fd % unclaimedProxyMapLen, Nat.mod_lt fd (by decide)⟩

namespace Link

def mapServer (link : Link) (update : ProxyConn → ProxyConn) : Link :=
  { link with server := link.server.mapProxy update }

def mapClient (link : Link) (update : ProxyConn → ProxyConn) : Link :=
  { link with client := link.client.mapProxy update }

/-- The server has read one message and is left with `rest`. -/
def parseAtServer (link : Link) (item : Handled) (rest : List UInt8) : Link :=
  { link with toServer := rest, handled := link.handled ++ [item] }

/-- The server splices the next `count` bytes to its public connection. -/
def forwardAtServer (link : Link) (count : Nat) : Link :=
  let bytes := link.toServer.take count
  { link with
    toServer := link.toServer.drop count
    server := link.server.forward bytes
    handled := link.handled ++ bytes.map (Handled.forwarded link.server.proxy.peerConnFd) }

/-- The client splices the next `count` bytes to its local connection. -/
def forwardAtClient (link : Link) (count : Nat) : Link :=
  { link with
    toClient := link.toClient.drop count
    client := link.client.forward (link.toClient.take count) }

/-- A public connection's bytes are spliced to the proxy connection. -/
def relayAtServer (link : Link) (bytes : List UInt8) : Link :=
  { link with
    server := link.server.relay bytes
    toClient := link.toClient ++ bytes }

/-- A local connection's bytes are spliced to the proxy connection. -/
def relayAtClient (link : Link) (bytes : List UInt8) : Link :=
  { link with
    client := link.client.relay bytes
    toServer := link.toServer ++ bytes
    sent := link.sent ++ bytes.map (StreamItem.data link.client.starts.length) }

/-- The server's tunnel queues a StartProxyConnReq. -/
def request (link : Link) (publicFd : Fd) : Link :=
  { link with
    toClient := link.toClient ++
      (ProxyCtlMsg.startProxyConnReq publicFd link.server.proxy.proxyId).wire
    reqFd := some publicFd }

/-- The client sends a message that binds a session, then starts it. -/
def sendAndStart (link : Link) (msg : ProxyCtlMsg) (localFd : Fd) : Link :=
  { link with
    toServer := link.toServer ++ msg.wire
    sent := link.sent ++ [.frame msg]
    client := link.client.start { fd := localFd, proxyId := link.client.proxy.proxyId } }

end Link

end CProxy
