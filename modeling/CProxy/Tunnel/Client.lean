import CProxy.Tunnel.System

/-! # The client's handlers

`Client` and the client's `Tunnel`, for connects and sends that succeed.
-/

namespace CProxy.Client

open Foundation Wire

/-- `Client::handleProxyNotify`, with the identifier and the two descriptors it
gets for the new proxy connection. -/
def handleProxyNotify (cfg : Config) (s : System) (id : RandStr) (proxyFd localFd : Fd) : System :=
  let s := s.mapLink id fun link => { link with
    client := { link.client with proxy := { fd := proxyFd, proxyId := id.chars } } }
  let s := { s with clientProxyConnMap := emplace s.clientProxyConnMap id.chars id }
  s.mapLink id fun link => link.sendAndStart
    (.proxyMetaSet cfg.ctlId.chars cfg.tunId.chars link.client.proxy.proxyId) localFd

def shutdonwLocalConn (s : System) (id : RandStr) : System :=
  let isFree := (s.link id).client.proxy.shutdownWhenComplete.2
  let s := s.mapLink id fun link => link.mapClient fun conn => conn.shutdownWhenComplete.1
  if isFree then
    { s with
      ctlToServer := s.ctlToServer ++ [.freeProxyConnReq (s.link id).client.proxy.proxyId] }
  else s

/-- `Client::handleShutdownLocalConn`. -/
def handleShutdownLocalConn (s : System) (proxyId : Str) (tranCount : Nat) : System :=
  match s.clientProxyConnMap.lookup proxyId with
  | none => s
  | some id =>
      let s := s.mapLink id fun link => link.mapClient fun conn =>
        conn.incrTheoreticalTotalRecvCount tranCount
      shutdonwLocalConn s id

/-- `Tunnel::shutdownFromLocal` and the message of `Client::shutdownFromLocal`. -/
def shutdownFromLocal (s : System) (proxyId : Str) (tranCount : Nat) : System :=
  match s.clientProxyConnMap.lookup proxyId with
  | none => s
  | some id =>
      let s := s.mapLink id fun link => link.mapClient fun conn => conn.shutdownFromLocal.1
      { s with
        ctlToServer := s.ctlToServer ++ [.notifyProxyShutdownPeerConn proxyId tranCount] }

/-- `Tunnel::handleStartProxyConnReq`, with the descriptor of the new local connection. -/
def handleStartProxyConnReq (s : System) (publicFd : Nat) (proxyId : Str) (localFd : Fd) :
    System :=
  match s.clientProxyConnMap.lookup proxyId with
  | none => s
  | some id =>
      if (s.link id).client.proxy.isStart then s
      else s.mapLink id fun link =>
        link.sendAndStart (.startProxyConnRsp publicFd proxyId) localFd

/-- `CtlConn::handleRead` on the client's end of the control connection. The last
three arguments are for a message that makes a new proxy connection, whose
identifier is one that is not in use. -/
def ctlRead (cfg : Config) (s : System) (id : RandStr) (proxyFd localFd : Fd) : Option System :=
  match s.ctlToClient with
  | [] => none
  | msg :: rest =>
      let s := { s with ctlToClient := rest }
      match msg with
      | .notifyClientNeedProxy =>
          if id.chars ∈ s.clientProxyConnMap then none
          else some (handleProxyNotify cfg s id proxyFd localFd)
      | .notifyProxyShutdownPeerConn proxyId tranCount =>
          some (handleShutdownLocalConn s proxyId tranCount)
      | .freeProxyConnReq _ => some s

/-- The half of `ProxyConn::handleRead` that forwards, with its completion check. -/
def forwardRead (s : System) (id : RandStr) (count : Nat) : Option System :=
  if ¬ SpliceLen count ∨ (s.link id).toClient.length < count then none
  -- a sum beyond `int` is undefined
  else if (s.link id).client.proxy.recvCount + count > intMax then none
  else
    let s := s.mapLink id fun link => link.forwardAtClient count
    let conn := (s.link id).client.proxy
    if conn.recvCount = conn.theoreticalTotalRecvCount then some (shutdonwLocalConn s id)
    else some s

/-- The half of `ProxyConn::handleRead` that reads messages. -/
def messageRead (s : System) (id : RandStr) (localFd : Fd) : Option System :=
  match readMsg (s.link id).toClient with
  | .waiting => none
  | .dropped rest => some (s.mapLink id fun link => { link with toClient := rest })
  | .unset _ => none
  | .message type body rest =>
      match ProxyCtlMsg.decode type body with
      | none => none
      | some msg =>
          let s := s.mapLink id fun link => { link with toClient := rest }
          match msg with
          | some (.startProxyConnReq publicFd proxyId) =>
              some (handleStartProxyConnReq s publicFd proxyId localFd)
          | _ => some s

/-- `ProxyConn::handleRead`. -/
def proxyRead (s : System) (id : RandStr) (count : Nat) (localFd : Fd) : Option System :=
  if id.chars ∉ s.clientProxyConnMap then none
  else if (s.link id).client.proxy.isStart then forwardRead s id count
  else messageRead s id localFd

/-- `LocalConn::handleRead`; no bytes stand for the end of input. -/
def localRead (s : System) (id : RandStr) (bytes : List UInt8) : Option System :=
  match (s.link id).client.peer with
  | none => none
  | some conn =>
      if bytes = [] then
        -- a second end of input splices nothing
        if conn.closing then some s
        else
          let s := shutdownFromLocal s conn.proxyId (uint32 conn.tranCount)
          some (s.mapLink id fun link => { link with client := link.client.close })
      -- nothing follows the end of input, and a sum beyond `int` is undefined
      else if conn.closing ∨ bytes.length > 2048 ∨ conn.tranCount + bytes.length > intMax then none
      else some (s.mapLink id fun link => link.relayAtClient bytes)

end CProxy.Client
