import CProxy.Tunnel.System

/-! # The server's handlers

`Server`, `Control` and the server's `Tunnel`. A handler returns the state it
leaves; `none` stands for an input that is not there yet or for a step the
language does not define.
-/

namespace CProxy.Server

open Foundation Wire

/-- One round of the accept loop of `Server::newProxyConnHandler`. -/
def newProxyConnHandler (s : System) (id : RandStr) (acceptFd : Fd) : System :=
  let s := s.mapLink id fun link => { link with
    accepted := true
    server := { link.server with proxy := { fd := acceptFd } } }
  let idx := unclaimedIndex acceptFd
  { s with
    accepted := s.accepted ++ [acceptFd]
    unclaimed := Function.update s.unclaimed idx (emplace (s.unclaimed idx) acceptFd id) }

def bindPublicFdToProxyConn (s : System) (publicFd : Fd) (id : RandStr) : System :=
  let proxyId := (s.link id).server.proxy.proxyId
  let s := s.mapLink id fun link =>
    { link with server := link.server.start { fd := publicFd, proxyId := proxyId } }
  { s with proxyConnMap := emplace s.proxyConnMap proxyId id }

/-- `Tunnel::claimProxyConn`. The back of an empty vector has no value. -/
def tunnelClaimProxyConn (s : System) (id : RandStr) : Option System :=
  let s := s.mapLink id fun link => { link with claimed := true }
  match s.undealPublicFds.getLast? with
  | none => none
  | some publicFd =>
      let s := { s with undealPublicFds := s.undealPublicFds.dropLast }
      some (bindPublicFdToProxyConn s publicFd id)

/-- A claimed connection leaves the unclaimed ones. -/
def eraseUnclaimed (s : System) (fd : Fd) : System :=
  let idx := unclaimedIndex fd
  { s with unclaimed := Function.update s.unclaimed idx ((s.unclaimed idx).erase fd) }

/-- `Server::claimProxyConn`. -/
def claimProxyConn (cfg : Config) (s : System) (id : RandStr) (ctlId tunId proxyId : Str) :
    Option System :=
  let s := s.mapLink id fun link => link.mapServer fun conn => { conn with proxyId := proxyId }
  if ctlId ≠ cfg.ctlId.chars then some s
  else if tunId ≠ cfg.tunId.chars then some s
  else (tunnelClaimProxyConn s id).map fun s => eraseUnclaimed s (s.link id).server.proxy.fd

/-- `reqStartProxy` and the wait that follows it in `newPublicConnHandler`. -/
def reqStartProxy (s : System) (publicFd : Fd) (id : RandStr) : System :=
  let s := s.mapLink id fun link => link.request publicFd
  let proxyId := (s.link id).server.proxy.proxyId
  { s with waitForStartProxyConnMap := emplace s.waitForStartProxyConnMap proxyId id }

/-- One round of the accept loop of `Tunnel::newPublicConnHandler`, with `popFreeProxyConn`. -/
def newPublicConnHandler (s : System) (acceptFd : Fd) : System :=
  let s := { s with accepted := s.accepted ++ [acceptFd] }
  match s.freeProxyConns.getLast? with
  | some id => reqStartProxy { s with freeProxyConns := s.freeProxyConns.dropLast } acceptFd id
  | none =>
      { s with
        undealPublicFds := s.undealPublicFds ++ [acceptFd]
        ctlToClient := s.ctlToClient ++ [.notifyClientNeedProxy] }

def handleStartProxyConnRsp (s : System) (publicFd : Nat) (id : RandStr) : System :=
  let proxyId := (s.link id).server.proxy.proxyId
  if proxyId ∉ s.waitForStartProxyConnMap then s
  else
    let s := bindPublicFdToProxyConn s publicFd id
    { s with waitForStartProxyConnMap := s.waitForStartProxyConnMap.erase proxyId }

def freeProxyConn (s : System) (proxyId : Str) : System :=
  match s.proxyConnMap.lookup proxyId with
  | none => s
  | some id =>
      if (s.link id).server.proxy.isStart then s
      else
        { s with
          proxyConnMap := s.proxyConnMap.erase proxyId
          freeProxyConns := s.freeProxyConns ++ [id] }

def shutdownPublicConn (s : System) (id : RandStr) : System :=
  let isFree := (s.link id).server.proxy.shutdownWhenComplete.2
  let s := s.mapLink id fun link => link.mapServer fun conn => conn.shutdownWhenComplete.1
  if isFree then freeProxyConn s (s.link id).server.proxy.proxyId else s

/-- `Tunnel::shutdownFromPublic` and the message of `Control::shutdownFromPublic`. -/
def shutdownFromPublic (s : System) (proxyId : Str) (tranCount : Nat) : System :=
  match s.proxyConnMap.lookup proxyId with
  | none => s
  | some id =>
      let s := s.mapLink id fun link => link.mapServer fun conn => conn.shutdownFromLocal.1
      { s with
        ctlToClient := s.ctlToClient ++ [.notifyProxyShutdownPeerConn proxyId tranCount] }

/-- `Control::handleShutdownPublicConn`. -/
def handleShutdownPublicConn (s : System) (proxyId : Str) (tranCount : Nat) : System :=
  match s.proxyConnMap.lookup proxyId with
  | none => s
  | some id =>
      let s := s.mapLink id fun link => link.mapServer fun conn =>
        conn.incrTheoreticalTotalRecvCount tranCount
      shutdownPublicConn s id

/-- `Control::handleFreeProxyConnReq`. -/
def handleFreeProxyConnReq (s : System) (proxyId : Str) : System := freeProxyConn s proxyId

/-- `CtlConn::handleRead` on the server's end of the control connection. -/
def ctlRead (s : System) : Option System :=
  match s.ctlToServer with
  | [] => none
  | msg :: rest =>
      let s := { s with ctlToServer := rest }
      match msg with
      | .notifyClientNeedProxy => some s
      | .notifyProxyShutdownPeerConn proxyId tranCount =>
          some (handleShutdownPublicConn s proxyId tranCount)
      | .freeProxyConnReq proxyId => some (handleFreeProxyConnReq s proxyId)

/-- The half of `ProxyConn::handleRead` that forwards, with its completion check. -/
def forwardRead (s : System) (id : RandStr) (count : Nat) : Option System :=
  if ¬ SpliceLen count ∨ (s.link id).toServer.length < count then none
  -- a sum beyond `int` is undefined
  else if (s.link id).server.proxy.recvCount + count > intMax then none
  else
    let s := s.mapLink id fun link => link.forwardAtServer count
    let conn := (s.link id).server.proxy
    if conn.recvCount = conn.theoreticalTotalRecvCount ∧ (s.link id).claimed then
      some (shutdownPublicConn s id)
    else some s

/-- The half of `ProxyConn::handleRead` that reads messages. -/
def messageRead (cfg : Config) (s : System) (id : RandStr) : Option System :=
  match readMsg (s.link id).toServer with
  | .waiting => none
  | .dropped rest => some (s.mapLink id fun link => link.parseAtServer .skipped rest)
  | .unset _ => none
  | .message type body rest =>
      match ProxyCtlMsg.decode type body with
      | none => none
      | some none => some (s.mapLink id fun link => link.parseAtServer .skipped rest)
      | some (some msg) =>
          let s := s.mapLink id fun link => link.parseAtServer (.parsed msg) rest
          match msg with
          | .proxyMetaSet ctlId tunId proxyId => claimProxyConn cfg s id ctlId tunId proxyId
          | .startProxyConnReq .. => some s
          | .startProxyConnRsp publicFd _ =>
              if (s.link id).claimed then some (handleStartProxyConnRsp s publicFd id) else some s

/-- `ProxyConn::handleRead`. -/
def proxyRead (cfg : Config) (s : System) (id : RandStr) (count : Nat) : Option System :=
  if (s.link id).accepted = false then none
  else if (s.link id).server.proxy.isStart then forwardRead s id count
  else messageRead cfg s id

/-- `PublicConn::handleRead`; no bytes stand for the end of input. -/
def publicRead (s : System) (id : RandStr) (bytes : List UInt8) : Option System :=
  match (s.link id).server.peer with
  | none => none
  | some conn =>
      if bytes = [] then
        -- a second end of input splices nothing
        if conn.closing then some s
        else
          let s := shutdownFromPublic s conn.proxyId (uint32 conn.tranCount)
          some (s.mapLink id fun link => { link with server := link.server.close })
      -- nothing follows the end of input, and a sum beyond `int` is undefined
      else if conn.closing ∨ bytes.length > 2048 ∨ conn.tranCount + bytes.length > intMax then none
      else some (s.mapLink id fun link => link.relayAtServer bytes)

end CProxy.Server
