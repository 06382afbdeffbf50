import CProxy.Foundation.Parts
import CProxy.Tunnel.Wired

/-! # A server and its clients

Every client has a control connection of its own; on it the client is told its `ctl_id`,
then asks for a tunnel and is told the tunnel's `tun_id`, and behind these answers the
messages about the tunnel go. The server finds controls and tunnels by these names, and
keeps the proxy connections of all clients that are not claimed yet in the same buckets.
What a handler does inside of a tunnel is the model of one tunnel.
-/

namespace CProxy

open Foundation Wire

deriving instance DecidableEq for Config

/-- The messages on a control connection; those about a tunnel carry its `tun_id`. -/
inductive ConnMsg where
  | newCtlReq
  | newCtlRsp (ctlId : RandStr)
  | newTunnelReq
  | newTunnelRsp (tunId : RandStr)
  | about (tunId : RandStr) (msg : CtlMsg)
  deriving DecidableEq

/-- A control connection with the server's `Control` and the `Client` at its ends:
`tunnel_map_` of each of the two, and `client_id_`, which is empty at first. -/
structure ControlConn where
  tunnelMap : ConnMap Str := ∅
  clientId : Option RandStr := none
  clientTunnelMap : ConnMap Str := ∅
  toServer : List ConnMsg := []
  toClient : List ConnMsg := []

/-- A connection is named by its `ctl_id` and a tunnel by both names. The queues of the
tunnels are empty between two handlers. The `accepted` and the `unclaimed` of one tunnel
are history here, since the server has one of each for all of them. -/
structure Deployment where
  accepted : List Fd := []
  controlMap : ConnMap Str := ∅
  unclaimed : Fin unclaimedProxyMapLen → AList (fun _ : Fd => Config × RandStr) := fun _ => ∅
  control : RandStr → ControlConn := fun _ => {}
  tunnel : Config → System := fun _ => System.init

inductive DeploymentEvent where
  | newCtlConn (acceptFd : Fd) (ctlId : RandStr)
  | serverCtlRead (ctlId tunId : RandStr)
  | clientCtlRead (ctlId id : RandStr) (proxyFd localFd : Fd)
  | newPublicConn (cfg : Config) (acceptFd : Fd)
  | newProxyConn (cfg : Config) (id : RandStr) (acceptFd : Fd)
  | serverProxyRead (cfg : Config) (id : RandStr) (count : Nat)
  | publicRead (cfg : Config) (id : RandStr) (bytes : List UInt8)
  | clientProxyRead (cfg : Config) (id : RandStr) (count : Nat) (localFd : Fd)
  | localRead (cfg : Config) (id : RandStr) (bytes : List UInt8)

/-- A ProxyMetaSet at the head of what goes to the server, with what is behind it. -/
def Link.metaSet (link : Link) : Option (Str × Str × Str × List UInt8) :=
  match readMsg link.toServer with
  | .message type body rest =>
      match ProxyCtlMsg.decode type body with
      | some (some (.proxyMetaSet ctlId tunId proxyId)) => some (ctlId, tunId, proxyId, rest)
      | _ => none
  | _ => none

/-- The ProxyMetaSet that the server's end is about to read. -/
def Link.awaited (link : Link) : Option (Str × Str × Str × List UInt8) :=
  if link.accepted ∧ ¬ link.server.proxy.isStart then link.metaSet else none

namespace Deployment

def mapControl (d : Deployment) (ctlId : RandStr) (update : ControlConn → ControlConn) :
    Deployment :=
  { d with control := Function.update d.control ctlId (update (d.control ctlId)) }

/-- A handler of a tunnel has left it in the state `s`; its messages go to the end of the
control connection. -/
def put (d : Deployment) (cfg : Config) (s : System) : Deployment :=
  { d with tunnel := Function.update d.tunnel cfg s.quiet }.mapControl cfg.ctlId fun conn =>
    { conn with
      toServer := conn.toServer ++ s.ctlToServer.map (ConnMsg.about cfg.tunId)
      toClient := conn.toClient ++ s.ctlToClient.map (ConnMsg.about cfg.tunId) }

/-- A handler that is called for a connection of a tunnel. -/
def tunnelStep (d : Deployment) (cfg : Config) (event : Event) : Option Deployment :=
  (CProxy.step cfg (d.tunnel cfg) event).map (d.put cfg)

/-- `accept` returns a positive `int` that is not open. -/
def Fresh (d : Deployment) (acceptFd : Fd) : Prop :=
  0 < acceptFd ∧ acceptFd ≤ 2147483647 ∧ acceptFd ∉ d.accepted

instance (d : Deployment) (acceptFd : Fd) : Decidable (d.Fresh acceptFd) :=
  inferInstanceAs (Decidable (_ ∧ _ ∧ _))

/-! ## The control connections -/

/-- One round of the accept loop of `Server::newCtlConnHandler`, for a client that has put
its NewCtlReq on the connection in `Client::start`. -/
def newCtlConnHandler (d : Deployment) (acceptFd : Fd) (ctlId : RandStr) : Option Deployment :=
  -- `rand_str` is called again until the identifier is not in the map
  if ctlId.chars ∈ d.controlMap then none
  else
    let d := { d with
      accepted := d.accepted ++ [acceptFd]
      controlMap := emplace d.controlMap ctlId.chars ctlId }
    some (d.mapControl ctlId fun _ => { toServer := [.newCtlReq] })

/-- `Control::handleNewCtlReq`. -/
def handleNewCtlReq (d : Deployment) (ctlId : RandStr) : Deployment :=
  d.mapControl ctlId fun conn => { conn with toClient := conn.toClient ++ [.newCtlRsp ctlId] }

/-- `Control::handleNewTunnelReq`, with the identifier it draws. A second tunnel of one name
has no place in the state. -/
def handleNewTunnelReq (d : Deployment) (ctlId tunId : RandStr) : Option Deployment :=
  if tunId.chars ∈ (d.control ctlId).tunnelMap then none
  else some (d.mapControl ctlId fun conn => { conn with
    tunnelMap := emplace conn.tunnelMap tunId.chars tunId
    toClient := conn.toClient ++ [.newTunnelRsp tunId] })

/-- `Control::handleShutdownPublicConn` and `Control::handleFreeProxyConnReq`. -/
def handleAboutAtServer (d : Deployment) (ctlId tunId : RandStr) (msg : CtlMsg) :
    Option Deployment :=
  match (d.control ctlId).tunnelMap.lookup tunId.chars with
  -- "tun {} not exist"
  | none => some d
  | some tun =>
      let cfg := ⟨ctlId, tun⟩
      (CProxy.step cfg { d.tunnel cfg with ctlToServer := [msg] } .serverCtlRead).map (d.put cfg)

/-- `CtlConn::handleRead` on the server's end. -/
def serverCtlRead (d : Deployment) (ctlId tunId : RandStr) : Option Deployment :=
  match (d.control ctlId).toServer with
  | [] => none
  | msg :: rest =>
      let d := d.mapControl ctlId fun conn => { conn with toServer := rest }
      match msg with
      | .newCtlReq => some (d.handleNewCtlReq ctlId)
      | .newTunnelReq => d.handleNewTunnelReq ctlId tunId
      | .about named msg => d.handleAboutAtServer ctlId named msg
      -- the server has no handler for these
      | .newCtlRsp _ => some d
      | .newTunnelRsp _ => some d

/-- `Client::handleNewCtlRsp` with `Client::reqNewTunnel`. -/
def handleNewCtlRsp (d : Deployment) (ctlId named : RandStr) : Deployment :=
  d.mapControl ctlId fun conn => { conn with
    clientId := some named
    toServer := conn.toServer ++ [.newTunnelReq] }

/-- `Client::handleNewTunnelRsp`. -/
def handleNewTunnelRsp (d : Deployment) (ctlId tunId : RandStr) : Deployment :=
  d.mapControl ctlId fun conn => { conn with
    clientTunnelMap := emplace conn.clientTunnelMap tunId.chars tunId }

/-- `Client::handleProxyNotify` and `Client::handleShutdownLocalConn`. -/
def handleAboutAtClient (d : Deployment) (ctlId tunId : RandStr) (msg : CtlMsg)
    (id : RandStr) (proxyFd localFd : Fd) : Option Deployment :=
  match (d.control ctlId).clientTunnelMap.lookup tunId.chars with
  -- "tun_id {} not exist"
  | none => some d
  | some tun =>
      match (d.control ctlId).clientId with
      -- the name is still empty, and comes before any tunnel
      | none => none
      | some clientId =>
          (CProxy.step ⟨clientId, tun⟩ { d.tunnel ⟨ctlId, tun⟩ with ctlToClient := [msg] }
            (.clientCtlRead id proxyFd localFd)).map (d.put ⟨ctlId, tun⟩)

/-- `CtlConn::handleRead` on the client's end. -/
def clientCtlRead (d : Deployment) (ctlId id : RandStr) (proxyFd localFd : Fd) :
    Option Deployment :=
  match (d.control ctlId).toClient with
  | [] => none
  | msg :: rest =>
      let d := d.mapControl ctlId fun conn => { conn with toClient := rest }
      match msg with
      | .newCtlRsp named => some (d.handleNewCtlRsp ctlId named)
      | .newTunnelRsp tunId => some (d.handleNewTunnelRsp ctlId tunId)
      | .about named msg => d.handleAboutAtClient ctlId named msg id proxyFd localFd
      -- the client has no handler for these
      | .newCtlReq => some d
      | .newTunnelReq => some d

/-! ## The proxy connections -/

/-- What `Server::newProxyConnHandler` puts into its buckets. -/
def addUnclaimed (d : Deployment) (cfg : Config) (id : RandStr) (acceptFd : Fd) : Deployment :=
  let idx := unclaimedIndex acceptFd
  { d with
    accepted := d.accepted ++ [acceptFd]
    unclaimed := Function.update d.unclaimed idx
      (emplace (d.unclaimed idx) acceptFd (cfg, id)) }

def eraseUnclaimed (d : Deployment) (fd : Fd) : Deployment :=
  let idx := unclaimedIndex fd
  { d with unclaimed := Function.update d.unclaimed idx ((d.unclaimed idx).erase fd) }

/-- The tunnel that `Server::claimProxyConn` finds. -/
def claimant (d : Deployment) (ctlId tunId : Str) : Option Config :=
  (d.controlMap.lookup ctlId).bind fun ctl =>
    ((d.control ctl).tunnelMap.lookup tunId).map fun tun => ⟨ctl, tun⟩

/-- `Server::claimProxyConn`, for a connection that a client has made for the tunnel `cfg`.
The state has no place for a connection that another tunnel has claimed. -/
def claimProxyConn (d : Deployment) (cfg : Config) (id : RandStr) (ctlId tunId proxyId : Str)
    (rest : List UInt8) : Option Deployment :=
  let s := (d.tunnel cfg).mapLink id fun link =>
    link.parseAtServer (.parsed (.proxyMetaSet ctlId tunId proxyId)) rest
  match d.claimant ctlId tunId with
  -- "control {} is not exist", "tun {} is not exist in ctl {}"
  | none => some (d.put cfg (s.mapLink id fun link => link.mapServer fun conn =>
      { conn with proxyId := proxyId }))
  | some found =>
      if found = cfg then
        (Server.claimProxyConn cfg s id ctlId tunId proxyId).map fun claimed =>
          (d.eraseUnclaimed (s.link id).server.proxy.fd).put cfg claimed
      else none

/-- `ProxyConn::handleRead` on the server's end. -/
def serverProxyRead (d : Deployment) (cfg : Config) (id : RandStr) (count : Nat) :
    Option Deployment :=
  match ((d.tunnel cfg).link id).awaited with
  | none => d.tunnelStep cfg (.serverProxyRead id count)
  | some (ctlId, tunId, proxyId, rest) => d.claimProxyConn cfg id ctlId tunId proxyId rest

/-! ## Runs -/

def step (d : Deployment) : DeploymentEvent → Option Deployment
  | .newCtlConn acceptFd ctlId =>
      if d.Fresh acceptFd then d.newCtlConnHandler acceptFd ctlId else none
  | .serverCtlRead ctlId tunId => d.serverCtlRead ctlId tunId
  | .clientCtlRead ctlId id proxyFd localFd => d.clientCtlRead ctlId id proxyFd localFd
  -- a tunnel listens from its construction on
  | .newPublicConn cfg acceptFd =>
      if d.Fresh acceptFd ∧ cfg.tunId.chars ∈ (d.control cfg.ctlId).tunnelMap then
        (d.tunnelStep cfg (.newPublicConn acceptFd)).map fun d =>
          { d with accepted := d.accepted ++ [acceptFd] }
      else none
  | .newProxyConn cfg id acceptFd =>
      if d.Fresh acceptFd then
        (d.tunnelStep cfg (.newProxyConn id acceptFd)).map (·.addUnclaimed cfg id acceptFd)
      else none
  | .serverProxyRead cfg id count => d.serverProxyRead cfg id count
  | .publicRead cfg id bytes => d.tunnelStep cfg (.publicRead id bytes)
  | .clientProxyRead cfg id count localFd => d.tunnelStep cfg (.clientProxyRead id count localFd)
  | .localRead cfg id bytes => d.tunnelStep cfg (.localRead id bytes)

/-- What an event shows, with the tunnel it is about. -/
def splices (d : Deployment) : DeploymentEvent → List (Config × Splice)
  | .serverProxyRead cfg id count =>
      ((d.tunnel cfg).splices (.serverProxyRead id count)).map (cfg, ·)
  | .publicRead cfg id bytes => ((d.tunnel cfg).splices (.publicRead id bytes)).map (cfg, ·)
  | .clientProxyRead cfg id count localFd =>
      ((d.tunnel cfg).splices (.clientProxyRead id count localFd)).map (cfg, ·)
  | .localRead cfg id bytes => ((d.tunnel cfg).splices (.localRead id bytes)).map (cfg, ·)
  | _ => []

end Deployment

end CProxy
