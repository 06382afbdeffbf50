import CProxy.Foundation.KeyedMap
import CProxy.Foundation.Remove
import CProxy.Foundation.Run
import CProxy.Tunnel.System

/-! # The server's tunnel and the lives of its connections

The server's `Tunnel` when proxy connections close: which of them its containers own,
what `std::remove` leaves in the vector of free ones, and what becomes of the
`PublicConn` that a proxy connection holds as `peerConn_`. The client answers every
request with the descriptor that is in it.
-/

namespace CProxy

open Foundation Wire

/-- A `PublicConn`, whose constructor tells its channel not to close the descriptor. -/
structure PublicConn where
  fd : Fd
  needCloseWhenDelete : Bool := false

/-- What `Channel::~Channel` closes when a connection goes. A poller that still has the
channel could only put that off. -/
def destroyed (peer : Option PublicConn) : List Fd :=
  match peer with
  | none => []
  | some conn => if conn.needCloseWhenDelete then [conn.fd] else []

/-- `requested` holds the descriptor of a StartProxyConnReq, or of its answer, that is
on its way. The last four fields are history. -/
structure Pool where
  undealPublicFds : List Fd := []
  freeProxyConns : List (Option RandStr) := []
  proxyConnMap : KeyedMap RandStr.chars := ∅
  waitForStartProxyConnMap : KeyedMap RandStr.chars := ∅
  isStart : RandStr → Bool := fun _ => false
  peerConn : RandStr → Option PublicConn := fun _ => none
  requested : RandStr → Option Fd := fun _ => none
  accepted : List Fd := []
  claimed : RandStr → Bool := fun _ => false
  closed : RandStr → Bool := fun _ => false
  closedFds : List Fd := []

inductive PoolEvent where
  | newPublicConn (acceptFd : Fd)
  | claimProxyConn (id : RandStr)
  | startProxyConnRsp (id : RandStr)
  /-- Both directions of a session have ended. -/
  | resetConn (id : RandStr)
  | freeProxyConn (proxyId : Str)
  | proxyConnClose (id : RandStr)

namespace Pool

/-- A container of the tunnel owns the connection. -/
def Owned (s : Pool) (id : RandStr) : Prop :=
  id ∈ s.proxyConnMap ∨ id ∈ s.waitForStartProxyConnMap ∨ some id ∈ s.freeProxyConns

instance (s : Pool) (id : RandStr) : Decidable (s.Owned id) :=
  inferInstanceAs (Decidable (_ ∨ _ ∨ _))

/-- `ProxyConn::start` with a new `PublicConn`, and the entry that follows it. -/
def bindPublicFdToProxyConn (s : Pool) (publicFd : Fd) (id : RandStr) : Pool :=
  { s with
    isStart := Function.update s.isStart id true
    peerConn := Function.update s.peerConn id (some { fd := publicFd })
    closedFds := s.closedFds ++ destroyed (s.peerConn id)
    proxyConnMap := s.proxyConnMap.add id }

/-- One round of the accept loop of `newPublicConnHandler`. A null pointer from the
vector has no `getProxyID`. -/
def newPublicConnHandler (s : Pool) (acceptFd : Fd) : Option Pool :=
  let s := { s with accepted := s.accepted ++ [acceptFd] }
  match s.freeProxyConns.getLast? with
  | none => some { s with undealPublicFds := s.undealPublicFds ++ [acceptFd] }
  | some none => none
  | some (some id) => some { s with
      freeProxyConns := s.freeProxyConns.dropLast
      requested := Function.update s.requested id (some acceptFd)
      waitForStartProxyConnMap := s.waitForStartProxyConnMap.add id }

/-- `Tunnel::claimProxyConn`. The back of an empty vector has no value. -/
def claimProxyConn (s : Pool) (id : RandStr) : Option Pool :=
  match s.undealPublicFds.getLast? with
  | none => none
  | some publicFd =>
      let s := { s with
        claimed := Function.update s.claimed id true
        undealPublicFds := s.undealPublicFds.dropLast }
      some (s.bindPublicFdToProxyConn publicFd id)

/-- The server reads the answer to the request on its way. -/
def handleStartProxyConnRsp (s : Pool) (id : RandStr) : Option Pool :=
  match s.requested id with
  | none => none
  | some publicFd =>
      let s := { s with requested := Function.update s.requested id none }
      if id ∉ s.waitForStartProxyConnMap then some s
      else
        let s := s.bindPublicFdToProxyConn publicFd id
        some { s with waitForStartProxyConnMap := s.waitForStartProxyConnMap.erase id.chars }

def freeProxyConn (s : Pool) (proxyId : Str) : Pool :=
  match s.proxyConnMap.get proxyId with
  | none => s
  | some id =>
      if s.isStart id then s
      else { s with
        proxyConnMap := s.proxyConnMap.erase proxyId
        freeProxyConns := s.freeProxyConns ++ [some id] }

/-- `Tunnel::handlePeerProxyConnClose`. -/
def handlePeerProxyConnClose (s : Pool) (id : RandStr) : Pool :=
  { s with
    proxyConnMap := s.proxyConnMap.erase id.chars
    freeProxyConns := remove (some id) s.freeProxyConns
    closed := Function.update s.closed id true }

/-- Destroys a connection that no container owns, and its `peerConn_` with it. -/
def settle (s : Pool) (id : RandStr) : Pool :=
  if s.Owned id then s
  else { s with
    peerConn := Function.update s.peerConn id none
    closedFds := s.closedFds ++ destroyed (s.peerConn id) }

/-- `accept` returns a positive descriptor that is not open. The identifiers that
connections are claimed under differ, and a closed connection is read no more. -/
def step (s : Pool) : PoolEvent → Option Pool
  | .newPublicConn acceptFd =>
      if 0 < acceptFd ∧ acceptFd ∉ s.accepted then s.newPublicConnHandler acceptFd else none
  | .claimProxyConn id =>
      if s.claimed id = false ∧ s.closed id = false then s.claimProxyConn id else none
  | .startProxyConnRsp id => if s.closed id = false then s.handleStartProxyConnRsp id else none
  | .resetConn id =>
      if s.closed id = false then
        some { s with isStart := Function.update s.isStart id false }
      else none
  | .freeProxyConn proxyId => some (s.freeProxyConn proxyId)
  | .proxyConnClose id =>
      if s.claimed id then some ((s.handlePeerProxyConnClose id).settle id) else none

theorem mem_add {map : KeyedMap RandStr.chars} {id other : RandStr} :
    other ∈ map.add id ↔ other = id ∨ other ∈ map :=
  KeyedMap.mem_add RandStr.chars_injective

theorem mem_erase {map : KeyedMap RandStr.chars} {id other : RandStr} :
    other ∈ map.erase id.chars ↔ other ≠ id ∧ other ∈ map :=
  KeyedMap.mem_erase RandStr.chars_injective

/-! ## Identifiers of the samples -/

def firstId : RandStr := ⟨[75, 76, 77, 78, 79], rfl, List.all_eq_true.mp rfl⟩

def secondId : RandStr := ⟨[70, 71, 72, 73, 74], rfl, List.all_eq_true.mp rfl⟩

end Pool

end CProxy
