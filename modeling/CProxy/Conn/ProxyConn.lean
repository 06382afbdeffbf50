import CProxy.Wire.ProxyMsg

/-! # Proxy connections and the connections they serve

One end of a proxied session is a `ProxyConn` and the `PublicConn` (server) or
`LocalConn` (client) bound to it. The counters decide when the remote direction
is complete; the single `half_close_` bit records that one direction has ended.
-/

namespace CProxy

open Foundation Wire

/-- A file descriptor. -/
abbrev Fd := Nat

/-- `splice` takes at most 2048 bytes; reading none is the end of input. -/
def SpliceLen (count : Nat) : Prop := 1 ≤ count ∧ count ≤ 2048

instance (count : Nat) : Decidable (SpliceLen count) := inferInstanceAs (Decidable (_ ∧ _))

/-- `ProxyConn`, with the counters it has from `TranConn`. `shutWr` is history:
the descriptors given to `shutdown(_, SHUT_WR)`, oldest first. -/
structure ProxyConn where
  fd : Fd := 0
  isStart : Bool := false
  halfClose : Bool := false
  /-- Unset until the first `start`; 0 after `resetConn`. -/
  peerConnFd : Option Fd := none
  recvCount : Int := 0
  tranCount : Int := 0
  theoreticalTotalRecvCount : Int := -1
  proxyId : Str := []
  shutWr : List (Option Fd) := []
  deriving DecidableEq

namespace ProxyConn

def incrRecvCount (conn : ProxyConn) (addedCount : Nat) : ProxyConn :=
  { conn with recvCount := int32 (conn.recvCount + addedCount) }

/-- The announcement of the other end's total; -1 stands for none so far. -/
def incrTheoreticalTotalRecvCount (conn : ProxyConn) (addedCount : Nat) : ProxyConn :=
  if conn.theoreticalTotalRecvCount = -1 then
    { conn with theoreticalTotalRecvCount := int32 addedCount }
  else
    { conn with
      theoreticalTotalRecvCount := int32 (conn.theoreticalTotalRecvCount + addedCount) }

def resetConn (conn : ProxyConn) : ProxyConn :=
  { conn with
    peerConnFd := some 0
    recvCount := 0
    tranCount := 0
    theoreticalTotalRecvCount := -1
    isStart := false
    halfClose := false }

/-- The flag returned says that the connection has become idle. -/
def shutdownFromRemote (conn : ProxyConn) : ProxyConn × Bool :=
  let conn := { conn with shutWr := conn.shutWr ++ [conn.peerConnFd] }
  if conn.halfClose then (conn.resetConn, true) else ({ conn with halfClose := true }, false)

def shutdownFromLocal (conn : ProxyConn) : ProxyConn × Bool :=
  if conn.halfClose then (conn.resetConn, true) else ({ conn with halfClose := true }, false)

/-- The common part of the server's `shutdownPublicConn` and the client's
`shutdonwLocalConn`: nothing happens until all announced bytes are forwarded. -/
def shutdownWhenComplete (conn : ProxyConn) : ProxyConn × Bool :=
  if conn.recvCount ≠ conn.theoreticalTotalRecvCount then (conn, false)
  else conn.shutdownFromRemote

/-- The values `resetConn` leaves, which are also those of a new connection. -/
structure Idle (conn : ProxyConn) : Prop where
  isStart : conn.isStart = false
  halfClose : conn.halfClose = false
  recvCount : conn.recvCount = 0
  theoreticalTotalRecvCount : conn.theoreticalTotalRecvCount = -1

theorem idle_new (fd : Fd) (proxyId : Str) : Idle { fd := fd, proxyId := proxyId } :=
  ⟨rfl, rfl, rfl, rfl⟩

theorem resetConn_idle (conn : ProxyConn) : conn.resetConn.Idle := ⟨rfl, rfl, rfl, rfl⟩

@[simp] theorem incrRecvCount_proxyId (conn : ProxyConn) (count : Nat) :
    (conn.incrRecvCount count).proxyId = conn.proxyId := rfl

@[simp] theorem incrTheoreticalTotalRecvCount_proxyId (conn : ProxyConn) (count : Nat) :
    (conn.incrTheoreticalTotalRecvCount count).proxyId = conn.proxyId := by
  unfold incrTheoreticalTotalRecvCount
  split <;> rfl

@[simp] theorem incrTheoreticalTotalRecvCount_recvCount (conn : ProxyConn) (count : Nat) :
    (conn.incrTheoreticalTotalRecvCount count).recvCount = conn.recvCount := by
  unfold incrTheoreticalTotalRecvCount
  split <;> rfl

@[simp] theorem incrTheoreticalTotalRecvCount_halfClose (conn : ProxyConn) (count : Nat) :
    (conn.incrTheoreticalTotalRecvCount count).halfClose = conn.halfClose := by
  unfold incrTheoreticalTotalRecvCount
  split <;> rfl

@[simp] theorem incrTheoreticalTotalRecvCount_isStart (conn : ProxyConn) (count : Nat) :
    (conn.incrTheoreticalTotalRecvCount count).isStart = conn.isStart := by
  unfold incrTheoreticalTotalRecvCount
  split <;> rfl

@[simp] theorem shutdownFromRemote_proxyId (conn : ProxyConn) :
    conn.shutdownFromRemote.1.proxyId = conn.proxyId := by
  unfold shutdownFromRemote
  dsimp only
  split <;> rfl

@[simp] theorem shutdownFromLocal_proxyId (conn : ProxyConn) :
    conn.shutdownFromLocal.1.proxyId = conn.proxyId := by
  unfold shutdownFromLocal
  split <;> rfl

@[simp] theorem shutdownWhenComplete_proxyId (conn : ProxyConn) :
    conn.shutdownWhenComplete.1.proxyId = conn.proxyId := by
  unfold shutdownWhenComplete
  split
  · rfl
  · exact shutdownFromRemote_proxyId conn

end ProxyConn

/-- `PublicConn` and `LocalConn`. The last two fields are history: the bytes
spliced out of the descriptor and the bytes spliced into it. -/
structure EdgeConn where
  fd : Fd
  proxyId : Str
  tranCount : Int := 0
  closing : Bool := false
  received : List UInt8 := []
  written : List UInt8 := []
  deriving DecidableEq

/-- One end of a proxy connection. `starts` is history: the descriptors of the
connections it has been started with, oldest first. -/
structure End where
  proxy : ProxyConn := {}
  peer : Option EdgeConn := none
  starts : List Fd := []
  deriving DecidableEq

namespace End

/-- `ProxyConn::start`. -/
def start (side : End) (conn : EdgeConn) : End where
  proxy := { side.proxy with isStart := true, peerConnFd := some conn.fd }
  peer := some conn
  starts := side.starts ++ [conn.fd]

/-- The data half of `ProxyConn::handleRead`, up to its completion check. -/
def forward (side : End) (bytes : List UInt8) : End :=
  { side with
    proxy := side.proxy.incrRecvCount bytes.length
    peer := side.peer.map fun conn => { conn with written := conn.written ++ bytes } }

/-- `PublicConn::handleRead` and `LocalConn::handleRead` on data. -/
def relay (side : End) (bytes : List UInt8) : End :=
  { side with
    peer := side.peer.map fun conn => { conn with
      tranCount := int32 (conn.tranCount + bytes.length)
      received := conn.received ++ bytes } }

/-- `closing_ = true`, after the end of input was reported. -/
def close (side : End) : End :=
  { side with peer := side.peer.map fun conn => { conn with closing := true } }

def mapProxy (side : End) (update : ProxyConn → ProxyConn) : End :=
  { side with proxy := update side.proxy }

end End

end CProxy
