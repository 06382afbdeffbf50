import CProxy.Tunnel.View

/-! # The invariant of a proxy connection

A connection is unused; or its client has started a session the server has not
bound yet; or both ends have been started equally often. In the last case each
end is between two handlers of the session or back in idle mode, and nothing but
a StartProxyConnReq is under way to an idle end.
-/

namespace CProxy

open Foundation Wire

/-- Where a message that binds a session comes from: the first session of a
connection, or the answer to a request. -/
inductive Origin (cfg : Config) (id : RandStr) (v : View) : ProxyCtlMsg → Prop
  | fresh (hclaimed : v.link.claimed = false) (hstarts : v.link.server.starts = [])
      (hwaiting : v.waiting = 0)
      (hunclaimed : v.unclaimed = if v.link.accepted then 1 else 0) :
      Origin cfg id v (.proxyMetaSet cfg.ctlId.chars cfg.tunId.chars id.chars)
  | reused (publicFd : Fd) (hfd : publicFd ≤ 2147483647) (haccepted : v.link.accepted = true)
      (hclaimed : v.link.claimed = true) (hwaiting : v.waiting = 1) (hunclaimed : v.unclaimed = 0)
      (hname : v.link.server.proxy.proxyId = id.chars) (hreq : v.link.reqFd = some publicFd) :
      Origin cfg id v (.startProxyConnRsp publicFd id.chars)

theorem Origin.sent {cfg : Config} {id : RandStr} {v : View} {msg : ProxyCtlMsg}
    (horigin : Origin cfg id v msg) : ProxyCtlMsg.Sent msg := by
  cases horigin with
  | fresh => exact .proxyMetaSet _ _ _
  | reused publicFd hfd => exact .startProxyConnRsp publicFd hfd id

/-- The client has sent `msg` and started `loc`; the server has not read it. -/
structure Ahead (cfg : Config) (id : RandStr) (v : View) (loc : EdgeConn) (msg : ProxyCtlMsg) :
    Prop where
  created : v.created = true
  clientName : v.link.client.proxy.proxyId = id.chars
  locName : loc.proxyId = id.chars
  locCounted : loc.Counted
  starts : v.link.client.starts.length = v.link.server.starts.length + 1
  server : v.link.server.proxy.Idle
  publicClosed : ∀ conn, v.link.server.peer = some conn → conn.closing = true
  stream : v.link.toServer = msg.wire ++ loc.received
  up : ∀ fd, (incoming { fd := fd, proxyId := id.chars } loc [] loc.received
    (totals v.ctlToServer) none).Sound
  down : ∀ fd, Active v.link.client loc { fd := fd, proxyId := id.chars } [] v.link.toClient
    v.ctlToClient none
  mapped : v.mapped = 0
  free : v.free = 0
  origin : Origin cfg id v msg

/-- What a session does not change. -/
structure Bound (id : RandStr) (v : View) (pub loc : EdgeConn) : Prop where
  created : v.created = true
  accepted : v.link.accepted = true
  claimed : v.link.claimed = true
  unclaimed : v.unclaimed = 0
  serverName : v.link.server.proxy.proxyId = id.chars
  clientName : v.link.client.proxy.proxyId = id.chars
  pubName : pub.proxyId = id.chars
  locName : loc.proxyId = id.chars
  starts : v.link.client.starts.length = v.link.server.starts.length
  lastStart : v.link.server.starts.getLast? = some pub.fd

/-- The request that trails the stream to the client while the server waits for its answer. -/
def Requested (id : RandStr) (v : View) (trailing : List UInt8) : Prop :=
  (v.waiting = 0 ∧ trailing = []) ∨
    (v.waiting = 1 ∧ ∃ publicFd, publicFd ≤ 2147483647 ∧ v.link.reqFd = some publicFd ∧
      trailing = (ProxyCtlMsg.startProxyConnReq publicFd id.chars).wire)

/-- Both ends have been started for the session of `pub` and `loc`. -/
structure Level (id : RandStr) (v : View) (pub loc : EdgeConn) (trailing : List UInt8) : Prop
    extends Bound id v pub loc where
  pubCounted : pub.Counted
  locCounted : loc.Counted
  up : EndInv v.link.server pub loc [] v.link.toServer (totals v.ctlToServer)
  down : EndInv v.link.client loc pub trailing v.link.toClient v.ctlToClient
  home : v.mapped + v.waiting + v.free = 1
  mapped : v.link.server.proxy.isStart = true → v.mapped = 1
  requested : Requested id v trailing

inductive LinkInv (cfg : Config) (id : RandStr) (v : View) : Prop
  | unused (hunused : v = {})
  | ahead (loc : EdgeConn) (msg : ProxyCtlMsg) (hahead : Ahead cfg id v loc msg)
  | level (pub loc : EdgeConn) (trailing : List UInt8) (hlevel : Level id v pub loc trailing)

@[simp] theorem settle_starts (side : End) : side.settle.starts = side.starts := rfl

@[simp] theorem settle_proxyId (side : End) : side.settle.proxy.proxyId = side.proxy.proxyId := by
  simp [End.settle, End.mapProxy]

@[simp] theorem totals_append (first second : List Notice) :
    totals (first ++ second) = totals first ++ totals second := by
  simp [totals]

@[simp] theorem totals_shutdownPeer (tranCount : Nat) (rest : List Notice) :
    totals (.shutdownPeer tranCount :: rest) = tranCount :: totals rest := rfl

@[simp] theorem totals_freeReq (rest : List Notice) :
    totals (.freeReq :: rest) = totals rest := rfl

@[simp] theorem totals_nil : totals [] = [] := rfl

/-- A request to free a connection announces nothing. -/
theorem totals_append_freeReq (notices : List Notice) (idle : Bool) :
    totals (notices ++ if idle then [] else [.freeReq]) = totals notices := by
  rw [totals_append]
  split
  · simp
  · simp

/-! ## The check of each end, seen from the connection -/

variable {cfg : Config} {id : RandStr} {v : View} {pub loc : EdgeConn} {trailing : List UInt8}

@[simp] theorem View.mapLink_link (v : View) (update : Link → Link) :
    (v.mapLink update).link = update v.link := rfl

@[simp] theorem View.freeProxyConn_link (v : View) : v.freeProxyConn.link = v.link := by
  unfold View.freeProxyConn
  split <;> rfl

@[simp] theorem View.shutdownPublicConn_link (v : View) :
    v.shutdownPublicConn.link = { v.link with server := v.link.server.settle } := by
  unfold View.shutdownPublicConn
  dsimp only
  split
  · rw [View.freeProxyConn_link, View.mapLink_link]
  · rfl

@[simp] theorem View.shutdonwLocalConn_link (v : View) :
    v.shutdonwLocalConn.link = { v.link with client := v.link.client.settle } := by
  unfold View.shutdonwLocalConn
  dsimp only
  split <;> rfl

/-- The server's check moves a connection it resets from the map to the free list. -/
theorem View.shutdownPublicConn_eq {notices : List Nat} {total : Option Nat}
    (hunsettled : Unsettled v.link.server pub loc [] v.link.toServer notices total)
    (hmapped : v.mapped = 1) :
    v.shutdownPublicConn = { v with
      link := { v.link with server := v.link.server.settle }
      mapped := if v.link.server.settle.proxy.isStart then 1 else 0
      free := v.free + if v.link.server.settle.proxy.isStart then 0 else 1 } := by
  have hfree := hunsettled.isFree_iff
  unfold View.shutdownPublicConn
  cases hstart : v.link.server.settle.proxy.isStart with
  | true =>
      have hnot : v.link.server.proxy.shutdownWhenComplete.2 = false := by
        rw [← Bool.not_eq_true, hfree, hstart]
        simp
      simp [hnot, View.mapLink, hmapped]
  | false =>
      rw [hstart] at hfree
      simp [hfree.mpr rfl, View.mapLink, View.freeProxyConn, hmapped, hstart]

/-- The client's check asks the server to free a connection it resets. -/
theorem View.shutdonwLocalConn_eq {notices : List Nat} {total : Option Nat}
    (hunsettled : Unsettled v.link.client loc pub trailing v.link.toClient notices total) :
    v.shutdonwLocalConn = { v with
      link := { v.link with client := v.link.client.settle }
      ctlToServer := v.ctlToServer ++
        if v.link.client.settle.proxy.isStart then [] else [.freeReq] } := by
  have hfree := hunsettled.isFree_iff
  unfold View.shutdonwLocalConn
  cases hstart : v.link.client.settle.proxy.isStart with
  | true =>
      have hnot : v.link.client.proxy.shutdownWhenComplete.2 = false := by
        rw [← Bool.not_eq_true, hfree, hstart]
        simp
      simp [hnot, View.mapLink]
  | false =>
      rw [hstart] at hfree
      simp [hfree.mpr rfl, View.mapLink]

/-- A mapped connection after the server's completion check. -/
theorem Level.of_shutdownPublicConn {total : Option Nat} (hbound : Bound id v pub loc)
    (hpub : pub.Counted) (hloc : loc.Counted)
    (hunsettled : Unsettled v.link.server pub loc [] v.link.toServer (totals v.ctlToServer) total)
    (hdown : EndInv v.link.client loc pub [] v.link.toClient v.ctlToClient)
    (hmapped : v.mapped = 1) (hwaiting : v.waiting = 0) (hfree : v.free = 0) :
    Level id v.shutdownPublicConn pub loc [] := by
  rw [View.shutdownPublicConn_eq hunsettled hmapped]
  exact { hbound with
    serverName := by simp [hbound.serverName]
    pubCounted := hpub
    locCounted := hloc
    up := hunsettled.settle
    down := hdown
    home := by
      cases hstart : v.link.server.settle.proxy.isStart with
      | true => simp [hwaiting, hfree]
      | false => simp [hwaiting, hfree]
    mapped := fun hstart => if_pos hstart
    requested := Or.inl ⟨hwaiting, rfl⟩ }

theorem Level.of_shutdonwLocalConn {total : Option Nat} (hbound : Bound id v pub loc)
    (hpub : pub.Counted) (hloc : loc.Counted)
    (hup : EndInv v.link.server pub loc [] v.link.toServer (totals v.ctlToServer))
    (hunsettled : Unsettled v.link.client loc pub trailing v.link.toClient v.ctlToClient total)
    (hhome : v.mapped + v.waiting + v.free = 1)
    (hmapped : v.link.server.proxy.isStart = true → v.mapped = 1)
    (hrequested : Requested id v trailing) :
    Level id v.shutdonwLocalConn pub loc trailing := by
  rw [View.shutdonwLocalConn_eq hunsettled]
  exact { hbound with
    clientName := by simp [hbound.clientName]
    pubCounted := hpub
    locCounted := hloc
    up := by
      rw [totals_append_freeReq]
      exact hup
    down := hunsettled.settle
    home := hhome
    mapped := hmapped
    requested := hrequested }

namespace Level

/-- While the server waits for an answer its end is idle. -/
theorem resting_of_waiting (hlevel : Level id v pub loc trailing) (hwaiting : v.waiting = 1) :
    Resting v.link.server pub loc [] v.link.toServer (totals v.ctlToServer) := by
  apply hlevel.up.resting_of_not_isStart
  cases hstart : v.link.server.proxy.isStart with
  | false => rfl
  | true =>
      have hhome := hlevel.home
      have hmapped := hlevel.mapped hstart
      omega

/-- A mapped connection is neither waiting nor free, and nothing trails its stream. -/
theorem of_mapped (hlevel : Level id v pub loc trailing) (hmapped : v.mapped ≠ 0) :
    v.mapped = 1 ∧ v.waiting = 0 ∧ v.free = 0 ∧ trailing = [] := by
  have hhome := hlevel.home
  have hwaiting : v.waiting = 0 := by omega
  refine ⟨by omega, hwaiting, by omega, ?_⟩
  rcases hlevel.requested with ⟨_, hnone⟩ | ⟨hone, _⟩
  · exact hnone
  · omega

theorem trailing_or_closing (hlevel : Level id v pub loc trailing) :
    trailing = [] ∨ loc.closing = true := by
  rcases hlevel.requested with ⟨_, hnone⟩ | ⟨hwaiting, _⟩
  · exact Or.inl hnone
  · exact Or.inr (hlevel.resting_of_waiting hwaiting).otherClosing

theorem mapped_of_pub_open (hlevel : Level id v pub loc trailing) (hopen : pub.closing = false) :
    (∃ total, Active v.link.server pub loc [] v.link.toServer (totals v.ctlToServer) total) ∧
      v.mapped = 1 := by
  obtain ⟨total, hactive⟩ := hlevel.up.active_of_open hopen
  exact ⟨⟨total, hactive⟩, hlevel.mapped hactive.isStart⟩

theorem freeProxyConn (hlevel : Level id v pub loc trailing) :
    Level id v.freeProxyConn pub loc trailing := by
  unfold View.freeProxyConn
  split
  · exact hlevel
  · next hcond =>
      push Not at hcond
      obtain ⟨hmapped, hstart⟩ := hcond
      have hhome := hlevel.home
      exact { hlevel with
        home := by
          simp only
          omega
        mapped := fun htrue => absurd htrue hstart
        requested := hlevel.requested }

/-- Dropping a FreeProxyConnReq from the control channel changes no announcement. -/
theorem withCtlToServer (hlevel : Level id v pub loc trailing) {notices : List Notice}
    (htotals : totals notices = totals v.ctlToServer) :
    Level id { v with ctlToServer := notices } pub loc trailing :=
  { hlevel with
    up := by
      rw [htotals]
      exact hlevel.up
    requested := hlevel.requested }

end Level

end CProxy
