import CProxy.Tunnel.LinkInv

/-! # Every step keeps the invariant of a proxy connection -/

namespace CProxy

open Foundation Wire

variable {cfg : Config} {id : RandStr} {v v' : View} {event : LinkEvent}
variable {pub loc : EdgeConn} {trailing : List UInt8} {msg : ProxyCtlMsg}

/-! ## A connection that has not been used -/

theorem ahead_of_connect (proxyFd localFd : Fd) :
    Ahead cfg id (View.connect {} cfg id proxyFd localFd) { fd := localFd, proxyId := id.chars }
      (.proxyMetaSet cfg.ctlId.chars cfg.tunId.chars id.chars) where
  created := rfl
  clientName := rfl
  locName := rfl
  locCounted := EdgeConn.counted_new localFd id.chars
  starts := rfl
  server := ⟨rfl, rfl, rfl, rfl⟩
  publicClosed := by simp [View.connect, Link.sendAndStart]
  stream := by simp [View.connect, Link.sendAndStart]
  up := fun _ => Transfer.sound_empty
  down := fun fd => End.active_start { proxy := { fd := proxyFd, proxyId := id.chars } }
    (ProxyConn.idle_new proxyFd id.chars) localFd id.chars Transfer.sound_empty
  mapped := rfl
  free := rfl
  origin := .fresh rfl rfl rfl rfl

theorem LinkInv.of_unused (hstep : LinkStep cfg id {} event v') : LinkInv cfg id v' := by
  cases hstep with
  | stay => exact .unused rfl
  | connect proxyFd localFd hcreated hlocal => exact .ahead _ _ (ahead_of_connect proxyFd localFd)
  | accept acceptFd hcreated => simp at hcreated
  | request publicFd hfree => simp at hfree
  | claim count publicFd rest haccepted => simp at haccepted
  | bind count publicFd rest hwaiting => simp at hwaiting
  | forwardAtServer count hstart => simp at hstart
  | relayAtServer conn bytes hpeer => simp at hpeer
  | closeAtServer conn hpeer => simp at hpeer
  | reclosedAtServer conn hpeer => simp at hpeer
  | hearAtServer tranCount rest hctl => simp at hctl
  | freeAtServer rest hctl => simp at hctl
  | strayFreeReq => exact .unused rfl
  | hearAtClient tranCount rest hcreated => simp at hcreated
  | startAtClient count localFd publicFd hlocal hcreated => simp at hcreated
  | forwardAtClient count localFd hstart => simp at hstart
  | relayAtClient conn bytes hpeer => simp at hpeer
  | closeAtClient conn hpeer => simp at hpeer
  | reclosedAtClient conn hpeer => simp at hpeer

/-! ## A connection whose server end is still to be started -/

namespace Ahead

theorem toClient_eq_nil (hahead : Ahead cfg id v loc msg) : v.link.toClient = [] := by
  have hconserved := (hahead.down 0).sound.conserved
  simp only [incoming, List.append_nil, List.nil_eq, List.append_eq_nil_iff] at hconserved
  exact hconserved.2

theorem ctlToClient_eq_nil (hahead : Ahead cfg id v loc msg) : v.ctlToClient = [] :=
  (hahead.down 0).sound.notices_eq_nil rfl

theorem accept (hahead : Ahead cfg id v loc msg) (haccepted : v.link.accepted = false)
    (acceptFd : Fd) : Ahead cfg id (v.accept acceptFd) loc msg :=
  { hahead with
    server := ProxyConn.idle_new acceptFd []
    publicClosed := hahead.publicClosed
    origin := by
      cases hahead.origin with
      | fresh hclaimed hstarts hwaiting hunclaimed =>
          refine .fresh hclaimed hstarts hwaiting ?_
          simp [View.accept, hunclaimed, haccepted]
      | reused publicFd hfd hopen => simp [haccepted] at hopen }

/-- The server reads the message that binds the session and starts its end. -/
theorem startServer (hahead : Ahead cfg id v loc msg) (haccepted : v.link.accepted = true)
    (publicFd : Fd) :
    Level id { v.startServer msg loc.received id publicFd with unclaimed := 0, waiting := 0 }
      { fd := publicFd, proxyId := id.chars } loc [] where
  created := hahead.created
  accepted := haccepted
  claimed := rfl
  unclaimed := rfl
  serverName := rfl
  clientName := hahead.clientName
  pubName := rfl
  locName := hahead.locName
  starts := by simp [View.startServer, Link.parseAtServer, End.start, hahead.starts]
  lastStart := by simp [View.startServer, End.start]
  pubCounted := EdgeConn.counted_new publicFd id.chars
  locCounted := hahead.locCounted
  up := by
    have hidle : ({ v.link.server.proxy with proxyId := id.chars } : ProxyConn).Idle :=
      { hahead.server with }
    exact Or.inl ⟨none, End.active_start { v.link.server with
      proxy := { v.link.server.proxy with proxyId := id.chars } } hidle publicFd id.chars
        (hahead.up publicFd)⟩
  down := Or.inl ⟨none, hahead.down publicFd⟩
  home := by simp [View.startServer, hahead.free]
  mapped := fun _ => rfl
  requested := Or.inl ⟨rfl, rfl⟩

theorem claim (hahead : Ahead cfg id v loc msg) (haccepted : v.link.accepted = true)
    (hclaimed : v.link.claimed = false) {rest : List UInt8}
    (hframe : v.link.toServer = (ProxyCtlMsg.proxyMetaSet cfg.ctlId.chars cfg.tunId.chars
      id.chars).wire ++ rest) (publicFd : Fd) :
    Level id { v.startServer (.proxyMetaSet cfg.ctlId.chars cfg.tunId.chars id.chars) rest id
      publicFd with unclaimed := 0 } { fd := publicFd, proxyId := id.chars } loc [] := by
  have hstart := hahead.startServer haccepted publicFd
  have hstream := hahead.stream
  cases hahead.origin with
  | fresh _ _ hwaiting _ =>
      obtain rfl : rest = loc.received := List.append_cancel_left (hframe.symm.trans hstream)
      have hsame : ({ v.startServer (.proxyMetaSet cfg.ctlId.chars cfg.tunId.chars id.chars)
          loc.received id publicFd with unclaimed := 0, waiting := 0 } : View) =
          { v.startServer (.proxyMetaSet cfg.ctlId.chars cfg.tunId.chars id.chars)
            loc.received id publicFd with unclaimed := 0 } := by
        simp [View.startServer, hwaiting]
      exact hsame ▸ hstart
  | reused _ _ _ hclaimed' => simp [hclaimed] at hclaimed'

theorem bind (hahead : Ahead cfg id v loc msg) (hclaimed : v.link.claimed = true)
    {publicFd : Fd} (hreq : v.link.reqFd = some publicFd) {rest : List UInt8}
    (hframe : v.link.toServer = (ProxyCtlMsg.startProxyConnRsp publicFd id.chars).wire ++ rest) :
    Level id { v.startServer (.startProxyConnRsp publicFd id.chars) rest id publicFd with
      waiting := 0 } { fd := publicFd, proxyId := id.chars } loc [] := by
  have hstream := hahead.stream
  cases hahead.origin with
  | fresh hclaimed' => simp [hclaimed] at hclaimed'
  | reused requested hfd haccepted _ _ hunclaimed _ hreq' =>
      obtain rfl : requested = publicFd := Option.some.inj (hreq'.symm.trans hreq)
      obtain rfl : rest = loc.received := List.append_cancel_left (hframe.symm.trans hstream)
      have hstart := hahead.startServer haccepted requested
      have hsame : ({ v.startServer (.startProxyConnRsp requested id.chars) loc.received id
          requested with unclaimed := 0, waiting := 0 } : View) =
          { v.startServer (.startProxyConnRsp requested id.chars) loc.received id requested with
            waiting := 0 } := by
        simp [View.startServer, hunclaimed]
      exact hsame ▸ hstart

/-- The announcement overtakes the message that binds the session and is dropped. -/
theorem missAtServer (hahead : Ahead cfg id v loc msg) {tranCount : Nat} {rest : List Notice}
    (hctl : v.ctlToServer = .shutdownPeer tranCount :: rest) :
    Ahead cfg id { v with ctlToServer := rest } loc msg :=
  { hahead with
    up := fun fd => by
      have hsound := hahead.up fd
      rw [hctl, totals_shutdownPeer] at hsound
      exact hsound.miss rfl
    origin := by cases hahead.origin <;> constructor <;> assumption }

theorem dropFreeReq (hahead : Ahead cfg id v loc msg) {rest : List Notice}
    (hctl : v.ctlToServer = .freeReq :: rest) :
    Ahead cfg id { v with ctlToServer := rest } loc msg :=
  { hahead with
    up := fun fd => by
      have hsound := hahead.up fd
      rw [hctl, totals_freeReq] at hsound
      exact hsound
    origin := by cases hahead.origin <;> constructor <;> assumption }

theorem relayAtClient (hahead : Ahead cfg id v loc msg) (hopen : loc.closing = false)
    {bytes : List UInt8} (hfits : loc.tranCount + bytes.length ≤ intMax) :
    Ahead cfg id (v.mapLink fun link => link.relayAtClient bytes) (loc.relay bytes) msg where
  created := hahead.created
  clientName := hahead.clientName
  locName := hahead.locName
  locCounted := hahead.locCounted.relay hfits
  starts := hahead.starts
  server := hahead.server
  publicClosed := hahead.publicClosed
  stream := by simp [View.mapLink, Link.relayAtClient, hahead.stream, EdgeConn.relay]
  up := fun fd => (hahead.up fd).send hopen rfl bytes
  down := fun fd => (hahead.down fd).relayOwn bytes
  mapped := hahead.mapped
  free := hahead.free
  origin := by cases hahead.origin <;> constructor <;> assumption

theorem closeAtClient (hahead : Ahead cfg id v loc msg) (hopen : loc.closing = false) :
    Ahead cfg id ((v.shutdownFromLocal (uint32 loc.tranCount)).mapLink fun link =>
      { link with client := link.client.close }) { loc with closing := true } msg where
  created := hahead.created
  clientName := by
    simp [View.mapLink, View.shutdownFromLocal, Link.mapClient, End.close, End.mapProxy,
      hahead.clientName]
  locName := hahead.locName
  locCounted := { hahead.locCounted with }
  starts := hahead.starts
  server := hahead.server
  publicClosed := hahead.publicClosed
  stream := hahead.stream
  up := fun fd => by
    have hfinished := (hahead.up fd).finish hopen
    simp only [View.mapLink, View.shutdownFromLocal, totals_append, totals_shutdownPeer,
      totals_nil, hahead.locCounted.uint32_tranCount]
    exact hfinished
  down := fun fd => (hahead.down fd).closeOwn_half (by simp [Transfer.Complete, incoming]) hopen
  mapped := hahead.mapped
  free := hahead.free
  origin := by cases hahead.origin <;> constructor <;> assumption

theorem step (hahead : Ahead cfg id v loc msg) (hstep : LinkStep cfg id v event v') :
    LinkInv cfg id v' := by
  have hlocal := (hahead.down 0).peer
  have hunmapped := hahead.mapped
  cases hstep with
  | stay => exact .ahead loc msg hahead
  | connect proxyFd localFd hcreated => simp [hahead.created] at hcreated
  | accept acceptFd hcreated haccepted => exact .ahead loc msg (hahead.accept haccepted acceptFd)
  | request publicFd hfree => simp [hahead.free] at hfree
  | claim count publicFd rest haccepted hclaimed hstart hframe =>
      exact .level _ _ _ (hahead.claim haccepted hclaimed hframe publicFd)
  | bind count publicFd rest hwaiting hclaimed hstart hreq hframe =>
      exact .level _ _ _ (hahead.bind hclaimed hreq hframe)
  | forwardAtServer count hstart => simp [hahead.server.isStart] at hstart
  | relayAtServer conn bytes hpeer hopen => simp [hahead.publicClosed conn hpeer] at hopen
  | closeAtServer conn hpeer hopen => simp [hahead.publicClosed conn hpeer] at hopen
  | reclosedAtServer => exact .ahead loc msg hahead
  | hearAtServer tranCount rest hctl =>
      have hmiss : View.handleShutdownPublicConn { v with ctlToServer := rest } tranCount =
          { v with ctlToServer := rest } := if_pos hunmapped
      rw [hmiss]
      exact .ahead loc msg (hahead.missAtServer hctl)
  | freeAtServer rest hctl =>
      have hmiss : View.freeProxyConn { v with ctlToServer := rest } =
          { v with ctlToServer := rest } := if_pos (Or.inl hunmapped)
      rw [hmiss]
      exact .ahead loc msg (hahead.dropFreeReq hctl)
  | strayFreeReq =>
      have hmiss : v.freeProxyConn = v := if_pos (Or.inl hunmapped)
      rw [hmiss]
      exact .ahead loc msg hahead
  | hearAtClient tranCount rest hcreated hctl => simp [hahead.ctlToClient_eq_nil] at hctl
  | startAtClient count localFd publicFd hpositive hcreated hstart =>
      simp [(hahead.down 0).isStart] at hstart
  | forwardAtClient count localFd hstart hsplice hcount =>
      have hpositive := hsplice.1
      simp only [hahead.toClient_eq_nil, List.length_nil] at hcount
      omega
  | relayAtClient conn bytes hpeer hopen hbytes hfits =>
      obtain rfl : loc = conn := Option.some.inj (hlocal.symm.trans hpeer)
      exact .ahead _ msg (hahead.relayAtClient hopen hfits)
  | closeAtClient conn hpeer hopen =>
      obtain rfl : loc = conn := Option.some.inj (hlocal.symm.trans hpeer)
      exact .ahead _ msg (hahead.closeAtClient hopen)
  | reclosedAtClient => exact .ahead loc msg hahead

end Ahead

/-! ## A connection whose ends have been started equally often -/

namespace Level

theorem request (hlevel : Level id v pub loc trailing) (hfree : 0 < v.free) {publicFd : Fd}
    (hfd : publicFd ≤ 2147483647) :
    Level id { v.mapLink fun link => link.request publicFd with waiting := 1, free := v.free - 1 }
      pub loc (ProxyCtlMsg.startProxyConnReq publicFd id.chars).wire := by
  have hhome := hlevel.home
  have hnone : trailing = [] := by
    rcases hlevel.requested with ⟨_, hnone⟩ | ⟨hwaiting, _⟩
    · exact hnone
    · omega
  subst hnone
  have hdown := hlevel.down.append (ProxyCtlMsg.startProxyConnReq publicFd id.chars).wire
  exact { hlevel with
    down := by
      simpa [View.mapLink, Link.request, hlevel.serverName] using hdown
    home := by
      simp only [View.mapLink]
      omega
    requested := Or.inr ⟨rfl, publicFd, hfd, rfl, rfl⟩ }

theorem forwardAtServer (hlevel : Level id v pub loc trailing)
    (hstart : v.link.server.proxy.isStart = true) {count : Nat} (hsplice : SpliceLen count)
    (hcount : count ≤ v.link.toServer.length)
    (hfits : v.link.server.proxy.recvCount + count ≤ intMax) :
    Level id (v.mapLink fun link => link.forwardAtServer count).shutdownPublicConn
      { pub with written := pub.written ++ v.link.toServer.take count } loc [] := by
  obtain ⟨total, hactive⟩ := hlevel.up.active_of_isStart hstart
  have hmapped := hlevel.mapped hstart
  obtain ⟨_, hwaiting, hfree, rfl⟩ := hlevel.of_mapped (by omega)
  have hunsettled := hactive.forward (Or.inl rfl) hsplice.1 hcount hfits
  exact Level.of_shutdownPublicConn { hlevel.toBound with } { hlevel.pubCounted with }
    hlevel.locCounted hunsettled (hlevel.down.withOther rfl rfl) hmapped hwaiting hfree

theorem relayAtServer (hlevel : Level id v pub loc trailing) (hopen : pub.closing = false)
    {bytes : List UInt8} (hfits : pub.tranCount + bytes.length ≤ intMax) :
    Level id (v.mapLink fun link => link.relayAtServer bytes) (pub.relay bytes) loc trailing := by
  obtain ⟨⟨total, hactive⟩, hmapped⟩ := hlevel.mapped_of_pub_open hopen
  obtain ⟨_, hwaiting, _, rfl⟩ := hlevel.of_mapped (by omega)
  obtain ⟨heard, hclient⟩ := hlevel.down.active_of_other_open hopen
  exact { hlevel with
    pubCounted := hlevel.pubCounted.relay hfits
    up := Or.inl ⟨total, hactive.relayOwn bytes⟩
    down := Or.inl ⟨heard, hclient.relayOther hopen rfl bytes⟩
    requested := Or.inl ⟨hwaiting, rfl⟩ }

theorem closeAtServer (hlevel : Level id v pub loc trailing) (hopen : pub.closing = false) :
    Level id ((v.shutdownFromPublic (uint32 pub.tranCount)).mapLink fun link =>
      { link with server := link.server.close }) { pub with closing := true } loc trailing := by
  obtain ⟨⟨total, hactive⟩, hmapped⟩ := hlevel.mapped_of_pub_open hopen
  obtain ⟨_, hwaiting, _, rfl⟩ := hlevel.of_mapped (by omega)
  obtain ⟨heard, hclient⟩ := hlevel.down.active_of_other_open hopen
  have hfound : ¬ v.mapped = 0 := by omega
  simp only [View.shutdownFromPublic, if_neg hfound, hlevel.pubCounted.uint32_tranCount]
  exact { hlevel with
    serverName := by
      simp [View.mapLink, Link.mapServer, End.close, End.mapProxy, hlevel.serverName]
    pubCounted := { hlevel.pubCounted with }
    up := hactive.closeOwn hopen
    down := Or.inl ⟨heard, hclient.closeOther hopen⟩
    mapped := fun _ => hmapped
    requested := Or.inl ⟨hwaiting, rfl⟩ }

theorem hearAtServer (hlevel : Level id v pub loc trailing) {tranCount : Nat}
    {rest : List Notice} (hctl : v.ctlToServer = .shutdownPeer tranCount :: rest) :
    Level id (View.handleShutdownPublicConn { v with ctlToServer := rest } tranCount) pub loc
      trailing := by
  have hnotices : totals v.ctlToServer = tranCount :: totals rest := by
    rw [hctl, totals_shutdownPeer]
  rcases hlevel.up with ⟨total, hactive⟩ | hresting
  · have hmapped := hlevel.mapped hactive.isStart
    obtain ⟨_, hwaiting, hfree, rfl⟩ := hlevel.of_mapped (by omega)
    have hunsettled := hactive.hear hlevel.locCounted hnotices
    have hfound : ¬ v.mapped = 0 := by omega
    simp only [View.handleShutdownPublicConn, if_neg hfound]
    refine Level.of_shutdownPublicConn ?_ hlevel.pubCounted hlevel.locCounted hunsettled
      hlevel.down hmapped hwaiting hfree
    exact { hlevel.toBound with
      serverName := by simp [View.mapLink, Link.mapServer, End.mapProxy, hlevel.serverName] }
  · simp [hresting.notices] at hnotices

theorem dropFreeReq (hlevel : Level id v pub loc trailing) {rest : List Notice}
    (hctl : v.ctlToServer = .freeReq :: rest) :
    Level id (View.freeProxyConn { v with ctlToServer := rest }) pub loc trailing := by
  apply Level.freeProxyConn
  apply hlevel.withCtlToServer
  rw [hctl, totals_freeReq]

theorem hearAtClient (hlevel : Level id v pub loc trailing) {tranCount : Nat} {rest : List Nat}
    (hctl : v.ctlToClient = tranCount :: rest) :
    Level id (View.handleShutdownLocalConn { v with ctlToClient := rest } tranCount) pub loc
      trailing := by
  rcases hlevel.down with ⟨total, hactive⟩ | hresting
  · have hunsettled := hactive.hear hlevel.pubCounted hctl
    refine Level.of_shutdonwLocalConn ?_ hlevel.pubCounted hlevel.locCounted hlevel.up
      hunsettled hlevel.home hlevel.mapped hlevel.requested
    exact { hlevel.toBound with
      clientName := by simp [View.mapLink, Link.mapClient, End.mapProxy, hlevel.clientName] }
  · simp [hresting.notices] at hctl

/-- An idle end with a request before it answers the request and starts a session. -/
theorem startAtClient (hlevel : Level id v pub loc trailing)
    (hstart : v.link.client.proxy.isStart = false) {publicFd : Fd}
    (hreq : v.link.reqFd = some publicFd) (hfd : publicFd ≤ 2147483647)
    (hframe : v.link.toClient = (ProxyCtlMsg.startProxyConnReq publicFd id.chars).wire)
    (localFd : Fd) :
    Ahead cfg id (v.mapLink fun link => { link with toClient := [] }.sendAndStart
        (.startProxyConnRsp publicFd id.chars) localFd)
      { fd := localFd, proxyId := id.chars } (.startProxyConnRsp publicFd id.chars) := by
  have hclient := hlevel.down.resting_of_not_isStart hstart
  have hwaiting : v.waiting = 1 := by
    rcases hlevel.requested with ⟨_, hnone⟩ | ⟨hone, _⟩
    · exact absurd (hframe.symm.trans (hclient.flight.trans hnone)) (ProxyCtlMsg.wire_ne_nil _)
    · exact hone
  have hserver := hlevel.resting_of_waiting hwaiting
  have hhome := hlevel.home
  have hlocal : v.link.client.proxy.proxyId = id.chars := hlevel.clientName
  have hup : totals v.ctlToServer = [] := hserver.notices
  exact {
    created := hlevel.created
    clientName := hlocal
    locName := rfl
    locCounted := EdgeConn.counted_new localFd id.chars
    starts := by
      simp [View.mapLink, Link.sendAndStart, End.start, hlevel.starts]
    server := hserver.idle
    publicClosed := by
      intro conn hpeer
      obtain rfl : pub = conn := Option.some.inj (hserver.peer.symm.trans hpeer)
      exact hserver.closing
    stream := by
      simp [View.mapLink, Link.sendAndStart, hserver.flight]
    up := by
      intro fd
      simp only [View.mapLink, hup]
      exact Transfer.sound_empty
    down := by
      intro fd
      simp only [View.mapLink, Link.sendAndStart, hclient.notices, hlocal]
      exact End.active_start v.link.client hclient.idle localFd id.chars Transfer.sound_empty
    mapped := by
      simp only [View.mapLink]
      omega
    free := by
      simp only [View.mapLink]
      omega
    origin := .reused publicFd hfd hlevel.accepted hlevel.claimed hwaiting hlevel.unclaimed
      hlevel.serverName hreq }

theorem forwardAtClient (hlevel : Level id v pub loc trailing)
    (hstart : v.link.client.proxy.isStart = true) {count : Nat} (hsplice : SpliceLen count)
    (hcount : count ≤ v.link.toClient.length)
    (hfits : v.link.client.proxy.recvCount + count ≤ intMax) :
    Level id (v.mapLink fun link => link.forwardAtClient count).shutdonwLocalConn pub
      { loc with written := loc.written ++ v.link.toClient.take count } trailing := by
  obtain ⟨total, hactive⟩ := hlevel.down.active_of_isStart hstart
  have hunsettled := hactive.forward hlevel.trailing_or_closing hsplice.1 hcount hfits
  exact Level.of_shutdonwLocalConn { hlevel.toBound with } hlevel.pubCounted
    { hlevel.locCounted with } (hlevel.up.withOther rfl rfl) hunsettled hlevel.home hlevel.mapped
    hlevel.requested

theorem relayAtClient (hlevel : Level id v pub loc trailing) (hopen : loc.closing = false)
    {bytes : List UInt8} (hfits : loc.tranCount + bytes.length ≤ intMax) :
    Level id (v.mapLink fun link => link.relayAtClient bytes) pub (loc.relay bytes) trailing := by
  obtain ⟨total, hactive⟩ := hlevel.down.active_of_open hopen
  obtain ⟨heard, hserver⟩ := hlevel.up.active_of_other_open hopen
  exact { hlevel with
    locCounted := hlevel.locCounted.relay hfits
    up := Or.inl ⟨heard, hserver.relayOther hopen rfl bytes⟩
    down := Or.inl ⟨total, hactive.relayOwn bytes⟩
    requested := hlevel.requested }

theorem closeAtClient (hlevel : Level id v pub loc trailing) (hopen : loc.closing = false) :
    Level id ((v.shutdownFromLocal (uint32 loc.tranCount)).mapLink fun link =>
      { link with client := link.client.close }) pub { loc with closing := true } trailing := by
  obtain ⟨total, hactive⟩ := hlevel.down.active_of_open hopen
  obtain ⟨heard, hserver⟩ := hlevel.up.active_of_other_open hopen
  exact { hlevel with
    clientName := by
      simp [View.mapLink, View.shutdownFromLocal, Link.mapClient, End.close, End.mapProxy,
        hlevel.clientName]
    locCounted := { hlevel.locCounted with }
    up := by
      refine Or.inl ⟨heard, ?_⟩
      simp only [View.mapLink, View.shutdownFromLocal, totals_append, totals_shutdownPeer,
        totals_nil, hlevel.locCounted.uint32_tranCount]
      exact hserver.closeOther hopen
    down := hactive.closeOwn hopen
    requested := hlevel.requested }

theorem step (hlevel : Level id v pub loc trailing) (hstep : LinkStep cfg id v event v') :
    LinkInv cfg id v' := by
  have hpublic := hlevel.up.peer
  have hlocal := hlevel.down.peer
  cases hstep with
  | stay => exact .level _ _ _ hlevel
  | connect proxyFd localFd hcreated => simp [hlevel.created] at hcreated
  | accept acceptFd hcreated haccepted => simp [hlevel.accepted] at haccepted
  | request publicFd hfree hfd => exact .level _ _ _ (hlevel.request hfree hfd)
  | claim count publicFd rest haccepted hclaimed => simp [hlevel.claimed] at hclaimed
  | bind count publicFd rest hwaiting hclaimed hstart hreq hframe =>
      -- an idle end has no bytes before it
      have hempty := (hlevel.resting_of_waiting hwaiting).flight
      rw [hempty] at hframe
      exact absurd (List.append_eq_nil_iff.mp hframe.symm).1 (ProxyCtlMsg.wire_ne_nil _)
  | forwardAtServer count hstart hsplice hcount hfits =>
      exact .level _ _ _ (hlevel.forwardAtServer hstart hsplice hcount hfits)
  | relayAtServer conn bytes hpeer hopen hbytes hfits =>
      obtain rfl : pub = conn := Option.some.inj (hpublic.symm.trans hpeer)
      exact .level _ _ _ (hlevel.relayAtServer hopen hfits)
  | closeAtServer conn hpeer hopen =>
      obtain rfl : pub = conn := Option.some.inj (hpublic.symm.trans hpeer)
      exact .level _ _ _ (hlevel.closeAtServer hopen)
  | reclosedAtServer => exact .level _ _ _ hlevel
  | hearAtServer tranCount rest hctl => exact .level _ _ _ (hlevel.hearAtServer hctl)
  | freeAtServer rest hctl => exact .level _ _ _ (hlevel.dropFreeReq hctl)
  | strayFreeReq => exact .level _ _ _ hlevel.freeProxyConn
  | hearAtClient tranCount rest hcreated hctl => exact .level _ _ _ (hlevel.hearAtClient hctl)
  | startAtClient count localFd publicFd hpositive hcreated hstart hreq hfd hframe =>
      exact .ahead _ _ (hlevel.startAtClient hstart hreq hfd hframe localFd)
  | forwardAtClient count localFd hstart hsplice hcount hfits =>
      exact .level _ _ _ (hlevel.forwardAtClient hstart hsplice hcount hfits)
  | relayAtClient conn bytes hpeer hopen hbytes hfits =>
      obtain rfl : loc = conn := Option.some.inj (hlocal.symm.trans hpeer)
      exact .level _ _ _ (hlevel.relayAtClient hopen hfits)
  | closeAtClient conn hpeer hopen =>
      obtain rfl : loc = conn := Option.some.inj (hlocal.symm.trans hpeer)
      exact .level _ _ _ (hlevel.closeAtClient hopen)
  | reclosedAtClient => exact .level _ _ _ hlevel

end Level

theorem LinkInv.step (hinv : LinkInv cfg id v) (hstep : LinkStep cfg id v event v') :
    LinkInv cfg id v' := by
  cases hinv with
  | unused hunused =>
      subst hunused
      exact LinkInv.of_unused hstep
  | ahead loc msg hahead => exact hahead.step hstep
  | level pub loc trailing hlevel => exact hlevel.step hstep

end CProxy
