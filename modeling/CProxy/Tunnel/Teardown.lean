import CProxy.Conn.Ending
import CProxy.Tunnel.Reachable

/-! # The end of a session

A session that both ends have just been started for is followed to its end. Each
end shuts its connection down once, when all is there, and is reset when both
directions are over; when nothing is under way any more the proxy connection is
free again.
-/

namespace CProxy

open Foundation Wire

/-! ## The session under way -/

/-- The connections a session joins and the shutdowns from before it. -/
structure Session where
  publicFd : Fd
  localFd : Fd
  serverShutWr : List (Option Fd)
  clientShutWr : List (Option Fd)

structure Running (session : Session) (id : RandStr) (v : View) (pub loc : EdgeConn) : Prop where
  level : Level id v pub loc []
  waiting : v.waiting = 0
  pubFd : pub.fd = session.publicFd
  locFd : loc.fd = session.localFd
  server : Recorded session.serverShutWr v.link.server pub loc (totals v.ctlToServer)
  client : Recorded session.clientShutWr v.link.client loc pub v.ctlToClient
  /-- A connection the server has reset but not freed will be freed by the client. -/
  owed : v.link.server.proxy.isStart = false → v.mapped ≠ 0 →
    v.link.client.proxy.isStart = true ∨ Notice.freeReq ∈ v.ctlToServer

namespace Running

variable {session : Session} {cfg : Config} {id : RandStr} {v v' : View} {pub loc : EdgeConn}

theorem pub_closing (hrunning : Running session id v pub loc)
    (hclient : v.link.client.proxy.isStart = false) : pub.closing = true :=
  (hrunning.level.down.resting_of_not_isStart hclient).otherClosing

theorem loc_closing (hrunning : Running session id v pub loc)
    (hserver : v.link.server.proxy.isStart = false) : loc.closing = true :=
  (hrunning.level.up.resting_of_not_isStart hserver).otherClosing

/-- The server's check frees what it resets. -/
theorem owed_of_check {w : View} {notices : List Nat} {total : Option Nat}
    (hunsettled : Unsettled w.link.server pub loc [] w.link.toServer notices total)
    (hmapped : w.mapped = 1) :
    w.shutdownPublicConn.link.server.proxy.isStart = false → w.shutdownPublicConn.mapped ≠ 0 →
      w.shutdownPublicConn.link.client.proxy.isStart = true ∨
        Notice.freeReq ∈ w.shutdownPublicConn.ctlToServer := by
  intro hoff hleft
  rw [View.shutdownPublicConn_eq hunsettled hmapped] at hoff hleft
  simp only at hoff hleft
  simp [hoff] at hleft

/-- The client's check asks for what it resets to be freed. -/
theorem owed_of_clientCheck {w : View} {notices : List Nat} {total : Option Nat}
    (hunsettled : Unsettled w.link.client loc pub [] w.link.toClient notices total) :
    w.shutdonwLocalConn.link.client.proxy.isStart = true ∨
      Notice.freeReq ∈ w.shutdonwLocalConn.ctlToServer := by
  rw [View.shutdonwLocalConn_eq hunsettled]
  cases hstart : w.link.client.settle.proxy.isStart with
  | true => exact Or.inl rfl
  | false => exact Or.inr (by simp)

theorem forwardAtServer (hrunning : Running session id v pub loc)
    (hstart : v.link.server.proxy.isStart = true) {count : Nat} (hsplice : SpliceLen count)
    (hcount : count ≤ v.link.toServer.length)
    (hfits : v.link.server.proxy.recvCount + count ≤ intMax) :
    Running session id (v.mapLink fun link => link.forwardAtServer count).shutdownPublicConn
      { pub with written := pub.written ++ v.link.toServer.take count } loc := by
  have hlevel := hrunning.level
  obtain ⟨total, hactive⟩ := hlevel.up.active_of_isStart hstart
  have hmapped := hlevel.mapped hstart
  have hunsettled := hactive.forward (Or.inl rfl) hsplice.1 hcount hfits
  have heq := @View.shutdownPublicConn_eq (v.mapLink fun link => link.forwardAtServer count) _ _ _
    _ hunsettled hmapped
  constructor
  · exact hlevel.forwardAtServer hstart hsplice hcount hfits
  · rw [heq]
    exact hrunning.waiting
  · exact hrunning.pubFd
  · exact hrunning.locFd
  · rw [heq]
    exact hrunning.server.forward hactive (Or.inl rfl) hsplice.1 hcount hfits
  · rw [heq]
    exact { hrunning.client with }
  · exact owed_of_check (w := v.mapLink fun link => link.forwardAtServer count) hunsettled hmapped

theorem relayAtServer (hrunning : Running session id v pub loc) (hopen : pub.closing = false)
    {bytes : List UInt8} (hfits : pub.tranCount + bytes.length ≤ intMax) :
    Running session id (v.mapLink fun link => link.relayAtServer bytes) (pub.relay bytes) loc where
  level := hrunning.level.relayAtServer hopen hfits
  waiting := hrunning.waiting
  pubFd := hrunning.pubFd
  locFd := hrunning.locFd
  server := hrunning.server.relayOwn bytes
  client := hrunning.client.withOther hopen fun hclosing => by simp [EdgeConn.relay, hopen] at hclosing
  owed := hrunning.owed

theorem closeAtServer (hrunning : Running session id v pub loc) (hopen : pub.closing = false) :
    Running session id ((v.shutdownFromPublic (uint32 pub.tranCount)).mapLink fun link =>
      { link with server := link.server.close }) { pub with closing := true } loc := by
  have hlevel := hrunning.level
  have hclosed := hlevel.closeAtServer hopen
  obtain ⟨⟨total, hactive⟩, hmapped⟩ := hlevel.mapped_of_pub_open hopen
  have hfound : ¬ v.mapped = 0 := by omega
  simp only [View.shutdownFromPublic, if_neg hfound] at hclosed ⊢
  exact {
    level := hclosed
    waiting := hrunning.waiting
    pubFd := hrunning.pubFd
    locFd := hrunning.locFd
    server := hrunning.server.closeOwn hactive hopen
    client := hrunning.client.withOther hopen fun _ => by simp [View.mapLink]
    owed := by
      -- the client cannot have gone idle before the public side closed
      intro _ _
      refine Or.inl ?_
      cases hclient : v.link.client.proxy.isStart with
      | true => exact hclient
      | false => simp [hrunning.pub_closing hclient] at hopen }

theorem hearAtServer (hrunning : Running session id v pub loc) {tranCount : Nat}
    {rest : List Notice} (hctl : v.ctlToServer = .shutdownPeer tranCount :: rest) :
    Running session id (View.handleShutdownPublicConn { v with ctlToServer := rest } tranCount)
      pub loc := by
  have hlevel := hrunning.level
  have hheard := hlevel.hearAtServer hctl
  have hnotices : totals v.ctlToServer = tranCount :: totals rest := by
    rw [hctl, totals_shutdownPeer]
  have hserver := hrunning.server
  rw [hnotices] at hserver
  rcases hlevel.up with ⟨total, hactive⟩ | hresting
  · have hmapped := hlevel.mapped hactive.isStart
    have hfound : ¬ v.mapped = 0 := by omega
    rw [hnotices] at hactive
    have hunsettled := hactive.hear hlevel.locCounted rfl
    have heq := @View.shutdownPublicConn_eq (({ v with ctlToServer := rest } : View).mapLink
      fun link => link.mapServer fun conn => conn.incrTheoreticalTotalRecvCount tranCount) _ _ _
        _ hunsettled hmapped
    have howed := owed_of_check (w := ({ v with ctlToServer := rest } : View).mapLink
      fun link => link.mapServer fun conn => conn.incrTheoreticalTotalRecvCount tranCount)
        hunsettled hmapped
    simp only [View.handleShutdownPublicConn, if_neg hfound] at hheard ⊢
    refine ⟨hheard, ?_, hrunning.pubFd, hrunning.locFd, ?_, ?_, howed⟩
    · rw [heq]
      exact hrunning.waiting
    · rw [heq]
      exact hserver.hear hactive hlevel.locCounted rfl
    · rw [heq]
      exact { hrunning.client with }
  · simp [hresting.notices] at hnotices

theorem freeProxyConn (hrunning : Running session id v pub loc) :
    Running session id v.freeProxyConn pub loc := by
  have hlevel := hrunning.level.freeProxyConn
  unfold View.freeProxyConn at hlevel ⊢
  split
  · exact hrunning
  · next hcond =>
      rw [if_neg hcond] at hlevel
      exact { hrunning with
        level := hlevel
        owed := fun _ hmapped => absurd rfl hmapped }

theorem freeAtServer (hrunning : Running session id v pub loc) {rest : List Notice}
    (hctl : v.ctlToServer = .freeReq :: rest) :
    Running session id (View.freeProxyConn { v with ctlToServer := rest }) pub loc := by
  have hlevel := hrunning.level.dropFreeReq hctl
  have hserver := hrunning.server
  rw [hctl, totals_freeReq] at hserver
  unfold View.freeProxyConn at hlevel ⊢
  split
  · next hcond =>
      rw [if_pos hcond] at hlevel
      refine ⟨hlevel, hrunning.waiting, hrunning.pubFd, hrunning.locFd, hserver,
        { hrunning.client with }, ?_⟩
      intro hoff hmapped
      rcases hcond with hnone | hstart
      · exact absurd hnone hmapped
      · exact absurd (hoff.symm.trans hstart) Bool.false_ne_true
  · next hcond =>
      rw [if_neg hcond] at hlevel
      exact ⟨hlevel, hrunning.waiting, hrunning.pubFd, hrunning.locFd, hserver,
        { hrunning.client with }, fun _ hmapped => absurd rfl hmapped⟩

theorem hearAtClient (hrunning : Running session id v pub loc) {tranCount : Nat}
    {rest : List Nat} (hctl : v.ctlToClient = tranCount :: rest) :
    Running session id (View.handleShutdownLocalConn { v with ctlToClient := rest } tranCount)
      pub loc := by
  have hlevel := hrunning.level
  have hheard := hlevel.hearAtClient hctl
  rcases hlevel.down with ⟨total, hactive⟩ | hresting
  · have hunsettled := hactive.hear hlevel.pubCounted hctl
    have heq := @View.shutdonwLocalConn_eq (({ v with ctlToClient := rest } : View).mapLink
      fun link => link.mapClient fun conn => conn.incrTheoreticalTotalRecvCount tranCount) _ _ _
        _ _ hunsettled
    have howed := owed_of_clientCheck (w := ({ v with ctlToClient := rest } : View).mapLink
      fun link => link.mapClient fun conn => conn.incrTheoreticalTotalRecvCount tranCount)
        hunsettled
    unfold View.handleShutdownLocalConn at hheard ⊢
    refine ⟨hheard, ?_, hrunning.pubFd, hrunning.locFd, ?_, ?_, fun _ _ => howed⟩
    · rw [heq]
      exact hrunning.waiting
    · rw [heq, totals_append_freeReq]
      exact { hrunning.server with }
    · rw [heq]
      exact hrunning.client.hear hactive hlevel.pubCounted hctl
  · simp [hresting.notices] at hctl

theorem forwardAtClient (hrunning : Running session id v pub loc)
    (hstart : v.link.client.proxy.isStart = true) {count : Nat} (hsplice : SpliceLen count)
    (hcount : count ≤ v.link.toClient.length)
    (hfits : v.link.client.proxy.recvCount + count ≤ intMax) :
    Running session id (v.mapLink fun link => link.forwardAtClient count).shutdonwLocalConn pub
      { loc with written := loc.written ++ v.link.toClient.take count } := by
  have hlevel := hrunning.level
  obtain ⟨total, hactive⟩ := hlevel.down.active_of_isStart hstart
  have hunsettled := hactive.forward (Or.inl rfl) hsplice.1 hcount hfits
  have heq := @View.shutdonwLocalConn_eq (v.mapLink fun link => link.forwardAtClient count) _ _ _
    _ _ hunsettled
  have howed := owed_of_clientCheck (w := v.mapLink fun link => link.forwardAtClient count)
    hunsettled
  constructor
  · exact hlevel.forwardAtClient hstart hsplice hcount hfits
  · rw [heq]
    exact hrunning.waiting
  · exact hrunning.pubFd
  · exact hrunning.locFd
  · rw [heq, totals_append_freeReq]
    exact { hrunning.server with }
  · rw [heq]
    exact hrunning.client.forward hactive (Or.inl rfl) hsplice.1 hcount hfits
  · exact fun _ _ => howed

theorem relayAtClient (hrunning : Running session id v pub loc) (hopen : loc.closing = false)
    {bytes : List UInt8} (hfits : loc.tranCount + bytes.length ≤ intMax) :
    Running session id (v.mapLink fun link => link.relayAtClient bytes) pub (loc.relay bytes) where
  level := hrunning.level.relayAtClient hopen hfits
  waiting := hrunning.waiting
  pubFd := hrunning.pubFd
  locFd := hrunning.locFd
  server := hrunning.server.withOther hopen fun hclosing => by
    simp [EdgeConn.relay, hopen] at hclosing
  client := hrunning.client.relayOwn bytes
  owed := hrunning.owed

theorem closeAtClient (hrunning : Running session id v pub loc) (hopen : loc.closing = false) :
    Running session id ((v.shutdownFromLocal (uint32 loc.tranCount)).mapLink fun link =>
      { link with client := link.client.close }) pub { loc with closing := true } := by
  have hlevel := hrunning.level
  obtain ⟨total, hactive⟩ := hlevel.down.active_of_open hopen
  exact {
    level := hlevel.closeAtClient hopen
    waiting := hrunning.waiting
    pubFd := hrunning.pubFd
    locFd := hrunning.locFd
    server := hrunning.server.withOther hopen fun _ => by
      simp [View.mapLink, View.shutdownFromLocal]
    client := hrunning.client.closeOwn hactive hopen
    owed := by
      -- the server cannot have gone idle before the local side closed
      intro hserver _
      have hclosing := hrunning.loc_closing hserver
      simp [hopen] at hclosing }

theorem step {event : LinkEvent} (hrunning : Running session id v pub loc)
    (hstep : LinkStep cfg id v event v') (hrequest : ∀ fd, event ≠ .request fd) :
    ∃ pub' loc', Running session id v' pub' loc' := by
  have hlevel := hrunning.level
  have hpublic := hlevel.up.peer
  have hlocal := hlevel.down.peer
  have hwaiting := hrunning.waiting
  cases hstep with
  | stay | reclosedAtServer | reclosedAtClient => exact ⟨pub, loc, hrunning⟩
  | connect proxyFd localFd hcreated => simp [hlevel.created] at hcreated
  | accept acceptFd hcreated haccepted => simp [hlevel.accepted] at haccepted
  | request publicFd => exact absurd rfl (hrequest publicFd)
  | claim count publicFd rest haccepted hclaimed => simp [hlevel.claimed] at hclaimed
  | bind count publicFd rest hone => omega
  | forwardAtServer count hstart hsplice hcount hfits =>
      exact ⟨_, _, hrunning.forwardAtServer hstart hsplice hcount hfits⟩
  | relayAtServer conn bytes hpeer hopen hbytes hfits =>
      obtain rfl : pub = conn := Option.some.inj (hpublic.symm.trans hpeer)
      exact ⟨_, _, hrunning.relayAtServer hopen hfits⟩
  | closeAtServer conn hpeer hopen =>
      obtain rfl : pub = conn := Option.some.inj (hpublic.symm.trans hpeer)
      exact ⟨_, _, hrunning.closeAtServer hopen⟩
  | hearAtServer tranCount rest hctl => exact ⟨_, _, hrunning.hearAtServer hctl⟩
  | freeAtServer rest hctl => exact ⟨_, _, hrunning.freeAtServer hctl⟩
  | strayFreeReq => exact ⟨_, _, hrunning.freeProxyConn⟩
  | hearAtClient tranCount rest hcreated hctl => exact ⟨_, _, hrunning.hearAtClient hctl⟩
  | startAtClient count localFd publicFd _ _ hstart _ _ hframe =>
      -- nothing but the session's data is on its way to the client
      have hempty := (hlevel.down.resting_of_not_isStart hstart).flight
      exact absurd (hframe.symm.trans hempty) (ProxyCtlMsg.wire_ne_nil _)
  | forwardAtClient count localFd hstart hsplice hcount hfits =>
      exact ⟨_, _, hrunning.forwardAtClient hstart hsplice hcount hfits⟩
  | relayAtClient conn bytes hpeer hopen hbytes hfits =>
      obtain rfl : loc = conn := Option.some.inj (hlocal.symm.trans hpeer)
      exact ⟨_, _, hrunning.relayAtClient hopen hfits⟩
  | closeAtClient conn hpeer hopen =>
      obtain rfl : loc = conn := Option.some.inj (hlocal.symm.trans hpeer)
      exact ⟨_, _, hrunning.closeAtClient hopen⟩

end Running

/-! ## From the start of a session -/

/-- An end that has just been started for a new connection. -/
structure Started (id : RandStr) (side : End) (conn : EdgeConn) : Prop where
  peer : side.peer = some conn
  isStart : side.proxy.isStart = true
  peerConnFd : side.proxy.peerConnFd = some conn.fd
  recvCount : side.proxy.recvCount = 0
  tranCount : side.proxy.tranCount = 0
  theoretical : side.proxy.theoreticalTotalRecvCount = -1
  halfClose : side.proxy.halfClose = false
  name : side.proxy.proxyId = id.chars
  fresh : conn = { fd := conn.fd, proxyId := id.chars }

variable {cfg : Config} {s s' : System} {id : RandStr} {pub loc conn other : EdgeConn} {side : End}

theorem Started.endInv (hstarted : Started id side conn) {fd : Fd}
    (hother : other = { fd := fd, proxyId := id.chars }) : EndInv side conn other [] [] [] := by
  subst hother
  have hfresh := hstarted.fresh
  refine Or.inl ⟨none, hstarted.peer, hstarted.isStart, hstarted.peerConnFd, ?_,
    hstarted.theoretical, ?_, ?_, ?_⟩
  · rw [hstarted.recvCount, hfresh]
    rfl
  · rw [hstarted.halfClose, hfresh]
    simp [Transfer.Complete, incoming]
  · rw [hfresh]
    simp
  · rw [hfresh]
    exact Transfer.sound_empty

theorem Started.recorded (hstarted : Started id side conn) {fd : Fd}
    (hother : other = { fd := fd, proxyId := id.chars }) :
    Recorded side.proxy.shutWr side conn other [] where
  tranCount := hstarted.tranCount
  announced := by simp [hother]
  shutWr := by
    refine Or.inl ⟨rfl, hstarted.isStart, ?_⟩
    rw [hstarted.recvCount, hstarted.theoretical]
    decide

/-- No message about the connection is under way, and no byte on it. -/
structure Quiet (s : System) (id : RandStr) : Prop where
  toServer : (s.link id).toServer = []
  toClient : (s.link id).toClient = []
  ctlToServer : ∀ msg ∈ s.ctlToServer, CtlMsg.toNotice id msg = none
  ctlToClient : ∀ msg ∈ s.ctlToClient, CtlMsg.toTotal id msg = none

theorem Quiet.notices (hquiet : Quiet s id) : (s.view id).ctlToServer = [] :=
  List.filterMap_eq_nil_iff.mpr hquiet.ctlToServer

theorem Quiet.totals (hquiet : Quiet s id) : (s.view id).ctlToClient = [] :=
  List.filterMap_eq_nil_iff.mpr hquiet.ctlToClient

/-- Both ends of a connection the server has in its map have just been started
for one session. Of the other connections only what always holds is asked. -/
structure SessionStart (cfg : Config) (s : System) (id : RandStr) (pub loc : EdgeConn) :
    Prop where
  server : Started id (s.link id).server pub
  client : Started id (s.link id).client loc
  starts : (s.link id).client.starts.length = (s.link id).server.starts.length
  lastStart : (s.link id).server.starts.getLast? = some pub.fd
  quiet : Quiet s id
  created : id.chars ∈ s.clientProxyConnMap
  accepted : (s.link id).accepted = true
  claimed : (s.link id).claimed = true
  unclaimed : ∀ idx, occurrences (s.unclaimed idx) id = 0
  mapped : s.proxyConnMap.lookup id.chars = some id
  notWaiting : id.chars ∉ s.waitForStartProxyConnMap
  notFree : id ∉ s.freeProxyConns
  keyed : Keyed s
  unclaimedKeyed : UnclaimedKeyed s
  others : ∀ other, other ≠ id → LinkInv cfg other (s.view other)

namespace SessionStart

theorem mapped_eq (hstart : SessionStart cfg s id pub loc) : (s.view id).mapped = 1 := by
  have hmapped := hstart.keyed.proxyConnMap.occurrences_eq id
  rwa [if_pos hstart.mapped] at hmapped

theorem waiting_eq (hstart : SessionStart cfg s id pub loc) : (s.view id).waiting = 0 := by
  have hwaiting := hstart.keyed.waiting.occurrences_eq id
  rwa [AList.lookup_eq_none.mpr hstart.notWaiting, if_neg nofun] at hwaiting

theorem running (hstart : SessionStart cfg s id pub loc) :
    Running ⟨pub.fd, loc.fd, (s.link id).server.proxy.shutWr, (s.link id).client.proxy.shutWr⟩ id
      (s.view id) pub loc := by
  have hcounted {conn : EdgeConn} (hfresh : conn = { fd := conn.fd, proxyId := id.chars }) :
      conn.Counted := by
    rw [hfresh]
    exact EdgeConn.counted_new conn.fd id.chars
  have hfree : (s.view id).free = 0 := List.count_eq_zero.mpr hstart.notFree
  have htoServer : (s.view id).link.toServer = [] := hstart.quiet.toServer
  have htoClient : (s.view id).link.toClient = [] := hstart.quiet.toClient
  refine ⟨⟨⟨?_, hstart.accepted, hstart.claimed, ?_, hstart.server.name, hstart.client.name, ?_, ?_,
    hstart.starts, hstart.lastStart⟩, hcounted hstart.server.fresh, hcounted hstart.client.fresh,
    ?_, ?_, ?_, fun _ => hstart.mapped_eq, Or.inl ⟨hstart.waiting_eq, rfl⟩⟩, hstart.waiting_eq,
    rfl, rfl, ?_, ?_, ?_⟩
  · exact AList.lookup_isSome.mpr hstart.created
  · change ∑ idx, occurrences (s.unclaimed idx) id = 0
    exact Finset.sum_eq_zero fun idx _ => hstart.unclaimed idx
  · rw [hstart.server.fresh]
  · rw [hstart.client.fresh]
  · rw [htoServer, hstart.quiet.notices]
    exact hstart.server.endInv hstart.client.fresh
  · rw [htoClient, hstart.quiet.totals]
    exact hstart.client.endInv hstart.server.fresh
  · rw [hstart.mapped_eq, hstart.waiting_eq, hfree]
  · rw [hstart.quiet.notices]
    exact hstart.server.recorded hstart.client.fresh
  · rw [hstart.quiet.totals]
    exact hstart.client.recorded hstart.server.fresh
  · intro hoff
    exact absurd (hoff.symm.trans hstart.server.isStart) Bool.false_ne_true

theorem wellFormed (hstart : SessionStart cfg s id pub loc) : WellFormed cfg s where
  keyed := hstart.keyed
  unclaimed := hstart.unclaimedKeyed
  inv := by
    intro other
    by_cases hid : other = id
    · subst hid
      exact .level _ _ _ hstart.running.level
    · exact hstart.others other hid

end SessionStart

/-- A session goes on through every run that accepts no public connection. -/
theorem Running.run {session : Session} {events : List Event} {final : System}
    (hwf : WellFormed cfg s) (hrunning : Running session id (s.view id) pub loc)
    (hevents : ∀ fd, Event.newPublicConn fd ∉ events)
    (hrun : Foundation.run (CProxy.step cfg) s events = some final) :
    ∃ pub' loc', Running session id (final.view id) pub' loc' := by
  induction events generalizing s pub loc with
  | nil =>
      simp only [run_nil, Option.some.injEq] at hrun
      subst hrun
      exact ⟨pub, loc, hrunning⟩
  | cons event rest ih =>
      obtain ⟨next, hnext, hrest⟩ := run_cons_eq_some.mp hrun
      have hevent (fd : Fd) : event ≠ .newPublicConn fd := fun heq =>
        hevents fd (heq ▸ List.mem_cons_self)
      obtain ⟨pub', loc', hafter⟩ := hrunning.step ((step_simulated hwf hnext).links id)
        (about_ne_request hevent id)
      exact ih (hwf.step hnext) hafter (fun fd hmem => hevents fd (List.mem_cons_of_mem _ hmem))
        hrest

/-! ## The agreement -/

/-- One end, with the connection it serves and the one at the far end: it has shut
its connection down at most once, after every announced byte, and is reset only
when its own direction has ended too. -/
structure OrderlyEnd (before : List (Option Fd)) (side : End) (conn other : EdgeConn) : Prop where
  peer : side.peer = some conn
  shutdownOnce : side.proxy.shutWr = before ∨
    (side.proxy.shutWr = before ++ [some conn.fd] ∧ other.closing = true ∧
      uint32 other.tranCount = conn.written.length ∧ conn.written = other.received)
  reset : side.proxy.isStart = false →
    conn.closing = true ∧ side.proxy.shutWr = before ++ [some conn.fd]

theorem Recorded.orderlyEnd {before : List (Option Fd)} {trailing flight : List UInt8}
    {notices : List Nat} (hrecorded : Recorded before side conn other notices)
    (hend : EndInv side conn other trailing flight notices) (hcounted : other.Counted) :
    OrderlyEnd before side conn other where
  peer := hend.peer
  shutdownOnce := by
    rcases hrecorded.shutWr with ⟨hnone, _⟩ | ⟨hshut, hother, hwritten, _⟩
    · exact Or.inl hnone
    · refine Or.inr ⟨hshut, hother, ?_, hwritten⟩
      rw [hcounted.uint32_tranCount, hwritten]
  reset := by
    intro hoff
    refine ⟨(hend.resting_of_not_isStart hoff).closing, ?_⟩
    rcases hrecorded.shutWr with ⟨_, hstart, _⟩ | ⟨hshut, _⟩
    · exact absurd (hoff.symm.trans hstart) Bool.false_ne_true
    · exact hshut

theorem Running.quiescent {session : Session} (hrunning : Running session id (s.view id) pub loc)
    (hkeyed : Keyed s) (hquiet : Quiet s id) (hpub : pub.closing = true)
    (hloc : loc.closing = true) :
    (s.link id).server.proxy.Idle ∧ (s.link id).client.proxy.Idle ∧
      pub.written = loc.received ∧ loc.written = pub.received ∧
      s.freeProxyConns.count id = 1 ∧ s.proxyConnMap.lookup id.chars = none := by
  have htoServer : (s.view id).link.toServer = [] := hquiet.toServer
  have htoClient : (s.view id).link.toClient = [] := hquiet.toClient
  have hup := hrunning.level.up
  have hdown := hrunning.level.down
  have hserver := hrunning.server
  have hclient := hrunning.client
  rw [htoServer, hquiet.notices] at hup
  rw [htoClient, hquiet.totals] at hdown
  rw [hquiet.notices] at hserver
  rw [hquiet.totals] at hclient
  have hserver := hserver.resting_of_quiescent hup hpub hloc
  have hclient := hclient.resting_of_quiescent hdown hloc hpub
  have hmapped : (s.view id).mapped = 0 := by
    by_contra hleft
    rcases hrunning.owed hserver.idle.isStart hleft with hstart | hreq
    · exact absurd (hclient.idle.isStart.symm.trans hstart) Bool.false_ne_true
    · rw [hquiet.notices] at hreq
      exact absurd hreq List.not_mem_nil
  have hhome := hrunning.level.home
  rw [hmapped, hrunning.waiting] at hhome
  have hfree : (s.view id).free = 1 := by omega
  exact ⟨hserver.idle, hclient.idle, hserver.delivered, hclient.delivered, hfree,
    hkeyed.lookup_eq_none hmapped⟩

/-- From the start of a session, in every order of the handlers: each end behaves
in an orderly way, and once both sides have closed and nothing is under way both
ends are idle, both streams have arrived, and the connection is free. -/
theorem session_teardown_agrees {events : List Event} {final : System}
    (hstart : SessionStart cfg s id pub loc) (hevents : ∀ fd, Event.newPublicConn fd ∉ events)
    (hrun : run (step cfg) s events = some final) :
    ∃ pub' loc', pub'.fd = pub.fd ∧ loc'.fd = loc.fd ∧
      OrderlyEnd (s.link id).server.proxy.shutWr (final.link id).server pub' loc' ∧
      OrderlyEnd (s.link id).client.proxy.shutWr (final.link id).client loc' pub' ∧
      (Quiet final id → pub'.closing = true → loc'.closing = true →
        (final.link id).server.proxy.Idle ∧ (final.link id).client.proxy.Idle ∧
        (final.link id).server.proxy.tranCount = 0 ∧ (final.link id).client.proxy.tranCount = 0 ∧
        pub'.written = loc'.received ∧ loc'.written = pub'.received ∧
        final.freeProxyConns.count id = 1 ∧ final.proxyConnMap.lookup id.chars = none ∧
        occurrences final.waitForStartProxyConnMap id = 0) := by
  have hwf : WellFormed cfg final :=
    run_invariant (fun _ _ _ hwf hstep => hwf.step hstep) hstart.wellFormed hrun
  obtain ⟨pub', loc', hrunning⟩ := hstart.running.run hstart.wellFormed hevents hrun
  have hlevel := hrunning.level
  refine ⟨pub', loc', hrunning.pubFd, hrunning.locFd,
    hrunning.server.orderlyEnd hlevel.up hlevel.locCounted,
    hrunning.client.orderlyEnd hlevel.down hlevel.pubCounted, ?_⟩
  intro hquiet hpub hloc
  obtain ⟨hserver, hclient, hup, hdown, hfree, hmapped⟩ :=
    hrunning.quiescent hwf.keyed hquiet hpub hloc
  exact ⟨hserver, hclient, hrunning.server.tranCount, hrunning.client.tranCount, hup, hdown, hfree,
    hmapped, hrunning.waiting⟩

set_option maxRecDepth 10000 in
theorem sampleStart_sessionStart :
    SessionStart sampleConfig (sampleAfter sampleStart) sampleId
      { fd := 5, proxyId := sampleId.chars } { fd := 11, proxyId := sampleId.chars } := by
  have hwf := (sampleAfter_reachable sampleStart (by decide)).wellFormed
  exact {
    server := ⟨by decide, by decide, by decide, by decide, by decide, by decide, by decide,
      by decide, rfl⟩
    client := ⟨by decide, by decide, by decide, by decide, by decide, by decide, by decide,
      by decide, rfl⟩
    starts := by decide
    lastStart := by decide
    quiet := ⟨by decide, by decide, by decide, by decide⟩
    created := by decide
    accepted := by decide
    claimed := by decide
    unclaimed := by decide
    mapped := by decide
    notWaiting := by decide
    notFree := by decide
    keyed := hwf.keyed
    unclaimedKeyed := hwf.unclaimed
    others := fun other _ => hwf.inv other }

/-- A question and its answer; the client hears last of an end, and asks the server to
free the connection. -/
def sampleTalk : List Event :=
  [.publicRead sampleId [71, 69, 84], .clientProxyRead sampleId 3 1, .localRead sampleId [79, 75],
    .serverProxyRead sampleId 2, .localRead sampleId [], .publicRead sampleId [], .serverCtlRead,
    .clientCtlRead sampleId 1 1, .serverCtlRead]

set_option maxRecDepth 10000 in
/-- Both streams of the sample session arrive, and it ends with a free connection. -/
theorem session_teardown_agrees_sample :
    ∃ final pub loc, run (step sampleConfig) (sampleAfter sampleStart) sampleTalk = some final ∧
      (final.link sampleId).server.peer = some pub ∧ pub.written = [79, 75] ∧
      (final.link sampleId).client.peer = some loc ∧ loc.written = [71, 69, 84] ∧
      (final.link sampleId).server.proxy.shutWr = [some 5] ∧
      (final.link sampleId).server.proxy.Idle ∧ (final.link sampleId).client.proxy.Idle ∧
      final.freeProxyConns.count sampleId = 1 := by
  have hrun := sampleAfter_run sampleStart sampleTalk (by decide)
  have hevents : ∀ fd, Event.newPublicConn fd ∉ sampleTalk := by simp [sampleTalk]
  obtain ⟨pub, loc, hpubFd, _, hserver, hclient, hquiescent⟩ :=
    session_teardown_agrees sampleStart_sessionStart hevents hrun
  have hpub : (some pub).map (fun conn => (conn.closing, conn.received)) =
      some (true, [71, 69, 84]) := by
    rw [← hserver.peer]
    decide
  have hloc : (some loc).map (fun conn => (conn.closing, conn.received)) =
      some (true, [79, 75]) := by
    rw [← hclient.peer]
    decide
  simp only [Option.map_some, Option.some.injEq, Prod.mk.injEq] at hpub hloc
  obtain ⟨hidle, hidle', _, _, hup, hdown, hfree, _⟩ :=
    hquiescent ⟨by decide, by decide, by decide, by decide⟩ hpub.1 hloc.1
  refine ⟨_, pub, loc, hrun, hserver.peer, hup.trans hloc.2, hclient.peer, hdown.trans hpub.2, ?_,
    hidle, hidle', hfree⟩
  rw [(hserver.reset hidle.isStart).2, hpubFd]
  rfl

end CProxy
