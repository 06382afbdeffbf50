import CProxy.Tunnel.ServerMode
import CProxy.Tunnel.SplitStart

/-! # Whether a notification finds its session

The notification that one direction has ended travels on the control connection,
the message that binds the session on the proxy connection. It finds its session
exactly when the binding message has been read, and the start made, before it.
-/

namespace CProxy

open Foundation Wire

/-- One side has `id` in its map, started with a descriptor for the latest session. -/
structure SessionBound (link : Link) (map : ConnMap Str) (side : End) (id : RandStr) : Prop where
  known : map.lookup id.chars = some id
  isStart : side.proxy.isStart = true
  peerConnFd : ∃ fd, side.proxy.peerConnFd = some fd ∧ 0 < fd
  latest : link.client.starts.length = link.server.starts.length

/-- A side that reads a notification has bound the session it is about. -/
def NotifiesBound (s : SplitSystem) : SplitEvent → Prop
  | .handler .serverCtlRead => ∀ id tranCount,
      s.base.ctlToServer.head? = some (.notifyProxyShutdownPeerConn id.chars tranCount) →
        SessionBound (s.base.link id) s.base.proxyConnMap (s.base.link id).server id
  | .handler (.clientCtlRead ..) => ∀ id tranCount,
      s.base.ctlToClient.head? = some (.notifyProxyShutdownPeerConn id.chars tranCount) →
        SessionBound (s.base.link id) s.base.clientProxyConnMap (s.base.link id).client id
  | _ => True

/-- A side reads a notification when the message that binds a session of that
connection is not on its way to it, and no start of that connection is outstanding. -/
def ReadAfterBinding (s : SplitSystem) : SplitEvent → Prop
  | .handler .serverCtlRead => ∀ id tranCount,
      s.base.ctlToServer.head? = some (.notifyProxyShutdownPeerConn id.chars tranCount) →
        ∀ item ∈ inFlight (s.base.link id), isFrame item = false
  | .handler (.clientCtlRead ..) => ∀ id tranCount,
      s.base.ctlToClient.head? = some (.notifyProxyShutdownPeerConn id.chars tranCount) →
        s.starting id = none
  | _ => True

theorem ReadAfterBinding.sparesStarting {s : SplitSystem} {event : SplitEvent}
    (hlaw : ReadAfterBinding s event) : SparesStarting s event := by
  cases event with
  | start id => trivial
  | handler event =>
      cases event with
      | clientCtlRead id proxyFd localFd => exact hlaw
      | newPublicConn | newProxyConn | serverProxyRead | publicRead | serverCtlRead
      | clientProxyRead | localRead | strayFreeReq =>
          trivial

variable {cfg : Config} {id : RandStr}

/-! ## Descriptors -/

/-- The local connection a client's end was started with is open. -/
def LocalPositive (link : Link) : Prop := ∀ conn, link.client.peer = some conn → 0 < conn.fd

theorem LocalPositive.congr {link link' : Link} (hpositive : LocalPositive link)
    (hsame : link'.client.peer.map EdgeConn.fd = link.client.peer.map EdgeConn.fd) :
    LocalPositive link' := by
  intro conn hpeer
  rw [hpeer, Option.map_some, eq_comm, Option.map_eq_some_iff] at hsame
  obtain ⟨before, hbefore, hfd⟩ := hsame
  rw [← hfd]
  exact hpositive before hbefore

theorem localPositive_start {link : Link} {side : End} {localFd : Fd} {proxyId : Str}
    (hclient : link.client = side.start { fd := localFd, proxyId := proxyId })
    (hlocal : 0 < localFd) : LocalPositive link := by
  intro conn hpeer
  rw [hclient] at hpeer
  obtain rfl := Option.some.inj hpeer
  exact hlocal

theorem LocalPositive.step {v v' : View} {event : LinkEvent} (hpositive : LocalPositive v.link)
    (hstep : LinkStep cfg id v event v') : LocalPositive v'.link := by
  cases hstep with
  | stay | reclosedAtServer | reclosedAtClient => exact hpositive
  | accept | request | claim | bind | relayAtServer => exact hpositive.congr rfl
  | connect proxyFd localFd hcreated hlocal => exact localPositive_start rfl hlocal
  | startAtClient count localFd publicFd hlocal => exact localPositive_start rfl hlocal
  | forwardAtServer count =>
      rw [View.shutdownPublicConn_link]
      exact hpositive.congr rfl
  | closeAtServer conn =>
      unfold View.shutdownFromPublic
      split
      · exact hpositive.congr rfl
      · exact hpositive.congr rfl
  | hearAtServer tranCount rest =>
      unfold View.handleShutdownPublicConn
      split
      · exact hpositive
      · rw [View.shutdownPublicConn_link]
        exact hpositive.congr rfl
  | freeAtServer rest =>
      rw [View.freeProxyConn_link]
      exact hpositive
  | strayFreeReq =>
      rw [View.freeProxyConn_link]
      exact hpositive
  | hearAtClient tranCount rest =>
      unfold View.handleShutdownLocalConn
      rw [View.shutdonwLocalConn_link]
      exact hpositive.congr rfl
  | forwardAtClient count localFd =>
      rw [View.shutdonwLocalConn_link]
      apply hpositive.congr
      simp [Link.forwardAtClient, End.settle, End.mapProxy, End.forward, Function.comp_def]
  | relayAtClient conn bytes =>
      apply hpositive.congr
      simp [Link.relayAtClient, End.relay, Function.comp_def]
  | closeAtClient conn =>
      apply hpositive.congr
      simp [View.shutdownFromLocal, Link.mapClient, End.mapProxy, End.close, Function.comp_def]

theorem Reachable.localPositive {s : System} (hreach : Reachable cfg s) (id : RandStr) :
    LocalPositive (s.link id) := by
  obtain ⟨events, hrun⟩ := hreach
  have hinit : WellFormed cfg System.init ∧ ∀ id, LocalPositive (System.init.link id) :=
    ⟨wellFormed_init cfg, fun _ => nofun⟩
  have hstep (s : System) (event : Event) (s' : System)
      (hs : WellFormed cfg s ∧ ∀ id, LocalPositive (s.link id))
      (hnext : CProxy.step cfg s event = some s') :
      WellFormed cfg s' ∧ ∀ id, LocalPositive (s'.link id) :=
    ⟨hs.1.step hnext, fun id => (hs.2 id).step ((step_simulated hs.1 hnext).links id)⟩
  exact (run_invariant hstep hinit hrun).2 id

theorem Matching.publicFd_pos {s : System} (hmatching : Matching cfg s) {fd : Fd}
    (hlast : (s.link id).server.starts.getLast? = some fd) : 0 < fd := by
  rw [List.getLast?_eq_getElem?] at hlast
  exact hmatching.positive fd (hmatching.unshared.accepted (.bound id _) fd hlast)

/-! ## One end with a notification to read -/

section System

variable {s : System} {pub loc : EdgeConn} {trailing : List UInt8}

/-- A server that has started for the session still listens for its end. -/
theorem Level.sessionBound_server (hlevel : Level id (s.view id) pub loc trailing)
    (hmatching : Matching cfg s) (hnotices : totals (s.view id).ctlToServer ≠ []) :
    SessionBound (s.link id) s.proxyConnMap (s.link id).server id := by
  rcases hlevel.up with ⟨total, hactive⟩ | hresting
  · have hmapped : (s.view id).mapped ≠ 0 := by
      rw [hlevel.mapped hactive.isStart]
      exact one_ne_zero
    exact {
      known := not_not.mp (mt hmatching.wellFormed.keyed.mapped_iff.mpr hmapped)
      isStart := hactive.isStart
      peerConnFd := ⟨pub.fd, hactive.peerConnFd, hmatching.publicFd_pos hlevel.lastStart⟩
      latest := hlevel.starts }
  · exact absurd hresting.notices hnotices

theorem Level.sessionBound_client (hlevel : Level id (s.view id) pub loc trailing)
    (hkeyed : Keyed s) (hpositive : LocalPositive (s.link id))
    (hnotices : (s.view id).ctlToClient ≠ []) :
    SessionBound (s.link id) s.clientProxyConnMap (s.link id).client id := by
  rcases hlevel.down with ⟨total, hactive⟩ | hresting
  · exact {
      known := hkeyed.lookup_client hlevel.created
      isStart := hactive.isStart
      peerConnFd := ⟨loc.fd, hactive.peerConnFd, hpositive loc hactive.peer⟩
      latest := hlevel.starts }
  · exact absurd hresting.notices hnotices

/-- A message that binds a session is on its way exactly while the server is behind. -/
theorem Matching.noFrame_iff (hmatching : Matching cfg s) :
    (∀ item ∈ inFlight (s.link id), isFrame item = false) ↔
      (s.link id).client.starts.length = (s.link id).server.starts.length := by
  obtain ⟨done, pending, hstreamed, hpending⟩ := hmatching.streams id
  rw [hstreamed.inFlight_eq]
  cases hpending with
  | level hstarts =>
      refine ⟨fun _ => hstarts, fun _ item hitem => ?_⟩
      obtain ⟨byte, _, rfl⟩ := List.mem_map.mp hitem
      rfl
  | ahead msg rest _ hstarts =>
      constructor
      · intro hnone
        exact absurd (hnone (.frame msg) List.mem_cons_self) Bool.noConfusion
      · intro hlevel
        omega

/-- A notification is on its way to the server only when the client has closed. -/
theorem LinkInv.closing_of_notice {v : View} (hinv : LinkInv cfg id v)
    (hnotices : totals v.ctlToServer ≠ []) :
    ∃ loc, v.link.client.peer = some loc ∧ loc.closing = true := by
  have hclosing {conn loc : EdgeConn} {flight : List UInt8} {total : Option Nat}
      (hsound : (incoming conn loc [] flight (totals v.ctlToServer) total).Sound) :
      loc.closing = true := by
    rw [← Bool.not_eq_false]
    exact mt hsound.notices_eq_nil hnotices
  cases hinv with
  | unused hunused => simp [hunused] at hnotices
  | ahead loc msg hahead => exact ⟨loc, (hahead.down 0).peer, hclosing (hahead.up 0)⟩
  | level pub loc trailing hlevel =>
      rcases hlevel.up with ⟨total, hactive⟩ | hresting
      · exact ⟨loc, hlevel.down.peer, hclosing hactive.sound⟩
      · exact absurd hresting.notices hnotices

/-- The server announces the end of a session only once it has been bound. -/
theorem LinkInv.level_of_total {v : View} (hinv : LinkInv cfg id v) (htotals : v.ctlToClient ≠ []) :
    ∃ pub loc trailing, Level id v pub loc trailing := by
  cases hinv with
  | unused hunused => simp [hunused] at htotals
  | ahead loc msg hahead => exact absurd ((hahead.down 0).sound.notices_eq_nil rfl) htotals
  | level pub loc trailing hlevel => exact ⟨pub, loc, trailing, hlevel⟩

end System

/-! ## The tunnel with the start apart -/

variable {s : SplitSystem}

theorem SplitInv.starting_of_closing {loc : EdgeConn}
    (hpeer : (s.whole.link id).client.peer = some loc) (hclosing : loc.closing = true) :
    s.starting id = none := by
  cases hid : s.starting id with
  | none => rfl
  | some localFd =>
      rw [whole_link, hid] at hpeer
      obtain rfl := Option.some.inj hpeer
      cases hclosing

theorem SplitInv.bound_at_server_iff (hinv : SplitInv cfg s) {tranCount : Nat}
    (hhead : s.base.ctlToServer.head? = some (.notifyProxyShutdownPeerConn id.chars tranCount)) :
    SessionBound (s.base.link id) s.base.proxyConnMap (s.base.link id).server id ↔
      ∀ item ∈ inFlight (s.base.link id), isFrame item = false := by
  have hmatching := hinv.reachable.matching
  have hnotices : totals (s.whole.view id).ctlToServer ≠ [] := by
    obtain ⟨rest, hctl⟩ := List.head?_eq_some_iff.mp hhead
    have hwhole : s.whole.ctlToServer = s.base.ctlToServer := rfl
    simp [System.view, hwhole, hctl, CtlMsg.toNotice]
  obtain ⟨loc, hpeer, hclosing⟩ := (hmatching.wellFormed.inv id).closing_of_notice hnotices
  have hlink := whole_link_of_none (SplitInv.starting_of_closing hpeer hclosing)
  have hmap : s.base.proxyConnMap = s.whole.proxyConnMap := rfl
  rw [← hlink, hmap, hmatching.noFrame_iff]
  constructor
  · exact SessionBound.latest
  · intro hstarts
    cases hmatching.wellFormed.inv id with
    | unused hunused => simp [hunused] at hnotices
    | ahead loc msg hahead =>
        have hbehind := hahead.starts
        rw [view_link] at hbehind
        omega
    | level pub loc trailing hlevel => exact hlevel.sessionBound_server hmatching hnotices

theorem SplitInv.bound_at_client_iff (hinv : SplitInv cfg s) {tranCount : Nat}
    (hhead : s.base.ctlToClient.head? = some (.notifyProxyShutdownPeerConn id.chars tranCount)) :
    SessionBound (s.base.link id) s.base.clientProxyConnMap (s.base.link id).client id ↔
      s.starting id = none := by
  have hwf := hinv.reachable.wellFormed
  have htotals : (s.whole.view id).ctlToClient ≠ [] := by
    obtain ⟨rest, hctl⟩ := List.head?_eq_some_iff.mp hhead
    have hwhole : s.whole.ctlToClient = s.base.ctlToClient := rfl
    simp [System.view, hwhole, hctl, CtlMsg.toTotal]
  obtain ⟨pub, loc, trailing, hlevel⟩ := (hwf.inv id).level_of_total htotals
  constructor
  · intro hbound
    by_contra hsome
    exact absurd (hinv.idle id hsome) (Bool.not_eq_false _ ▸ hbound.isStart)
  · intro hid
    have hmap : s.base.clientProxyConnMap = s.whole.clientProxyConnMap := rfl
    rw [← whole_link_of_none hid, hmap]
    exact hlevel.sessionBound_client hwf.keyed (hinv.reachable.localPositive id) htotals

theorem SplitInv.notifiesBound_iff (hinv : SplitInv cfg s) (event : SplitEvent) :
    NotifiesBound s event ↔ ReadAfterBinding s event := by
  cases event with
  | start id => exact Iff.rfl
  | handler event =>
      cases event with
      | serverCtlRead =>
          exact forall_congr' fun id => forall_congr' fun tranCount => forall_congr' fun hhead =>
            hinv.bound_at_server_iff hhead
      | clientCtlRead other proxyFd localFd =>
          exact forall_congr' fun id => forall_congr' fun tranCount => forall_congr' fun hhead =>
            hinv.bound_at_client_iff hhead
      | newPublicConn | newProxyConn | serverProxyRead | publicRead | clientProxyRead | localRead
      | strayFreeReq =>
          exact Iff.rfl

/-- In a run every notification finds its session bound exactly when each is read
after the message that binds a session of its connection, and after the start. -/
theorem notifications_bound_iff (cfg : Config) (events : List SplitEvent) :
    Takes (splitStep cfg) NotifiesBound {} events ↔
      Takes (splitStep cfg) ReadAfterBinding {} events := by
  have hstep (s : SplitSystem) (event : SplitEvent) (s' : SplitSystem) (hinv : SplitInv cfg s)
      (hlaw : ReadAfterBinding s event) (hnext : splitStep cfg s event = some s') :
      SplitInv cfg s' := hinv.step hlaw.sparesStarting hnext
  apply takes_iff_takes hstep
  · exact fun s event s' hinv _ => hinv.notifiesBound_iff event
  · exact splitInv_init cfg

/-- The local server closes at once, and its notification overtakes the ProxyMetaSet. -/
def sampleOvertaking : List SplitEvent :=
  [.handler (.newPublicConn 5), .handler (.clientCtlRead sampleId 10 11),
    .handler (.newProxyConn sampleId 6), .handler (.localRead sampleId [])]

set_option maxRecDepth 10000 in
/-- The notification is dropped. The session that is bound afterwards, whose public
side ends too, has heard no total and stays started at the server. -/
theorem not_notifications_bound :
    ¬ (∀ cfg events, Takes (splitStep cfg) NotifiesBound {} events) ∧
    (run (splitStep sampleConfig) {} (sampleOvertaking ++
        [.handler .serverCtlRead, .handler (.serverProxyRead sampleId 1),
          .handler (.publicRead sampleId []), .handler (.clientCtlRead sampleId 1 1),
          .handler .serverCtlRead])).map
      (fun s => (s.base.ctlToServer, s.base.ctlToClient, (s.base.link sampleId).toServer,
        (s.base.link sampleId).server.proxy.theoreticalTotalRecvCount,
        (s.base.link sampleId).server.proxy.isStart)) = some ([], [], [], -1, true) := by
  refine ⟨fun htakes => ?_, by decide⟩
  obtain ⟨middle, hmiddle⟩ := Option.isSome_iff_exists.mp
    (show (run (splitStep sampleConfig) {} sampleOvertaking).isSome = true by decide)
  obtain ⟨next, hnext⟩ := Option.isSome_iff_exists.mp
    (show (run (splitStep sampleConfig) {}
      (sampleOvertaking ++ [.handler .serverCtlRead])).isSome = true by decide)
  rw [run_concat hmiddle] at hnext
  have hbound := htakes sampleConfig (sampleOvertaking ++ [.handler .serverCtlRead])
    sampleOvertaking (.handler .serverCtlRead) middle next (List.prefix_refl _) hmiddle hnext
  have hearly : (run (splitStep sampleConfig) {} sampleOvertaking).map
      (fun s => (s.base.ctlToServer.head?, (s.base.link sampleId).server.proxy.isStart)) =
        some (some (.notifyProxyShutdownPeerConn sampleId.chars 0), false) := by decide
  rw [hmiddle, Option.map_some, Option.some.injEq, Prod.mk.injEq] at hearly
  have hstart := (hbound sampleId 0 hearly.1).isStart
  exact absurd (hearly.2.symm.trans hstart) Bool.false_ne_true

end CProxy
