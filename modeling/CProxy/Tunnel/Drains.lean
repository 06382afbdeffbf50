import CProxy.Foundation.Drain
import CProxy.Tunnel.Phases
import CProxy.Tunnel.Places
import CProxy.Tunnel.ServerMode
import CProxy.Tunnel.Sessions
import CProxy.Tunnel.Supply

/-! # A tunnel that is left to itself

When nothing more comes in, the handlers use up what is under way. None of them ever
blocks another, and what they leave behind is a tunnel that has served everyone: each
public connection has its session, both streams of each session have arrived, with the
ends that came, and what both sides have closed is free.
-/

namespace CProxy

open Foundation Wire

/-- Sessions end in order, and the server hears of an end once it has bound the session. -/
def Orderly (s : System) (event : Event) : Prop :=
  ∀ id, (s.view id).InOrder (event.about s id) ∧ (s.view id).Heeds (event.about s id)

variable {cfg : Config} {s s' : System} {id : RandStr} {event : Event}

/-- A tunnel whose run has been orderly so far. -/
structure OrderlySystem (cfg : Config) (s : System) : Prop where
  matching : Matching cfg s
  parked : ∀ id, Parked (s.view id)
  phase : ∀ id, Phase cfg id (s.view id)

theorem orderlySystem_init (cfg : Config) : OrderlySystem cfg System.init where
  matching := Reachable.matching ⟨[], rfl⟩
  parked := (parkedSystem_init cfg).parked
  phase := fun id => .unused (view_init id)

theorem OrderlySystem.step (horderly : OrderlySystem cfg s) (hlaw : Orderly s event)
    (hstep : ownStep cfg s event = some s') : OrderlySystem cfg s' := by
  obtain ⟨hnext, hstray⟩ := step_of_ownStep hstep
  have hwf := horderly.matching.wellFormed
  have hlinks := (step_simulated hwf hnext).links
  constructor
  · exact horderly.matching.step hnext
  · intro id
    exact (horderly.parked id).step (hwf.inv id) (hlinks id) (about_ne_strayFreeReq hstray id)
      (hlaw id).1
  · intro id
    exact (horderly.phase id).step (horderly.parked id) (hlinks id) (hlaw id).2

/-! ## Nothing is ever blocked -/

/-- Nothing is under way. -/
structure Settled (s : System) : Prop where
  ctlToServer : s.ctlToServer = []
  ctlToClient : s.ctlToClient = []
  toServer : ∀ id, (s.link id).toServer = []
  toClient : ∀ id, (s.link id).toClient = []
  accepted : ∀ id ∈ s.created, (s.link id).accepted = true

/-- Only the server's reads can end a session out of order. -/
theorem orderly_of_event (hread : ∀ id count, event ≠ .serverProxyRead id count)
    (hctl : event ≠ .serverCtlRead) : Orderly s event := by
  intro id
  refine ⟨freedInOrder_of_event hread hctl id, ?_⟩
  unfold View.Heeds
  split
  · next heq => exact absurd heq ((about_ne_serverRead hread hctl id).2 _)
  · trivial

theorem orderly_serverProxyRead (htoClient : ∀ id, (s.link id).toClient = [])
    (hctl : s.ctlToClient = []) (id : RandStr) (count : Nat) :
    Orderly s (.serverProxyRead id count) := by
  intro other
  refine ⟨inOrder_of_quiet (htoClient other) (by simp [System.view, hctl]), ?_⟩
  simp only [Event.about]
  split
  · trivial
  · trivial

/-- The bytes of a session are before the server only while it has bound the session. -/
theorem OrderlySystem.serverCtlRead (horderly : OrderlySystem cfg s)
    (htoServer : ∀ id, (s.link id).toServer = []) (htoClient : ∀ id, (s.link id).toClient = [])
    (hctl : s.ctlToClient = []) : Orderly s .serverCtlRead := by
  intro id
  refine ⟨inOrder_of_quiet (htoClient id) (by simp [System.view, hctl]), ?_⟩
  have hstarts : (s.view id).link.client.starts.length = (s.view id).link.server.starts.length := by
    cases horderly.phase id with
    | unused hunused => rw [hunused]
    | binding loc msg before hbinding =>
        have hstream : (s.link id).toServer = msg.wire ++ loc.received := hbinding.ahead.stream
        rw [htoServer] at hstream
        exact absurd (List.append_eq_nil_iff.mp hstream.symm).1 msg.wire_ne_nil
    | running session pub loc hrunning => exact hrunning.level.starts
    | asked pub loc trailing hasked => exact hasked.level.starts
  simp only [Event.about]
  split
  · next notice _ =>
      cases notice with
      | shutdownPeer tranCount => exact hstarts
      | freeReq => trivial
  · trivial

theorem clientForwardRead_isSome {session : Session} {pub loc : EdgeConn}
    (hrunning : Running session id (s.view id) pub loc)
    (hstart : (s.link id).client.proxy.isStart = true) (hbytes : (s.link id).toClient ≠ []) :
    (Client.forwardRead s id 1).isSome = true := by
  obtain ⟨total, hactive⟩ := hrunning.level.down.active_of_isStart hstart
  have hlength := List.length_pos_iff.mpr hbytes
  have hconserved : pub.received ++ [] = loc.written ++ (s.link id).toClient :=
    hactive.sound.conserved
  have hfits : (s.link id).client.proxy.recvCount + (1 : Nat) ≤ intMax := by
    have hrecv : (s.link id).client.proxy.recvCount = loc.written.length := hactive.recvCount
    have hcounted := hrunning.level.pubCounted
    have hbounded := hcounted.bounded
    have hsum := congrArg List.length hconserved
    rw [hcounted.tranCount] at hbounded
    simp only [List.length_append, List.length_nil] at hsum
    omega
  have hsplice : ¬ (¬ SpliceLen 1 ∨ (s.link id).toClient.length < 1) := by
    rintro (hnot | hshort)
    · exact hnot (by decide)
    · omega
  unfold Client.forwardRead
  rw [if_neg hsplice, if_neg (not_lt.mpr hfits)]
  dsimp only
  split <;> rfl

/-- An idle client has a whole request before it. -/
theorem clientMessageRead_isSome {pub loc : EdgeConn} {trailing : List UInt8}
    (hasked : Asked id (s.view id) pub loc trailing) (localFd : Fd) :
    (Client.messageRead s id localFd).isSome = true := by
  have hflight : (s.link id).toClient = trailing :=
    (hasked.level.down.resting_of_not_isStart hasked.client).flight
  have hwaiting := hasked.waiting
  rcases hasked.level.requested with ⟨hnone, _⟩ | ⟨_, publicFd, hfd, hreq, hframe⟩
  · omega
  · have hsent : ProxyCtlMsg.Sent (.startProxyConnReq publicFd id.chars) :=
      .startProxyConnReq publicFd hfd id
    have hread := ProxyCtlMsg.readMsg_wire hsent []
    rw [List.append_nil, ← hframe, ← hflight] at hread
    unfold Client.messageRead
    simp only [hread, ProxyCtlMsg.decode_body hsent]
    rfl

/-- The client can go on with whatever has arrived. -/
theorem OrderlySystem.clientProxyRead (horderly : OrderlySystem cfg s)
    (hbytes : (s.link id).toClient ≠ []) :
    (CProxy.step cfg s (.clientProxyRead id 1 1)).isSome = true := by
  have hknown (hcreated : (s.view id).created = true) : ¬ id.chars ∉ s.clientProxyConnMap :=
    not_not.mpr (AList.lookup_isSome.mp hcreated)
  simp only [CProxy.step, Nat.zero_lt_one, if_true, Client.proxyRead]
  cases horderly.phase id with
  | unused hunused => exact absurd (by rw [← view_link, hunused]) hbytes
  | binding loc msg before hbinding => exact absurd hbinding.ahead.toClient_eq_nil hbytes
  | running session pub loc hrunning =>
      rw [if_neg (hknown hrunning.level.created)]
      cases hstart : (s.link id).client.proxy.isStart with
      | true =>
          rw [if_pos rfl]
          exact clientForwardRead_isSome hrunning hstart hbytes
      | false => exact absurd (hrunning.level.down.resting_of_not_isStart hstart).flight hbytes
  | asked pub loc trailing hasked =>
      have hidle : (s.link id).client.proxy.isStart = false := hasked.client
      rw [if_neg (hknown hasked.level.created), hidle, if_neg Bool.false_ne_true]
      exact clientMessageRead_isSome hasked 1

theorem serverCtlRead_isSome (hctl : s.ctlToServer ≠ []) :
    (Server.ctlRead s).isSome = true := by
  obtain ⟨msg, rest, hcons⟩ := List.exists_cons_of_ne_nil hctl
  simp only [Server.ctlRead, hcons]
  cases msg <;> rfl

theorem clientCtlRead_isSome (hctl : s.ctlToClient ≠ [])
    (hfresh : s.needs ≠ 0 → id.chars ∉ s.clientProxyConnMap) :
    (CProxy.step cfg s (.clientCtlRead id 1 1)).isSome = true := by
  obtain ⟨msg, rest, hcons⟩ := List.exists_cons_of_ne_nil hctl
  simp only [CProxy.step, Nat.zero_lt_one, and_self, if_true, Client.ctlRead, hcons]
  cases msg with
  | notifyClientNeedProxy =>
      have hneeds : s.needs ≠ 0 := by simp [System.needs, hcons]
      simp [hfresh hneeds]
  | notifyProxyShutdownPeerConn proxyId tranCount => rfl
  | freeProxyConnReq proxyId => rfl

/-- While something is under way there is a handler that deals with it in order. -/
theorem OrderlySystem.progress (horderly : OrderlySystem cfg s) {count : Nat}
    (hpaid : Paid s count) (hfew : count ≤ 36 ^ 5) (hnot : ¬ Settled s) :
    ∃ event next, (event.internal = true ∧ Orderly s event) ∧ ownStep cfg s event = some next := by
  have hwf := horderly.matching.wellFormed
  obtain ⟨hnames, fd, hfresh⟩ := hpaid.supplied hwf.keyed hfew
  -- the client first, so that what the server completes is completed in order
  by_cases hclient : s.ctlToClient = []
  · by_cases htoClient : ∀ id, (s.link id).toClient = []
    · by_cases haccepted : ∀ id ∈ s.created, (s.link id).accepted = true
      · by_cases htoServer : ∀ id, (s.link id).toServer = []
        · have hserver : s.ctlToServer ≠ [] := fun hnone =>
            hnot ⟨hnone, hclient, htoServer, htoClient, haccepted⟩
          obtain ⟨next, hnext⟩ := Option.isSome_iff_exists.mp (serverCtlRead_isSome hserver)
          exact ⟨.serverCtlRead, next,
            ⟨rfl, horderly.serverCtlRead htoServer htoClient hclient⟩, hnext⟩
        · push Not at htoServer
          obtain ⟨id, hbytes⟩ := htoServer
          have hopen : (s.link id).accepted = true := by
            apply haccepted id
            rw [mem_created_iff hwf.keyed]
            cases hunknown : (s.view id).created with
            | true => rfl
            | false => simp [← view_link, (hwf.inv id).eq_unused hunknown] at hbytes
          obtain ⟨next, hnext, _⟩ := horderly.matching.serverProxyRead hopen hbytes 1
            fun _ => ⟨(by decide : SpliceLen 1), List.length_pos_iff.mpr hbytes⟩
          exact ⟨.serverProxyRead id 1, next,
            ⟨rfl, orderly_serverProxyRead htoClient hclient id 1⟩, hnext⟩
      · push Not at haccepted
        obtain ⟨id, hmem, hopen⟩ := haccepted
        have hknown : id.chars ∈ s.clientProxyConnMap :=
          AList.lookup_isSome.mp ((mem_created_iff hwf.keyed).mp hmem)
        have hclosed : (s.link id).accepted = false := Bool.eq_false_iff.mpr hopen
        exact ⟨.newProxyConn id fd, Server.newProxyConnHandler s id fd,
          ⟨rfl, orderly_of_event nofun nofun⟩, if_pos ⟨hfresh, hknown, hclosed⟩⟩
    · push Not at htoClient
      obtain ⟨id, hbytes⟩ := htoClient
      obtain ⟨next, hnext⟩ := Option.isSome_iff_exists.mp (horderly.clientProxyRead hbytes)
      exact ⟨.clientProxyRead id 1 1, next, ⟨rfl, orderly_of_event nofun nofun⟩, hnext⟩
  · obtain ⟨id, hunused⟩ : ∃ id : RandStr, s.needs ≠ 0 → id.chars ∉ s.clientProxyConnMap := by
      by_cases hneeds : s.needs ≠ 0
      · obtain ⟨id, hunused⟩ := hnames hneeds
        exact ⟨id, fun _ => hunused⟩
      · exact ⟨RandStr.ofDigits fun _ => 0, fun hsome => absurd hsome hneeds⟩
    obtain ⟨next, hnext⟩ := Option.isSome_iff_exists.mp
      (@clientCtlRead_isSome cfg _ _ hclient hunused)
    exact ⟨.clientCtlRead id 1 1, next, ⟨rfl, orderly_of_event nofun nofun⟩, hnext⟩

/-! ## What is left behind -/

/-- Both ends of the session of `pub` and `loc` know all that has happened to it. -/
structure Concluded (s : System) (id : RandStr) (pub loc : EdgeConn) : Prop where
  toPublic : loc.closing = true → some pub.fd ∈ (s.link id).server.proxy.shutWr
  toLocal : pub.closing = true → some loc.fd ∈ (s.link id).client.proxy.shutWr
  free : pub.closing = true → loc.closing = true →
    (s.link id).server.proxy.Idle ∧ (s.link id).client.proxy.Idle ∧ id ∈ s.freeProxyConns

/-- Everyone who came in `events` has been served: each public connection has a session,
each session has given to either side all that it has taken from the other, each end of
input has been passed on, and what both sides have closed is free. -/
structure Served (cfg : Config) (events : List Event) (s : System) : Prop extends Settled s where
  bound : ∀ fd, .newPublicConn fd ∈ events → ∃ id session, Holds s (.bound id session) fd
  relayed : ∀ id (edge : Edge) session, bytesOf (tape cfg events) id edge .given session =
    bytesOf (tape cfg events) id edge.other .taken session
  concluded : ∀ id pub loc, (s.link id).server.peer = some pub →
    (s.link id).client.peer = some loc → Concluded s id pub loc

theorem Settled.quiet (hsettled : Settled s) (id : RandStr) : Quiet s id where
  toServer := hsettled.toServer id
  toClient := hsettled.toClient id
  ctlToServer := by
    rw [hsettled.ctlToServer]
    exact fun _ hmem => absurd hmem List.not_mem_nil
  ctlToClient := by
    rw [hsettled.ctlToClient]
    exact fun _ hmem => absurd hmem List.not_mem_nil

/-- With nothing under way, no message that binds a session is on its way. -/
theorem OrderlySystem.running (horderly : OrderlySystem cfg s) (hsettled : Settled s)
    (id : RandStr) :
    s.view id = {} ∨ ∃ session pub loc, Running session id (s.view id) pub loc := by
  cases horderly.phase id with
  | unused hunused => exact Or.inl hunused
  | running session pub loc hrunning => exact Or.inr ⟨session, pub, loc, hrunning⟩
  | binding loc msg before hbinding =>
      have hstream : (s.link id).toServer = msg.wire ++ loc.received := hbinding.ahead.stream
      rw [hsettled.toServer] at hstream
      exact absurd (List.append_eq_nil_iff.mp hstream.symm).1 msg.wire_ne_nil
  | asked pub loc trailing hasked =>
      have hflight : (s.link id).toClient = trailing :=
        (hasked.level.down.resting_of_not_isStart hasked.client).flight
      have hwaiting := hasked.waiting
      rcases hasked.level.requested with ⟨hnone, _⟩ | ⟨_, publicFd, _, _, hframe⟩
      · omega
      · rw [hsettled.toClient, hframe] at hflight
        exact absurd hflight.symm (ProxyCtlMsg.wire_ne_nil _)

theorem OrderlySystem.bound (horderly : OrderlySystem cfg s) (hsettled : Settled s) {place : Place}
    {fd : Fd} (hplace : Holds s place fd) : ∃ id session, Holds s (.bound id session) fd := by
  cases place with
  | bound id session => exact ⟨id, session, hplace⟩
  | requested id =>
      have hwaiting : (s.view id).waiting = 1 := hplace.1
      rcases horderly.running hsettled id with hunused | ⟨session, pub, loc, hrunning⟩
      · simp [hunused] at hwaiting
      · have hnone := hrunning.waiting
        omega
  | undeal index =>
      have howed : s.undealPublicFds.length =
          s.needs + s.created.countP fun id => !(s.link id).claimed := horderly.matching.owed
      have hneeds : s.needs = 0 := by simp [System.needs, hsettled.ctlToClient]
      have hclaimed : s.created.countP (fun id => !(s.link id).claimed) = 0 := by
        rw [List.countP_eq_zero]
        intro id hmem
        have hcreated := (mem_created_iff horderly.matching.wellFormed.keyed).mp hmem
        rcases horderly.running hsettled id with hunused | ⟨session, pub, loc, hrunning⟩
        · simp [hunused] at hcreated
        · have hbound : (s.link id).claimed = true := hrunning.level.claimed
          simp [hbound]
      have hlength := (List.getElem?_eq_some_iff.mp hplace).1
      omega

/-- The latest session of a connection has moved all there is. -/
theorem OrderlySystem.latest_relayed (horderly : OrderlySystem cfg s) (hsettled : Settled s)
    {trace : List Splice} (htaped : Taped id (s.link id) trace) (edge : Edge) :
    bytesOf trace id edge .given (s.link id).client.starts.length =
      bytesOf trace id edge.other .taken (s.link id).client.starts.length := by
  rcases horderly.running hsettled id with hunused | ⟨session, pub, loc, hrunning⟩
  · have hlink : s.link id = {} := congrArg View.link hunused
    exact htaped.first edge (by rw [hlink]) (by rw [hlink])
  · have hlevel := hrunning.level
    obtain ⟨hpubTaken, hpubGiven⟩ := End.tape_of_peer hlevel.up.peer
    obtain ⟨hlocTaken, hlocGiven⟩ := End.tape_of_peer hlevel.down.peer
    have hup := hlevel.up.conserved
    have hdown := hlevel.down.conserved
    rw [view_link, hsettled.toServer, List.append_nil, List.append_nil] at hup
    rw [view_link, hsettled.toClient, List.append_nil, List.append_nil] at hdown
    have hstarts : (s.link id).client.starts.length = (s.link id).server.starts.length :=
      hlevel.starts
    have hpublic := htaped.current_public
    rw [← hstarts] at hpublic
    cases edge with
    | publicConn =>
        rw [Edge.other, hpublic, htaped.current_local]
        exact hpubGiven.trans (hup.symm.trans hlocTaken.symm)
    | localConn =>
        rw [Edge.other, hpublic, htaped.current_local]
        exact hlocGiven.trans (hdown.symm.trans hpubTaken.symm)

theorem OrderlySystem.relayed (horderly : OrderlySystem cfg s) (hsettled : Settled s)
    {trace : List Splice} (htaped : Taped id (s.link id) trace) (edge : Edge) (session : Nat) :
    bytesOf trace id edge .given session = bytesOf trace id edge.other .taken session := by
  have hle : (s.link id).server.starts.length ≤ (s.link id).client.starts.length :=
    (horderly.matching.wellFormed.inv id).starts_le
  rcases Nat.lt_trichotomy session (s.link id).client.starts.length with hpast | rfl | hlater
  · exact htaped.past edge session hpast
  · exact horderly.latest_relayed hsettled htaped edge
  · have hnone (edge : Edge) (way : Way) : bytesOf trace id edge way session = [] := by
      apply htaped.later edge way session
      cases edge with
      | publicConn => exact Nat.lt_of_le_of_lt hle hlater
      | localConn => exact hlater
    rw [hnone, hnone]

/-- An end that has heard of the far end's close has passed it on. -/
theorem Recorded.mem_shutWr {before : List (Option Fd)} {side : End} {conn other : EdgeConn}
    (hrecorded : Recorded before side conn other []) (hend : EndInv side conn other [] [] [])
    (hother : other.closing = true) : some conn.fd ∈ side.proxy.shutWr := by
  rcases hrecorded.shutWr with ⟨_, hstart, hne⟩ | ⟨hshut, _⟩
  · have hheard := (hrecorded.announced hother hstart).resolve_left fun hsome => hsome rfl
    obtain ⟨total, hactive⟩ := hend.active_of_isStart hstart
    rw [hactive.theoretical] at hheard
    cases total with
    | none => exact absurd rfl hheard
    | some count =>
        have hlength := (hactive.sound.total count rfl).2
        have hconserved := hactive.sound.conserved
        simp only [incoming, List.append_nil] at hlength hconserved
        refine absurd (hactive.complete_iff.mp ?_) hne
        rw [Transfer.Complete, incoming, hlength, hconserved]
  · rw [hshut]
    simp

theorem OrderlySystem.concluded (horderly : OrderlySystem cfg s) (hsettled : Settled s)
    {pub loc : EdgeConn} (hpub : (s.link id).server.peer = some pub)
    (hloc : (s.link id).client.peer = some loc) : Concluded s id pub loc := by
  rcases horderly.running hsettled id with hunused | ⟨session, pub', loc', hrunning⟩
  · simp [← view_link, hunused] at hpub
  · obtain rfl : pub' = pub := Option.some.inj (hrunning.level.up.peer.symm.trans hpub)
    obtain rfl : loc' = loc := Option.some.inj (hrunning.level.down.peer.symm.trans hloc)
    have hquiet := hsettled.quiet id
    have hup := hrunning.level.up
    have hdown := hrunning.level.down
    have hserver := hrunning.server
    have hclient := hrunning.client
    rw [view_link, hquiet.toServer, hquiet.notices] at hup
    rw [view_link, hquiet.toClient, hquiet.totals] at hdown
    rw [hquiet.notices] at hserver
    rw [hquiet.totals] at hclient
    constructor
    · exact hserver.mem_shutWr hup
    · exact hclient.mem_shutWr hdown
    · intro hpubClosed hlocClosed
      obtain ⟨hserverIdle, hclientIdle, -, -, hfree, -⟩ := hrunning.quiescent
        horderly.matching.wellFormed.keyed hquiet hpubClosed hlocClosed
      exact ⟨hserverIdle, hclientIdle, List.count_pos_iff.mp (by omega)⟩

theorem OrderlySystem.served {events : List Event} (horderly : OrderlySystem cfg s)
    (hsettled : Settled s) (hrun : run (CProxy.step cfg) System.init events = some s) :
    Served cfg events s where
  toSettled := hsettled
  bound := by
    intro fd hmem
    obtain ⟨place, hplace⟩ := holds_of_accepted (wellFormed_init cfg) hrun hmem
    exact horderly.bound hsettled hplace
  relayed := fun id edge session =>
    horderly.relayed hsettled ((taped_run hrun).taped id) edge session
  concluded := fun _ _ _ hpub hloc => horderly.concluded hsettled hpub hloc

/-! ## To the end -/

/-- The handlers that deal with what is under way, in order. -/
def Draining (s : System) (event : Event) : Prop := event.internal = true ∧ Orderly s event

/-- A tunnel that has been orderly and has not been given more public connections than
there are identifiers. -/
structure Drainable (cfg : Config) (s : System) : Prop where
  orderly : OrderlySystem cfg s
  paid : ∃ count, count ≤ 36 ^ 5 ∧ Paid s count

theorem Drainable.step (hdrainable : Drainable cfg s) (hdraining : Draining s event)
    (hstep : ownStep cfg s event = some s') : Drainable cfg s' ∧ s'.load < s.load := by
  obtain ⟨horderly, count, hfew, hpaid⟩ := hdrainable
  obtain ⟨hinternal, hlaw⟩ := hdraining
  have hnext := (step_of_ownStep hstep).1
  have hwf := horderly.matching.wellFormed
  have hload := load_step hwf hnext
  have hafter := hpaid.step hwf hnext
  have hfree : event.isPublic = false ∧ event.cost = 0 := by
    cases event with
    | newProxyConn | serverProxyRead | serverCtlRead | clientCtlRead | clientProxyRead =>
        exact ⟨rfl, rfl⟩
    | newPublicConn | publicRead | localRead | strayFreeReq => cases hinternal
  rw [hinternal, if_pos rfl, hfree.2] at hload
  rw [hfree.1, if_neg Bool.false_ne_true] at hafter
  exact ⟨⟨horderly.step hlaw hstep, count, hfew, hafter⟩, by omega⟩

theorem Drainable.progress (hdrainable : Drainable cfg s) (hnot : ¬ Settled s) :
    ∃ event next, Draining s event ∧ ownStep cfg s event = some next := by
  obtain ⟨horderly, count, hfew, hpaid⟩ := hdrainable
  exact horderly.progress hpaid hfew hnot

theorem drainable_of_run {events : List Event}
    (hrun : run (ownStep cfg) System.init events = some s)
    (horderly : Takes (ownStep cfg) Orderly System.init events)
    (hfew : events.countP Event.isPublic ≤ 36 ^ 5) : Drainable cfg s where
  orderly := by
    have hstep (s : System) (event : Event) (s' : System) (horderly : OrderlySystem cfg s)
        (hlaw : Orderly s event) (hnext : ownStep cfg s event = some s') :
        OrderlySystem cfg s' := horderly.step hlaw hnext
    exact run_invariant_of_takes hstep (orderlySystem_init cfg) horderly hrun
  paid := by
    have hpaid := paid_init.run (wellFormed_init cfg) (run_of_ownRun hrun).1
    rw [Nat.zero_add] at hpaid
    exact ⟨_, hfew, hpaid⟩

/-- An orderly tunnel is never stuck and serves everyone: if no handler can go on,
everyone who came has been served, and otherwise the handlers come to that on their own,
in no more runs than there is work left. -/
theorem tunnel_drains {events : List Event} (hrun : run (ownStep cfg) System.init events = some s)
    (horderly : Takes (ownStep cfg) Orderly System.init events)
    (hfew : events.countP Event.isPublic ≤ 36 ^ 5) :
    ((∀ event, event.internal = true → ownStep cfg s event = none) → Served cfg events s) ∧
    ∃ more final, run (ownStep cfg) s more = some final ∧ Takes (ownStep cfg) Draining s more ∧
      more.length ≤ s.load ∧ Served cfg (events ++ more) final := by
  have hdrainable := drainable_of_run hrun horderly hfew
  constructor
  · intro hstuck
    refine hdrainable.orderly.served ?_ (run_of_ownRun hrun).1
    by_contra hnot
    obtain ⟨event, next, ⟨hinternal, -⟩, hnext⟩ := hdrainable.progress hnot
    rw [hstuck event hinternal] at hnext
    cases hnext
  · have hstep (s : System) (event : Event) (s' : System) (hdrainable : Drainable cfg s)
        (hdraining : Draining s event) (hnext : ownStep cfg s event = some s') :
        Drainable cfg s' ∧ s'.load < s.load := hdrainable.step hdraining hnext
    obtain ⟨more, final, hmore, htakes, hfinal, hsettled⟩ :=
      exists_run_to hstep (fun _ hdrainable hnot => hdrainable.progress hnot) hdrainable
    have hbound := length_add_measure_le hstep hdrainable htakes hmore
    have hwhole : run (ownStep cfg) System.init (events ++ more) = some final := by
      rw [run_append, hrun]
      exact hmore
    exact ⟨more, final, hmore, htakes, by omega,
      hfinal.orderly.served hsettled (run_of_ownRun hwhole).1⟩

/-- The local side speaks before the server has bound its session, and a second public
connection waits. -/
def sampleUnderWay : List Event :=
  [.newPublicConn 5, .clientCtlRead sampleId 10 11, .localRead sampleId [79, 75],
    .newPublicConn 7]

theorem sampleUnderWay_orderly :
    Takes (ownStep sampleConfig) Orderly System.init sampleUnderWay := by
  intro before event middle next hinit _ _
  have hmem : event ∈ sampleUnderWay :=
    hinit.subset (List.mem_append_right before (List.mem_singleton_self event))
  apply orderly_of_event
  · rintro id count rfl
    simp [sampleUnderWay] at hmem
  · rintro rfl
    simp [sampleUnderWay] at hmem

set_option maxRecDepth 10000 in
theorem tunnel_drains_sample :
    ∃ s more final, run (ownStep sampleConfig) System.init sampleUnderWay = some s ∧
      ¬ Settled s ∧ run (ownStep sampleConfig) s more = some final ∧
      Served sampleConfig (sampleUnderWay ++ more) final := by
  have hsome : ((run (ownStep sampleConfig) System.init sampleUnderWay).map
      System.ctlToClient) = some [.notifyClientNeedProxy] := by decide
  obtain ⟨s, hrun, hwaiting⟩ := Option.map_eq_some_iff.mp hsome
  obtain ⟨-, more, final, hmore, -, -, hserved⟩ :=
    tunnel_drains hrun sampleUnderWay_orderly (by decide)
  refine ⟨s, more, final, hrun, fun hsettled => ?_, hmore, hserved⟩
  rw [hsettled.ctlToClient] at hwaiting
  cases hwaiting

end CProxy
