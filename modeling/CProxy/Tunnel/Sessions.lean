import CProxy.Foundation.Observed
import CProxy.Tunnel.IdleWhenFree
import CProxy.Tunnel.Matching

/-! # What passes between the two connections of a session

A run shows the bytes that its splices take from public and local descriptors and
give to them. Whatever the order of the handlers, what a session gives to one of its
two connections is what it has taken from the other one.
-/

namespace CProxy

open Foundation Wire

/-- The two connections of a session. -/
inductive Edge where
  | publicConn
  | localConn
  deriving DecidableEq

def Edge.other : Edge → Edge
  | publicConn => localConn
  | localConn => publicConn

inductive Way where
  | taken
  | given
  deriving DecidableEq

/-- Bytes that a splice has moved at the edge of a tunnel, with the descriptor it was
called on. The sessions of a proxy connection are counted from one. -/
structure Splice where
  id : RandStr
  edge : Edge
  way : Way
  session : Nat
  fd : Option Fd
  bytes : List UInt8
  deriving DecidableEq

namespace Link

def side (link : Link) : Edge → End
  | .publicConn => link.server
  | .localConn => link.client

/-- `PublicConn::handleRead` and `LocalConn::handleRead` take bytes from their own
descriptor, none at the end of input. -/
def taken (link : Link) (id : RandStr) (edge : Edge) (bytes : List UInt8) : List Splice :=
  match (link.side edge).peer with
  | none => []
  | some conn =>
      if bytes = [] then []
      else [⟨id, edge, .taken, (link.side edge).starts.length, some conn.fd, bytes⟩]

/-- `ProxyConn::handleRead` gives bytes to `peer_conn_fd_`. -/
def given (link : Link) (id : RandStr) (edge : Edge) (bytes : List UInt8) : List Splice :=
  if (link.side edge).proxy.isStart then
    [⟨id, edge, .given, (link.side edge).starts.length, (link.side edge).proxy.peerConnFd, bytes⟩]
  else []

def splices (link : Link) (id : RandStr) : LinkEvent → List Splice
  | .publicRead bytes => link.taken id .publicConn bytes
  | .serverRead count => link.given id .publicConn (link.toServer.take count)
  | .localRead bytes => link.taken id .localConn bytes
  | .clientRead count _ => link.given id .localConn (link.toClient.take count)
  | _ => []

end Link

/-- What an event of the tunnel shows. -/
def System.splices (s : System) : Event → List Splice
  | .publicRead id bytes => (s.link id).splices id (.publicRead bytes)
  | .serverProxyRead id count => (s.link id).splices id (.serverRead count)
  | .localRead id bytes => (s.link id).splices id (.localRead bytes)
  | .clientProxyRead id count localFd => (s.link id).splices id (.clientRead count localFd)
  | _ => []

/-- The bytes moved one way at one connection of a session. -/
def bytesOf (trace : List Splice) (id : RandStr) (edge : Edge) (way : Way) (session : Nat) :
    List UInt8 :=
  (trace.filter fun splice => splice.id = id ∧ splice.edge = edge ∧ splice.way = way ∧
    splice.session = session).flatMap Splice.bytes

/-- A session that this end has been reset after, or started again after. -/
def End.Past (side : End) (session : Nat) : Prop :=
  session < side.starts.length ∨ (session = side.starts.length ∧ side.proxy.isStart = false)

/-! ## The tape of a session -/

variable {cfg : Config} {id : RandStr} {trace : List Splice} {edge : Edge} {way : Way}
variable {session : Nat} {link link' : Link}

@[simp] theorem bytesOf_nil : bytesOf [] id edge way session = [] := rfl

@[simp] theorem bytesOf_append (trace more : List Splice) :
    bytesOf (trace ++ more) id edge way session =
      bytesOf trace id edge way session ++ bytesOf more id edge way session := by
  simp [bytesOf]

theorem bytesOf_singleton (splice : Splice) :
    bytesOf [splice] id edge way session =
      if splice.id = id ∧ splice.edge = edge ∧ splice.way = way ∧ splice.session = session then
        splice.bytes
      else [] := by
  unfold bytesOf
  split
  · next hsame => simp [hsame]
  · next hother => rw [List.filter_eq_nil_iff.mpr (by simpa using hother), List.flatMap_nil]

/-- Splices of other connections leave no bytes. -/
theorem bytesOf_of_ne (hother : ∀ splice ∈ trace, splice.id ≠ id) :
    bytesOf trace id edge way session = [] := by
  unfold bytesOf
  rw [List.filter_eq_nil_iff.mpr, List.flatMap_nil]
  intro splice hmem hsame
  exact hother splice hmem (of_decide_eq_true hsame).1

/-- The bytes that the current session of an end has moved. -/
def End.tape (side : End) : Way → List UInt8
  | .taken => (side.peer.map EdgeConn.received).getD []
  | .given => (side.peer.map EdgeConn.written).getD []

/-- An end that keeps its connection and what its session has moved. -/
structure End.Kept (side side' : End) : Prop where
  starts : side'.starts = side.starts
  fd : side'.peer.map EdgeConn.fd = side.peer.map EdgeConn.fd
  tape : ∀ way, side'.tape way = side.tape way

/-- An end whose session moves `bytes`. -/
structure End.Moved (side side' : End) (way : Way) (bytes : List UInt8) : Prop where
  starts : side'.starts = side.starts
  fd : side'.peer.map EdgeConn.fd = side.peer.map EdgeConn.fd
  tape : ∀ other, side'.tape other = side.tape other ++ if way = other then bytes else []

/-- An end that is started for a new connection. -/
structure End.Begun (side side' : End) (fd : Fd) : Prop where
  starts : side'.starts = side.starts ++ [fd]
  fd : side'.peer.map EdgeConn.fd = some fd
  tape : ∀ way, side'.tape way = []

/-- The splices so far and the state of a proxy connection: what the sessions under way
have moved, that nothing is missing of those that are over at the client, and which
descriptors were used. -/
structure Taped (id : RandStr) (link : Link) (trace : List Splice) : Prop where
  current : ∀ edge way,
    bytesOf trace id edge way (link.side edge).starts.length = (link.side edge).tape way
  later : ∀ edge way session, (link.side edge).starts.length < session →
    bytesOf trace id edge way session = []
  past : ∀ edge session, session < link.client.starts.length →
    bytesOf trace id edge .given session = bytesOf trace id edge.other .taken session
  last : ∀ edge, (link.side edge).starts.getLast? = (link.side edge).peer.map EdgeConn.fd
  descriptors : ∀ splice ∈ trace, splice.id = id →
    1 ≤ splice.session ∧ splice.session ≤ (link.side splice.edge).starts.length ∧
      splice.fd = (link.side splice.edge).starts[splice.session - 1]?

theorem Taped.current_public (htaped : Taped id link trace) (way : Way) :
    bytesOf trace id .publicConn way link.server.starts.length = link.server.tape way :=
  htaped.current .publicConn way

theorem Taped.current_local (htaped : Taped id link trace) (way : Way) :
    bytesOf trace id .localConn way link.client.starts.length = link.client.tape way :=
  htaped.current .localConn way

theorem taped_new (id : RandStr) : Taped id {} [] where
  current := by
    intro edge way
    cases edge <;> cases way <;> rfl
  later := fun _ _ _ _ => rfl
  past := fun _ _ _ => rfl
  last := by
    intro edge
    cases edge <;> rfl
  descriptors := fun _ hmem => absurd hmem List.not_mem_nil

namespace Taped

/-- Nothing is spliced and no session is started. -/
theorem congr (htaped : Taped id link trace)
    (hkept : ∀ edge, (link.side edge).Kept (link'.side edge)) : Taped id link' trace where
  current := by
    intro edge way
    rw [(hkept edge).starts, (hkept edge).tape]
    exact htaped.current edge way
  later := by
    intro edge way session hlater
    rw [(hkept edge).starts] at hlater
    exact htaped.later edge way session hlater
  past := by
    intro edge session hpast
    have hclient : link'.client.starts = link.client.starts := (hkept .localConn).starts
    rw [hclient] at hpast
    exact htaped.past edge session hpast
  last := by
    intro edge
    rw [(hkept edge).starts, (hkept edge).fd]
    exact htaped.last edge
  descriptors := by
    intro splice hmem hid
    rw [(hkept splice.edge).starts]
    exact htaped.descriptors splice hmem hid

/-- Splices of other connections. -/
theorem of_others (htaped : Taped id link trace) {more : List Splice}
    (hother : ∀ splice ∈ more, splice.id ≠ id) : Taped id link (trace ++ more) where
  current := by
    intro edge way
    rw [bytesOf_append, bytesOf_of_ne hother, List.append_nil]
    exact htaped.current edge way
  later := by
    intro edge way session hlater
    rw [bytesOf_append, bytesOf_of_ne hother, List.append_nil]
    exact htaped.later edge way session hlater
  past := by
    intro edge session hpast
    rw [bytesOf_append, bytesOf_append, bytesOf_of_ne hother, bytesOf_of_ne hother,
      List.append_nil, List.append_nil]
    exact htaped.past edge session hpast
  last := htaped.last
  descriptors := by
    intro splice hmem hid
    rcases List.mem_append.mp hmem with hold | hnew
    · exact htaped.descriptors splice hold hid
    · exact absurd hid (hother splice hnew)

/-- A splice in the current session of an end that no earlier session is ahead of. -/
theorem splice (htaped : Taped id link trace) {splice : Splice} (hid : splice.id = id)
    (hsession : splice.session = (link.side splice.edge).starts.length)
    (hclient : link.client.starts.length ≤ splice.session)
    (hfd : (link.side splice.edge).peer.map EdgeConn.fd = splice.fd) (hsome : splice.fd.isSome)
    (hmoved : (link.side splice.edge).Moved (link'.side splice.edge) splice.way splice.bytes)
    (hkept : ∀ edge, splice.edge ≠ edge → (link.side edge).Kept (link'.side edge)) :
    Taped id link' (trace ++ [splice]) := by
  have hstarts (edge : Edge) : (link'.side edge).starts = (link.side edge).starts := by
    by_cases hedge : splice.edge = edge
    · exact hedge ▸ hmoved.starts
    · exact (hkept edge hedge).starts
  have hlast := (htaped.last splice.edge).trans hfd
  constructor
  · intro edge way
    rw [bytesOf_append, bytesOf_singleton, hstarts, htaped.current]
    by_cases hedge : splice.edge = edge
    · subst hedge
      simp only [hmoved.tape, hid, hsession, true_and, and_true]
    · rw [(hkept edge hedge).tape, if_neg fun hsame => hedge hsame.2.1, List.append_nil]
  · intro edge way session hlater
    rw [hstarts] at hlater
    rw [bytesOf_append, bytesOf_singleton, htaped.later edge way session hlater, if_neg]
    · rfl
    · rintro ⟨-, rfl, -, rfl⟩
      omega
  · intro edge session hpast
    have hsame : link'.client.starts = link.client.starts := hstarts .localConn
    rw [hsame] at hpast
    have hnot (edge : Edge) (way : Way) : bytesOf [splice] id edge way session = [] := by
      rw [bytesOf_singleton, if_neg]
      rintro ⟨-, -, -, rfl⟩
      omega
    rw [bytesOf_append, bytesOf_append, hnot, hnot, List.append_nil, List.append_nil]
    exact htaped.past edge session hpast
  · intro edge
    rw [hstarts, htaped.last edge]
    by_cases hedge : splice.edge = edge
    · exact hedge ▸ hmoved.fd.symm
    · exact (hkept edge hedge).fd.symm
  · intro other hmem hother
    rw [hstarts]
    rcases List.mem_append.mp hmem with hold | hnew
    · exact htaped.descriptors other hold hother
    · obtain rfl := List.mem_singleton.mp hnew
      have hne : (link.side other.edge).starts ≠ [] := by
        intro hnil
        rw [← hlast, hnil] at hsome
        cases hsome
      have hpositive := List.length_pos_iff.mpr hne
      refine ⟨by omega, by omega, ?_⟩
      rw [hsession, ← hlast, List.getLast?_eq_getElem?]

/-- An end is started for its next session; at the client the last session is over. -/
theorem start (htaped : Taped id link trace) (started : Edge) (fd : Fd)
    (hover : started = .localConn → ∀ edge,
      bytesOf trace id edge .given link.client.starts.length =
        bytesOf trace id edge.other .taken link.client.starts.length)
    (hbegun : (link.side started).Begun (link'.side started) fd)
    (hkept : ∀ edge, started ≠ edge → (link.side edge).Kept (link'.side edge)) :
    Taped id link' trace where
  current := by
    intro edge way
    by_cases hedge : started = edge
    · subst hedge
      rw [hbegun.tape, hbegun.starts, List.length_append]
      exact htaped.later started way _ (Nat.lt_succ_self _)
    · rw [(hkept edge hedge).starts, (hkept edge hedge).tape]
      exact htaped.current edge way
  later := by
    intro edge way session hlater
    apply htaped.later edge way session
    by_cases hedge : started = edge
    · subst hedge
      rw [hbegun.starts, List.length_append] at hlater
      exact Nat.lt_of_succ_lt hlater
    · rw [(hkept edge hedge).starts] at hlater
      exact hlater
  past := by
    intro edge session hpast
    by_cases hclient : started = .localConn
    · have hnext : link'.client.starts = link.client.starts ++ [fd] := by
        subst hclient
        exact hbegun.starts
      rw [hnext, List.length_append, List.length_singleton, Nat.lt_succ_iff_lt_or_eq] at hpast
      rcases hpast with hold | rfl
      · exact htaped.past edge session hold
      · exact hover hclient edge
    · have hsame : link'.client.starts = link.client.starts := (hkept .localConn hclient).starts
      rw [hsame] at hpast
      exact htaped.past edge session hpast
  last := by
    intro edge
    by_cases hedge : started = edge
    · subst hedge
      rw [hbegun.starts, hbegun.fd, List.getLast?_append, List.getLast?_singleton]
      rfl
    · rw [(hkept edge hedge).starts, (hkept edge hedge).fd]
      exact htaped.last edge
  descriptors := by
    intro splice hmem hid
    obtain ⟨hfirst, hlast, hfd⟩ := htaped.descriptors splice hmem hid
    refine ⟨hfirst, ?_⟩
    by_cases hedge : started = splice.edge
    · rw [hedge] at hbegun
      rw [hbegun.starts, List.length_append, hfd]
      refine ⟨Nat.le_add_right_of_le hlast, ?_⟩
      rw [List.getElem?_append_left (by omega)]
    · rw [(hkept _ hedge).starts]
      exact ⟨hlast, hfd⟩

end Taped

/-! ## What the handlers do to the tapes of an end -/

namespace End

variable {side side' : End} {conn : EdgeConn}

theorem kept_of_peer (hstarts : side'.starts = side.starts) (hpeer : side'.peer = side.peer) :
    side.Kept side' where
  starts := hstarts
  fd := congrArg _ hpeer
  tape := by
    intro way
    cases way with
    | taken => simp only [tape, hpeer]
    | given => simp only [tape, hpeer]

theorem kept_settle (side : End) : side.Kept side.settle := kept_of_peer rfl rfl

theorem kept_mapProxy (side : End) (update : ProxyConn → ProxyConn) :
    side.Kept (side.mapProxy update) := kept_of_peer rfl rfl

theorem Kept.trans {side'' : End} (hfirst : side.Kept side') (hsecond : side'.Kept side'') :
    side.Kept side'' where
  starts := hsecond.starts.trans hfirst.starts
  fd := hsecond.fd.trans hfirst.fd
  tape := fun way => (hsecond.tape way).trans (hfirst.tape way)

theorem kept_close (side : End) : side.Kept side.close where
  starts := rfl
  fd := by
    unfold close
    rw [Option.map_map]
    rfl
  tape := by
    intro way
    cases way with
    | taken => simp [close, tape, Function.comp_def]
    | given => simp [close, tape, Function.comp_def]

theorem moved_relay (hpeer : side.peer = some conn) (bytes : List UInt8) :
    side.Moved (side.relay bytes) .taken bytes where
  starts := rfl
  fd := by simp [relay, hpeer]
  tape := by
    intro way
    cases way with
    | taken => simp [tape, relay, hpeer]
    | given => simp [tape, relay, hpeer]

theorem moved_forward (hpeer : side.peer = some conn) (bytes : List UInt8) :
    side.Moved (side.forward bytes) .given bytes where
  starts := rfl
  fd := by simp [forward, hpeer]
  tape := by
    intro way
    cases way with
    | taken => simp [tape, forward, hpeer]
    | given => simp [tape, forward, hpeer]

theorem Moved.kept {side'' : End} {way : Way} {bytes : List UInt8}
    (hmoved : side.Moved side' way bytes) (hkept : side'.Kept side'') :
    side.Moved side'' way bytes where
  starts := hkept.starts.trans hmoved.starts
  fd := hkept.fd.trans hmoved.fd
  tape := fun other => (hkept.tape other).trans (hmoved.tape other)

theorem begun_of_peer {fd : Fd} {proxyId : Str} (hstarts : side'.starts = side.starts ++ [fd])
    (hpeer : side'.peer = some { fd := fd, proxyId := proxyId }) : side.Begun side' fd where
  starts := hstarts
  fd := by rw [hpeer]; rfl
  tape := by
    intro way
    cases way with
    | taken => simp [tape, hpeer]
    | given => simp [tape, hpeer]

end End

namespace Taped

theorem congr_ends (htaped : Taped id link trace) (hserver : link.server.Kept link'.server)
    (hclient : link.client.Kept link'.client) : Taped id link' trace := by
  apply htaped.congr
  intro edge
  cases edge with
  | publicConn => exact hserver
  | localConn => exact hclient

/-- Bytes are taken from the descriptor of the current session. -/
theorem taken (htaped : Taped id link trace) (edge : Edge) {conn : EdgeConn}
    (hpeer : (link.side edge).peer = some conn) {bytes : List UInt8} (hbytes : bytes ≠ [])
    (hclient : link.client.starts.length ≤ (link.side edge).starts.length)
    (hrelay : ((link.side edge).relay bytes).Kept (link'.side edge))
    (hkept : ∀ other, edge ≠ other → (link.side other).Kept (link'.side other)) :
    Taped id link' (trace ++ link.taken id edge bytes) := by
  have hone : link.taken id edge bytes =
      [⟨id, edge, .taken, (link.side edge).starts.length, some conn.fd, bytes⟩] := by
    simp [Link.taken, hpeer, hbytes]
  rw [hone]
  refine htaped.splice rfl rfl hclient ?_ rfl ?_ hkept
  · rw [hpeer]
    rfl
  · exact (End.moved_relay hpeer bytes).kept hrelay

/-- Bytes are given to the descriptor of the current session. -/
theorem given (htaped : Taped id link trace) (edge : Edge) {conn : EdgeConn}
    (hpeer : (link.side edge).peer = some conn)
    (hstart : (link.side edge).proxy.isStart = true)
    (hfd : (link.side edge).proxy.peerConnFd = some conn.fd) (bytes : List UInt8)
    (hclient : link.client.starts.length ≤ (link.side edge).starts.length)
    (hforward : ((link.side edge).forward bytes).Kept (link'.side edge))
    (hkept : ∀ other, edge ≠ other → (link.side other).Kept (link'.side other)) :
    Taped id link' (trace ++ link.given id edge bytes) := by
  have hone : link.given id edge bytes =
      [⟨id, edge, .given, (link.side edge).starts.length, some conn.fd, bytes⟩] := by
    simp [Link.given, hstart, hfd]
  rw [hone]
  refine htaped.splice rfl rfl hclient ?_ rfl ?_ hkept
  · rw [hpeer]
    rfl
  · exact (End.moved_forward hpeer bytes).kept hforward

end Taped

/-! ## The steps of a proxy connection -/

variable {v v' : View} {event : LinkEvent} {pub loc : EdgeConn} {trailing : List UInt8}

/-- A session that both ends have been reset after has lost nothing. -/
theorem Taped.over_of_resting (htaped : Taped id v.link trace)
    (hlevel : Level id v pub loc trailing)
    (hserver : v.link.server.proxy.isStart = false)
    (hclient : v.link.client.proxy.isStart = false) (edge : Edge) :
    bytesOf trace id edge .given v.link.client.starts.length =
      bytesOf trace id edge.other .taken v.link.client.starts.length := by
  have hup := hlevel.up.resting_of_not_isStart hserver
  have hdown := hlevel.down.resting_of_not_isStart hclient
  have hlocal := htaped.current_local
  have hpublic := htaped.current_public
  rw [← hlevel.starts] at hpublic
  cases edge with
  | publicConn =>
      rw [hpublic, Edge.other, hlocal]
      simp [End.tape, hup.peer, hdown.peer, hup.delivered]
  | localConn =>
      rw [hlocal, Edge.other, hpublic]
      simp [End.tape, hup.peer, hdown.peer, hdown.delivered]

/-- Before its first session a connection has moved nothing. -/
theorem Taped.first (htaped : Taped id link trace) (edge : Edge)
    (hserver : link.server = {}) (hclient : link.client = {}) :
    bytesOf trace id edge .given link.client.starts.length =
      bytesOf trace id edge.other .taken link.client.starts.length := by
  have hnone (edge : Edge) (way : Way) : bytesOf trace id edge way 0 = [] := by
    have hcurrent := htaped.current edge way
    cases edge with
    | publicConn =>
        rw [Link.side, hserver] at hcurrent
        exact hcurrent.trans (by cases way <;> rfl)
    | localConn =>
        rw [Link.side, hclient] at hcurrent
        exact hcurrent.trans (by cases way <;> rfl)
  rw [hclient]
  exact (hnone edge .given).trans (hnone edge.other .taken).symm

theorem LinkInv.starts_of_pub_open (hinv : LinkInv cfg id v) {conn : EdgeConn}
    (hpeer : v.link.server.peer = some conn) (hopen : conn.closing = false) :
    v.link.client.starts.length ≤ v.link.server.starts.length := by
  cases hinv with
  | unused hunused => simp [hunused]
  | ahead loc msg hahead => simp [hahead.publicClosed conn hpeer] at hopen
  | level pub loc trailing hlevel => exact Nat.le_of_eq hlevel.starts

theorem LinkInv.level_of_client_idle (hinv : LinkInv cfg id v) (hcreated : v.created = true)
    (hstart : v.link.client.proxy.isStart = false) :
    ∃ pub loc trailing, Level id v pub loc trailing := by
  cases hinv with
  | unused hunused => simp [hunused] at hcreated
  | ahead loc msg hahead => simp [(hahead.down 0).isStart] at hstart
  | level pub loc trailing hlevel => exact ⟨pub, loc, trailing, hlevel⟩

theorem LinkInv.client_started (hinv : LinkInv cfg id v)
    (hstart : v.link.client.proxy.isStart = true) :
    ∃ conn, v.link.client.peer = some conn ∧ v.link.client.proxy.peerConnFd = some conn.fd := by
  cases hinv with
  | unused hunused => simp [hunused] at hstart
  | ahead loc msg hahead => exact ⟨loc, (hahead.down 0).peer, (hahead.down 0).peerConnFd⟩
  | level pub loc trailing hlevel =>
      obtain ⟨total, hactive⟩ := hlevel.down.active_of_isStart hstart
      exact ⟨loc, hactive.peer, hactive.peerConnFd⟩

/-- A request at an idle client has been sent by an idle server. -/
theorem Level.resting_of_request (hlevel : Level id v pub loc trailing)
    (hstart : v.link.client.proxy.isStart = false) {msg : ProxyCtlMsg}
    (hframe : v.link.toClient = msg.wire) :
    Resting v.link.server pub loc [] v.link.toServer (totals v.ctlToServer) := by
  rcases hlevel.requested with ⟨_, hnone⟩ | ⟨hwaiting, _⟩
  · have hflight := (hlevel.down.resting_of_not_isStart hstart).flight
    exact absurd (hframe.symm.trans (hflight.trans hnone)) (ProxyCtlMsg.wire_ne_nil _)
  · exact hlevel.resting_of_waiting hwaiting

/-- The server starts the session its client is ahead with. -/
theorem Taped.startServer (htaped : Taped id v.link trace) (msg : ProxyCtlMsg)
    (rest : List UInt8) (publicFd : Fd) :
    Taped id (v.startServer msg rest id publicFd).link trace := by
  refine htaped.start .publicConn publicFd nofun ?_ ?_
  · exact @End.begun_of_peer v.link.server _ publicFd id.chars rfl rfl
  · intro edge hedge
    cases edge with
    | publicConn => exact absurd rfl hedge
    | localConn => exact End.kept_of_peer rfl rfl

/-- An end that is not started is only read for messages. -/
theorem given_of_idle (edge : Edge) (hstart : (link.side edge).proxy.isStart = false)
    (bytes : List UInt8) : link.given id edge bytes = [] := by
  simp [Link.given, hstart]

theorem taken_nil (edge : Edge) : link.taken id edge [] = [] := by
  unfold Link.taken
  split
  · rfl
  · rfl

theorem Taped.step (htaped : Taped id v.link trace) (hinv : LinkInv cfg id v)
    (hstep : LinkStep cfg id v event v') :
    Taped id v'.link (trace ++ v.link.splices id event) := by
  cases hstep with
  | stay =>
      simp only [Link.splices, List.append_nil]
      exact htaped
  | strayFreeReq | freeAtServer => 
      simp only [Link.splices, List.append_nil, View.freeProxyConn_link]
      exact htaped
  | connect proxyFd localFd hcreated =>
      simp only [Link.splices, List.append_nil]
      obtain rfl := hinv.eq_unused hcreated
      refine htaped.start .localConn localFd (fun _ edge => htaped.first edge rfl rfl) ?_ ?_
      · exact @End.begun_of_peer _ _ localFd id.chars rfl rfl
      · intro edge hedge
        cases edge with
        | publicConn => exact End.kept_of_peer rfl rfl
        | localConn => exact absurd rfl hedge
  | accept | request =>
      simp only [Link.splices, List.append_nil]
      exact htaped.congr_ends (End.kept_of_peer rfl rfl) (End.kept_of_peer rfl rfl)
  | claim count publicFd rest haccepted hclaimed hstart hframe =>
      rw [Link.splices, given_of_idle .publicConn hstart, List.append_nil]
      exact htaped.startServer _ rest publicFd
  | bind count publicFd rest hwaiting hclaimed hstart hreq hframe =>
      rw [Link.splices, given_of_idle .publicConn hstart, List.append_nil]
      exact htaped.startServer _ rest publicFd
  | forwardAtServer count hstart hsplice hcount =>
      obtain ⟨pub, loc, trailing, hlevel⟩ := hinv.level_of_isStart hstart
      obtain ⟨total, hactive⟩ := hlevel.up.active_of_isStart hstart
      rw [View.shutdownPublicConn_link]
      refine htaped.given .publicConn hactive.peer hstart hactive.peerConnFd _
        (Nat.le_of_eq hlevel.starts) (End.kept_settle _) ?_
      intro other hother
      cases other with
      | publicConn => exact absurd rfl hother
      | localConn => exact End.kept_of_peer rfl rfl
  | relayAtServer conn bytes hpeer hopen hbytes =>
      refine htaped.taken .publicConn hpeer hbytes (hinv.starts_of_pub_open hpeer hopen) ?_ ?_
      · exact End.kept_of_peer rfl rfl
      · intro other hother
        cases other with
        | publicConn => exact absurd rfl hother
        | localConn => exact End.kept_of_peer rfl rfl
  | closeAtServer conn hpeer hopen =>
      rw [Link.splices, taken_nil, List.append_nil]
      refine htaped.congr_ends ?_ ?_
      · unfold View.shutdownFromPublic
        split
        · exact End.kept_close _
        · exact (End.kept_mapProxy _ _).trans (End.kept_close _)
      · unfold View.shutdownFromPublic
        split
        · exact End.kept_of_peer rfl rfl
        · exact End.kept_of_peer rfl rfl
  | reclosedAtServer | reclosedAtClient =>
      rw [Link.splices, taken_nil, List.append_nil]
      exact htaped
  | hearAtServer tranCount rest =>
      simp only [Link.splices, List.append_nil]
      unfold View.handleShutdownPublicConn
      split
      · exact htaped
      · rw [View.shutdownPublicConn_link]
        exact htaped.congr_ends (End.kept_of_peer rfl rfl) (End.kept_of_peer rfl rfl)
  | hearAtClient tranCount rest =>
      simp only [Link.splices, List.append_nil]
      unfold View.handleShutdownLocalConn
      rw [View.shutdonwLocalConn_link]
      exact htaped.congr_ends (End.kept_of_peer rfl rfl) (End.kept_of_peer rfl rfl)
  | startAtClient count localFd publicFd hlocal hcreated hstart hreq hfd hframe =>
      obtain ⟨pub, loc, trailing, hlevel⟩ := hinv.level_of_client_idle hcreated hstart
      have hserver := (hlevel.resting_of_request hstart hframe).idle.isStart
      rw [Link.splices, given_of_idle .localConn hstart, List.append_nil]
      refine htaped.start .localConn localFd
        (fun _ => htaped.over_of_resting hlevel hserver hstart) ?_ ?_
      · exact @End.begun_of_peer _ _ localFd v.link.client.proxy.proxyId rfl rfl
      · intro edge hedge
        cases edge with
        | publicConn => exact End.kept_of_peer rfl rfl
        | localConn => exact absurd rfl hedge
  | forwardAtClient count localFd hstart =>
      obtain ⟨conn, hpeer, hfd⟩ := hinv.client_started hstart
      rw [View.shutdonwLocalConn_link]
      refine htaped.given .localConn hpeer hstart hfd _ (Nat.le_refl _) (End.kept_settle _) ?_
      intro other hother
      cases other with
      | publicConn => exact End.kept_of_peer rfl rfl
      | localConn => exact absurd rfl hother
  | relayAtClient conn bytes hpeer hopen hbytes =>
      refine htaped.taken .localConn hpeer hbytes (Nat.le_refl _) ?_ ?_
      · exact End.kept_of_peer rfl rfl
      · intro other hother
        cases other with
        | publicConn => exact End.kept_of_peer rfl rfl
        | localConn => exact absurd rfl hother
  | closeAtClient conn hpeer hopen =>
      rw [Link.splices, taken_nil, List.append_nil]
      exact htaped.congr_ends (End.kept_of_peer rfl rfl)
        ((End.kept_mapProxy _ _).trans (End.kept_close _))

/-! ## The whole tunnel -/

variable {s s' : System} {event : Event} {events : List Event}

theorem splices_id {splice : Splice} {about : LinkEvent} (hmem : splice ∈ link.splices id about) :
    splice.id = id := by
  have htaken (edge : Edge) (bytes : List UInt8) (hsplice : splice ∈ link.taken id edge bytes) :
      splice.id = id := by
    unfold Link.taken at hsplice
    split at hsplice
    · cases hsplice
    · split at hsplice
      · cases hsplice
      · rw [List.mem_singleton.mp hsplice]
  have hgiven (edge : Edge) (bytes : List UInt8) (hsplice : splice ∈ link.given id edge bytes) :
      splice.id = id := by
    unfold Link.given at hsplice
    split at hsplice
    · rw [List.mem_singleton.mp hsplice]
    · cases hsplice
  cases about with
  | publicRead bytes => exact htaken .publicConn bytes hmem
  | serverRead count => exact hgiven .publicConn _ hmem
  | localRead bytes => exact htaken .localConn bytes hmem
  | clientRead count localFd => exact hgiven .localConn _ hmem
  | stay | connect | accept | request | serverNotice | clientNotice | strayFreeReq => cases hmem

/-- What an event shows is about one connection. -/
theorem splices_about (s : System) (event : Event) (id : RandStr) :
    s.splices event = (s.link id).splices id (event.about s id) ∨
      ((s.link id).splices id (event.about s id) = [] ∧
        ∀ splice ∈ s.splices event, splice.id ≠ id) := by
  have hone (other : RandStr) (about : LinkEvent) :
      (s.link other).splices other about =
          (s.link id).splices id (if other = id then about else .stay) ∨
        ((s.link id).splices id (if other = id then about else .stay) = [] ∧
          ∀ splice ∈ (s.link other).splices other about, splice.id ≠ id) := by
    by_cases hother : other = id
    · subst hother
      rw [if_pos rfl]
      exact Or.inl rfl
    · rw [if_neg hother]
      refine Or.inr ⟨rfl, fun splice hmem hid => hother ?_⟩
      exact (splices_id hmem).symm.trans hid
  cases event with
  | newPublicConn | newProxyConn | strayFreeReq =>
      simp only [System.splices, Event.about]
      left
      split <;> rfl
  | serverCtlRead =>
      simp only [System.splices, Event.about]
      left
      split <;> rfl
  | clientCtlRead =>
      simp only [System.splices, Event.about]
      left
      split
      · split <;> rfl
      · split <;> rfl
      · rfl
  | publicRead other bytes => exact hone other (.publicRead bytes)
  | serverProxyRead other count => exact hone other (.serverRead count)
  | localRead other bytes => exact hone other (.localRead bytes)
  | clientProxyRead other count localFd => exact hone other (.clientRead count localFd)

structure TapedSystem (cfg : Config) (s : System) (trace : List Splice) : Prop where
  wellFormed : WellFormed cfg s
  taped : ∀ id, Taped id (s.link id) trace

theorem TapedSystem.step (htaped : TapedSystem cfg s trace)
    (hstep : CProxy.step cfg s event = some s') :
    TapedSystem cfg s' (trace ++ s.splices event) := by
  refine ⟨htaped.wellFormed.step hstep, fun id => ?_⟩
  have hlink := (step_simulated htaped.wellFormed hstep).links id
  have hnext : Taped id (s'.link id) (trace ++ (s.link id).splices id (event.about s id)) :=
    Taped.step (htaped.taped id) (htaped.wellFormed.inv id) hlink
  rcases splices_about s event id with hown | ⟨hnone, hother⟩
  · rw [hown]
    exact hnext
  · rw [hnone, List.append_nil] at hnext
    exact hnext.of_others hother

/-- What a run shows. -/
def tape (cfg : Config) (events : List Event) : List Splice :=
  observed (CProxy.step cfg) System.splices System.init events

/-- A run of the handlers alone is a run, and shows the same. -/
theorem run_of_ownRun {final : System} (hrun : run (ownStep cfg) s events = some final) :
    run (CProxy.step cfg) s events = some final ∧
      observed (ownStep cfg) System.splices s events =
        observed (CProxy.step cfg) System.splices s events := by
  induction events generalizing s with
  | nil => exact ⟨hrun, rfl⟩
  | cons event rest ih =>
      obtain ⟨next, hnext, hrest⟩ := run_cons_eq_some.mp hrun
      obtain ⟨hstep, -⟩ := step_of_ownStep hnext
      obtain ⟨hrun, hshown⟩ := ih hrest
      exact ⟨run_cons_eq_some.mpr ⟨next, hstep, hrun⟩, by
        rw [observed_cons hnext, observed_cons hstep, hshown]⟩

theorem taped_run {final : System} (hrun : run (CProxy.step cfg) System.init events = some final) :
    TapedSystem cfg final (tape cfg events) :=
  observed_invariant (fun _ _ _ _ htaped hstep => TapedSystem.step htaped hstep)
    ⟨wellFormed_init cfg, taped_new⟩ hrun

/-! ## One session -/

/-- The request that may be on a connection behind the data of its session. -/
def Link.Trailing (link : Link) (id : RandStr) (trailing : List UInt8) : Prop :=
  trailing = [] ∨ ∃ publicFd, link.reqFd = some publicFd ∧
    trailing = (ProxyCtlMsg.startProxyConnReq publicFd id.chars).wire

/-- What a session of a proxy connection has moved: each of its connections has been
given what was taken from the other one, in order and all of it once the session is
over; only a request that trails the stream can come behind it. -/
structure Relayed (link : Link) (trace : List Splice) (id : RandStr) (session : Nat) : Prop where
  toPublic : bytesOf trace id .publicConn .given session <+:
    bytesOf trace id .localConn .taken session
  toLocal : ∃ trailing, link.Trailing id trailing ∧
    bytesOf trace id .localConn .given session <+:
      bytesOf trace id .publicConn .taken session ++ trailing
  publicOver : link.server.Past session →
    bytesOf trace id .publicConn .given session = bytesOf trace id .localConn .taken session
  localOver : link.client.Past session →
    bytesOf trace id .localConn .given session = bytesOf trace id .publicConn .taken session

namespace Relayed

theorem of_past {session : Nat}
    (hpast : ∀ edge : Edge, bytesOf trace id edge .given session =
      bytesOf trace id edge.other .taken session) : Relayed link trace id session where
  toPublic := by
    rw [hpast .publicConn]
    exact List.prefix_rfl
  toLocal := ⟨[], Or.inl rfl, by
    rw [hpast .localConn, List.append_nil]
    exact List.prefix_rfl⟩
  publicOver := fun _ => hpast .publicConn
  localOver := fun _ => hpast .localConn

theorem of_later {session : Nat}
    (hlater : ∀ edge way, bytesOf trace id edge way session = []) :
    Relayed link trace id session :=
  of_past fun edge => (hlater edge .given).trans (hlater edge.other .taken).symm

end Relayed

theorem LinkInv.starts_le (hinv : LinkInv cfg id v) :
    v.link.server.starts.length ≤ v.link.client.starts.length := by
  cases hinv with
  | unused hunused => simp [hunused]
  | ahead loc msg hahead =>
      rw [hahead.starts]
      exact Nat.le_succ _
  | level pub loc trailing hlevel => exact Nat.le_of_eq hlevel.starts.symm

theorem End.tape_of_peer {side : End} {conn : EdgeConn} (hpeer : side.peer = some conn) :
    side.tape .taken = conn.received ∧ side.tape .given = conn.written := by
  simp [End.tape, hpeer]

theorem Ahead.tape_given_eq_nil {msg : ProxyCtlMsg} (hahead : Ahead cfg id v loc msg) :
    v.link.client.tape .given = [] := by
  have hconserved := (hahead.down 0).sound.conserved
  simp only [incoming, List.append_nil, List.nil_eq, List.append_eq_nil_iff] at hconserved
  exact (End.tape_of_peer (hahead.down 0).peer).2.trans hconserved.1

/-- The server has not heard of the latest session. -/
theorem Taped.relayed_of_ahead {msg : ProxyCtlMsg} (htaped : Taped id v.link trace)
    (hahead : Ahead cfg id v loc msg) :
    Relayed v.link trace id v.link.client.starts.length := by
  have hstarts := hahead.starts
  have hpublic (way : Way) : bytesOf trace id .publicConn way v.link.client.starts.length = [] := by
    apply htaped.later .publicConn way
    rw [Link.side, hstarts]
    exact Nat.lt_succ_self _
  have hgiven : bytesOf trace id .localConn .given v.link.client.starts.length = [] :=
    (htaped.current_local .given).trans hahead.tape_given_eq_nil
  constructor
  · rw [hpublic]
    exact List.nil_prefix
  · refine ⟨[], Or.inl rfl, ?_⟩
    rw [hgiven]
    exact List.nil_prefix
  · rintro (hless | ⟨hsame, -⟩)
    · omega
    · omega
  · rintro (hless | ⟨-, hidle⟩)
    · exact absurd hless (Nat.lt_irrefl _)
    · exact absurd (hidle.symm.trans (hahead.down 0).isStart) Bool.false_ne_true

theorem Requested.onLink (hrequested : Requested id v trailing) :
    v.link.Trailing id trailing := by
  rcases hrequested with ⟨_, hnone⟩ | ⟨_, publicFd, _, hreq, hframe⟩
  · exact Or.inl hnone
  · exact Or.inr ⟨publicFd, hreq, hframe⟩

/-- Nothing is lost or reordered on the way to an end, and what trails the stream is
behind it. -/
theorem EndInv.conserved {side : End} {conn other : EdgeConn} {flight : List UInt8}
    {notices : List Nat} (hend : EndInv side conn other trailing flight notices) :
    other.received ++ trailing = conn.written ++ flight := by
  rcases hend with ⟨total, hactive⟩ | hresting
  · exact hactive.sound.conserved
  · rw [hresting.delivered, hresting.flight]

/-- Both ends are in the latest session, or have been reset after it. -/
theorem Taped.relayed_of_level (htaped : Taped id v.link trace)
    (hlevel : Level id v pub loc trailing) :
    Relayed v.link trace id v.link.client.starts.length := by
  obtain ⟨hpubTaken, hpubGiven⟩ := End.tape_of_peer hlevel.up.peer
  obtain ⟨hlocTaken, hlocGiven⟩ := End.tape_of_peer hlevel.down.peer
  have hlocal := htaped.current_local
  have hpublic := htaped.current_public
  rw [← hlevel.starts] at hpublic
  constructor
  · rw [hpublic, hlocal, hpubGiven, hlocTaken]
    refine ⟨v.link.toServer, ?_⟩
    simpa using hlevel.up.conserved.symm
  · refine ⟨trailing, hlevel.requested.onLink, ?_⟩
    rw [hpublic, hlocal, hpubTaken, hlocGiven]
    exact ⟨v.link.toClient, hlevel.down.conserved.symm⟩
  · rintro (hless | ⟨-, hidle⟩)
    · rw [hlevel.starts] at hless
      exact absurd hless (Nat.lt_irrefl _)
    · rw [hpublic, hlocal, hpubGiven, hlocTaken]
      exact (hlevel.up.resting_of_not_isStart hidle).delivered
  · rintro (hless | ⟨-, hidle⟩)
    · exact absurd hless (Nat.lt_irrefl _)
    · rw [hpublic, hlocal, hpubTaken, hlocGiven]
      exact (hlevel.down.resting_of_not_isStart hidle).delivered

theorem Taped.relayed (htaped : Taped id v.link trace) (hinv : LinkInv cfg id v) (session : Nat) :
    Relayed v.link trace id session := by
  rcases Nat.lt_trichotomy session v.link.client.starts.length with hpast | rfl | hlater
  · exact .of_past fun edge => htaped.past edge session hpast
  · cases hinv with
    | unused hunused =>
        apply Relayed.of_past
        intro edge
        exact htaped.first edge (by rw [hunused]) (by rw [hunused])
    | ahead loc msg hahead => exact htaped.relayed_of_ahead hahead
    | level pub loc trailing hlevel => exact htaped.relayed_of_level hlevel
  · apply Relayed.of_later
    intro edge way
    apply htaped.later edge way
    cases edge with
    | publicConn => exact Nat.lt_of_le_of_lt hinv.starts_le hlater
    | localConn => exact hlater

/-- While the client reads a request in idle mode only, nothing comes behind the public bytes. -/
theorem Taped.toLocal_of_parked (htaped : Taped id v.link trace) (hinv : LinkInv cfg id v)
    (hparked : Parked v) (session : Nat) :
    bytesOf trace id .localConn .given session <+:
      bytesOf trace id .publicConn .taken session := by
  have hrelayed := htaped.relayed hinv session
  by_cases hover : v.link.client.Past session
  · rw [hrelayed.localOver hover]
  · rcases Nat.lt_trichotomy session v.link.client.starts.length with hpast | rfl | hlater
    · exact absurd (Or.inl hpast) hover
    · have hstart : v.link.client.proxy.isStart = true :=
        Bool.eq_true_of_not_eq_false fun hidle => hover (Or.inr ⟨rfl, hidle⟩)
      cases hinv with
      | unused hunused => simp [hunused] at hstart
      | ahead loc msg hahead =>
          rw [htaped.current_local, hahead.tape_given_eq_nil]
          exact List.nil_prefix
      | level pub loc trailing hlevel =>
          have hwaiting := (hparked hstart).waiting hlevel.starts
          have htrailing : trailing = [] := by
            rcases hlevel.requested with ⟨_, hnone⟩ | ⟨hone, _⟩
            · exact hnone
            · omega
          have hconserved := hlevel.down.conserved
          rw [htrailing, List.append_nil] at hconserved
          rw [htaped.current_local, hlevel.starts, htaped.current_public,
            (End.tape_of_peer hlevel.up.peer).1, (End.tape_of_peer hlevel.down.peer).2, hconserved]
          exact List.prefix_append _ _
    · have hnone := htaped.later .localConn .given session hlater
      rw [hnone]
      exact List.nil_prefix

/-- In every run of a tunnel each session relays both of its streams without loss,
reordering or bytes of another session, and all of them once it is over; when the
sessions are freed in order, not even a request can come behind the public bytes. -/
theorem sessions_relayed {events : List Event} {final : System}
    (hrun : run (CProxy.step cfg) System.init events = some final) :
    (∀ id session, Relayed (final.link id) (tape cfg events) id session) ∧
    (run (ownStep cfg) System.init events = some final →
      Takes (ownStep cfg) FreedInOrder System.init events →
      ∀ id session, bytesOf (tape cfg events) id .localConn .given session <+:
        bytesOf (tape cfg events) id .publicConn .taken session) := by
  have htaped := taped_run hrun
  constructor
  · intro id session
    exact Taped.relayed (htaped.taped id) (htaped.wellFormed.inv id) session
  · intro hown horder id session
    have hstep (s : System) (event : Event) (s' : System) (hparked : ParkedSystem cfg s)
        (hinorder : FreedInOrder s event) (hnext : ownStep cfg s event = some s') :
        ParkedSystem cfg s' := hparked.step hinorder hnext
    have hparked := run_invariant_of_takes hstep (parkedSystem_init cfg) horder hown
    exact Taped.toLocal_of_parked (htaped.taped id) (htaped.wellFormed.inv id)
      (hparked.parked id) session

/-- The public side asks and the local side answers. -/
def sampleExchange : List Event :=
  sampleStart ++ [.publicRead sampleId [71, 69, 84], .clientProxyRead sampleId 3 1,
    .localRead sampleId [79, 75], .serverProxyRead sampleId 2]

theorem sampleAfter_eq_some (events : List Event)
    (hrun : (run (CProxy.step sampleConfig) System.init events).isSome = true) :
    run (CProxy.step sampleConfig) System.init events = some (sampleAfter events) :=
  sampleAfter_run [] events hrun

/-- The first session ends, and the second is relayed on the same proxy connection. -/
def sampleSessions : List Event :=
  sampleExchange ++ sampleFinish ++ [.newPublicConn 7, .clientProxyRead sampleId 1 12,
    .serverProxyRead sampleId 1, .publicRead sampleId [72, 73], .clientProxyRead sampleId 2 1,
    .localRead sampleId [33], .serverProxyRead sampleId 1]

/-- The server takes what is about the sample connection, with nothing on its way to the
client. -/
def SampleQuiet (s : System) : Event → Prop
  | .serverProxyRead id _ => id = sampleId ∧ (s.link sampleId).toClient = [] ∧ s.ctlToClient = []
  | .serverCtlRead =>
      (s.ctlToServer.head?.bind (CtlMsg.toNotice sampleId)).isSome = true ∧
        (s.link sampleId).toClient = [] ∧ s.ctlToClient = []
  | _ => True

instance (s : System) (event : Event) : Decidable (SampleQuiet s event) := by
  unfold SampleQuiet
  split <;> infer_instance

theorem freedInOrder_of_sampleQuiet {s : System} {event : Event} (hquiet : SampleQuiet s event) :
    FreedInOrder s event := by
  cases event with
  | serverProxyRead other count =>
      obtain ⟨rfl, htoClient, hctl⟩ := hquiet
      intro id
      simp only [Event.about]
      split
      · next hid => exact inOrder_of_quiet (hid ▸ htoClient) (by simp [System.view, hctl])
      · exact False.elim
  | serverCtlRead =>
      obtain ⟨hnotice, htoClient, hctl⟩ := hquiet
      intro id
      by_cases hid : id = sampleId
      · exact inOrder_of_quiet (hid ▸ htoClient) (by simp [System.view, hctl])
      · -- what is read is about the sample connection and about no other
        obtain ⟨notice, hnotice⟩ := Option.isSome_iff_exists.mp hnotice
        obtain ⟨msg, hmsg, habout⟩ := Option.bind_eq_some_iff.mp hnotice
        simp only [Event.about, hmsg, Option.bind_some, toNotice_of_ne habout hid]
        exact False.elim
  | newPublicConn | newProxyConn | publicRead | clientCtlRead | clientProxyRead | localRead
  | strayFreeReq => exact freedInOrder_of_event (by simp) (by simp)

set_option maxRecDepth 10000 in
theorem sessions_relayed_sample :
    (∀ session, Relayed ((sampleAfter sampleSessions).link sampleId)
      (tape sampleConfig sampleSessions) sampleId session) ∧
    (∀ session, bytesOf (tape sampleConfig sampleSessions) sampleId .localConn .given session <+:
      bytesOf (tape sampleConfig sampleSessions) sampleId .publicConn .taken session) ∧
    [1, 2].map (bytesOf (tape sampleConfig sampleSessions) sampleId .localConn .given) =
      [[71, 69, 84], [72, 73]] ∧
    [1, 2].map (bytesOf (tape sampleConfig sampleSessions) sampleId .publicConn .given) =
      [[79, 75], [33]] := by
  have hrelayed := sessions_relayed (sampleAfter_eq_some sampleSessions (by decide))
  have hown : run (ownStep sampleConfig) System.init sampleSessions =
      some (sampleAfter sampleSessions) := by
    obtain ⟨final, hfinal⟩ := Option.isSome_iff_exists.mp
      (show (run (ownStep sampleConfig) System.init sampleSessions).isSome = true by decide)
    rw [hfinal, ← (run_of_ownRun hfinal).1]
    exact sampleAfter_eq_some sampleSessions (by decide)
  have hquiet : Takes (ownStep sampleConfig) SampleQuiet System.init sampleSessions := by
    decide +kernel
  exact ⟨hrelayed.1 sampleId, hrelayed.2 hown (hquiet.mono fun _ _ => freedInOrder_of_sampleQuiet)
    sampleId, by decide, by decide⟩

/-! ## One public connection -/

/-- The bytes moved one way at a public descriptor, whatever the session. -/
def bytesAt (trace : List Splice) (fd : Fd) (way : Way) : List UInt8 :=
  (trace.filter fun splice => splice.edge = .publicConn ∧ splice.fd = some fd ∧
    splice.way = way).flatMap Splice.bytes

/-- The session that a public descriptor has been shown in is the only one. -/
theorem bytesAt_eq {final : System} (htaped : TapedSystem cfg final trace)
    (hunshared : Unshared final) {splice : Splice} (hmem : splice ∈ trace)
    (hedge : splice.edge = .publicConn) {fd : Fd} (hfd : splice.fd = some fd) :
    1 ≤ splice.session ∧ (final.link splice.id).server.starts[splice.session - 1]? = some fd ∧
      ∀ way, bytesAt trace fd way = bytesOf trace splice.id .publicConn way splice.session := by
  have hplace (other : Splice) (hother : other ∈ trace) (hpublic : other.edge = .publicConn)
      (hsame : other.fd = some fd) : 1 ≤ other.session ∧
        Holds final (.bound other.id (other.session - 1)) fd := by
    obtain ⟨hfirst, -, hstart⟩ := (htaped.taped other.id).descriptors other hother rfl
    rw [hpublic, hsame] at hstart
    exact ⟨hfirst, hstart.symm⟩
  obtain ⟨hfirst, hbound⟩ := hplace splice hmem hedge hfd
  refine ⟨hfirst, hbound, fun way => ?_⟩
  unfold bytesAt bytesOf
  congr 1
  apply List.filter_congr
  intro other hother
  rw [decide_eq_decide]
  constructor
  · rintro ⟨hpublic, hsame, hway⟩
    obtain ⟨hone, hheld⟩ := hplace other hother hpublic hsame
    have hequal := Place.bound.inj (hunshared.one _ _ fd hheld hbound)
    exact ⟨hequal.1, hpublic, hway, by omega⟩
  · rintro ⟨hid, hpublic, hway, hsession⟩
    refine ⟨hpublic, ?_, hway⟩
    have hother := ((htaped.taped other.id).descriptors other hother rfl).2.2
    rw [hpublic, hid, hsession] at hother
    exact hother.trans hbound

/-- Whatever is given to a public connection over a whole run comes from one local
connection, which is given nothing but what that public connection has sent: a public
descriptor has one session, and no session has the bytes of another one. -/
theorem public_streams_isolated {events : List Event} {final : System}
    (hrun : run (CProxy.step cfg) System.init events = some final) {splice : Splice}
    (hmem : splice ∈ tape cfg events) (hedge : splice.edge = .publicConn) {fd : Fd}
    (hfd : splice.fd = some fd) :
    (∀ other ∈ tape cfg events, other.edge = .publicConn → other.fd = some fd →
      other.id = splice.id ∧ other.session = splice.session) ∧
    bytesAt (tape cfg events) fd .given <+:
      bytesOf (tape cfg events) splice.id .localConn .taken splice.session ∧
    ∃ trailing, (final.link splice.id).Trailing splice.id trailing ∧
      bytesOf (tape cfg events) splice.id .localConn .given splice.session <+:
        bytesAt (tape cfg events) fd .taken ++ trailing := by
  have htaped := taped_run hrun
  have hunshared : Unshared final := (Reachable.matching ⟨events, hrun⟩).unshared
  obtain ⟨hfirst, hbound, hbytes⟩ := bytesAt_eq htaped hunshared hmem hedge hfd
  have hrelayed : Relayed (final.link splice.id) (tape cfg events) splice.id splice.session :=
    Taped.relayed (htaped.taped splice.id) (htaped.wellFormed.inv splice.id) splice.session
  refine ⟨?_, ?_, ?_⟩
  · intro other hother hpublic hsame
    obtain ⟨hone, hheld, -⟩ := bytesAt_eq htaped hunshared hother hpublic hsame
    have hequal := Place.bound.inj (hunshared.one (.bound other.id (other.session - 1))
      (.bound splice.id (splice.session - 1)) fd hheld hbound)
    exact ⟨hequal.1, by omega⟩
  · rw [hbytes]
    exact hrelayed.toPublic
  · rw [hbytes]
    exact hrelayed.toLocal

set_option maxRecDepth 10000 in
/-- The answer of the sample exchange on its way to the public connection. -/
theorem public_streams_isolated_sample :
    bytesAt (tape sampleConfig sampleExchange) 5 .given = [79, 75] ∧
    bytesAt (tape sampleConfig sampleExchange) 5 .given <+:
      bytesOf (tape sampleConfig sampleExchange) sampleId .localConn .taken 1 := by
  have hmem : ⟨sampleId, .publicConn, .given, 1, some 5, [79, 75]⟩ ∈
      tape sampleConfig sampleExchange := by decide
  have hisolated := public_streams_isolated
    (sampleAfter_eq_some sampleExchange (by decide)) hmem rfl rfl
  exact ⟨by decide, hisolated.2.1⟩

end CProxy
