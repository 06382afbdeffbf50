import CProxy.Foundation.Refine
import CProxy.Lib.Refusal
import CProxy.Tunnel.Pending
import CProxy.Tunnel.Sessions

/-! # Requests that wait in the out buffer

`reqStartProxy` copies its request into `out_buffer_` of the proxy connection, and
`handleWrite` moves it to the socket, in pieces and in its own time. The public
connections splice to the same socket without a look at that buffer.
-/

namespace CProxy

open Foundation Wire

/-- `toClient` of a link is what its socket has taken. `outBuffer` belongs to the server's
`ProxyConn`, which an `accept` makes. `refused` is history: the descriptors whose request
`SendMsg` has given up. -/
structure BufferedTunnel where
  base : System := System.init
  outBuffer : RandStr → Option Buffer := fun _ => none
  refused : List Fd := []

inductive BufferedEvent where
  | handler (event : Event)
  /-- A `write(2)` that takes something, in the loop that `handleWrite` calls. -/
  | write (id : RandStr) (count : Nat)

namespace BufferedTunnel

/-- `reqStartProxy` with `ProxyConn::SendMsg`, and the wait that follows it in
`newPublicConnHandler`. -/
def reqStartProxy (t : BufferedTunnel) (publicFd : Fd) (id : RandStr) : Option BufferedTunnel := do
  let buffer ← t.outBuffer id
  let proxyId := (t.base.link id).server.proxy.proxyId
  let req := ProxyCtlMsg.startProxyConnReq publicFd proxyId
  let msg := makeMsg req.type req.body
  let msgLen := uint32 msg.len
  let (writeNum, next) ← buffer.writeToBuffer msg.structBytes (int32 msgLen)
  let base := { t.base with
    waitForStartProxyConnMap := emplace t.base.waitForStartProxyConnMap proxyId id }
  let outBuffer := Function.update t.outBuffer id (some next)
  if writeNum ≠ msgLen then
    some { base := base, outBuffer := outBuffer, refused := t.refused ++ [publicFd] }
  else
    some { t with
      base := base.mapLink id fun link => { link with reqFd := some publicFd }
      outBuffer := outBuffer }

/-- One round of the accept loop of `Tunnel::newPublicConnHandler`. -/
def newPublicConnHandler (t : BufferedTunnel) (acceptFd : Fd) : Option BufferedTunnel :=
  let base := { t.base with accepted := t.base.accepted ++ [acceptFd] }
  match base.freeProxyConns.getLast? with
  | some id =>
      { t with base := { base with
        freeProxyConns := base.freeProxyConns.dropLast } }.reqStartProxy acceptFd id
  | none =>
      some { t with base := { base with
        undealPublicFds := base.undealPublicFds ++ [acceptFd]
        ctlToClient := base.ctlToClient ++ [.notifyClientNeedProxy] } }

/-- `WriteToSock` is not called, or its loop is left, once the buffer is empty. -/
def write (t : BufferedTunnel) (id : RandStr) (count : Nat) : Option BufferedTunnel := do
  let buffer ← t.outBuffer id
  let unread ← buffer.getUnreadSize
  if unread = 0 then some t
  else
    let writer := ({ buffer := buffer } : SockWriter).answer (.wrote count)
    some { t with
      base := t.base.mapLink id fun link => { link with
        toClient := link.toClient ++ writer.handed.map (·.getD 0) }
      outBuffer := Function.update t.outBuffer id (some writer.buffer) }

variable (cfg : Config)

def step (t : BufferedTunnel) : BufferedEvent → Option BufferedTunnel
  | .handler (.newPublicConn acceptFd) =>
      if Fresh t.base acceptFd then t.newPublicConnHandler acceptFd else none
  | .handler (.newProxyConn id acceptFd) => do
      let base ← CProxy.step cfg t.base (.newProxyConn id acceptFd)
      let buffer ← Buffer.new 1024 65536
      some { t with base := base, outBuffer := Function.update t.outBuffer id (some buffer) }
  | .handler event => (CProxy.step cfg t.base event).map fun base => { t with base := base }
  | .write id count => t.write id count

/-- What is moved to a socket from its out buffer is no byte of a session. -/
def splices (t : BufferedTunnel) : BufferedEvent → List Splice
  | .handler event => t.base.splices event
  | .write _ _ => []

end BufferedTunnel

/-! ## The bytes that are behind -/

/-- The bytes that a connection's out buffer holds, with room for a message. -/
inductive Unsent : Option Buffer → List UInt8 → Prop
  | absent : Unsent none []
  | buffered {buffer : Buffer} {queue : BoundedQueue UInt8} (hrep : buffer.Represents queue)
      (hroom : 1024 ≤ queue.capacity) : Unsent (some buffer) queue.items

/-- `bytes` are the rest of the latest request on a connection that waits for the answer. -/
def System.RestOfRequest (s : System) (id : RandStr) (bytes : List UInt8) : Prop :=
  (s.view id).waiting = 1 ∧ ∃ publicFd, (s.link id).reqFd = some publicFd ∧
    bytes <:+ (ProxyCtlMsg.startProxyConnReq publicFd id.chars).wire

/-- The buffered tunnel is in the state of the tunnel `s` but for the bytes `pending`. -/
structure Lags (cfg : Config) (t : BufferedTunnel) (s : System)
    (pending : RandStr → List UInt8) : Prop where
  reachable : Reachable cfg s
  base : t.base.withPending pending = s
  unsent : ∀ id, Unsent (t.outBuffer id) (pending id)
  made : ∀ id, (s.link id).accepted = true → (t.outBuffer id).isSome
  requested : ∀ id, pending id ≠ [] → s.RestOfRequest id (pending id)
  refused : t.refused = []

/-- What a server relies on that leaves its requests to `out_buffer_`. -/
structure RequestsSent (cfg : Config) (t : BufferedTunnel) (s : System) : Prop where
  refused : t.refused = []
  /-- No handler is stopped by a buffer. -/
  defined : ∀ event, (CProxy.step cfg t.base event).isSome →
    (t.step cfg (.handler event)).isSome
  /-- What an open public connection splices to the socket comes behind every request. -/
  inOrder : ∀ id conn buffer, (t.base.link id).server.peer = some conn → conn.closing = false →
    t.outBuffer id = some buffer → buffer.getUnreadSize = some 0
  /-- As many writes as there are unsent bytes bring the connection to where the tunnel has it. -/
  delivered : ∀ (id : RandStr) (buffer : Buffer) (unread : Nat) (counts : List Nat),
    t.outBuffer id = some buffer → buffer.getUnreadSize = some unread → unread ≤ counts.length →
      ∃ t', run (BufferedTunnel.step cfg) t (counts.map (.write id)) = some t' ∧
        t'.base.link id = s.link id

variable {cfg : Config} {t t' : BufferedTunnel} {s s' : System} {id : RandStr} {event : Event}
variable {pending : RandStr → List UInt8} {buffer : Option Buffer} {bytes : List UInt8}

/-! ### One buffer -/

theorem unsent_new : ∃ fresh, Buffer.new 1024 65536 = some fresh ∧ Unsent (some fresh) [] := by
  obtain ⟨fresh, hnew, hrep⟩ := @Buffer.represents_new 1024 65536 (by decide) (by decide)
  exact ⟨fresh, hnew, .buffered hrep (Nat.le_refl 1024)⟩

/-- An empty buffer takes a message whole. -/
theorem Unsent.sendMsg {buffer : Buffer} (hunsent : Unsent (some buffer) []) (type : Nat)
    {body : List UInt8} (hbody : body.length ≤ 1016) :
    ∃ next, buffer.writeToBuffer (makeMsg type body).structBytes
        (int32 (uint32 (makeMsg type body).len)) = some (uint32 (makeMsg type body).len, next) ∧
      Unsent (some next) (makeMsg type body).wire := by
  have hsmall : body.length ≤ maxMsgLen := hbody.trans (by decide)
  obtain ⟨hlen, hint⟩ := Buffer.int32_uint32_makeMsg type hsmall
  have hdata : (8 + body.length : Int) ≤ (makeMsg type body).structBytes.length := by
    rw [Buffer.structBytes_makeMsg_length type hsmall]
    unfold msgSize maxMsgLen
    omega
  rw [hint, hlen]
  generalize hnone : ([] : List UInt8) = items at hunsent
  cases hunsent with
  | @buffered _ queue hrep hroom =>
      rcases hrep.writeToBuffer (show (0 : Int) < 8 + body.length by omega) (by omega) hdata with
        ⟨-, hfull, -⟩ | ⟨next, written, hwrite, hwritten, hitems, hgrown, -⟩
      · rw [← hnone, List.length_nil] at hfull
        omega
      · have hcount : (8 + body.length : Int).toNat = (makeMsg type body).len := by
          simp only [makeMsg]
          omega
        rw [hcount] at hwrite hitems
        refine ⟨next, hwrite, ?_⟩
        have hbytes : written.items = (makeMsg type body).wire := by
          rw [hitems, ← hnone, List.nil_append]
          rfl
        rw [← hbytes]
        exact .buffered hwritten (hroom.trans hgrown)

theorem Unsent.getUnreadSize {buffer : Buffer} (hunsent : Unsent (some buffer) bytes) :
    buffer.getUnreadSize = some bytes.length := by
  cases hunsent with
  | buffered hrep hroom => exact hrep.getUnreadSize

/-- A `write(2)` takes some of the bytes, oldest first. -/
theorem Unsent.write {buffer : Buffer} (hunsent : Unsent (some buffer) bytes) (hne : bytes ≠ [])
    (count : Nat) {writer : SockWriter}
    (hwriter : ({ buffer := buffer } : SockWriter).answer (.wrote count) = writer) :
    ∃ rest, Unsent (some writer.buffer) rest ∧
      bytes = writer.handed.map (·.getD 0) ++ rest ∧ rest.length < bytes.length := by
  cases hunsent with
  | @buffered _ queue hrep hroom =>
      obtain ⟨rest, hrest, hcapacity, hsplit, hless⟩ :=
        SockWriter.exists_rest_of_wrote hrep hne hwriter
      exact ⟨rest.items, .buffered hrest (hcapacity ▸ hroom), hsplit, hless⟩

theorem unsent_update {outBuffer : RandStr → Option Buffer}
    (hunsent : ∀ id, Unsent (outBuffer id) (pending id)) {next : Buffer}
    (hnext : Unsent (some next) bytes) (id other : RandStr) :
    Unsent (Function.update outBuffer id (some next) other)
      (Function.update pending id bytes other) := by
  by_cases hother : other = id
  · subst hother
    rw [Function.update_self, Function.update_self]
    exact hnext
  · rw [Function.update_of_ne hother, Function.update_of_ne hother]
    exact hunsent other

theorem made_update {outBuffer : RandStr → Option Buffer} {other : RandStr} (next : Buffer)
    (hmade : other ≠ id → (outBuffer other).isSome) :
    (Function.update outBuffer id (some next) other).isSome := by
  by_cases hother : other = id
  · subst hother
    rw [Function.update_self]
    rfl
  · rw [Function.update_of_ne hother]
    exact hmade hother

/-! ### A connection that waits for its answer -/

theorem View.freeProxyConn_waiting (v : View) : v.freeProxyConn.waiting = v.waiting := by
  unfold View.freeProxyConn
  split <;> rfl

theorem View.shutdownPublicConn_waiting (v : View) : v.shutdownPublicConn.waiting = v.waiting := by
  unfold View.shutdownPublicConn
  dsimp only
  split
  · exact View.freeProxyConn_waiting _
  · rfl

theorem View.shutdonwLocalConn_waiting (v : View) : v.shutdonwLocalConn.waiting = v.waiting := by
  unfold View.shutdonwLocalConn
  dsimp only
  split <;> rfl

/-- As long as the request is under way there is no answer to it. -/
theorem LinkStep.still_waiting {v v' : View} {event : LinkEvent}
    (hstep : LinkStep cfg id v event v') (hinv : LinkInv cfg id v) (hwaiting : v.waiting = 1)
    (hflight : v.link.toClient ≠ []) (hrequest : ∀ fd, event ≠ .request fd) :
    v'.waiting = 1 ∧ v'.link.reqFd = v.link.reqFd := by
  cases hstep with
  | stay | reclosedAtServer | reclosedAtClient | connect | accept | relayAtServer
  | startAtClient | relayAtClient | closeAtClient =>
      exact ⟨hwaiting, rfl⟩
  | request publicFd => exact absurd rfl (hrequest publicFd)
  | claim count publicFd rest haccepted hclaimed =>
      rw [hinv.waiting_of_unclaimed hclaimed] at hwaiting
      cases hwaiting
  | bind count publicFd rest _ hclaimed hstart hreq hframe =>
      cases hinv with
      | unused hunused => simp [hunused] at hwaiting
      | ahead loc msg hahead => exact absurd hahead.toClient_eq_nil hflight
      | level pub loc trailing hlevel =>
          rw [(hlevel.resting_of_waiting hwaiting).flight] at hframe
          exact absurd (List.append_eq_nil_iff.mp hframe.symm).1 (ProxyCtlMsg.wire_ne_nil _)
  | forwardAtServer count =>
      rw [View.shutdownPublicConn_waiting, View.shutdownPublicConn_link]
      exact ⟨hwaiting, rfl⟩
  | closeAtServer conn =>
      unfold View.shutdownFromPublic
      split <;> exact ⟨hwaiting, rfl⟩
  | hearAtServer tranCount rest =>
      unfold View.handleShutdownPublicConn
      split
      · exact ⟨hwaiting, rfl⟩
      · rw [View.shutdownPublicConn_waiting, View.shutdownPublicConn_link]
        exact ⟨hwaiting, rfl⟩
  | freeAtServer rest =>
      rw [View.freeProxyConn_waiting, View.freeProxyConn_link]
      exact ⟨hwaiting, rfl⟩
  | strayFreeReq =>
      rw [View.freeProxyConn_waiting, View.freeProxyConn_link]
      exact ⟨hwaiting, rfl⟩
  | hearAtClient tranCount rest =>
      unfold View.handleShutdownLocalConn
      rw [View.shutdonwLocalConn_waiting, View.shutdonwLocalConn_link]
      exact ⟨hwaiting, rfl⟩
  | forwardAtClient count localFd =>
      rw [View.shutdonwLocalConn_waiting, View.shutdonwLocalConn_link]
      exact ⟨hwaiting, rfl⟩

theorem LinkStep.asked {v v' : View} {publicFd : Fd}
    (hstep : LinkStep cfg id v (.request publicFd) v') :
    v'.waiting = 1 ∧ v'.link.reqFd = some publicFd := by
  cases hstep with
  | request => exact ⟨rfl, rfl⟩

/-- The public connection of a connection that waits has ended. -/
theorem LinkInv.closing_of_waiting {v : View} (hinv : LinkInv cfg id v) (hwaiting : v.waiting = 1)
    {conn : EdgeConn} (hpeer : v.link.server.peer = some conn) : conn.closing = true := by
  cases hinv with
  | unused hunused => simp [hunused] at hwaiting
  | ahead loc msg hahead => exact hahead.publicClosed conn hpeer
  | level pub loc trailing hlevel =>
      obtain rfl : pub = conn := Option.some.inj (hlevel.up.peer.symm.trans hpeer)
      exact (hlevel.resting_of_waiting hwaiting).closing

theorem LinkInv.accepted_of_waiting {v : View} (hinv : LinkInv cfg id v)
    (hwaiting : v.waiting = 1) : v.link.accepted = true := by
  cases hinv with
  | unused hunused => simp [hunused] at hwaiting
  | ahead loc msg hahead =>
      cases hahead.origin with
      | fresh _ _ hnone => omega
      | reused publicFd hfd haccepted => exact haccepted
  | level pub loc trailing hlevel => exact hlevel.accepted

/-- A free connection does not wait, and is known by its own name. -/
theorem LinkInv.of_free {v : View} (hinv : LinkInv cfg id v) (hfree : 0 < v.free) :
    v.waiting = 0 ∧ v.link.server.proxy.proxyId = id.chars ∧ v.link.accepted = true := by
  obtain ⟨pub, loc, trailing, hlevel⟩ := hinv.level_of_home (Nat.add_pos_right _ hfree)
  have hhome := hlevel.home
  exact ⟨by omega, hlevel.serverName, hlevel.accepted⟩

/-- A server's end is made by an accept only. -/
theorem LinkStep.accepted_of {v v' : View} {event : LinkEvent} (hstep : LinkStep cfg id v event v')
    (haccept : ∀ fd, event ≠ .accept fd) (haccepted : v'.link.accepted = true) :
    v.link.accepted = true := by
  cases hstep with
  | stay | reclosedAtServer | reclosedAtClient | connect | request | claim | bind
  | startAtClient | relayAtServer | relayAtClient | closeAtClient =>
      exact haccepted
  | accept acceptFd => exact absurd rfl (haccept acceptFd)
  | forwardAtServer count => simpa [Link.forwardAtServer] using haccepted
  | closeAtServer conn =>
      unfold View.shutdownFromPublic at haccepted
      split at haccepted <;> exact haccepted
  | hearAtServer tranCount rest =>
      unfold View.handleShutdownPublicConn at haccepted
      split at haccepted
      · exact haccepted
      · simpa [Link.mapServer] using haccepted
  | freeAtServer rest => simpa using haccepted
  | strayFreeReq => simpa using haccepted
  | hearAtClient tranCount rest =>
      simpa [View.handleShutdownLocalConn, Link.mapClient] using haccepted
  | forwardAtClient count localFd => simpa [Link.forwardAtClient] using haccepted

theorem about_ne_accept {s : System} {event : Event}
    (hevent : ∀ id fd, event ≠ .newProxyConn id fd) (id : RandStr) (fd : Fd) :
    event.about s id ≠ .accept fd := by
  cases event with
  | newProxyConn other acceptFd => exact absurd rfl (hevent other acceptFd)
  | newPublicConn | serverProxyRead other | publicRead other | clientProxyRead other
  | localRead other | strayFreeReq other =>
      simp only [Event.about]
      split <;> simp
  | serverCtlRead =>
      simp only [Event.about]
      split <;> simp
  | clientCtlRead other proxyFd localFd =>
      simp only [Event.about]
      split
      · split <;> simp
      · split <;> simp
      · simp

theorem newPublicConn_ne_accept {s : System} {acceptFd : Fd} (id : RandStr) (fd : Fd) :
    (Event.newPublicConn acceptFd).about s id ≠ .accept fd := by
  apply about_ne_accept
  intro other otherFd hsame
  cases hsame

/-! ## The two levels -/

namespace Lags

theorem wellFormed (hlags : Lags cfg t s pending) : WellFormed cfg s := hlags.reachable.wellFormed

/-- Behind the bytes that the socket of an open public connection's session has taken
there are no others. -/
theorem pending_eq_nil (hlags : Lags cfg t s pending) {conn : EdgeConn}
    (hpeer : (s.link id).server.peer = some conn) (hopen : conn.closing = false) :
    pending id = [] := by
  by_contra hne
  obtain ⟨hwaiting, -⟩ := hlags.requested id hne
  rw [(hlags.wellFormed.inv id).closing_of_waiting hwaiting hpeer] at hopen
  cases hopen

theorem pending_eq_nil_of_free (hlags : Lags cfg t s pending) (hfree : 0 < (s.view id).free) :
    pending id = [] := by
  by_contra hne
  obtain ⟨hwaiting, -⟩ := hlags.requested id hne
  have hnot := ((hlags.wellFormed.inv id).of_free hfree).1
  omega

/-- What is unsent of a request is so until the connection is asked again. -/
theorem still_requested (hlags : Lags cfg t s pending) (hstep : CProxy.step cfg s event = some s')
    (hrequest : ∀ fd, event.about s id ≠ .request fd) (hne : pending id ≠ []) :
    s'.RestOfRequest id (pending id) := by
  obtain ⟨hwaiting, publicFd, hreq, hpart⟩ := hlags.requested id hne
  have hflight : (s.view id).link.toClient ≠ [] := by
    rw [← hlags.base]
    exact fun hnil => hne (List.append_eq_nil_iff.mp hnil).2
  have hlink := (step_simulated hlags.wellFormed hstep).links id
  obtain ⟨hstill, hsame⟩ := hlink.still_waiting (hlags.wellFormed.inv id) hwaiting hflight hrequest
  exact ⟨hstill, publicFd, hsame.trans hreq, hpart⟩

/-- Only an accept makes a server's end, and a buffer with it. -/
theorem made_of_step (hlags : Lags cfg t s pending) (hstep : CProxy.step cfg s event = some s')
    (haccept : ∀ fd, event.about s id ≠ .accept fd) (haccepted : (s'.link id).accepted = true) :
    (t.outBuffer id).isSome :=
  hlags.made id (((step_simulated hlags.wellFormed hstep).links id).accepted_of haccept haccepted)

/-- A step of the tunnel that makes no request leaves what is unsent. -/
theorem next (hlags : Lags cfg t s pending) {base : System}
    (hstep : CProxy.step cfg s event = some (base.withPending pending))
    (hrequest : ∀ id fd, event.about s id ≠ .request fd) {outBuffer : RandStr → Option Buffer}
    (hunsent : ∀ id, Unsent (outBuffer id) (pending id))
    (hmade : ∀ id, (base.link id).accepted = true → (outBuffer id).isSome) :
    Lags cfg { t with base := base, outBuffer := outBuffer } (base.withPending pending)
      pending where
  reachable := hlags.reachable.step hstep
  base := rfl
  unsent := hunsent
  made := hmade
  requested := fun id hne => hlags.still_requested hstep (hrequest id) hne
  refused := hlags.refused

end Lags

/-- A splice that a run has made takes bytes that the socket has. -/
theorem withPending_splices (hstep : step cfg s event = some s') :
    (s.withPending pending).splices event = s.splices event := by
  cases event with
  | newPublicConn | newProxyConn | serverProxyRead | publicRead | serverCtlRead | clientCtlRead
  | localRead | strayFreeReq => rfl
  | clientProxyRead id count localFd =>
      by_cases hstart : (s.link id).client.proxy.isStart = true
      · obtain ⟨-, hread⟩ := Option.ite_none_right_eq_some.mp hstep
        obtain ⟨-, hread⟩ := Option.ite_none_left_eq_some.mp hread
        rw [if_pos hstart] at hread
        obtain ⟨hthere, -⟩ := Option.ite_none_left_eq_some.mp hread
        obtain ⟨-, hcount⟩ := not_or.mp hthere
        simp only [System.splices, Link.splices, withPending_link, Link.withPending,
          List.take_append_of_le_length (Nat.le_of_not_lt hcount)]
        rfl
      · exact (if_neg hstart).trans (if_neg hstart).symm

/-! ### One step -/

/-- `id` has been asked to serve `publicFd` and waits for the answer. -/
def System.asked (s : System) (publicFd : Fd) (id : RandStr) : System :=
  { s with
    accepted := s.accepted ++ [publicFd]
    freeProxyConns := s.freeProxyConns.dropLast
    waitForStartProxyConnMap := emplace s.waitForStartProxyConnMap id.chars id }.mapLink id
      fun link => { link with reqFd := some publicFd }

/-- `SendMsg` takes the message whole. -/
theorem BufferedTunnel.reqStartProxy_eq {publicFd : Fd} {buffer next : Buffer}
    {req : ProxyCtlMsg} {msg : Msg} {msgLen : Nat}
    (hname : (t.base.link id).server.proxy.proxyId = id.chars)
    (hreq : ProxyCtlMsg.startProxyConnReq publicFd id.chars = req)
    (hmsg : makeMsg req.type req.body = msg) (hmsgLen : uint32 msg.len = msgLen)
    (hbuffer : t.outBuffer id = some buffer)
    (hwrite : buffer.writeToBuffer msg.structBytes (int32 msgLen) = some (msgLen, next)) :
    t.reqStartProxy publicFd id = some { t with
      base := { t.base with
        waitForStartProxyConnMap := emplace t.base.waitForStartProxyConnMap id.chars id }.mapLink
          id fun link => { link with reqFd := some publicFd }
      outBuffer := Function.update t.outBuffer id (some next) } := by
  unfold reqStartProxy
  rw [hbuffer, Option.bind_eq_bind, Option.bind_some, hname]
  dsimp only
  rw [hreq, hmsg, hmsgLen, hwrite, Option.bind_eq_bind, Option.bind_some]
  exact if_neg (not_not.mpr rfl)

/-- A request that is made on an empty buffer waits there whole. -/
theorem BufferedTunnel.newPublicConnHandler_eq (hlast : t.base.freeProxyConns.getLast? = some id)
    {buffer : Buffer} (hbuffer : t.outBuffer id = some buffer)
    (hunsent : Unsent (some buffer) [])
    (hname : (t.base.link id).server.proxy.proxyId = id.chars) (acceptFd : Fd) :
    ∃ next, Unsent (some next) (ProxyCtlMsg.startProxyConnReq acceptFd id.chars).wire ∧
      t.newPublicConnHandler acceptFd = some { t with
        base := t.base.asked acceptFd id
        outBuffer := Function.update t.outBuffer id (some next) } := by
  have hbody : (ProxyCtlMsg.startProxyConnReq acceptFd id.chars).body.length ≤ 1016 := by
    rw [ProxyCtlMsg.body, ProxyCtlMsg.startBody_length]
    decide
  obtain ⟨next, hwrite, hnext⟩ :=
    hunsent.sendMsg (ProxyCtlMsg.startProxyConnReq acceptFd id.chars).type hbody
  have hsent := @reqStartProxy_eq { t with base := { t.base with
      accepted := t.base.accepted ++ [acceptFd]
      freeProxyConns := t.base.freeProxyConns.dropLast } } id acceptFd buffer next _ _ _
    hname rfl rfl rfl hbuffer hwrite
  refine ⟨next, hnext, ?_⟩
  simp only [newPublicConnHandler, hlast]
  exact hsent

/-- The tunnel sends the whole request at once. -/
theorem newPublicConnHandler_asked {base : System}
    (hlast : base.freeProxyConns.getLast? = some id)
    (hname : (base.link id).server.proxy.proxyId = id.chars) (hnone : pending id = [])
    (acceptFd : Fd) :
    Server.newPublicConnHandler (base.withPending pending) acceptFd =
      (base.asked acceptFd id).withPending (Function.update pending id
        (ProxyCtlMsg.startProxyConnReq acceptFd id.chars).wire) := by
  have hrequest : ((base.link id).withPending (pending id)).request acceptFd =
      ({ base.link id with reqFd := some acceptFd } : Link).withPending
        (ProxyCtlMsg.startProxyConnReq acceptFd id.chars).wire := by
    simp only [Link.request, Link.withPending, hname, hnone, List.append_nil]
  have hsent := @mapLink_withPending_update { base with
      accepted := base.accepted ++ [acceptFd]
      freeProxyConns := base.freeProxyConns.dropLast } id pending
    (fun link => { link with reqFd := some acceptFd }) (fun link => link.request acceptFd)
    (ProxyCtlMsg.startProxyConnReq acceptFd id.chars).wire hrequest
  have hhandler : Server.newPublicConnHandler (base.withPending pending) acceptFd =
      Server.reqStartProxy ({ base with
        accepted := base.accepted ++ [acceptFd]
        freeProxyConns := base.freeProxyConns.dropLast }.withPending pending) acceptFd id := by
    simp only [Server.newPublicConnHandler, withPending_freeProxyConns, hlast]
    rfl
  rw [hhandler, Server.reqStartProxy, hsent, withPending_link, Link.withPending_server]
  simp only [System.mapLink, Function.update_self, hname]
  rfl

/-- A handler of the buffered tunnel runs when that of the tunnel does. -/
theorem BufferedTunnel.base_of_step (hstep : t.step cfg (.handler event) = some t') :
    ∃ base, CProxy.step cfg t.base event = some base := by
  cases event with
  | newPublicConn acceptFd =>
      obtain ⟨hfresh, -⟩ := Option.ite_none_right_eq_some.mp hstep
      exact ⟨_, if_pos hfresh⟩
  | newProxyConn id acceptFd =>
      obtain ⟨base, hbase, -⟩ := Option.bind_eq_some_iff.mp hstep
      exact ⟨base, hbase⟩
  | serverProxyRead | publicRead | serverCtlRead | clientCtlRead | clientProxyRead | localRead =>
      obtain ⟨base, hbase, -⟩ := Option.map_eq_some_iff.mp hstep
      exact ⟨base, hbase⟩
  | strayFreeReq proxyId => exact ⟨_, rfl⟩

namespace Lags

/-- A handler that makes no request is the same step with what is unsent. -/
theorem handler (hlags : Lags cfg t s pending) (hevent : ∀ fd, event ≠ .newPublicConn fd)
    {base : System} (hbase : CProxy.step cfg t.base event = some base) :
    CProxy.step cfg s event = some (base.withPending pending) ∧
      ∃ t', t.step cfg (.handler event) = some t' ∧
        Lags cfg t' (base.withPending pending) pending := by
  have hs := hlags.base
  subst hs
  have hstep : CProxy.step cfg (t.base.withPending pending) event =
      some (base.withPending pending) := by
    refine step_withPending (fun fd hsame => absurd hsame (hevent fd)) ?_ hbase
    exact fun id bytes _ conn hpeer hopen => hlags.pending_eq_nil hpeer hopen
  have hrequest := about_ne_request (s := t.base.withPending pending) hevent
  refine ⟨hstep, ?_⟩
  by_cases hnew : ∃ id fd, event = .newProxyConn id fd
  · obtain ⟨id, fd, rfl⟩ := hnew
    obtain ⟨fresh, hfresh, hempty⟩ := unsent_new
    refine ⟨{ t with base := base, outBuffer := Function.update t.outBuffer id (some fresh) },
      ?_, ?_⟩
    · rw [BufferedTunnel.step, hbase, hfresh]
      rfl
    · have hnone : pending id = [] := by
        by_contra hne
        have haccepted := (hlags.wellFormed.inv id).accepted_of_waiting (hlags.requested id hne).1
        have hnot := (Option.ite_none_right_eq_some.mp hstep).1.2.2
        exact absurd (hnot.symm.trans haccepted) Bool.false_ne_true
      refine hlags.next hstep hrequest ?_ ?_
      · intro other
        have hunsent := unsent_update hlags.unsent hempty id other
        rwa [← hnone, Function.update_eq_self] at hunsent
      · intro other haccepted
        refine made_update fresh fun hother => hlags.made_of_step hstep ?_ haccepted
        intro acceptFd habout
        rw [Event.about, if_neg (Ne.symm hother)] at habout
        cases habout
  · have hnever (id : RandStr) (fd : Fd) : event ≠ .newProxyConn id fd :=
      fun hsame => hnew ⟨id, fd, hsame⟩
    refine ⟨{ t with base := base }, ?_, ?_⟩
    · cases event with
      | newPublicConn fd => exact absurd rfl (hevent fd)
      | newProxyConn id fd => exact absurd rfl (hnever id fd)
      | serverProxyRead | publicRead | serverCtlRead | clientCtlRead | clientProxyRead
      | localRead | strayFreeReq =>
          simp only [BufferedTunnel.step, hbase, Option.map_some]
    · refine hlags.next hstep hrequest hlags.unsent ?_
      exact fun id haccepted => hlags.made_of_step hstep (about_ne_accept hnever id) haccepted

/-- With no free connection the descriptor waits for a new one. -/
theorem newPublicConn_of_none (hlags : Lags cfg t s pending) {acceptFd : Fd}
    (hfresh : Fresh t.base acceptFd) (hlast : t.base.freeProxyConns.getLast? = none) :
    ∃ s' t' later, CProxy.step cfg s (.newPublicConn acceptFd) = some s' ∧
      t.step cfg (.handler (.newPublicConn acceptFd)) = some t' ∧ Lags cfg t' s' later := by
  have hs := hlags.base
  subst hs
  have hstep : CProxy.step cfg (t.base.withPending pending) (.newPublicConn acceptFd) =
      some ((Server.newPublicConnHandler t.base acceptFd).withPending pending) := by
    rw [← Server.newPublicConnHandler_withPending acceptFd (List.getLast?_eq_none_iff.mp hlast)]
    exact if_pos hfresh
  refine ⟨_, { t with base := Server.newPublicConnHandler t.base acceptFd }, pending, hstep, ?_, ?_⟩
  · rw [BufferedTunnel.step, if_pos hfresh, BufferedTunnel.newPublicConnHandler,
      Server.newPublicConnHandler]
    simp only [hlast]
  · refine hlags.next hstep ?_ hlags.unsent ?_
    · intro id fd habout
      simp only [Event.about, withPending_freeProxyConns, hlast] at habout
      cases habout
    · exact fun id haccepted => hlags.made_of_step hstep (newPublicConn_ne_accept id) haccepted

/-- The request of a free connection finds the buffer empty, so that it is not refused. -/
theorem newPublicConn_of_some (hlags : Lags cfg t s pending) {acceptFd : Fd}
    (hfresh : Fresh t.base acceptFd) (hlast : t.base.freeProxyConns.getLast? = some id) :
    ∃ s' t' later, CProxy.step cfg s (.newPublicConn acceptFd) = some s' ∧
      t.step cfg (.handler (.newPublicConn acceptFd)) = some t' ∧ Lags cfg t' s' later := by
  have hs := hlags.base
  subst hs
  have habout (other : RandStr) : (Event.newPublicConn acceptFd).about
      (t.base.withPending pending) other = if id = other then .request acceptFd else .stay := by
    simp only [Event.about, withPending_freeProxyConns, hlast, Option.some.injEq]
  have hfree : 0 < ((t.base.withPending pending).view id).free :=
    List.count_pos_iff.mpr (List.mem_of_getLast? hlast)
  obtain ⟨-, hname, haccepted⟩ := (hlags.wellFormed.inv id).of_free hfree
  have hnone := hlags.pending_eq_nil_of_free hfree
  obtain ⟨buffer, hbuffer⟩ := Option.isSome_iff_exists.mp (hlags.made id haccepted)
  have hunsent := hlags.unsent id
  rw [hbuffer, hnone] at hunsent
  obtain ⟨next, hnext, hhandler⟩ :=
    BufferedTunnel.newPublicConnHandler_eq hlast hbuffer hunsent hname acceptFd
  have hstep : CProxy.step cfg (t.base.withPending pending) (.newPublicConn acceptFd) =
      some ((t.base.asked acceptFd id).withPending (Function.update pending id
        (ProxyCtlMsg.startProxyConnReq acceptFd id.chars).wire)) := by
    rw [← newPublicConnHandler_asked hlast hname hnone acceptFd]
    exact if_pos hfresh
  refine ⟨_, _, Function.update pending id
    (ProxyCtlMsg.startProxyConnReq acceptFd id.chars).wire, hstep,
    (if_pos hfresh).trans hhandler, ?_⟩
  exact {
    reachable := hlags.reachable.step hstep
    base := rfl
    unsent := unsent_update hlags.unsent hnext id
    made := fun other haccepted => made_update next fun _ =>
      hlags.made_of_step hstep (newPublicConn_ne_accept other) haccepted
    requested := by
      intro other hne
      by_cases hother : other = id
      · subst hother
        have hlink := (step_simulated hlags.wellFormed hstep).links other
        rw [habout, if_pos rfl] at hlink
        obtain ⟨hwaits, hreq⟩ := hlink.asked
        rw [Function.update_self]
        exact ⟨hwaits, acceptFd, hreq, List.suffix_rfl⟩
      · rw [Function.update_of_ne hother] at hne ⊢
        refine hlags.still_requested hstep ?_ hne
        intro fd hrequest
        rw [habout, if_neg (Ne.symm hother)] at hrequest
        cases hrequest
    refused := hlags.refused }

theorem newPublicConn (hlags : Lags cfg t s pending) {acceptFd : Fd} {base : System}
    (hbase : CProxy.step cfg t.base (.newPublicConn acceptFd) = some base) :
    ∃ s' t' later, CProxy.step cfg s (.newPublicConn acceptFd) = some s' ∧
      t.step cfg (.handler (.newPublicConn acceptFd)) = some t' ∧ Lags cfg t' s' later := by
  obtain ⟨hfresh, -⟩ := Option.ite_none_right_eq_some.mp hbase
  cases hlast : t.base.freeProxyConns.getLast? with
  | none => exact hlags.newPublicConn_of_none hfresh hlast
  | some id => exact hlags.newPublicConn_of_some hfresh hlast

/-- The bytes that a `write(2)` takes have been sent before, and some are taken. -/
theorem write (hlags : Lags cfg t s pending) (hmade : (t.outBuffer id).isSome) (count : Nat) :
    ∃ t' later, t.write id count = some t' ∧ Lags cfg t' s later ∧ (t'.outBuffer id).isSome ∧
      (later id).length ≤ (pending id).length - 1 := by
  obtain ⟨buffer, hbuffer⟩ := Option.isSome_iff_exists.mp hmade
  have hunsent := hlags.unsent id
  rw [hbuffer] at hunsent
  simp only [BufferedTunnel.write, hbuffer, hunsent.getUnreadSize, Option.bind_eq_bind,
    Option.bind_some]
  generalize hwriter : ({ buffer := buffer } : SockWriter).answer (.wrote count) = writer
  by_cases hnone : pending id = []
  · refine ⟨t, pending, if_pos (List.length_eq_zero_iff.mpr hnone), hlags, hmade, ?_⟩
    rw [hnone]
    exact Nat.le_refl 0
  · obtain ⟨rest, hafter, hsplit, hless⟩ := hunsent.write hnone count hwriter
    refine ⟨_, Function.update pending id rest,
      if_neg (mt List.length_eq_zero_iff.mp hnone), ?_, ?_, ?_⟩
    · exact {
        reachable := hlags.reachable
        base := (mapLink_withPending_taken hsplit).trans hlags.base
        unsent := unsent_update hlags.unsent hafter id
        made := fun other haccepted =>
          made_update writer.buffer fun _ => hlags.made other haccepted
        requested := by
          intro other hleft
          by_cases hother : other = id
          · subst hother
            obtain ⟨hwaiting, publicFd, hreq, hpart⟩ := hlags.requested other hnone
            rw [hsplit] at hpart
            rw [Function.update_self]
            exact ⟨hwaiting, publicFd, hreq, (List.suffix_append _ rest).trans hpart⟩
          · rw [Function.update_of_ne hother] at hleft ⊢
            exact hlags.requested other hleft
        refused := hlags.refused }
    · exact made_update writer.buffer fun hother => absurd rfl hother
    · rw [Function.update_self]
      exact Nat.le_sub_one_of_lt hless

/-- As many writes as there are bytes are enough, whatever each of them takes. -/
theorem writes (hlags : Lags cfg t s pending) (hmade : (t.outBuffer id).isSome)
    {counts : List Nat} (hcounts : (pending id).length ≤ counts.length) :
    ∃ t' later, run (BufferedTunnel.step cfg) t (counts.map (.write id)) = some t' ∧
      Lags cfg t' s later ∧ later id = [] := by
  induction counts generalizing t pending with
  | nil => exact ⟨t, pending, rfl, hlags, List.eq_nil_of_length_eq_zero (Nat.le_zero.mp hcounts)⟩
  | cons count rest ih =>
      obtain ⟨middle, left, hwrite, hmiddle, hstill, hless⟩ := hlags.write hmade count
      rw [List.length_cons] at hcounts
      obtain ⟨t', later, hrun, hlater⟩ := ih hmiddle hstill (by omega)
      exact ⟨t', later, (run_cons hwrite _).trans hrun, hlater⟩

/-- Every step of the buffered tunnel is one of the tunnel, or moves bytes that the
tunnel has sent already. -/
theorem step (hlags : Lags cfg t s pending) {event : BufferedEvent}
    (hstep : t.step cfg event = some t') :
    ∃ s' later, Matches (CProxy.step cfg) System.splices s (t.splices event) s' ∧
      Lags cfg t' s' later := by
  cases event with
  | write id count =>
      obtain ⟨buffer, hbuffer, -⟩ := Option.bind_eq_some_iff.mp hstep
      obtain ⟨next, later, hwrite, hlater, -⟩ :=
        hlags.write (Option.isSome_iff_exists.mpr ⟨buffer, hbuffer⟩) count
      obtain rfl := Option.some.inj (hwrite.symm.trans hstep)
      exact ⟨s, later, matches_refl s, hlater⟩
  | handler event =>
      obtain ⟨base, hbase⟩ := BufferedTunnel.base_of_step hstep
      have hshows : t.splices (.handler event) = s.splices event := by
        rw [← hlags.base, withPending_splices hbase]
        rfl
      rw [hshows]
      by_cases haccept : ∃ fd, event = .newPublicConn fd
      · obtain ⟨fd, rfl⟩ := haccept
        obtain ⟨s', next, later, hnext, hsame, hafter⟩ := hlags.newPublicConn hbase
        obtain rfl := Option.some.inj (hsame.symm.trans hstep)
        exact ⟨s', later, matches_of_step hnext, hafter⟩
      · obtain ⟨hnext, next, hsame, hafter⟩ :=
          hlags.handler (fun fd hevent => haccept ⟨fd, hevent⟩) hbase
        obtain rfl := Option.some.inj (hsame.symm.trans hstep)
        exact ⟨base.withPending pending, pending, matches_of_step hnext, hafter⟩

/-- No handler is stopped by its out buffer. -/
theorem step_isSome (hlags : Lags cfg t s pending)
    (hbase : (CProxy.step cfg t.base event).isSome) :
    (t.step cfg (.handler event)).isSome := by
  obtain ⟨base, hbase⟩ := Option.isSome_iff_exists.mp hbase
  by_cases haccept : ∃ fd, event = .newPublicConn fd
  · obtain ⟨fd, rfl⟩ := haccept
    obtain ⟨s', next, later, -, hstep, -⟩ := hlags.newPublicConn hbase
    rw [hstep]
    rfl
  · obtain ⟨-, next, hstep, -⟩ := hlags.handler (fun fd hevent => haccept ⟨fd, hevent⟩) hbase
    rw [hstep]
    rfl

theorem requestsSent (hlags : Lags cfg t s pending) : RequestsSent cfg t s where
  refused := hlags.refused
  defined := fun event hbase => hlags.step_isSome hbase
  inOrder := by
    intro id conn buffer hpeer hopen hbuffer
    have hunsent := hlags.unsent id
    have hopened : (s.link id).server.peer = some conn := by
      rw [← hlags.base]
      exact hpeer
    rw [hbuffer, hlags.pending_eq_nil hopened hopen] at hunsent
    exact hunsent.getUnreadSize
  delivered := by
    intro id buffer unread counts hbuffer hunread hcounts
    have hunsent := hlags.unsent id
    rw [hbuffer] at hunsent
    obtain rfl := Option.some.inj (hunsent.getUnreadSize.symm.trans hunread)
    obtain ⟨t', later, hrun, hlater, hnone⟩ :=
      hlags.writes (Option.isSome_iff_exists.mpr ⟨buffer, hbuffer⟩) hcounts
    refine ⟨t', hrun, ?_⟩
    rw [← hlater.base, withPending_link, hnone, Link.withPending_nil]

end Lags

/-! ## Runs -/

theorem lags_init : Lags cfg {} System.init fun _ => [] where
  reachable := ⟨[], rfl⟩
  base := by simp [System.withPending, System.init]
  unsent := fun _ => .absent
  made := fun _ haccepted => by cases haccepted
  requested := fun _ hne => absurd rfl hne
  refused := rfl

/-- A run of the buffered tunnel is a run of the tunnel. -/
theorem lags_run {events : List BufferedEvent} {final : BufferedTunnel}
    (hrun : run (BufferedTunnel.step cfg) {} events = some final) :
    ∃ s, Matches (CProxy.step cfg) System.splices System.init
        (observed (BufferedTunnel.step cfg) BufferedTunnel.splices {} events) s ∧
      ∃ pending, Lags cfg final s pending := by
  have hmatch (t : BufferedTunnel) (event : BufferedEvent) (t' : BufferedTunnel) (s : System)
      (hlags : ∃ pending, Lags cfg t s pending) (hstep : t.step cfg event = some t')
      (_ : True) : ∃ s', Matches (CProxy.step cfg) System.splices s (t.splices event) s' ∧
        ∃ later, Lags cfg t' s' later := by
    obtain ⟨pending, hlags⟩ := hlags
    obtain ⟨s', later, hmatches, hlater⟩ := hlags.step hstep
    exact ⟨s', hmatches, later, hlater⟩
  exact run_refines (fun _ _ _ _ _ => trivial) hmatch ⟨_, lags_init⟩ hrun trivial

/-- However slowly the sockets take the requests, the tunnel does what it does when it
sends them at once: it shows the same splices, and its sessions are relayed. -/
theorem buffered_requests_refine {events : List BufferedEvent} {final : BufferedTunnel}
    (hrun : run (BufferedTunnel.step cfg) {} events = some final) :
    ∃ handlers s pending, run (CProxy.step cfg) System.init handlers = some s ∧
      tape cfg handlers = observed (BufferedTunnel.step cfg) BufferedTunnel.splices {} events ∧
      Lags cfg final s pending ∧ RequestsSent cfg final s ∧
      ∀ id session, Relayed (final.base.link id)
        (observed (BufferedTunnel.step cfg) BufferedTunnel.splices {} events) id session := by
  obtain ⟨s, ⟨handlers, hhandlers, hshown⟩, pending, hlags⟩ := lags_run hrun
  refine ⟨handlers, s, pending, hhandlers, hshown, hlags, hlags.requestsSent, ?_⟩
  intro id session
  have htaped := taped_run hhandlers
  have hrelayed := (htaped.taped id).relayed (htaped.wellFormed.inv id) session
  rw [tape, hshown, ← hlags.base] at hrelayed
  exact { hrelayed with }

/-- The second public connection is asked for on the connection of the first one, and
the socket takes ten bytes of the request. -/
def sampleBufferedEvents : List BufferedEvent :=
  (sampleStart ++ sampleFinish ++ [Event.newPublicConn 7]).map .handler ++ [.write sampleId 10]

def sampleBuffered : BufferedTunnel :=
  (run (BufferedTunnel.step sampleConfig) {} sampleBufferedEvents).getD {}

theorem sampleBuffered_run :
    run (BufferedTunnel.step sampleConfig) {} sampleBufferedEvents = some sampleBuffered := by
  have hrun : (run (BufferedTunnel.step sampleConfig) {} sampleBufferedEvents).isSome = true := by
    decide +kernel
  obtain ⟨final, hfinal⟩ := Option.isSome_iff_exists.mp hrun
  rw [sampleBuffered, hfinal, Option.getD_some]

theorem buffered_requests_refine_sample :
    (sampleBuffered.base.link sampleId).toClient.length = 10 ∧
    (sampleBuffered.outBuffer sampleId).bind Buffer.getUnreadSize = some 14 ∧
    ∃ handlers s, run (CProxy.step sampleConfig) System.init handlers = some s ∧
      RequestsSent sampleConfig sampleBuffered s := by
  obtain ⟨handlers, s, pending, hhandlers, -, -, hsent, -⟩ :=
    buffered_requests_refine sampleBuffered_run
  exact ⟨by decide +kernel, by decide +kernel, handlers, s, hhandlers, hsent⟩

end CProxy
