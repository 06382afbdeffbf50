import CProxy.Tunnel.Matching

/-! # The server reads every part of the client's stream in the right mode

The stream of a proxy connection alternates between messages and data, and so
does the server's end: it is idle in front of a message and started, with the
session's public descriptor, in front of a byte of data.
-/

namespace CProxy

open Foundation Wire

/-! ## What the client sends -/

def isFrame : StreamItem → Bool
  | .frame _ => true
  | .data .. => false

/-- The first session of a connection is opened by a ProxyMetaSet, each later one
by a StartProxyConnRsp. -/
def Opens : Nat → ProxyCtlMsg → Prop
  | 0, .proxyMetaSet .. => True
  | _ + 1, .startProxyConnRsp .. => True
  | _, _ => False

/-- After `count` sessions have been opened: the data of the latest one, and the
messages that open the next ones, each followed by its data. -/
def Framed : Nat → List StreamItem → Prop
  | _, [] => True
  | count, .frame msg :: rest => Opens count msg ∧ Framed (count + 1) rest
  | count, .data session _ :: rest => 1 ≤ count ∧ session = count ∧ Framed count rest

theorem framed_append {first second : List StreamItem} {count : Nat} :
    Framed count (first ++ second) ↔
      Framed count first ∧ Framed (count + first.countP isFrame) second := by
  induction first generalizing count with
  | nil => simp [Framed]
  | cons item rest ih =>
      cases item with
      | frame msg =>
          have hcount : count + 1 + rest.countP isFrame = count + (rest.countP isFrame + 1) := by
            omega
          simp [Framed, ih, List.countP_cons, isFrame, hcount, and_assoc]
      | data session byte => simp [Framed, ih, isFrame, and_assoc]

theorem framed_data {count : Nat} (hpositive : 1 ≤ count) (bytes : List UInt8) :
    Framed count (bytes.map (StreamItem.data count)) := by
  induction bytes with
  | nil => trivial
  | cons byte rest ih => exact ⟨hpositive, rfl, ih⟩

theorem countP_isFrame_data (session : Nat) (bytes : List UInt8) :
    (bytes.map (StreamItem.data session)).countP isFrame = 0 := by
  rw [List.countP_eq_zero]
  simp [isFrame]

structure ClientStream (link : Link) : Prop where
  framed : Framed 0 link.sent
  frames : link.sent.countP isFrame = link.client.starts.length

variable {cfg : Config} {s : System} {id : RandStr} {link link' : Link}

theorem ClientStream.congr (hstream : ClientStream link) (hsent : link'.sent = link.sent)
    (hstarts : link'.client.starts = link.client.starts) : ClientStream link' := by
  constructor
  · rw [hsent]
    exact hstream.framed
  · rw [hsent, hstarts]
    exact hstream.frames

theorem ClientStream.sendAndStart (hstream : ClientStream link) {msg : ProxyCtlMsg}
    (hopens : Opens link.client.starts.length msg) (localFd : Fd) :
    ClientStream (link.sendAndStart msg localFd) where
  framed := by
    rw [Link.sendAndStart, framed_append, hstream.frames, Nat.zero_add]
    exact ⟨hstream.framed, hopens, trivial⟩
  frames := by
    simp [Link.sendAndStart, End.start, hstream.frames, isFrame]

theorem ClientStream.relayAtClient (hstream : ClientStream link)
    (hpositive : 1 ≤ link.client.starts.length) (bytes : List UInt8) :
    ClientStream (link.relayAtClient bytes) where
  framed := by
    rw [Link.relayAtClient, framed_append, hstream.frames, Nat.zero_add]
    exact ⟨hstream.framed, framed_data hpositive bytes⟩
  frames := by
    rw [Link.relayAtClient, List.countP_append, countP_isFrame_data]
    exact hstream.frames

theorem Level.starts_pos {v : View} {pub loc : EdgeConn} {trailing : List UInt8}
    (hlevel : Level id v pub loc trailing) : 1 ≤ v.link.server.starts.length :=
  List.length_pos_of_mem (List.mem_of_getLast? hlevel.lastStart)

theorem ClientStream.step {v v' : View} {event : LinkEvent} (hstream : ClientStream v.link)
    (hinv : LinkInv cfg id v) (hstep : LinkStep cfg id v event v') : ClientStream v'.link := by
  cases hstep with
  | stay | reclosedAtServer | reclosedAtClient => exact hstream
  | accept | request | claim | bind | relayAtServer | closeAtClient => exact hstream.congr rfl rfl
  | connect proxyFd localFd hcreated =>
      have hunused := hinv.eq_unused hcreated
      subst hunused
      apply ClientStream.sendAndStart
      · exact hstream.congr rfl rfl
      · trivial
  | startAtClient count localFd publicFd hlocal hcreated hstart =>
      have hread : ClientStream { v.link with toClient := [] } := hstream.congr rfl rfl
      apply hread.sendAndStart
      cases hinv with
      | unused hunused => simp [hunused] at hcreated
      | ahead loc msg hahead => simp [(hahead.down 0).isStart] at hstart
      | level pub loc trailing hlevel =>
          obtain ⟨past, hpast⟩ := Nat.exists_eq_add_of_le' hlevel.starts_pos
          simp only [hlevel.starts, hpast]
          trivial
  | relayAtClient conn bytes hpeer =>
      refine hstream.relayAtClient ?_ bytes
      cases hinv with
      | unused hunused => simp [hunused] at hpeer
      | ahead loc msg hahead => rw [hahead.starts]; exact Nat.le_add_left 1 _
      | level pub loc trailing hlevel => rw [hlevel.starts]; exact hlevel.starts_pos
  | forwardAtServer count =>
      rw [View.shutdownPublicConn_link]
      exact hstream.congr rfl rfl
  | closeAtServer conn =>
      unfold View.shutdownFromPublic
      split
      · exact hstream.congr rfl rfl
      · exact hstream.congr rfl rfl
  | hearAtServer tranCount rest =>
      unfold View.handleShutdownPublicConn
      split
      · exact hstream
      · rw [View.shutdownPublicConn_link]
        exact hstream.congr rfl rfl
  | freeAtServer rest =>
      rw [View.freeProxyConn_link]
      exact hstream
  | strayFreeReq =>
      rw [View.freeProxyConn_link]
      exact hstream
  | hearAtClient tranCount rest =>
      unfold View.handleShutdownLocalConn
      rw [View.shutdonwLocalConn_link]
      exact hstream.congr rfl rfl
  | forwardAtClient count localFd =>
      rw [View.shutdonwLocalConn_link]
      exact hstream.congr rfl rfl

theorem Reachable.clientStream (hreach : Reachable cfg s) (id : RandStr) :
    ClientStream (s.link id) := by
  obtain ⟨events, hrun⟩ := hreach
  have hinit : WellFormed cfg System.init ∧ ∀ id, ClientStream (System.init.link id) :=
    ⟨wellFormed_init cfg, fun _ => ⟨trivial, rfl⟩⟩
  have hstep (s : System) (event : Event) (s' : System)
      (hs : WellFormed cfg s ∧ ∀ id, ClientStream (s.link id))
      (hnext : CProxy.step cfg s event = some s') :
      WellFormed cfg s' ∧ ∀ id, ClientStream (s'.link id) :=
    ⟨hs.1.step hnext, fun id =>
      (hs.2 id).step (hs.1.inv id) ((step_simulated hs.1 hnext).links id)⟩
  exact (run_invariant hstep hinit hrun).2 id

/-! ## What the server makes of it -/

theorem flatMap_data (session : Nat) (bytes : List UInt8) :
    (bytes.map (StreamItem.data session)).flatMap StreamItem.bytes = bytes := by
  induction bytes with
  | nil => rfl
  | cons byte rest ih => simp [StreamItem.bytes, ih]

theorem Pending.bytes_eq {pending : List StreamItem} (hpending : Pending link pending) :
    link.toServer = pending.flatMap StreamItem.bytes := by
  cases hpending with
  | level => rw [flatMap_data]
  | ahead msg rest _ _ hbytes =>
      rw [List.flatMap_cons, flatMap_data]
      exact hbytes

/-- Every message the server has handled has started one session. -/
theorem Streamed.frames_eq {done pending : List StreamItem} (hstreamed : Streamed link done pending)
    (hpending : Pending link pending) (hstream : ClientStream link) :
    done.countP isFrame = link.server.starts.length := by
  have hframes := hstream.frames
  rw [hstreamed.sent, List.countP_append] at hframes
  cases hpending with
  | level hstarts =>
      rw [countP_isFrame_data, Nat.add_zero] at hframes
      exact hframes.trans hstarts
  | ahead msg rest _ hstarts =>
      rw [List.countP_cons, countP_isFrame_data, hstarts] at hframes
      simpa [isFrame] using hframes

theorem Pending.of_frame {msg : ProxyCtlMsg} {rest : List StreamItem}
    (hpending : Pending link (.frame msg :: rest)) :
    ProxyCtlMsg.Sent msg ∧ link.client.starts.length = link.server.starts.length + 1 ∧
      link.toServer = msg.wire ++ rest.flatMap StreamItem.bytes := by
  generalize hitems : StreamItem.frame msg :: rest = items at hpending
  cases hpending with
  | level =>
      cases hbytes : link.toServer with
      | nil => simp [hbytes] at hitems
      | cons byte others => simp [hbytes] at hitems
  | ahead first others hsent hstarts hstream =>
      obtain ⟨hmsg, rfl⟩ := List.cons.inj hitems
      cases hmsg
      rw [flatMap_data]
      exact ⟨hsent, hstarts, hstream⟩

theorem Pending.of_data {session : Nat} {byte : UInt8} {rest : List StreamItem}
    (hpending : Pending link (.data session byte :: rest)) :
    session = link.server.starts.length ∧
      link.client.starts.length = link.server.starts.length ∧
      .data session byte :: rest = link.toServer.map (StreamItem.data session) := by
  generalize hitems : StreamItem.data session byte :: rest = items at hpending
  cases hpending with
  | ahead => simp at hitems
  | level hstarts =>
      have hsession : session = link.server.starts.length := by
        cases hbytes : link.toServer with
        | nil => simp [hbytes] at hitems
        | cons first others =>
            rw [hbytes, List.map_cons, List.cons.injEq, StreamItem.data.injEq] at hitems
            exact hitems.1.1
      subst hsession
      exact ⟨rfl, hstarts, rfl⟩

theorem LinkInv.ahead_of_starts {v : View} (hinv : LinkInv cfg id v)
    (hstarts : v.link.client.starts.length = v.link.server.starts.length + 1) :
    ∃ loc msg, Ahead cfg id v loc msg := by
  cases hinv with
  | unused hunused => simp [hunused] at hstarts
  | ahead loc msg hahead => exact ⟨loc, msg, hahead⟩
  | level pub loc trailing hlevel =>
      have hlength := hlevel.starts
      omega

/-- In front of a message the server's end is idle. -/
theorem Pending.idle_of_frame {v : View} {msg : ProxyCtlMsg} {rest : List StreamItem}
    (hpending : Pending v.link (.frame msg :: rest)) (hinv : LinkInv cfg id v) :
    v.link.server.proxy.isStart = false := by
  obtain ⟨_, hstarts, _⟩ := hpending.of_frame
  obtain ⟨loc, first, hahead⟩ := hinv.ahead_of_starts hstarts
  exact hahead.server.isStart

/-- In front of a byte of data it forwards to the descriptor of that byte's session. -/
theorem Pending.bound_of_data {v : View} {session : Nat} {byte : UInt8} {rest : List StreamItem}
    (hpending : Pending v.link (.data session byte :: rest)) (hinv : LinkInv cfg id v) :
    v.link.server.proxy.isStart = true ∧ ∃ fd, v.link.server.proxy.peerConnFd = some fd ∧
      v.link.server.starts[session - 1]? = some fd ∧
      ∃ conn, v.link.server.peer = some conn ∧ conn.fd = fd := by
  obtain ⟨rfl, hstarts, hbytes⟩ := hpending.of_data
  cases hinv with
  | unused hunused => simp [hunused] at hbytes
  | ahead loc msg hahead =>
      have hlength := hahead.starts
      omega
  | level pub loc trailing hlevel =>
      rcases hlevel.up with ⟨total, hactive⟩ | hresting
      · refine ⟨hactive.isStart, pub.fd, hactive.peerConnFd, ?_, pub, hactive.peer, rfl⟩
        rw [← List.getLast?_eq_getElem?]
        exact hlevel.lastStart
      · simp [hresting.flight] at hbytes

/-! ## The next read -/

/-- The server has parsed `msg`, is left with `rest` and has started a session,
whose public connection has been written nothing. -/
structure Parses (link link' : Link) (msg : ProxyCtlMsg) (rest : List StreamItem) : Prop where
  sent : link'.sent = link.sent
  handled : link'.handled = link.handled ++ [.parsed msg]
  toServer : link'.toServer = rest.flatMap StreamItem.bytes
  started : ∃ conn, link'.server.starts = link.server.starts ++ [conn.fd] ∧
    link'.server.peer = some conn ∧ conn.written = []

/-- The server has written the next `count` bytes to the public descriptor `fd`. -/
structure Forwards (link link' : Link) (fd : Fd) (count : Nat) : Prop where
  sent : link'.sent = link.sent
  handled : link'.handled = link.handled ++
    (link.toServer.take count).map (Handled.forwarded (some fd))
  toServer : link'.toServer = link.toServer.drop count
  starts : link'.server.starts = link.server.starts
  written : ∃ conn, link.server.peer = some conn ∧ conn.fd = fd ∧
    link'.server.peer = some { conn with written := conn.written ++ link.toServer.take count }

theorem startServer_parses {v : View} {msg : ProxyCtlMsg} {rest : List StreamItem}
    {bytes : List UInt8} (hbytes : bytes = rest.flatMap StreamItem.bytes) (publicFd : Fd) :
    Parses v.link (v.startServer msg bytes id publicFd).link msg rest where
  sent := rfl
  handled := rfl
  toServer := hbytes
  started := ⟨_, rfl, rfl, rfl⟩

theorem LinkStep.parses {v v' : View} {count : Nat} {msg : ProxyCtlMsg} {rest : List StreamItem}
    (hstep : LinkStep cfg id v (.serverRead count) v') (hinv : LinkInv cfg id v)
    (hpending : Pending v.link (.frame msg :: rest)) : Parses v.link v'.link msg rest := by
  obtain ⟨hsent, hstarts, hstream⟩ := hpending.of_frame
  obtain ⟨loc, first, hahead⟩ := hinv.ahead_of_starts hstarts
  obtain ⟨rfl, _⟩ := ProxyCtlMsg.wire_append_inj hsent hahead.origin.sent
    (hstream.symm.trans hahead.stream)
  cases hstep with
  | claim count publicFd bytes haccepted hclaimed hstart hframe =>
      obtain ⟨rfl, hrest⟩ := ProxyCtlMsg.wire_append_inj hsent (.proxyMetaSet _ _ _)
        (hstream.symm.trans hframe)
      exact startServer_parses hrest.symm publicFd
  | bind count publicFd bytes hwaiting hclaimed hstart hreq hframe =>
      cases hahead.origin with
      | fresh hnot => simp [hclaimed] at hnot
      | reused requested hfd _ _ _ _ _ hreq' =>
          obtain rfl : requested = publicFd := Option.some.inj (hreq'.symm.trans hreq)
          have hrest := List.append_cancel_left (hstream.symm.trans hframe)
          exact startServer_parses hrest.symm requested
  | forwardAtServer count hstart =>
      rw [hahead.server.isStart] at hstart
      cases hstart

theorem LinkStep.forwards {v v' : View} {count : Nat} {fd : Fd} {conn : EdgeConn}
    (hstep : LinkStep cfg id v (.serverRead count) v')
    (hstart : v.link.server.proxy.isStart = true) (hfd : v.link.server.proxy.peerConnFd = some fd)
    (hpeer : v.link.server.peer = some conn) (hconn : conn.fd = fd) :
    Forwards v.link v'.link fd count := by
  cases hstep with
  | claim count publicFd bytes haccepted hclaimed hidle =>
      rw [hidle] at hstart
      cases hstart
  | bind count publicFd bytes hwaiting hclaimed hidle =>
      rw [hidle] at hstart
      cases hstart
  | forwardAtServer =>
      rw [View.shutdownPublicConn_link]
      refine ⟨rfl, ?_, rfl, rfl, conn, hpeer, hconn, ?_⟩
      · simp [Link.forwardAtServer, hfd]
      · simp [Link.forwardAtServer, End.forward, End.settle, End.mapProxy, hpeer]

theorem Matching.forwardRead_isSome (hmatching : Matching cfg s)
    (hstart : (s.link id).server.proxy.isStart = true) {count : Nat} (hcount : SpliceLen count)
    (hbytes : count ≤ (s.link id).toServer.length) :
    (Server.forwardRead s id count).isSome = true := by
  obtain ⟨pub, loc, trailing, hlevel⟩ :=
    (hmatching.wellFormed.inv id).level_of_isStart hstart
  obtain ⟨total, hactive⟩ := hlevel.up.active_of_isStart hstart
  have hconserved : loc.received ++ [] = pub.written ++ (s.link id).toServer :=
    hactive.sound.conserved
  have hfits : (s.link id).server.proxy.recvCount + count ≤ intMax := by
    have hrecv : (s.link id).server.proxy.recvCount = pub.written.length := hactive.recvCount
    have hbounded := hlevel.locCounted.bounded
    have hsum := congrArg List.length hconserved
    rw [hlevel.locCounted.tranCount] at hbounded
    simp only [List.length_append, List.length_nil] at hsum
    omega
  have hsplice : ¬ (¬ SpliceLen count ∨ (s.link id).toServer.length < count) := by
    rintro (hnot | hshort)
    · exact hnot hcount
    · omega
  unfold Server.forwardRead
  rw [if_neg hsplice, if_neg (not_lt.mpr hfits)]
  dsimp only
  split <;> rfl

theorem Matching.messageRead_isSome (hmatching : Matching cfg s)
    (haccepted : (s.link id).accepted = true)
    (hstart : (s.link id).server.proxy.isStart = false) (hbytes : (s.link id).toServer ≠ []) :
    (Server.messageRead cfg s id).isSome = true := by
  have hwf := hmatching.wellFormed
  cases hwf.inv id with
  | unused hunused =>
      rw [← view_link, hunused] at haccepted
      cases haccepted
  | level pub loc trailing hlevel =>
      exact absurd (hlevel.up.resting_of_not_isStart hstart).flight hbytes
  | ahead loc msg hahead =>
      have hstream : (s.link id).toServer = msg.wire ++ loc.received := hahead.stream
      have hread := ProxyCtlMsg.readMsg_wire hahead.origin.sent loc.received
      have hdecode := ProxyCtlMsg.decode_body hahead.origin.sent
      rw [← hstream] at hread
      unfold Server.messageRead
      simp only [hread, hdecode]
      cases hahead.origin with
      | fresh hclaimed =>
          have hundeal := hmatching.undeal_ne_nil haccepted hstart hread hdecode
          have hlast := List.getLast?_eq_some_getLast hundeal
          simp [Server.claimProxyConn, Server.tunnelClaimProxyConn, System.mapLink, hlast]
      | reused publicFd =>
          dsimp only
          split <;> rfl

/-- The server's handler can read on whatever has arrived. -/
theorem Matching.serverProxyRead (hmatching : Matching cfg s)
    (haccepted : (s.link id).accepted = true) (hbytes : (s.link id).toServer ≠ []) (count : Nat)
    (hcount : (s.link id).server.proxy.isStart = true →
      SpliceLen count ∧ count ≤ (s.link id).toServer.length) :
    ∃ s', CProxy.step cfg s (.serverProxyRead id count) = some s' ∧
      LinkStep cfg id (s.view id) (.serverRead count) (s'.view id) := by
  have hread : (CProxy.step cfg s (.serverProxyRead id count)).isSome = true := by
    simp only [CProxy.step, Server.proxyRead, haccepted, Bool.true_eq_false, if_false]
    split
    · next hstart =>
        obtain ⟨hsplice, hthere⟩ := hcount hstart
        exact hmatching.forwardRead_isSome hstart hsplice hthere
    · next hstart => exact hmatching.messageRead_isSome haccepted (by simpa using hstart) hbytes
  obtain ⟨s', hstep⟩ := Option.isSome_iff_exists.mp hread
  have hlink := (step_simulated hmatching.wellFormed hstep).links id
  simp only [Event.about, if_true] at hlink
  exact ⟨s', hstep, hlink⟩

/-- In front of a message the server's handler parses it, whatever it would splice. -/
theorem Matching.parses (hmatching : Matching cfg s) {msg : ProxyCtlMsg} {rest : List StreamItem}
    (hpending : Pending (s.link id) (.frame msg :: rest))
    (haccepted : (s.link id).accepted = true) (count : Nat) :
    ∃ s', CProxy.step cfg s (.serverProxyRead id count) = some s' ∧
      Parses (s.link id) (s'.link id) msg rest := by
  have hinv := hmatching.wellFormed.inv id
  have hidle : (s.link id).server.proxy.isStart = false :=
    Pending.idle_of_frame (v := s.view id) hpending hinv
  have hbytes : (s.link id).toServer ≠ [] := by
    rw [hpending.of_frame.2.2]
    simp [ProxyCtlMsg.wire_ne_nil]
  obtain ⟨s', hstep, hlink⟩ := hmatching.serverProxyRead haccepted hbytes count
    fun hstart => by simp [hidle] at hstart
  exact ⟨s', hstep, hlink.parses hinv hpending⟩

/-- In front of data it forwards as much of it as it splices. -/
theorem Matching.forwards (hmatching : Matching cfg s) {session : Nat} {byte : UInt8}
    {rest : List StreamItem} (hpending : Pending (s.link id) (.data session byte :: rest))
    {fd : Fd} (hfd : (s.link id).server.proxy.peerConnFd = some fd) {count : Nat}
    (hsplice : SpliceLen count) (hcount : count ≤ (s.link id).toServer.length) :
    ∃ s', CProxy.step cfg s (.serverProxyRead id count) = some s' ∧
      Forwards (s.link id) (s'.link id) fd count := by
  have hinv := hmatching.wellFormed.inv id
  obtain ⟨hstart, bound, hbound, _, conn, hpeer, hconn⟩ :=
    Pending.bound_of_data (v := s.view id) hpending hinv
  obtain rfl : bound = fd := Option.some.inj (hbound.symm.trans hfd)
  obtain ⟨pub, loc, trailing, hlevel⟩ := hinv.level_of_isStart hstart
  have hbytes : (s.link id).toServer ≠ [] := List.length_pos_iff.mp (hsplice.1.trans hcount)
  obtain ⟨s', hstep, hlink⟩ :=
    hmatching.serverProxyRead hlevel.accepted hbytes count fun _ => ⟨hsplice, hcount⟩
  exact ⟨s', hstep, hlink.forwards hstart hbound hpeer hconn⟩

/-- What the client has sent and the server has not handled gets shorter by an item. -/
theorem Matching.read_inFlight (hmatching : Matching cfg s)
    (haccepted : (s.link id).accepted = true) (hflight : inFlight (s.link id) ≠ []) :
    ∃ s', CProxy.step cfg s (.serverProxyRead id 1) = some s' ∧
      (s'.link id).sent = (s.link id).sent ∧ (s'.link id).accepted = true ∧
      inFlight (s'.link id) = (inFlight (s.link id)).tail := by
  obtain ⟨done, pending, hstreamed, hpending⟩ := hmatching.streams id
  rw [hstreamed.inFlight_eq] at hflight
  have htail {link' : Link} (hsent : link'.sent = (s.link id).sent)
      (hhandled : link'.handled.length = (s.link id).handled.length + 1) :
      inFlight link' = (inFlight (s.link id)).tail := by
    rw [inFlight, inFlight, hsent, hhandled, List.tail_drop]
  have hopen {s' : System} (hstep : CProxy.step cfg s (.serverProxyRead id 1) = some s') :
      (s'.link id).accepted = true :=
    (((step_simulated hmatching.wellFormed hstep).links id).accepted_eq haccepted).1
  cases pending with
  | nil => exact absurd rfl hflight
  | cons item rest =>
      cases item with
      | frame msg =>
          obtain ⟨s', hstep, hparses⟩ := hmatching.parses hpending haccepted 1
          have hlength := congrArg List.length hparses.handled
          rw [List.length_append, List.length_singleton] at hlength
          exact ⟨s', hstep, hparses.sent, hopen hstep, htail hparses.sent hlength⟩
      | data session byte =>
          obtain ⟨_, fd, hfd, _⟩ := Pending.bound_of_data (v := s.view id) hpending
            (hmatching.wellFormed.inv id)
          obtain ⟨_, _, hbytes⟩ := hpending.of_data
          have hone : 1 ≤ (s.link id).toServer.length := by
            have hlength := congrArg List.length hbytes
            rw [List.length_cons, List.length_map] at hlength
            omega
          obtain ⟨s', hstep, hforwards⟩ :=
            hmatching.forwards hpending hfd (by decide : SpliceLen 1) hone
          have hlength := congrArg List.length hforwards.handled
          rw [List.length_append, List.length_map, List.length_take, Nat.min_eq_left hone] at hlength
          exact ⟨s', hstep, hforwards.sent, hopen hstep, htail hforwards.sent hlength⟩

/-- Reads of one byte each take the server to the end of what the client has sent. -/
theorem Matching.reads (hmatching : Matching cfg s) (haccepted : (s.link id).accepted = true) :
    ∃ last, run (CProxy.step cfg) s
        (List.replicate (inFlight (s.link id)).length (.serverProxyRead id 1)) = some last ∧
      Matching cfg last ∧ (last.link id).sent = (s.link id).sent ∧
      inFlight (last.link id) = [] := by
  generalize hcount : (inFlight (s.link id)).length = count
  induction count generalizing s with
  | zero => exact ⟨s, rfl, hmatching, rfl, List.length_eq_zero_iff.mp hcount⟩
  | succ count ih =>
      have hflight : inFlight (s.link id) ≠ [] := List.ne_nil_of_length_eq_add_one hcount
      obtain ⟨s', hstep, hsent, hopen, htail⟩ := hmatching.read_inFlight haccepted hflight
      have hless : (inFlight (s'.link id)).length = count := by
        rw [htail, List.length_tail, hcount]
        rfl
      obtain ⟨last, hrun, hlast, hkept, hdone⟩ := ih (hmatching.step hstep) hopen hless
      refine ⟨last, ?_, hlast, hkept.trans hsent, hdone⟩
      rw [List.replicate_succ, run_cons hstep, hrun]

/-- The client's stream is made of sessions, each opened by its message. What the
server has handled is the front of that stream: its messages were parsed, each
starting a session, and its data went to the descriptor of its session. The rest
is on the connection and the server is in the mode for its first item: its next
read parses a message whole and starts a session, or writes as much data as it
splices to the public connection of that data's session. Reads of one byte take
it to the end of the stream, and no two sessions have one descriptor. -/
theorem server_reads_stream_by_mode (hreach : Reachable cfg s) (id : RandStr) :
    Framed 0 (s.link id).sent ∧
    (∃ done pending, (s.link id).sent = done ++ pending ∧
      (s.link id).handled = done.map (resolve (s.link id).server.starts) ∧
      (s.link id).toServer = pending.flatMap StreamItem.bytes ∧
      done.countP isFrame = (s.link id).server.starts.length ∧
      (∀ session byte, .data session byte ∈ done →
        1 ≤ session ∧ session ≤ (s.link id).server.starts.length) ∧
      (∀ msg rest, pending = .frame msg :: rest →
        (s.link id).server.proxy.isStart = false ∧
        ((s.link id).accepted = true → ∀ count, ∃ s',
          step cfg s (.serverProxyRead id count) = some s' ∧
          Parses (s.link id) (s'.link id) msg rest)) ∧
      (∀ session byte rest, pending = .data session byte :: rest →
        (s.link id).server.proxy.isStart = true ∧
        ∃ fd, (s.link id).server.proxy.peerConnFd = some fd ∧
          (s.link id).server.starts[session - 1]? = some fd ∧
          ∀ count, SpliceLen count → count ≤ (s.link id).toServer.length → ∃ s',
            step cfg s (.serverProxyRead id count) = some s' ∧
            Forwards (s.link id) (s'.link id) fd count) ∧
      ((s.link id).accepted = true → ∃ last,
        run (step cfg) s (List.replicate pending.length (.serverProxyRead id 1)) = some last ∧
        (last.link id).sent = (s.link id).sent ∧ (last.link id).toServer = [] ∧
        (last.link id).handled = (s.link id).sent.map (resolve (last.link id).server.starts))) ∧
    ∀ (other : RandStr) (session session' : Nat) (fd : Fd),
      (s.link id).server.starts[session]? = some fd →
      (s.link other).server.starts[session']? = some fd → id = other ∧ session = session' := by
  have hmatching := hreach.matching
  have hclient := hreach.clientStream id
  refine ⟨hclient.framed, ?_, ?_⟩
  · obtain ⟨done, pending, hstreamed, hpending⟩ := hmatching.streams id
    refine ⟨done, pending, hstreamed.sent, hstreamed.handled, hpending.bytes_eq,
      hstreamed.frames_eq hpending hclient, hstreamed.past, ?_, ?_, ?_⟩
    · rintro msg rest rfl
      exact ⟨hpending.idle_of_frame (hmatching.wellFormed.inv id), hmatching.parses hpending⟩
    · rintro session byte rest rfl
      obtain ⟨hstart, fd, hfd, hsession, _⟩ :=
        hpending.bound_of_data (hmatching.wellFormed.inv id)
      exact ⟨hstart, fd, hfd, hsession, fun count => hmatching.forwards hpending hfd⟩
    · intro haccepted
      obtain ⟨last, hrun, hlast, hsent, hnone⟩ := hmatching.reads haccepted
      rw [hstreamed.inFlight_eq] at hrun
      obtain ⟨all, left, hall, hleft⟩ := hlast.streams id
      obtain rfl : left = [] := hall.inFlight_eq.symm.trans hnone
      refine ⟨last, hrun, hsent, hleft.bytes_eq, ?_⟩
      rw [hall.handled, ← hsent, hall.sent, List.append_nil]
  · intro other session session' fd hself hother
    exact Place.bound.inj
      (hmatching.unshared.one (.bound id session) (.bound other session') fd hself hother)

/-! ## Two sessions on one connection -/

/-- A session with two bytes from the local side, then the next one's message and
three bytes, which the server has not read. -/
def sampleTwoSessions : List Event :=
  sampleStart ++ [.localRead sampleId [104, 105], .serverProxyRead sampleId 2] ++ sampleFinish ++
    [.newPublicConn 7, .clientProxyRead sampleId 1 12, .localRead sampleId [98, 121, 101]]

set_option maxRecDepth 10000 in
/-- The server's next read parses the second session's message, and four reads of
one byte write the rest to its descriptor. -/
theorem server_reads_stream_by_mode_sample :
    (∃ s', step sampleConfig (sampleAfter sampleTwoSessions) (.serverProxyRead sampleId 2048) =
        some s' ∧
      Parses ((sampleAfter sampleTwoSessions).link sampleId) (s'.link sampleId)
        (.startProxyConnRsp 7 sampleId.chars) [.data 2 98, .data 2 121, .data 2 101]) ∧
    ∃ last, run (step sampleConfig) (sampleAfter sampleTwoSessions)
        (List.replicate 4 (.serverProxyRead sampleId 1)) = some last ∧
      (last.link sampleId).toServer = [] ∧
      (last.link sampleId).handled =
        [.parsed (.proxyMetaSet sampleId.chars sampleId.chars sampleId.chars),
          .forwarded (some 5) 104, .forwarded (some 5) 105,
          .parsed (.startProxyConnRsp 7 sampleId.chars),
          .forwarded (some 7) 98, .forwarded (some 7) 121, .forwarded (some 7) 101] := by
  have hreach : Reachable sampleConfig (sampleAfter sampleTwoSessions) :=
    sampleAfter_reachable sampleTwoSessions (by decide)
  have hopen : ((sampleAfter sampleTwoSessions).link sampleId).accepted = true := by decide
  obtain ⟨_, ⟨done, pending, hsent, hhandled, _, _, _, hframe, _, hreads⟩, _⟩ :=
    server_reads_stream_by_mode hreach sampleId
  have hdone : done.length = 3 := by
    rw [← List.length_map, ← hhandled]
    decide
  have hpending : pending = [.frame (.startProxyConnRsp 7 sampleId.chars), .data 2 98,
      .data 2 121, .data 2 101] := by
    have hdrop : (done ++ pending).drop done.length = pending := List.drop_left
    rw [← hdrop, hdone, ← hsent]
    decide
  subst hpending
  refine ⟨(hframe _ _ rfl).2 hopen 2048, ?_⟩
  obtain ⟨last, hrun, _, hempty, hall⟩ := hreads hopen
  refine ⟨last, hrun, hempty, ?_⟩
  have hlast := sampleAfter_run sampleTwoSessions (List.replicate 4 (.serverProxyRead sampleId 1))
    (by decide)
  have hstarts : (last.link sampleId).server.starts = [5, 7] := by
    rw [Option.some.inj (hrun.symm.trans hlast)]
    decide
  rw [hall, hstarts]
  decide

end CProxy
