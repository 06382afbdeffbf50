import CProxy.Tunnel.Reachable

/-! # The stream from the client, item by item

What the server has made of the stream of a proxy connection is the image of
what the client has sent, cut at some item; the rest is on the connection.
-/

namespace CProxy

open Foundation Wire

/-- The bytes of an item on the proxy connection. -/
def StreamItem.bytes : StreamItem → List UInt8
  | .frame msg => msg.wire
  | .data _ byte => [byte]

/-- What is to become of an item: a message is parsed, and the data of a session,
counted from one, goes to the descriptor the server was started with for it. -/
def resolve (starts : List Fd) : StreamItem → Handled
  | .frame msg => .parsed msg
  | .data session byte => .forwarded starts[session - 1]? byte

/-- The items of `done` have been handled and those of `pending` have not. -/
structure Streamed (link : Link) (done pending : List StreamItem) : Prop where
  sent : link.sent = done ++ pending
  handled : link.handled = done.map (resolve link.server.starts)
  past : ∀ session byte, .data session byte ∈ done →
    1 ≤ session ∧ session ≤ link.server.starts.length

/-- What is on the connection while both ends have been started equally often,
and while the server is one session behind. -/
inductive Pending (link : Link) : List StreamItem → Prop
  | level (hstarts : link.client.starts.length = link.server.starts.length) :
      Pending link (link.toServer.map (StreamItem.data link.server.starts.length))
  | ahead (msg : ProxyCtlMsg) (rest : List UInt8) (hsent : ProxyCtlMsg.Sent msg)
      (hstarts : link.client.starts.length = link.server.starts.length + 1)
      (hstream : link.toServer = msg.wire ++ rest) :
      Pending link (.frame msg :: rest.map (StreamItem.data link.client.starts.length))

def StreamInv (link : Link) : Prop :=
  ∃ done pending, Streamed link done pending ∧ Pending link pending

variable {cfg : Config} {id : RandStr} {v v' : View} {event : LinkEvent} {link link' : Link}

theorem streamInv_new : StreamInv {} :=
  ⟨[], [], ⟨rfl, rfl, fun _ _ hmem => absurd hmem List.not_mem_nil⟩, .level rfl⟩

theorem StreamInv.congr (hstream : StreamInv link) (hsent : link'.sent = link.sent)
    (hhandled : link'.handled = link.handled) (htoServer : link'.toServer = link.toServer)
    (hserver : link'.server.starts = link.server.starts)
    (hclient : link'.client.starts = link.client.starts) : StreamInv link' := by
  obtain ⟨done, pending, hdone, hpending⟩ := hstream
  refine ⟨done, pending, ⟨?_, ?_, ?_⟩, ?_⟩
  · rw [hsent, hdone.sent]
  · rw [hhandled, hserver, hdone.handled]
  · rw [hserver]
    exact hdone.past
  · cases hpending with
    | level hstarts =>
        rw [← htoServer, ← hserver]
        exact .level (by rw [hserver, hclient, hstarts])
    | ahead msg rest hmsg hstarts hbytes =>
        rw [← hclient]
        exact .ahead msg rest hmsg (by rw [hserver, hclient, hstarts]) (htoServer.trans hbytes)

/-- The client's message that binds a session is the next item. -/
theorem StreamInv.sendAndStart (hstream : StreamInv link) (hempty : link.toServer = [])
    (hstarts : link.client.starts.length = link.server.starts.length) {msg : ProxyCtlMsg}
    (hmsg : ProxyCtlMsg.Sent msg) (localFd : Fd) : StreamInv (link.sendAndStart msg localFd) := by
  obtain ⟨done, pending, hdone, hpending⟩ := hstream
  have hnone : pending = [] := by
    cases hpending with
    | level => simp [hempty]
    | ahead other rest _ hbehind => omega
  subst hnone
  refine ⟨done, [.frame msg], ⟨?_, hdone.handled, hdone.past⟩, ?_⟩
  · simp [Link.sendAndStart, hdone.sent]
  · refine @Pending.ahead (link.sendAndStart msg localFd) msg [] hmsg ?_ ?_
    · simp [Link.sendAndStart, End.start, hstarts]
    · simp [Link.sendAndStart, hempty]

theorem StreamInv.relayAtClient (hstream : StreamInv link) (bytes : List UInt8) :
    StreamInv (link.relayAtClient bytes) := by
  obtain ⟨done, pending, hdone, hpending⟩ := hstream
  refine ⟨done, pending ++ bytes.map (StreamItem.data link.client.starts.length),
    ⟨?_, hdone.handled, hdone.past⟩, ?_⟩
  · simp [Link.relayAtClient, hdone.sent]
  · cases hpending with
    | level hstarts =>
        rw [hstarts, ← List.map_append]
        exact @Pending.level (link.relayAtClient bytes) hstarts
    | ahead msg rest hmsg hstarts hbytes =>
        rw [List.cons_append, ← List.map_append]
        exact @Pending.ahead (link.relayAtClient bytes) msg (rest ++ bytes) hmsg hstarts
          (by simp [Link.relayAtClient, hbytes])

/-- A session that is over keeps its descriptor when another one starts. -/
theorem resolve_append {starts : List Fd} {item : StreamItem} (publicFd : Fd)
    (hpast : ∀ session byte, item = .data session byte → 1 ≤ session ∧ session ≤ starts.length) :
    resolve (starts ++ [publicFd]) item = resolve starts item := by
  cases item with
  | frame msg => rfl
  | data session byte =>
      obtain ⟨hfirst, hlast⟩ := hpast session byte rfl
      simp only [resolve, List.getElem?_append_left (show session - 1 < starts.length by omega)]

/-- The server parses the message that binds a session, which then is the server's latest. -/
theorem StreamInv.parse (hstream : StreamInv link) {msg : ProxyCtlMsg}
    (hmsg : ProxyCtlMsg.Sent msg) {rest : List UInt8} (hbytes : link.toServer = msg.wire ++ rest)
    (hstarts : link.client.starts.length = link.server.starts.length + 1)
    (hsent : link'.sent = link.sent)
    (hhandled : link'.handled = link.handled ++ [.parsed msg]) (hrest : link'.toServer = rest)
    {publicFd : Fd} (hserver : link'.server.starts = link.server.starts ++ [publicFd])
    (hclient : link'.client.starts = link.client.starts) : StreamInv link' := by
  obtain ⟨done, pending, hdone, hpending⟩ := hstream
  cases hpending with
  | level hlevel => omega
  | ahead first others hfirst _ hstream =>
      obtain ⟨rfl, rfl⟩ := ProxyCtlMsg.wire_append_inj hfirst hmsg (hstream.symm.trans hbytes)
      have hlength : link'.client.starts.length = link'.server.starts.length := by
        rw [hclient, hserver, hstarts, List.length_append, List.length_singleton]
      refine ⟨done ++ [.frame first], others.map (StreamItem.data link.client.starts.length),
        ⟨?_, ?_, ?_⟩, ?_⟩
      · rw [hsent, hdone.sent]
        simp
      · rw [hhandled, hdone.handled, hserver, List.map_append]
        congr 1
        apply List.map_congr_left
        intro item hitem
        exact (resolve_append publicFd fun session byte heq =>
          hdone.past session byte (heq ▸ hitem)).symm
      · intro session byte hmem
        simp only [List.mem_append, List.mem_singleton, reduceCtorEq, or_false] at hmem
        have hpast := hdone.past session byte hmem
        rw [hserver, List.length_append]
        omega
      · rw [← hrest, ← hclient, hlength]
        exact .level hlength

/-- The server forwards bytes of its latest session. -/
theorem StreamInv.forward (hstream : StreamInv link)
    (hstarts : link.client.starts.length = link.server.starts.length)
    (hlast : link.server.starts.getLast? = link.server.proxy.peerConnFd)
    (hpositive : 1 ≤ link.server.starts.length) (count : Nat) :
    StreamInv (link.forwardAtServer count) := by
  obtain ⟨done, pending, hdone, hpending⟩ := hstream
  cases hpending with
  | ahead msg rest _ hbehind => omega
  | level =>
      refine ⟨done ++ (link.toServer.take count).map
          (StreamItem.data link.server.starts.length),
        (link.toServer.drop count).map (StreamItem.data link.server.starts.length),
        ⟨?_, ?_, ?_⟩, ?_⟩
      · rw [List.append_assoc, ← List.map_append, List.take_append_drop]
        exact hdone.sent
      · simp only [Link.forwardAtServer, hdone.handled, End.forward, List.map_append, List.map_map]
        congr 1
        apply List.map_congr_left
        intro byte _
        simp [resolve, ← hlast, List.getLast?_eq_getElem?]
      · intro session byte hmem
        simp only [List.mem_append, List.mem_map, StreamItem.data.injEq] at hmem
        rcases hmem with hold | ⟨_, _, rfl, _⟩
        · exact hdone.past session byte hold
        · exact ⟨hpositive, Nat.le_refl _⟩
      · exact @Pending.level (link.forwardAtServer count) hstarts

theorem StreamInv.step (hstream : StreamInv v.link) (hinv : LinkInv cfg id v)
    (hstep : LinkStep cfg id v event v') : StreamInv v'.link := by
  cases hstep with
  | stay | reclosedAtServer | reclosedAtClient => exact hstream
  | connect proxyFd localFd hcreated =>
      have hunused := hinv.eq_unused hcreated
      subst hunused
      apply StreamInv.sendAndStart
      · exact hstream.congr rfl rfl rfl rfl rfl
      · rfl
      · rfl
      · exact .proxyMetaSet _ _ _
  | accept | request | relayAtServer => exact hstream.congr rfl rfl rfl rfl rfl
  | claim count publicFd rest haccepted hclaimed hstart hframe =>
      refine hstream.parse (.proxyMetaSet _ _ _) hframe ?_ rfl rfl rfl rfl rfl
      cases hinv with
      | unused hunused => simp [hunused] at haccepted
      | ahead loc msg hahead => exact hahead.starts
      | level pub loc trailing hlevel => simp [hlevel.claimed] at hclaimed
  | bind count publicFd rest hwaiting hclaimed hstart hreq hframe =>
      cases hinv with
      | unused hunused => simp [hunused] at hwaiting
      | ahead loc msg hahead =>
          cases hahead.origin with
          | fresh hnot => simp [hclaimed] at hnot
          | reused requested hfd _ _ _ _ _ hreq' =>
              obtain rfl : requested = publicFd := Option.some.inj (hreq'.symm.trans hreq)
              exact hstream.parse (.startProxyConnRsp requested hfd id) hframe hahead.starts
                rfl rfl rfl rfl rfl
      | level pub loc trailing hlevel =>
          rw [(hlevel.resting_of_waiting hwaiting).flight] at hframe
          exact absurd (List.append_eq_nil_iff.mp hframe.symm).1 (ProxyCtlMsg.wire_ne_nil _)
  | forwardAtServer count hstart =>
      obtain ⟨pub, loc, trailing, hlevel⟩ := hinv.level_of_isStart hstart
      obtain ⟨total, hactive⟩ := hlevel.up.active_of_isStart hstart
      have hpositive : 1 ≤ v.link.server.starts.length := by
        have hlast := List.mem_of_getLast? hlevel.lastStart
        exact List.length_pos_of_mem hlast
      have hforward := hstream.forward hlevel.starts
        (hlevel.lastStart.trans hactive.peerConnFd.symm) hpositive count
      rw [View.shutdownPublicConn_link]
      exact hforward.congr rfl rfl rfl rfl rfl
  | closeAtServer conn =>
      unfold View.shutdownFromPublic
      split
      · exact hstream.congr rfl rfl rfl rfl rfl
      · exact hstream.congr rfl rfl rfl rfl rfl
  | hearAtServer tranCount rest =>
      unfold View.handleShutdownPublicConn
      split
      · exact hstream
      · rw [View.shutdownPublicConn_link]
        exact hstream.congr rfl rfl rfl rfl rfl
  | freeAtServer rest =>
      rw [View.freeProxyConn_link]
      exact hstream
  | strayFreeReq =>
      rw [View.freeProxyConn_link]
      exact hstream
  | hearAtClient tranCount rest =>
      unfold View.handleShutdownLocalConn
      rw [View.shutdonwLocalConn_link]
      exact hstream.congr rfl rfl rfl rfl rfl
  | startAtClient count localFd publicFd hlocal hcreated hstart hreq hfd hframe =>
      cases hinv with
      | unused hunused => simp [hunused] at hcreated
      | ahead loc msg hahead => simp [(hahead.down 0).isStart] at hstart
      | level pub loc trailing hlevel =>
          have hclient := hlevel.down.resting_of_not_isStart hstart
          have hwaiting : v.waiting = 1 := by
            rcases hlevel.requested with ⟨_, hnone⟩ | ⟨hone, _⟩
            · exact absurd (hframe.symm.trans (hclient.flight.trans hnone))
                (ProxyCtlMsg.wire_ne_nil _)
            · exact hone
          have hread : StreamInv { v.link with toClient := [] } :=
            hstream.congr rfl rfl rfl rfl rfl
          exact hread.sendAndStart (hlevel.resting_of_waiting hwaiting).flight hlevel.starts
            (.startProxyConnRsp publicFd hfd id) localFd
  | forwardAtClient count localFd =>
      rw [View.shutdonwLocalConn_link]
      exact hstream.congr rfl rfl rfl rfl rfl
  | relayAtClient conn bytes => exact hstream.relayAtClient bytes
  | closeAtClient conn => exact hstream.congr rfl rfl rfl rfl rfl

end CProxy
