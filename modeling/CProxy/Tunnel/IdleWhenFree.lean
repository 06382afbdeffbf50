import CProxy.Tunnel.Reachable

/-! # A free proxy connection and its client

The server puts a proxy connection on the free list when its own end has finished.
The client's end has then finished too, unless the server completed the session
with something still on its way to the client: the end of the public stream or
bytes of it. Such a connection is handed out again while its client still forwards.
-/

namespace CProxy

open Foundation Wire

/-! ## The order in which a session ends -/

/-- The server completes the remote direction: it forwards the last announced byte,
or is told a total it has already forwarded. -/
def View.Completes (v : View) : LinkEvent → Prop
  | .serverRead count =>
      v.link.server.proxy.isStart = true ∧
        v.link.server.proxy.recvCount + count = v.link.server.proxy.theoreticalTotalRecvCount
  | .serverNotice (.shutdownPeer tranCount) =>
      v.mapped ≠ 0 ∧ v.link.server.proxy.recvCount =
        (v.link.server.proxy.incrTheoreticalTotalRecvCount tranCount).theoreticalTotalRecvCount
  | _ => False

/-- When the server completes a half-closed session, the end of the public stream
and all of its bytes have been handled by the client. -/
def View.InOrder (v : View) (event : LinkEvent) : Prop :=
  v.Completes event → v.link.server.proxy.halfClose = true →
    v.link.toClient = [] ∧ v.ctlToClient = []

/-- A session completed with nothing on its way to the client is completed in order. -/
theorem inOrder_of_quiet {v : View} {about : LinkEvent} (htoClient : v.link.toClient = [])
    (hctl : v.ctlToClient = []) : v.InOrder about := fun _ _ => ⟨htoClient, hctl⟩

/-- What holds of a connection whose client end is started. -/
structure Held (v : View) : Prop where
  free : v.free = 0
  waiting : v.link.client.starts.length = v.link.server.starts.length → v.waiting = 0
  /-- What the client says of its session is the last it has said. -/
  last : ∀ first count rest, v.ctlToServer = first ++ .shutdownPeer count :: rest → rest = []
  /-- Once the server has heard it, no request to free the connection is left. -/
  heard : v.link.server.proxy.theoreticalTotalRecvCount ≠ -1 → .freeReq ∉ v.ctlToServer
  reset : v.mapped ≠ 0 → v.link.server.proxy.isStart = false → .freeReq ∉ v.ctlToServer
  announced : ∀ conn, v.link.server.peer = some conn → conn.closing = true →
    v.link.client.starts.length = v.link.server.starts.length →
    v.ctlToClient ≠ [] ∨ v.link.client.proxy.theoreticalTotalRecvCount ≠ -1

def Parked (v : View) : Prop := v.link.client.proxy.isStart = true → Held v

section Link

variable {cfg : Config} {id : RandStr} {v v' w : View} {event : LinkEvent} {pub loc : EdgeConn}
variable {trailing : List UInt8} {side : End} {msg : ProxyCtlMsg}

theorem parked_of_off (hoff : v.link.client.proxy.isStart = false) : Parked v := fun hon =>
  absurd (hoff.symm.trans hon) Bool.false_ne_true

/-! ## The completion check -/

/-- A started end is reset by the check when it is complete and half closed. -/
theorem settle_isStart_eq_false (hstart : side.proxy.isStart = true) :
    side.settle.proxy.isStart = false ↔
      side.proxy.recvCount = side.proxy.theoreticalTotalRecvCount ∧
        side.proxy.halfClose = true := by
  by_cases hcount : side.proxy.recvCount = side.proxy.theoreticalTotalRecvCount
  · rw [End.settle_eq (ProxyConn.shutdownWhenComplete_of_eq hcount)]
    unfold ProxyConn.shutdownFromRemote ProxyConn.resetConn
    cases hhalf : side.proxy.halfClose with
    | true => simp [hcount]
    | false => simp [hstart]
  · rw [End.settle_eq (ProxyConn.shutdownWhenComplete_of_ne hcount)]
    simp [hstart, hcount]

/-- The check leaves the announced total alone, or takes it back with the reset. -/
theorem settle_theoretical (hstart : side.settle.proxy.isStart = true) :
    side.settle.proxy.theoreticalTotalRecvCount = side.proxy.theoreticalTotalRecvCount := by
  by_cases hcount : side.proxy.recvCount = side.proxy.theoreticalTotalRecvCount
  · rw [End.settle_eq (ProxyConn.shutdownWhenComplete_of_eq hcount)] at hstart ⊢
    unfold ProxyConn.shutdownFromRemote ProxyConn.resetConn at hstart ⊢
    dsimp only at hstart ⊢
    split at hstart
    · cases hstart
    · next hhalf => simp [hhalf]
  · rw [End.settle_eq (ProxyConn.shutdownWhenComplete_of_ne hcount)]

/-- The server's check on a connection whose session ends in order. -/
theorem parked_of_serverCheck {notices : List Nat} {total : Option Nat}
    (hunsettled : Unsettled w.link.server pub loc [] w.link.toServer notices total)
    (hdown : EndInv w.link.client loc pub [] w.link.toClient w.ctlToClient)
    (hstarts : w.link.client.starts.length = w.link.server.starts.length) (hmapped : w.mapped = 1)
    (hparked : Parked w)
    (horder : w.link.server.proxy.recvCount = w.link.server.proxy.theoreticalTotalRecvCount →
      w.link.server.proxy.halfClose = true → w.link.toClient = [] ∧ w.ctlToClient = []) :
    Parked w.shutdownPublicConn := by
  rw [View.shutdownPublicConn_eq hunsettled hmapped]
  intro hon
  have hheld : Held w := hparked hon
  cases hstart : w.link.server.settle.proxy.isStart with
  | true =>
      exact { hheld with
        free := hheld.free
        waiting := hheld.waiting
        heard := by
          intro htheo
          simp only [settle_theoretical hstart] at htheo
          exact hheld.heard htheo
        reset := fun _ hoff => absurd (hoff.symm.trans hstart) Bool.false_ne_true
        announced := hheld.announced }
  | false =>
      obtain ⟨hcount, hhalf⟩ := (settle_isStart_eq_false hunsettled.isStart).mp hstart
      obtain ⟨hbytes, hnotices⟩ := horder hcount hhalf
      have hpub : pub.closing = true := hunsettled.halfClose.symm.trans hhalf
      have hloc := (hunsettled.sound.complete (hunsettled.complete_iff.mpr hcount)).1
      rw [hbytes, hnotices] at hdown
      have hresting := hdown.resting_of_heard (fun _ => (hheld.announced pub hunsettled.peer hpub
        hstarts).resolve_left (by simp [hnotices])) hloc
      exact absurd (hresting.idle.isStart.symm.trans hon) Bool.false_ne_true

/-- A check that completes a half-closed session too early frees the connection of
a started client. -/
theorem free_of_serverCheck {notices : List Nat} {total : Option Nat}
    (hunsettled : Unsettled w.link.server pub loc [] w.link.toServer notices total)
    (hdown : EndInv w.link.client loc pub [] w.link.toClient w.ctlToClient) (hmapped : w.mapped = 1)
    (hcount : w.link.server.proxy.recvCount = w.link.server.proxy.theoreticalTotalRecvCount)
    (hhalf : w.link.server.proxy.halfClose = true)
    (hpending : ¬ (w.link.toClient = [] ∧ w.ctlToClient = [])) :
    0 < w.shutdownPublicConn.free ∧
      w.shutdownPublicConn.link.client.proxy.isStart = true := by
  have hoff := (settle_isStart_eq_false hunsettled.isStart).mpr ⟨hcount, hhalf⟩
  rw [View.shutdownPublicConn_eq hunsettled hmapped]
  constructor
  · simp [hoff]
  · rcases hdown with ⟨total, hactive⟩ | hresting
    · exact hactive.isStart
    · exact absurd ⟨hresting.flight, hresting.notices⟩ hpending

/-! ## The steps of one connection -/

theorem Held.rest_eq_nil (hheld : Held v) {count : Nat} {rest : List Notice}
    (hctl : v.ctlToServer = .shutdownPeer count :: rest) : rest = [] :=
  hheld.last [] count rest hctl

theorem Held.dropNotice (hheld : Held v) {notice : Notice} {rest : List Notice}
    (hctl : v.ctlToServer = notice :: rest) : Held { v with ctlToServer := rest } where
  free := hheld.free
  waiting := hheld.waiting
  last := by
    intro first count others heq
    refine hheld.last (notice :: first) count others ?_
    rw [hctl, List.cons_append]
    exact congrArg _ heq
  heard := fun htheo hmem => hheld.heard htheo (hctl ▸ List.mem_cons_of_mem _ hmem)
  reset := fun hmapped hoff hmem => hheld.reset hmapped hoff (hctl ▸ List.mem_cons_of_mem _ hmem)
  announced := hheld.announced

/-- The server forwards bytes of the session, up to its completion check. -/
theorem Held.forwardAtServer (hheld : Held v) (count : Nat) :
    Held (v.mapLink fun link => link.forwardAtServer count) :=
  { hheld with
    announced := by
      intro conn hpeer hclosing hstarts
      simp only [View.mapLink_link, Link.forwardAtServer, End.forward, Option.map_eq_some_iff] at hpeer
      obtain ⟨pub, hpub, rfl⟩ := hpeer
      exact hheld.announced pub hpub hclosing hstarts }

/-- The server is told the total of the session, up to its completion check. -/
theorem Held.hearAtServer (hheld : Held v) {tranCount : Nat} {rest : List Notice}
    (hctl : v.ctlToServer = .shutdownPeer tranCount :: rest) :
    Held (({ v with ctlToServer := rest } : View).mapLink fun link =>
      link.mapServer fun conn => conn.incrTheoreticalTotalRecvCount tranCount) := by
  have hnone := hheld.rest_eq_nil hctl
  subst hnone
  exact {
    free := hheld.free
    waiting := hheld.waiting
    last := (hheld.dropNotice hctl).last
    heard := fun _ => List.not_mem_nil
    reset := fun _ _ => List.not_mem_nil
    announced := hheld.announced }

theorem parked_of_forwardAtServer (hlevel : Level id v pub loc trailing) (hparked : Parked v)
    (hstart : v.link.server.proxy.isStart = true) {count : Nat} (hsplice : SpliceLen count)
    (hcount : count ≤ v.link.toServer.length)
    (hfits : v.link.server.proxy.recvCount + count ≤ intMax)
    (horder : v.InOrder (.serverRead count)) :
    Parked (v.mapLink fun link => link.forwardAtServer count).shutdownPublicConn := by
  obtain ⟨total, hactive⟩ := hlevel.up.active_of_isStart hstart
  have hmapped := hlevel.mapped hstart
  obtain ⟨_, _, _, rfl⟩ := hlevel.of_mapped (by omega)
  have hunsettled := hactive.forward (Or.inl rfl) hsplice.1 hcount hfits
  refine @parked_of_serverCheck (v.mapLink fun link => link.forwardAtServer count) _ _ _ _
    hunsettled (hlevel.down.withOther rfl rfl) hlevel.starts hmapped
    (fun hon => (hparked hon).forwardAtServer count) ?_
  intro hcomplete hhalf
  refine horder ⟨hstart, ?_⟩ hhalf
  have hrecv : v.link.server.proxy.recvCount + count =
      (v.link.server.forward (v.link.toServer.take count)).proxy.recvCount := by
    rw [hunsettled.recvCount, hactive.recvCount, List.length_append,
      List.length_take_of_le hcount, Int.natCast_add]
  exact hrecv.trans hcomplete

theorem parked_of_hearAtServer (hinv : LinkInv cfg id v) (hparked : Parked v) {tranCount : Nat}
    {rest : List Notice} (hctl : v.ctlToServer = .shutdownPeer tranCount :: rest)
    (horder : v.InOrder (.serverNotice (.shutdownPeer tranCount))) :
    Parked (View.handleShutdownPublicConn { v with ctlToServer := rest } tranCount) := by
  unfold View.handleShutdownPublicConn
  split
  · exact fun hon => (hparked hon).dropNotice hctl
  · next hmapped =>
      simp only at hmapped
      obtain ⟨pub, loc, trailing, hlevel⟩ := hinv.level_of_home (by omega)
      obtain ⟨hone, _, _, rfl⟩ := hlevel.of_mapped hmapped
      have hnotices : totals v.ctlToServer = tranCount :: totals rest := by
        rw [hctl, totals_shutdownPeer]
      rcases hlevel.up with ⟨total, hactive⟩ | hresting
      · rw [hnotices] at hactive
        have hunsettled := hactive.hear hlevel.locCounted rfl
        refine @parked_of_serverCheck (({ v with ctlToServer := rest } : View).mapLink fun link =>
          link.mapServer fun conn => conn.incrTheoreticalTotalRecvCount tranCount) _ _ _ _
          hunsettled hlevel.down hlevel.starts hone (fun hon => (hparked hon).hearAtServer hctl) ?_
        intro hcomplete hhalf
        simp only [View.mapLink_link, Link.mapServer, End.mapProxy,
          ProxyConn.incrTheoreticalTotalRecvCount_recvCount,
          ProxyConn.incrTheoreticalTotalRecvCount_halfClose] at hcomplete hhalf
        exact horder ⟨hmapped, hcomplete⟩ hhalf
      · simp [hresting.notices] at hnotices

/-- The end of the public stream is announced to the client. -/
theorem parked_of_closeAtServer (hlevel : Level id v pub loc trailing) (hparked : Parked v)
    (hopen : pub.closing = false) :
    Parked ((v.shutdownFromPublic (uint32 pub.tranCount)).mapLink fun link =>
      { link with server := link.server.close }) := by
  obtain ⟨⟨total, hactive⟩, hmapped⟩ := hlevel.mapped_of_pub_open hopen
  have hfound : ¬ v.mapped = 0 := by omega
  simp only [View.shutdownFromPublic, if_neg hfound]
  intro hon
  have hheld : Held v := hparked hon
  simp only [ProxyConn.shutdownFromLocal]
  cases hhalf : v.link.server.proxy.halfClose with
  | false =>
      exact { hheld with
        free := hheld.free
        waiting := hheld.waiting
        heard := by simpa [View.mapLink, Link.mapServer, End.mapProxy, End.close, hhalf] using
          hheld.heard
        reset := by simpa [View.mapLink, Link.mapServer, End.mapProxy, End.close, hhalf] using
          hheld.reset
        announced := fun _ _ _ _ => Or.inl (by simp [View.mapLink]) }
  | true =>
      -- the server has heard of the local close, behind which nothing was left
      have hcomplete := (hactive.halfClose.mp hhalf).resolve_left (by simp [hopen])
      have hheard : v.link.server.proxy.theoreticalTotalRecvCount ≠ -1 := by
        rw [← hactive.complete_iff.mp hcomplete, hactive.recvCount]
        omega
      exact { hheld with
        free := hheld.free
        waiting := hheld.waiting
        heard := fun _ => hheld.heard hheard
        reset := fun _ _ => hheld.heard hheard
        announced := fun _ _ _ _ => Or.inl (by simp [View.mapLink]) }

theorem parked_of_freeProxyConn (hparked : Parked v)
    (hreset : v.link.client.proxy.isStart = true → v.mapped ≠ 0 →
      v.link.server.proxy.isStart = true) : Parked v.freeProxyConn := by
  unfold View.freeProxyConn
  split
  · exact hparked
  · next hcond =>
      push Not at hcond
      exact fun hon => absurd (hreset hon hcond.1) hcond.2

theorem parked_of_freeAtServer (hparked : Parked v) {rest : List Notice}
    (hctl : v.ctlToServer = .freeReq :: rest) :
    Parked (View.freeProxyConn { v with ctlToServer := rest }) := by
  apply parked_of_freeProxyConn
  · exact fun hon => (hparked hon).dropNotice hctl
  · intro hon hmapped
    cases hstart : v.link.server.proxy.isStart with
    | true => rfl
    | false =>
        have hnone := (hparked hon).reset hmapped hstart
        exact absurd (hctl ▸ List.mem_cons_self) hnone

theorem parked_of_clientCheck {notices : List Nat} {total : Option Nat}
    (hunsettled : Unsettled w.link.client loc pub trailing w.link.toClient notices total)
    (hparked : Parked w) : Parked w.shutdonwLocalConn := by
  rw [View.shutdonwLocalConn_eq hunsettled]
  intro hon
  have hheld := hparked hunsettled.isStart
  simp only at hon
  simp only [hon, if_true, List.append_nil]
  exact { hheld with
    announced := by
      simp only [settle_theoretical hon]
      exact hheld.announced }

theorem parked_of_hearAtClient (hinv : LinkInv cfg id v) (hparked : Parked v) {tranCount : Nat}
    {rest : List Nat} (hctl : v.ctlToClient = tranCount :: rest) :
    Parked (View.handleShutdownLocalConn { v with ctlToClient := rest } tranCount) := by
  unfold View.handleShutdownLocalConn
  cases hinv with
  | unused hunused => simp [hunused] at hctl
  | ahead loc msg hahead => simp [hahead.ctlToClient_eq_nil] at hctl
  | level pub loc trailing hlevel =>
      rcases hlevel.down with ⟨total, hactive⟩ | hresting
      · have hunsettled := hactive.hear hlevel.pubCounted hctl
        refine @parked_of_clientCheck (({ v with ctlToClient := rest } : View).mapLink fun link =>
          link.mapClient fun conn => conn.incrTheoreticalTotalRecvCount tranCount) _ _ _ _ _
          hunsettled ?_
        intro _
        have hheld := hparked hactive.isStart
        exact { hheld with
          announced := by
            intro conn _ _ _
            refine Or.inr ?_
            have htheo := hunsettled.theoretical
            simp only [View.mapLink_link, Link.mapClient]
            rw [htheo, totalOf]
            omega }
      · simp [hresting.notices] at hctl

theorem parked_of_forwardAtClient (hinv : LinkInv cfg id v) (hparked : Parked v)
    (hstart : v.link.client.proxy.isStart = true) {count : Nat} (hsplice : SpliceLen count)
    (hcount : count ≤ v.link.toClient.length)
    (hfits : v.link.client.proxy.recvCount + count ≤ intMax) :
    Parked (v.mapLink fun link => link.forwardAtClient count).shutdonwLocalConn := by
  have hpositive := hsplice.1
  cases hinv with
  | unused hunused => simp [hunused] at hstart
  | ahead loc msg hahead =>
      rw [hahead.toClient_eq_nil, List.length_nil] at hcount
      omega
  | level pub loc trailing hlevel =>
      obtain ⟨total, hactive⟩ := hlevel.down.active_of_isStart hstart
      have hunsettled := hactive.forward hlevel.trailing_or_closing hpositive hcount hfits
      exact @parked_of_clientCheck (v.mapLink fun link => link.forwardAtClient count) _ _ _ _ _
        hunsettled fun _ => { hparked hstart with }

theorem parked_of_startServer (hahead : Ahead cfg id v loc msg) (hparked : Parked v)
    (hwaiting : v'.waiting = 0) (hlink : v'.link.client = v.link.client)
    (hfree : v'.free = v.free) (hctl : v'.ctlToServer = v.ctlToServer)
    (hstart : v'.link.server.proxy.isStart = true)
    (htheo : v'.link.server.proxy.theoreticalTotalRecvCount =
      v.link.server.proxy.theoreticalTotalRecvCount)
    (hpeer : ∀ conn, v'.link.server.peer = some conn → conn.closing = false) : Parked v' := by
  intro hon
  rw [hlink] at hon
  have hheld := hparked hon
  exact {
    free := hfree.trans hheld.free
    waiting := fun _ => hwaiting
    last := by
      rw [hctl]
      exact hheld.last
    heard := by
      intro hne
      exact absurd (htheo.trans hahead.server.theoreticalTotalRecvCount) hne
    reset := fun _ hoff => absurd (hoff.symm.trans hstart) Bool.false_ne_true
    announced := fun conn hconn hclosing => by simp [hpeer conn hconn] at hclosing }

/-- A client that starts again has nothing of its own under way. -/
theorem parked_of_startAtClient (hinv : LinkInv cfg id v) (hcreated : v.created = true)
    (hstart : v.link.client.proxy.isStart = false) {publicFd : Fd}
    (hframe : v.link.toClient = (ProxyCtlMsg.startProxyConnReq publicFd id.chars).wire)
    (localFd : Fd) :
    Parked (v.mapLink fun link => { link with toClient := [] }.sendAndStart
      (.startProxyConnRsp publicFd id.chars) localFd) := by
  intro _
  cases hinv with
  | unused hunused => simp [hunused] at hcreated
  | ahead loc msg hahead => simp [(hahead.down 0).isStart] at hstart
  | level pub loc trailing hlevel =>
      have hclient := hlevel.down.resting_of_not_isStart hstart
      have hwaiting : v.waiting = 1 := by
        rcases hlevel.requested with ⟨_, hnone⟩ | ⟨hone, _⟩
        · exact absurd (hframe.symm.trans (hclient.flight.trans hnone)) (ProxyCtlMsg.wire_ne_nil _)
        · exact hone
      have hserver := hlevel.resting_of_waiting hwaiting
      have hhome := hlevel.home
      have hstarts : (v.link.client.starts ++ [localFd]).length ≠ v.link.server.starts.length := by
        rw [List.length_append, hlevel.starts, List.length_singleton]
        omega
      exact {
        free := by
          simp only [View.mapLink]
          omega
        waiting := fun heq => absurd heq hstarts
        last := by
          intro first count rest hctl
          have hnone : totals v.ctlToServer = [] := hserver.notices
          have hsome : v.ctlToServer = first ++ .shutdownPeer count :: rest := hctl
          simp [hsome] at hnone
        heard := fun hne => absurd hserver.idle.theoreticalTotalRecvCount hne
        reset := by
          intro hmapped
          simp only [View.mapLink] at hmapped
          omega
        announced := fun _ _ _ heq => absurd heq hstarts }

/-- The server has not heard of a session whose local side is still open. -/
theorem LinkInv.unheard (hinv : LinkInv cfg id v) (hpeer : v.link.client.peer = some loc)
    (hopen : loc.closing = false) :
    v.link.server.proxy.theoreticalTotalRecvCount = -1 ∧ totals v.ctlToServer = [] ∧
      (v.mapped ≠ 0 → v.link.server.proxy.isStart = true) := by
  cases hinv with
  | unused hunused => simp [hunused] at hpeer
  | ahead conn msg hahead =>
      obtain rfl : conn = loc := Option.some.inj ((hahead.down 0).peer.symm.trans hpeer)
      refine ⟨hahead.server.theoreticalTotalRecvCount, (hahead.up 0).notices_eq_nil hopen, ?_⟩
      exact fun hmapped => absurd hahead.mapped hmapped
  | level pub conn trailing hlevel =>
      obtain rfl : conn = loc := Option.some.inj (hlevel.down.peer.symm.trans hpeer)
      obtain ⟨total, hactive⟩ := hlevel.up.active_of_other_open hopen
      refine ⟨?_, hactive.sound.notices_eq_nil hopen, fun _ => hactive.isStart⟩
      rw [hactive.theoretical, show total = none from hactive.sound.total_eq_none hopen]
      rfl

theorem parked_of_closeAtClient (hinv : LinkInv cfg id v) (hparked : Parked v)
    (hpeer : v.link.client.peer = some loc) (hopen : loc.closing = false) (tranCount : Nat) :
    Parked ((v.shutdownFromLocal tranCount).mapLink fun link =>
      { link with client := link.client.close }) := by
  obtain ⟨htheo, hnone, hmapped⟩ := hinv.unheard hpeer hopen
  intro hon
  have hkept : v.link.client.proxy.isStart = true ∧
      v.link.client.proxy.shutdownFromLocal.1.theoreticalTotalRecvCount =
        v.link.client.proxy.theoreticalTotalRecvCount := by
    have hstart : v.link.client.proxy.shutdownFromLocal.1.isStart = true := hon
    unfold ProxyConn.shutdownFromLocal at hstart ⊢
    split at hstart
    · cases hstart
    · next hhalf => simpa [hhalf] using hstart
  have hheld := hparked hkept.1
  exact {
    free := hheld.free
    waiting := hheld.waiting
    last := by
      intro first count rest hctl
      have hsplit : v.ctlToServer ++ [.shutdownPeer tranCount] =
          first ++ .shutdownPeer count :: rest := hctl
      rcases List.eq_nil_or_concat rest with hnil | ⟨others, final, rfl⟩
      · exact hnil
      · rw [List.concat_eq_append, ← List.cons_append, ← List.append_assoc] at hsplit
        have hfront := (List.append_inj' hsplit rfl).1
        simp [hfront] at hnone
    heard := fun hne => absurd htheo hne
    reset := fun hleft hoff => absurd (hoff.symm.trans (hmapped hleft)) Bool.false_ne_true
    announced := by
      intro conn hconn hclosing hstarts
      have hannounced := hheld.announced conn hconn hclosing hstarts
      rw [← hkept.2] at hannounced
      exact hannounced }

theorem Parked.step (hparked : Parked v) (hinv : LinkInv cfg id v)
    (hstep : LinkStep cfg id v event v') (hstray : event ≠ .strayFreeReq)
    (horder : v.InOrder event) : Parked v' := by
  cases hstep with
  | stay | reclosedAtServer | reclosedAtClient => exact hparked
  | connect proxyFd localFd hcreated =>
      have hunused := hinv.eq_unused hcreated
      subst hunused
      exact fun _ => ⟨rfl, fun _ => rfl, by simp [View.connect], fun _ => List.not_mem_nil,
        fun _ _ => List.not_mem_nil, fun conn hpeer => by
          simp [View.connect, Link.sendAndStart] at hpeer⟩
  | accept acceptFd hcreated haccepted =>
      cases hinv with
      | unused hunused => simp [hunused] at hcreated
      | ahead loc msg hahead =>
          intro hon
          have hheld : Held v := hparked hon
          exact { hheld with
            heard := fun hne => absurd rfl hne
            reset := fun hmapped _ => hheld.reset hmapped hahead.server.isStart
            announced := hheld.announced }
      | level pub loc trailing hlevel => simp [hlevel.accepted] at haccepted
  | request publicFd hfree =>
      intro hon
      have hnone := (hparked hon).free
      omega
  | claim count publicFd rest haccepted hclaimed =>
      cases hinv with
      | unused hunused => simp [hunused] at haccepted
      | ahead loc msg hahead =>
          refine parked_of_startServer hahead hparked ?_ rfl rfl rfl rfl rfl ?_
          · exact (LinkInv.ahead loc msg hahead).waiting_of_unclaimed hclaimed
          · rintro conn hpeer
            obtain rfl := Option.some.inj hpeer
            rfl
      | level pub loc trailing hlevel => simp [hlevel.claimed] at hclaimed
  | bind count publicFd rest hwaiting hclaimed hstart hreq hframe =>
      cases hinv with
      | unused hunused => simp [hunused] at hwaiting
      | ahead loc msg hahead =>
          refine parked_of_startServer hahead hparked rfl rfl rfl rfl rfl rfl ?_
          rintro conn hpeer
          obtain rfl := Option.some.inj hpeer
          rfl
      | level pub loc trailing hlevel =>
          rw [(hlevel.resting_of_waiting hwaiting).flight] at hframe
          exact absurd (List.append_eq_nil_iff.mp hframe.symm).1 (ProxyCtlMsg.wire_ne_nil _)
  | forwardAtServer count hstart hsplice hcount hfits =>
      obtain ⟨pub, loc, trailing, hlevel⟩ := hinv.level_of_isStart hstart
      exact parked_of_forwardAtServer hlevel hparked hstart hsplice hcount hfits horder
  | relayAtServer conn bytes hpeer hopen =>
      intro hon
      have hheld : Held v := hparked hon
      exact { hheld with
        announced := by
          intro other hother hclosing
          simp only [View.mapLink_link, Link.relayAtServer, End.relay, hpeer, Option.map_some,
            Option.some.injEq] at hother
          subst hother
          simp [hopen] at hclosing }
  | closeAtServer conn hpeer hopen =>
      cases hinv with
      | unused hunused => simp [hunused] at hpeer
      | ahead loc msg hahead => simp [hahead.publicClosed conn hpeer] at hopen
      | level pub loc trailing hlevel =>
          obtain rfl : pub = conn := Option.some.inj (hlevel.up.peer.symm.trans hpeer)
          exact parked_of_closeAtServer hlevel hparked hopen
  | hearAtServer tranCount rest hctl => exact parked_of_hearAtServer hinv hparked hctl horder
  | freeAtServer rest hctl => exact parked_of_freeAtServer hparked hctl
  | strayFreeReq => exact absurd rfl hstray
  | hearAtClient tranCount rest hcreated hctl => exact parked_of_hearAtClient hinv hparked hctl
  | startAtClient count localFd publicFd hlocal hcreated hstart hreq hfd hframe =>
      exact parked_of_startAtClient hinv hcreated hstart hframe localFd
  | forwardAtClient count localFd hstart hsplice hcount hfits =>
      exact parked_of_forwardAtClient hinv hparked hstart hsplice hcount hfits
  | relayAtClient conn bytes => exact fun hon => { hparked hon with }
  | closeAtClient conn hpeer hopen => exact parked_of_closeAtClient hinv hparked hpeer hopen _

/-- A session the server completes out of order frees the connection of a started client. -/
theorem free_of_not_inOrder (hinv : LinkInv cfg id v) (hstep : LinkStep cfg id v event v')
    (horder : ¬ v.InOrder event) :
    0 < v'.free ∧ v'.link.client.proxy.isStart = true := by
  unfold View.InOrder at horder
  push Not at horder
  obtain ⟨hcompletes, hhalf, hpending⟩ := horder
  cases hstep with
  | forwardAtServer count hstart hsplice hcount hfits =>
      obtain ⟨pub, loc, trailing, hlevel⟩ := hinv.level_of_isStart hstart
      obtain ⟨total, hactive⟩ := hlevel.up.active_of_isStart hstart
      have hmapped := hlevel.mapped hstart
      obtain ⟨_, _, _, rfl⟩ := hlevel.of_mapped (by omega)
      have hunsettled := hactive.forward (Or.inl rfl) hsplice.1 hcount hfits
      have hrecv : v.link.server.proxy.recvCount + count =
          (v.link.server.forward (v.link.toServer.take count)).proxy.recvCount := by
        rw [hunsettled.recvCount, hactive.recvCount, List.length_append,
          List.length_take_of_le hcount, Int.natCast_add]
      exact @free_of_serverCheck (v.mapLink fun link => link.forwardAtServer count) _ _ _ _
        hunsettled (hlevel.down.withOther rfl rfl) hmapped (hrecv.symm.trans hcompletes.2) hhalf
        (not_and.mpr hpending)
  | hearAtServer tranCount rest hctl =>
      obtain ⟨hmapped, hcount⟩ := hcompletes
      obtain ⟨pub, loc, trailing, hlevel⟩ := hinv.level_of_home (by omega)
      obtain ⟨hone, _, _, rfl⟩ := hlevel.of_mapped hmapped
      have hnotices : totals v.ctlToServer = tranCount :: totals rest := by
        rw [hctl, totals_shutdownPeer]
      rcases hlevel.up with ⟨total, hactive⟩ | hresting
      · rw [hnotices] at hactive
        have hunsettled := hactive.hear hlevel.locCounted rfl
        simp only [View.handleShutdownPublicConn, if_neg hmapped]
        refine @free_of_serverCheck (({ v with ctlToServer := rest } : View).mapLink fun link =>
          link.mapServer fun conn => conn.incrTheoreticalTotalRecvCount tranCount) _ _ _ _
          hunsettled hlevel.down hone ?_ ?_ (not_and.mpr hpending)
        · simpa [Link.mapServer, End.mapProxy] using hcount
        · simpa [Link.mapServer, End.mapProxy] using hhalf
      · simp [hresting.notices] at hnotices
  | claim count publicFd rest haccepted hclaimed hstart =>
      exact absurd (hstart.symm.trans hcompletes.1) Bool.false_ne_true
  | bind count publicFd rest hwaiting hclaimed hstart =>
      exact absurd (hstart.symm.trans hcompletes.1) Bool.false_ne_true
  | stay | reclosedAtServer | reclosedAtClient | connect | accept | request | relayAtServer
  | closeAtServer | freeAtServer | strayFreeReq | hearAtClient | startAtClient | forwardAtClient
  | relayAtClient | closeAtClient =>
      exact hcompletes.elim

end Link

/-! ## The whole tunnel -/

/-- The client's end of a free connection is idle. -/
def IdleWhenFree (s : System) : Prop :=
  ∀ id ∈ s.freeProxyConns, (s.link id).client.proxy.isStart = false

/-- A request that the client has not answered is all that is on its way to the
client, which reads it in idle mode. -/
def RequestReadIdle (s : System) : Prop :=
  ∀ id, 0 < occurrences s.waitForStartProxyConnMap id →
    (s.link id).client.starts.length = (s.link id).server.starts.length →
    (s.link id).client.proxy.isStart = false ∧
      ∃ publicFd, (s.link id).reqFd = some publicFd ∧
        (s.link id).toClient = (ProxyCtlMsg.startProxyConnReq publicFd id.chars).wire

/-- Every session the server completes with this event is completed in order. -/
def FreedInOrder (s : System) (event : Event) : Prop :=
  ∀ id, (s.view id).InOrder (event.about s id)

variable {cfg : Config} {s s' : System} {event : Event}

/-- The server completes no session with an event that is not one of its reads. -/
theorem freedInOrder_of_event (hread : ∀ id count, event ≠ .serverProxyRead id count)
    (hctl : event ≠ .serverCtlRead) : FreedInOrder s event := by
  intro id hcompletes
  obtain ⟨hnoRead, hnoNotice⟩ := about_ne_serverRead hread hctl id
  unfold View.Completes at hcompletes
  split at hcompletes
  · next heq => exact absurd heq (hnoRead _)
  · next heq => exact absurd heq (hnoNotice _)
  · exact hcompletes.elim

structure ParkedSystem (cfg : Config) (s : System) : Prop where
  wellFormed : WellFormed cfg s
  parked : ∀ id, Parked (s.view id)

theorem about_ne_strayFreeReq (hstray : ∀ proxyId, event ≠ .strayFreeReq proxyId) (id : RandStr) :
    event.about s id ≠ .strayFreeReq := by
  cases event with
  | strayFreeReq proxyId => exact absurd rfl (hstray proxyId)
  | newPublicConn other | newProxyConn other | serverProxyRead other | publicRead other
  | clientProxyRead other | localRead other =>
      simp only [Event.about]
      split <;> simp
  | serverCtlRead =>
      simp only [Event.about]
      split <;> simp
  | clientCtlRead other proxyFd localFd =>
      simp only [Event.about]
      split
      · split <;> simp
      · split <;> simp
      · simp

theorem ParkedSystem.step (hparked : ParkedSystem cfg s) (horder : FreedInOrder s event)
    (hstep : ownStep cfg s event = some s') : ParkedSystem cfg s' := by
  obtain ⟨hnext, hstray⟩ := step_of_ownStep hstep
  have hlinks := (step_simulated hparked.wellFormed hnext).links
  refine ⟨hparked.wellFormed.step hnext, fun id => ?_⟩
  exact (hparked.parked id).step (hparked.wellFormed.inv id) (hlinks id)
    (about_ne_strayFreeReq hstray id) (horder id)

theorem ParkedSystem.idleWhenFree (hparked : ParkedSystem cfg s) : IdleWhenFree s := by
  intro id hfree
  cases hstart : (s.link id).client.proxy.isStart with
  | false => rfl
  | true =>
      have hnone : s.freeProxyConns.count id = 0 := (hparked.parked id hstart).free
      exact absurd hfree (List.count_eq_zero.mp hnone)

theorem ParkedSystem.requestReadIdle (hparked : ParkedSystem cfg s) : RequestReadIdle s := by
  intro id hwaiting hstarts
  have hsome : 0 < (s.view id).waiting := hwaiting
  have hoff : (s.link id).client.proxy.isStart = false := by
    cases hstart : (s.link id).client.proxy.isStart with
    | false => rfl
    | true =>
        have hnone := (hparked.parked id hstart).waiting hstarts
        omega
  refine ⟨hoff, ?_⟩
  cases hparked.wellFormed.inv id with
  | unused hunused => simp [hunused] at hsome
  | ahead loc msg hahead =>
      have hlength := hahead.starts
      rw [view_link] at hlength
      omega
  | level pub loc trailing hlevel =>
      have hflight := (hlevel.down.resting_of_not_isStart hoff).flight
      rcases hlevel.requested with ⟨hnone, _⟩ | ⟨_, publicFd, _, hreq, hframe⟩
      · omega
      · exact ⟨publicFd, hreq, hflight.trans hframe⟩

theorem not_idleWhenFree_of_not_inOrder (hparked : ParkedSystem cfg s)
    (hstep : ownStep cfg s event = some s') (horder : ¬ FreedInOrder s event) :
    ¬ IdleWhenFree s' := by
  unfold FreedInOrder at horder
  push Not at horder
  obtain ⟨id, hout⟩ := horder
  have hlinks := (step_simulated hparked.wellFormed (step_of_ownStep hstep).1).links
  obtain ⟨hfree, hstart⟩ := free_of_not_inOrder (hparked.wellFormed.inv id) (hlinks id) hout
  intro hidle
  have hoff := hidle id (List.count_pos_iff.mp hfree)
  exact absurd (hoff.symm.trans hstart) Bool.false_ne_true

theorem parkedSystem_init (cfg : Config) : ParkedSystem cfg System.init where
  wellFormed := wellFormed_init cfg
  parked := by
    intro id
    apply parked_of_off
    rw [view_init]

/-- In a run of the tunnel the client of every free connection is idle exactly when
the server completes no half-closed session with something still on its way to the
client; then every request reaches a client that reads it as a message. -/
theorem idle_when_free_iff (cfg : Config) (events : List Event) :
    (Visits (ownStep cfg) IdleWhenFree System.init events ↔
      Takes (ownStep cfg) FreedInOrder System.init events) ∧
    (Visits (ownStep cfg) (fun s => IdleWhenFree s ∧ RequestReadIdle s) System.init events ↔
      Takes (ownStep cfg) FreedInOrder System.init events) := by
  have hstep (s : System) (event : Event) (s' : System) (hparked : ParkedSystem cfg s)
      (horder : FreedInOrder s event) (hnext : ownStep cfg s event = some s') :
      ParkedSystem cfg s' := hparked.step horder hnext
  constructor
  · apply visits_iff_takes hstep
    · exact fun s hparked => hparked.idleWhenFree
    · exact fun s event s' hparked hnext hout => not_idleWhenFree_of_not_inOrder hparked hnext hout
    · exact parkedSystem_init cfg
  · apply visits_iff_takes hstep
    · exact fun s hparked => ⟨hparked.idleWhenFree, hparked.requestReadIdle⟩
    · intro s event s' hparked hnext hout hgood
      exact not_idleWhenFree_of_not_inOrder hparked hnext hout hgood.1
    · exact parkedSystem_init cfg

/-- Both sides close before either has heard of it. The server hears first, frees
the connection and gives it to the next public connection. -/
def sampleCrossing : List Event :=
  sampleStart ++ [.localRead sampleId [], .publicRead sampleId [], .serverCtlRead]

set_option maxRecDepth 10000 in
/-- The connection is free while its client forwards, and the request the server
then sends on it is spliced to the local server. -/
theorem not_idle_when_free :
    ¬ (∀ cfg events, Visits (ownStep cfg) IdleWhenFree System.init events) ∧
    ((sampleAfter (sampleCrossing ++ [.newPublicConn 7, .clientProxyRead sampleId 24 12])).link
        sampleId).client.peer.map EdgeConn.written =
      some (ProxyCtlMsg.startProxyConnReq 7 sampleId.chars).wire := by
  refine ⟨fun hvisits => ?_, by decide⟩
  obtain ⟨final, hfinal⟩ := Option.isSome_iff_exists.mp
    (show (run (ownStep sampleConfig) System.init sampleCrossing).isSome = true by decide)
  have hidle := hvisits sampleConfig sampleCrossing sampleCrossing final (List.prefix_refl _) hfinal
  have hfree : (run (ownStep sampleConfig) System.init sampleCrossing).map
      (fun s => (s.freeProxyConns, (s.link sampleId).client.proxy.isStart)) =
        some ([sampleId], true) := by decide
  rw [hfinal, Option.map_some, Option.some.injEq, Prod.mk.injEq] at hfree
  have hoff := hidle sampleId (by simp [hfree.1])
  exact absurd (hoff.symm.trans hfree.2) Bool.false_ne_true

end CProxy
