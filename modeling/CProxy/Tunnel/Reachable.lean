import CProxy.Tunnel.Simulation

/-! # Runs of the tunnel are runs of its connections

The state invariant, kept by every event together with the invariant of each
connection. The conclusion for whole runs is `Reachable.wellFormed`.
-/

namespace CProxy

open Foundation Wire

/-- An unclaimed connection sits in the bucket of its descriptor, under that descriptor. -/
def UnclaimedKeyed (s : System) : Prop :=
  ∀ idx key id, (s.unclaimed idx).lookup key = some id →
    idx = unclaimedIndex key ∧ key = (s.link id).server.proxy.fd ∧
      (s.link id).accepted = true ∧ key ∈ s.accepted

structure WellFormed (cfg : Config) (s : System) : Prop where
  keyed : Keyed s
  unclaimed : UnclaimedKeyed s
  inv : ∀ id, LinkInv cfg id (s.view id)

/-- What one event does, connection by connection. -/
structure Simulated (cfg : Config) (s : System) (event : Event) (s' : System) : Prop where
  links : ∀ id, LinkStep cfg id (s.view id) (event.about s id) (s'.view id)
  keyed : Keyed s'
  unclaimed : UnclaimedKeyed s'

variable {cfg : Config} {s s' : System} {id : RandStr} {event : Event}

/-! ## What a step leaves alone -/

@[simp] theorem shutdownWhenComplete_fd (conn : ProxyConn) :
    conn.shutdownWhenComplete.1.fd = conn.fd := by
  unfold ProxyConn.shutdownWhenComplete ProxyConn.shutdownFromRemote ProxyConn.resetConn
  dsimp only
  split
  · rfl
  · split <;> rfl

@[simp] theorem shutdownFromLocal_fd (conn : ProxyConn) :
    conn.shutdownFromLocal.1.fd = conn.fd := by
  unfold ProxyConn.shutdownFromLocal ProxyConn.resetConn
  split <;> rfl

@[simp] theorem incrTheoreticalTotalRecvCount_fd (conn : ProxyConn) (count : Nat) :
    (conn.incrTheoreticalTotalRecvCount count).fd = conn.fd := by
  unfold ProxyConn.incrTheoreticalTotalRecvCount
  split <;> rfl

/-- A step other than an accept keeps what the server's end was accepted as. -/
theorem LinkStep.accepted_eq {v v' : View} {about : LinkEvent}
    (hstep : LinkStep cfg id v about v') (haccepted : v.link.accepted = true) :
    v'.link.accepted = true ∧ v'.link.server.proxy.fd = v.link.server.proxy.fd := by
  cases hstep with
  | stay | reclosedAtServer | reclosedAtClient => exact ⟨haccepted, rfl⟩
  | connect | request | claim | bind | startAtClient | relayAtServer | relayAtClient
  | closeAtClient =>
      exact ⟨haccepted, rfl⟩
  | accept acceptFd hcreated hopen => simp [haccepted] at hopen
  | forwardAtServer count =>
      simpa [Link.forwardAtServer, End.settle, End.mapProxy, End.forward,
        ProxyConn.incrRecvCount] using haccepted
  | closeAtServer conn =>
      unfold View.shutdownFromPublic
      split
      · exact ⟨haccepted, rfl⟩
      · simp [View.mapLink, Link.mapServer, End.close, End.mapProxy, haccepted]
  | hearAtServer tranCount rest =>
      unfold View.handleShutdownPublicConn
      split
      · exact ⟨haccepted, rfl⟩
      · simpa [Link.mapServer, End.settle, End.mapProxy] using haccepted
  | freeAtServer rest => simpa using haccepted
  | strayFreeReq => simpa using haccepted
  | hearAtClient tranCount rest =>
      simpa [View.handleShutdownLocalConn, Link.mapClient] using haccepted
  | forwardAtClient count localFd => simpa [Link.forwardAtClient] using haccepted

theorem UnclaimedKeyed.of_links (hunclaimed : UnclaimedKeyed s)
    (hlinks : ∀ id, LinkStep cfg id (s.view id) (event.about s id) (s'.view id))
    (hsame : ∀ idx key id, (s'.unclaimed idx).lookup key = some id →
      (s.unclaimed idx).lookup key = some id)
    (haccepted : ∀ key, key ∈ s.accepted → key ∈ s'.accepted) : UnclaimedKeyed s' := by
  intro idx key id hlookup
  obtain ⟨hidx, hkey, hold, hmem⟩ := hunclaimed idx key id (hsame idx key id hlookup)
  obtain ⟨hnew, hfd⟩ := (hlinks id).accepted_eq hold
  exact ⟨hidx, hkey.trans hfd.symm, hnew, haccepted key hmem⟩

theorem Simulated.of_moves {s₀ : System} {v : View} (hwf : WellFormed cfg s)
    (hviews : ∀ id, s₀.view id = s.view id) (hsame : s₀.unclaimed = s.unclaimed)
    (haccepted : ∀ key, key ∈ s.accepted → key ∈ s₀.accepted) (hmoves : Moves s₀ s' id v)
    (hother : ∀ other, other ≠ id → event.about s other = .stay)
    (hstep : LinkStep cfg id (s.view id) (event.about s id) v) : Simulated cfg s event s' := by
  have hlinks : ∀ other, LinkStep cfg other (s.view other) (event.about s other)
      (s'.view other) := by
    intro other
    by_cases hid : other = id
    · subst hid
      rw [hmoves.self]
      exact hstep
    · rw [hmoves.others other hid, hviews other, hother other hid]
      exact .stay _
  refine ⟨hlinks, hmoves.keyed, hwf.unclaimed.of_links hlinks ?_ ?_⟩
  · intro idx key found hlookup
    rwa [hmoves.unclaimed, hsame] at hlookup
  · intro key hmem
    rw [hmoves.accepted]
    exact haccepted key hmem

theorem Simulated.of_stay (hwf : WellFormed cfg s) (hviews : ∀ id, s'.view id = s.view id)
    (hstay : ∀ id, event.about s id = .stay) (hkeyed : Keyed s')
    (hsame : s'.unclaimed = s.unclaimed)
    (haccepted : ∀ key, key ∈ s.accepted → key ∈ s'.accepted) : Simulated cfg s event s' := by
  have hlinks : ∀ id, LinkStep cfg id (s.view id) (event.about s id) (s'.view id) := by
    intro id
    rw [hviews id, hstay id]
    exact .stay _
  refine ⟨hlinks, hkeyed, hwf.unclaimed.of_links hlinks ?_ haccepted⟩
  intro idx key found hlookup
  rwa [hsame] at hlookup

/-! ## What the invariant says of one end -/

theorem LinkInv.level_of_isStart {v : View} (hinv : LinkInv cfg id v)
    (hstart : v.link.server.proxy.isStart = true) :
    ∃ pub loc trailing, Level id v pub loc trailing := by
  cases hinv with
  | unused hunused => simp [hunused] at hstart
  | ahead loc msg hahead => simp [hahead.server.isStart] at hstart
  | level pub loc trailing hlevel => exact ⟨pub, loc, trailing, hlevel⟩

theorem LinkInv.level_of_home {v : View} (hinv : LinkInv cfg id v)
    (hhome : 0 < v.mapped + v.free) : ∃ pub loc trailing, Level id v pub loc trailing := by
  cases hinv with
  | unused hunused => simp [hunused] at hhome
  | ahead loc msg hahead => simp [hahead.mapped, hahead.free] at hhome
  | level pub loc trailing hlevel => exact ⟨pub, loc, trailing, hlevel⟩

theorem LinkInv.clientName {v : View} (hinv : LinkInv cfg id v) (hcreated : v.created = true) :
    v.link.client.proxy.proxyId = id.chars := by
  cases hinv with
  | unused hunused => simp [hunused] at hcreated
  | ahead loc msg hahead => exact hahead.clientName
  | level pub loc trailing hlevel => exact hlevel.clientName

theorem LinkInv.eq_unused {v : View} (hinv : LinkInv cfg id v) (hcreated : v.created = false) :
    v = {} := by
  cases hinv with
  | unused hunused => exact hunused
  | ahead loc msg hahead => simp [hahead.created] at hcreated
  | level pub loc trailing hlevel => simp [hlevel.created] at hcreated

/-- A connection that is to be read at the client or that the client serves. -/
theorem LinkInv.created_of_peer {v : View} (hinv : LinkInv cfg id v) {conn : EdgeConn}
    (hpeer : v.link.client.peer = some conn) : v.created = true ∧ conn.proxyId = id.chars := by
  cases hinv with
  | unused hunused => simp [hunused] at hpeer
  | ahead loc msg hahead =>
      obtain rfl : loc = conn := Option.some.inj ((hahead.down 0).peer.symm.trans hpeer)
      exact ⟨hahead.created, hahead.locName⟩
  | level pub loc trailing hlevel =>
      obtain rfl : loc = conn := Option.some.inj (hlevel.down.peer.symm.trans hpeer)
      exact ⟨hlevel.created, hlevel.locName⟩

theorem LinkInv.level_of_pub_open {v : View} (hinv : LinkInv cfg id v) {conn : EdgeConn}
    (hpeer : v.link.server.peer = some conn) (hopen : conn.closing = false) :
    conn.proxyId = id.chars := by
  cases hinv with
  | unused hunused => simp [hunused] at hpeer
  | ahead loc msg hahead => simp [hahead.publicClosed conn hpeer] at hopen
  | level pub loc trailing hlevel =>
      obtain rfl : pub = conn := Option.some.inj (hlevel.up.peer.symm.trans hpeer)
      exact hlevel.pubName

/-- A connection that is still to be claimed is not waiting for an answer. -/
theorem LinkInv.waiting_of_unclaimed {v : View} (hinv : LinkInv cfg id v)
    (hclaimed : v.link.claimed = false) : v.waiting = 0 := by
  cases hinv with
  | unused hunused => simp [hunused]
  | ahead loc msg hahead =>
      cases hahead.origin with
      | fresh _ _ hwaiting => exact hwaiting
      | reused publicFd hfd _ hyes => simp [hclaimed] at hyes
  | level pub loc trailing hlevel => simp [hlevel.claimed] at hclaimed

/-! ## The events of the server -/

theorem sim_newPublicConn (hwf : WellFormed cfg s) {acceptFd : Fd} (hfresh : Fresh s acceptFd) :
    Simulated cfg s (.newPublicConn acceptFd) (Server.newPublicConnHandler s acceptFd) := by
  have haccepted : ∀ key, key ∈ s.accepted → key ∈ s.accepted ++ [acceptFd] :=
    fun key hkey => List.mem_append_left _ hkey
  unfold Server.newPublicConnHandler
  cases hlast : s.freeProxyConns.getLast? with
  | none =>
      simp only [hlast]
      refine Simulated.of_stay hwf ?_ ?_ { hwf.keyed with } rfl haccepted
      · intro id
        simp [System.view, CtlMsg.toTotal]
      · intro id
        simp [Event.about, hlast]
  | some id =>
      obtain ⟨others, hsplit⟩ := List.getLast?_eq_some_iff.mp hlast
      have hfree : 0 < (s.view id).free := by simp [System.view, hsplit]
      obtain ⟨pub, loc, trailing, hlevel⟩ := (hwf.inv id).level_of_home (by omega)
      have hkeyed : Keyed { s with
          accepted := s.accepted ++ [acceptFd], freeProxyConns := others } := { hwf.keyed with }
      have hrequest := moves_reqStartProxy hkeyed acceptFd hlevel.serverName
      simp only [hsplit, List.getLast?_concat, List.dropLast_concat]
      have hmoves : Moves { s with accepted := s.accepted ++ [acceptFd] }
          (Server.reqStartProxy { s with
            accepted := s.accepted ++ [acceptFd], freeProxyConns := others } acceptFd id) id
          { (s.view id).mapLink fun link => link.request acceptFd with
            waiting := 1, free := (s.view id).free - 1 } := by
        constructor
        · rw [hrequest.self]
          simp [System.view, View.mapLink, hsplit]
        · intro other hother
          rw [hrequest.others other hother]
          simp [System.view, hsplit, Ne.symm hother]
        · exact hrequest.keyed
        · exact hrequest.unclaimed
        · exact hrequest.accepted
      have hviews (other : RandStr) :
          ({ s with accepted := s.accepted ++ [acceptFd] } : System).view other = s.view other := rfl
      refine Simulated.of_moves hwf hviews rfl haccepted hmoves ?_ ?_
      · intro other hother
        simp [Event.about, hlast, Ne.symm hother]
      · simp only [Event.about, hlast, if_true]
        exact .request _ acceptFd hfree hfresh.2.1

/-- The buckets hold the new connection once more, and every other one as often. -/
theorem sum_occurrences_insert {acceptFd : Fd}
    (hnotMem : acceptFd ∉ s.unclaimed (unclaimedIndex acceptFd)) (other : RandStr) :
    ∑ idx, occurrences (Function.update s.unclaimed (unclaimedIndex acceptFd)
        ((s.unclaimed (unclaimedIndex acceptFd)).insert acceptFd id) idx) other =
      ∑ idx, occurrences (s.unclaimed idx) other + if id = other then 1 else 0 := by
  have hpoint (idx : Fin unclaimedProxyMapLen) :
      occurrences (Function.update s.unclaimed (unclaimedIndex acceptFd)
          ((s.unclaimed (unclaimedIndex acceptFd)).insert acceptFd id) idx) other =
        occurrences (s.unclaimed idx) other +
          if idx = unclaimedIndex acceptFd then (if id = other then 1 else 0) else 0 := by
    by_cases hidx : idx = unclaimedIndex acceptFd
    · subst hidx
      rw [Function.update_self, occurrences_insert hnotMem, if_pos rfl]
    · simp [hidx]
  simp [hpoint, Finset.sum_add_distrib]

theorem view_newProxyConnHandler {acceptFd : Fd}
    (hnotMem : acceptFd ∉ s.unclaimed (unclaimedIndex acceptFd)) (other : RandStr) :
    (Server.newProxyConnHandler s id acceptFd).view other =
      if other = id then (s.view id).accept acceptFd else s.view other := by
  unfold Server.newProxyConnHandler
  split
  · next hid =>
      subst hid
      simp [System.view, System.mapLink, View.accept, emplace_of_notMem hnotMem,
        sum_occurrences_insert hnotMem]
  · next hid =>
      simp [System.view, System.mapLink, emplace_of_notMem hnotMem,
        sum_occurrences_insert hnotMem, hid, Ne.symm hid]

theorem sim_newProxyConn (hwf : WellFormed cfg s) {acceptFd : Fd} (hfresh : Fresh s acceptFd)
    (hcreated : id.chars ∈ s.clientProxyConnMap) (haccepted : (s.link id).accepted = false) :
    Simulated cfg s (.newProxyConn id acceptFd) (Server.newProxyConnHandler s id acceptFd) := by
  have hnotMem : acceptFd ∉ s.unclaimed (unclaimedIndex acceptFd) := by
    intro hmem
    obtain ⟨found, hfound⟩ := Option.isSome_iff_exists.mp (AList.lookup_isSome.mpr hmem)
    exact hfresh.2.2 (hwf.unclaimed _ _ _ hfound).2.2.2
  constructor
  · intro other
    rw [view_newProxyConnHandler hnotMem]
    by_cases hid : other = id
    · subst hid
      simp only [Event.about, if_true]
      exact .accept (s.view other) acceptFd (AList.lookup_isSome.mpr hcreated) haccepted
    · simp only [Event.about, if_neg hid, if_neg (Ne.symm hid)]
      exact .stay _
  · exact { hwf.keyed with }
  · intro idx key found hlookup
    simp only [Server.newProxyConnHandler, System.mapLink, emplace_of_notMem hnotMem] at hlookup ⊢
    by_cases hnew : idx = unclaimedIndex acceptFd ∧ key = acceptFd
    · obtain ⟨rfl, rfl⟩ := hnew
      rw [Function.update_self, AList.lookup_insert, Option.some.injEq] at hlookup
      subst hlookup
      simp
    · have hold : (s.unclaimed idx).lookup key = some found := by
        by_cases hidx : idx = unclaimedIndex acceptFd
        · subst hidx
          have hkey : key ≠ acceptFd := fun heq => hnew ⟨rfl, heq⟩
          rwa [Function.update_self, AList.lookup_insert_ne hkey] at hlookup
        · rwa [Function.update_of_ne hidx] at hlookup
      obtain ⟨hidx, hkey, hopen, hmem⟩ := hwf.unclaimed idx key found hold
      have hne : found ≠ id := by
        rintro rfl
        simp [haccepted] at hopen
      rw [Function.update_of_ne hne]
      exact ⟨hidx, hkey, hopen, List.mem_append_left _ hmem⟩

theorem View.shutdownPublicConn_of_ne {v : View}
    (hcount : v.link.server.proxy.recvCount ≠ v.link.server.proxy.theoreticalTotalRecvCount) :
    v.shutdownPublicConn = v := by
  simp [View.shutdownPublicConn, View.mapLink, End.settle, End.mapProxy,
    ProxyConn.shutdownWhenComplete_of_ne hcount]

theorem View.shutdonwLocalConn_of_ne {v : View}
    (hcount : v.link.client.proxy.recvCount ≠ v.link.client.proxy.theoreticalTotalRecvCount) :
    v.shutdonwLocalConn = v := by
  simp [View.shutdonwLocalConn, View.mapLink, End.settle, End.mapProxy,
    ProxyConn.shutdownWhenComplete_of_ne hcount]

theorem sim_serverForwardRead (hwf : WellFormed cfg s)
    (hstart : (s.link id).server.proxy.isStart = true) {count : Nat}
    (hread : Server.forwardRead s id count = some s') :
    Simulated cfg s (.serverProxyRead id count) s' := by
  obtain ⟨pub, loc, trailing, hlevel⟩ := (hwf.inv id).level_of_isStart hstart
  have hforward := (Moves.refl hwf.keyed id).mapLink fun link => link.forwardAtServer count
  have hname : ((s.mapLink id fun link => link.forwardAtServer count).link id).server.proxy.proxyId =
      id.chars := by
    simpa [System.mapLink, Link.forwardAtServer, End.forward] using hlevel.serverName
  have hclaimed : ((s.mapLink id fun link => link.forwardAtServer count).link id).claimed = true := by
    simpa [System.mapLink, Link.forwardAtServer] using hlevel.claimed
  unfold Server.forwardRead at hread
  split at hread
  · cases hread
  · next hsplice =>
      split at hread
      · cases hread
      · next hfits =>
          push Not at hsplice hfits
          have hmoves : Moves s s' id ((s.view id).mapLink fun link =>
              link.forwardAtServer count).shutdownPublicConn := by
            dsimp only at hread
            split at hread
            · obtain rfl := Option.some.inj hread
              have hshut := moves_shutdownPublicConn hforward.keyed hname
              rw [hforward.self] at hshut
              exact hforward.trans hshut
            · next hcheck =>
                obtain rfl := Option.some.inj hread
                have hcount := fun heq => hcheck ⟨heq, hclaimed⟩
                rw [← hforward.self, View.shutdownPublicConn_of_ne hcount, hforward.self]
                exact hforward
          refine Simulated.of_moves hwf (fun _ => rfl) rfl (fun _ hkey => hkey) hmoves ?_ ?_
          · intro other hother
            simp [Event.about, Ne.symm hother]
          · simp only [Event.about, if_true]
            exact .forwardAtServer _ count hstart hsplice.1 hsplice.2 hfits

theorem sum_occurrences_erase {key : Fd}
    (hlookup : (s.unclaimed (unclaimedIndex key)).lookup key = some id) (other : RandStr) :
    ∑ idx, occurrences (Function.update s.unclaimed (unclaimedIndex key)
        ((s.unclaimed (unclaimedIndex key)).erase key) idx) other + (if id = other then 1 else 0) =
      ∑ idx, occurrences (s.unclaimed idx) other := by
  have hpoint (idx : Fin unclaimedProxyMapLen) :
      occurrences (s.unclaimed idx) other =
        occurrences (Function.update s.unclaimed (unclaimedIndex key)
          ((s.unclaimed (unclaimedIndex key)).erase key) idx) other +
          if idx = unclaimedIndex key then (if id = other then 1 else 0) else 0 := by
    by_cases hidx : idx = unclaimedIndex key
    · subst hidx
      rw [Function.update_self, if_pos rfl, occurrences_erase hlookup]
    · simp [hidx]
  simp [hpoint, Finset.sum_add_distrib]

/-- An unclaimed connection is found under its descriptor. -/
theorem UnclaimedKeyed.lookup (hunclaimed : UnclaimedKeyed s) (hone : (s.view id).unclaimed ≠ 0) :
    (s.unclaimed (unclaimedIndex (s.link id).server.proxy.fd)).lookup
      (s.link id).server.proxy.fd = some id := by
  have hsum : ∑ idx, occurrences (s.unclaimed idx) id ≠ 0 := hone
  obtain ⟨idx, _, hidx⟩ := Finset.exists_ne_zero_of_sum_ne_zero hsum
  obtain ⟨key, hlookup⟩ := occurrences_pos_iff.mp (Nat.pos_of_ne_zero hidx)
  obtain ⟨rfl, rfl, _⟩ := hunclaimed idx key id hlookup
  exact hlookup

theorem view_eraseUnclaimed {key : Fd}
    (hlookup : (s.unclaimed (unclaimedIndex key)).lookup key = some id) (other : RandStr) :
    (Server.eraseUnclaimed s key).view other =
      { s.view other with
        unclaimed := (s.view other).unclaimed - (if id = other then 1 else 0) } := by
  have hsum := sum_occurrences_erase hlookup other
  simp only [Server.eraseUnclaimed, System.view, View.mk.injEq, true_and, and_true]
  omega

theorem moves_tunnelClaimProxyConn (hkeyed : Keyed s)
    (hname : (s.link id).server.proxy.proxyId = id.chars)
    (hclaim : Server.tunnelClaimProxyConn s id = some s') :
    ∃ publicFd, s.undealPublicFds.getLast? = some publicFd ∧
      (s'.link id).server.proxy.fd = (s.link id).server.proxy.fd ∧
      Moves s s' id { (s.view id).mapLink fun link => { link with
          claimed := true
          server := link.server.start { fd := publicFd, proxyId := id.chars } } with
        mapped := 1 } := by
  have hclaimed := (Moves.refl hkeyed id).mapLink fun link => { link with claimed := true }
  unfold Server.tunnelClaimProxyConn at hclaim
  dsimp only at hclaim
  split at hclaim
  · cases hclaim
  · next publicFd hlast =>
      obtain rfl := Option.some.inj hclaim
      have hpopped := { hclaimed.keyed with : Keyed { s.mapLink id fun link =>
        { link with claimed := true } with undealPublicFds := s.undealPublicFds.dropLast } }
      have hproxy : ((s.mapLink id fun link => { link with claimed := true }).link
          id).server.proxy.proxyId = id.chars := by
        simpa [System.mapLink] using hname
      have hbind := moves_bindPublicFdToProxyConn hpopped publicFd hproxy
      refine ⟨publicFd, hlast, ?_, ?_⟩
      · simp [Server.bindPublicFdToProxyConn, System.mapLink, End.start]
      · constructor
        · refine hbind.self.trans ?_
          simp [System.view, System.mapLink, View.mapLink]
        · exact fun other hother =>
            (hbind.others other hother).trans (hclaimed.others other hother)
        · exact hbind.keyed
        · exact hbind.unclaimed
        · exact hbind.accepted

/-- The first message of a connection takes it from the unclaimed ones and starts its end. -/
theorem sim_claimProxyConn (hwf : WellFormed cfg s) {rest : List UInt8} {count : Nat}
    (haccepted : (s.link id).accepted = true) (hclaimed : (s.link id).claimed = false)
    (hstart : (s.link id).server.proxy.isStart = false)
    (hunclaimed : (s.view id).unclaimed = 1)
    (hframe : (s.link id).toServer = (ProxyCtlMsg.proxyMetaSet cfg.ctlId.chars cfg.tunId.chars
      id.chars).wire ++ rest)
    (hclaim : Server.claimProxyConn cfg (s.mapLink id fun link => link.parseAtServer
      (.parsed (.proxyMetaSet cfg.ctlId.chars cfg.tunId.chars id.chars)) rest) id cfg.ctlId.chars
        cfg.tunId.chars id.chars = some s') :
    Simulated cfg s (.serverProxyRead id count) s' := by
  have hlookup := hwf.unclaimed.lookup (show (s.view id).unclaimed ≠ 0 by omega)
  have hnamed := ((Moves.refl hwf.keyed id).mapLink fun link => link.parseAtServer
    (.parsed (.proxyMetaSet cfg.ctlId.chars cfg.tunId.chars id.chars)) rest).mapLink
      fun link => link.mapServer fun conn => { conn with proxyId := id.chars }
  unfold Server.claimProxyConn at hclaim
  simp only [ne_eq, not_true, if_false] at hclaim
  obtain ⟨bound, hbound, rfl⟩ := Option.map_eq_some_iff.mp hclaim
  obtain ⟨publicFd, _, hfd, hmoves⟩ := moves_tunnelClaimProxyConn hnamed.keyed
    (by simp [System.mapLink, Link.mapServer, End.mapProxy]) hbound
  have hall := hnamed.trans hmoves
  have hkey : (bound.link id).server.proxy.fd = (s.link id).server.proxy.fd := by
    rw [hfd]
    simp [System.mapLink, Link.mapServer, End.mapProxy, Link.parseAtServer]
  rw [hnamed.self] at hall
  rw [← hall.unclaimed, ← hkey] at hlookup
  have hlinks : ∀ other, LinkStep cfg other (s.view other)
      (Event.about s other (.serverProxyRead id count))
      ((Server.eraseUnclaimed bound (bound.link id).server.proxy.fd).view other) := by
    intro other
    rw [view_eraseUnclaimed hlookup]
    by_cases hid : other = id
    · subst hid
      have hstep := LinkStep.claim (s.view other) count publicFd rest haccepted hclaimed hstart
        hframe
      rw [hall.self]
      simpa [Event.about, View.mapLink, View.startServer, Link.parseAtServer, Link.mapServer,
        End.mapProxy, hunclaimed] using hstep
    · rw [hall.others other hid]
      simp only [Event.about, if_neg (Ne.symm hid), Nat.sub_zero]
      exact .stay _
  refine ⟨hlinks, { hall.keyed with }, hwf.unclaimed.of_links hlinks ?_ ?_⟩
  · intro idx key found hfound
    rw [← hall.unclaimed]
    unfold Server.eraseUnclaimed at hfound
    dsimp only at hfound
    by_cases hidx : idx = unclaimedIndex (bound.link id).server.proxy.fd
    · subst hidx
      rw [Function.update_self] at hfound
      exact lookup_of_erase hfound
    · rwa [Function.update_of_ne hidx] at hfound
  · intro key hmem
    rw [← hall.accepted] at hmem
    exact hmem

theorem readMsg_nil : readMsg [] = .waiting := rfl

/-- An idle server end reads the message that binds a session, or nothing. -/
theorem sim_serverMessageRead (hwf : WellFormed cfg s) (haccepted : (s.link id).accepted = true)
    (hstart : (s.link id).server.proxy.isStart = false) {count : Nat}
    (hread : Server.messageRead cfg s id = some s') :
    Simulated cfg s (.serverProxyRead id count) s' := by
  unfold Server.messageRead at hread
  cases hwf.inv id with
  | unused hunused =>
      have hopen : (s.view id).link.accepted = false := by rw [hunused]
      rw [view_link, haccepted] at hopen
      cases hopen
  | ahead loc msg hahead =>
      have hstream : (s.link id).toServer = msg.wire ++ loc.received := hahead.stream
      simp only [hstream, ProxyCtlMsg.readMsg_wire hahead.origin.sent,
        ProxyCtlMsg.decode_body hahead.origin.sent] at hread
      cases hahead.origin with
      | fresh hclaimed hstarts hwaiting hunclaimed =>
          refine sim_claimProxyConn hwf haccepted hclaimed hstart ?_ hstream hread
          simpa [haccepted] using hunclaimed
      | reused publicFd hfd _ hclaimed hwaiting _ hname hreq =>
          have hparse := (Moves.refl hwf.keyed id).mapLink fun link =>
            link.parseAtServer (.parsed (.startProxyConnRsp publicFd id.chars)) loc.received
          have hkept : ((s.mapLink id fun link => link.parseAtServer (.parsed
              (.startProxyConnRsp publicFd id.chars)) loc.received).link id).claimed = true := by
            simpa [System.mapLink, Link.parseAtServer] using hclaimed
          simp only [hkept, if_true] at hread
          obtain rfl := Option.some.inj hread
          have hrsp := moves_handleStartProxyConnRsp hparse.keyed
            (show ((s.mapLink id fun link => link.parseAtServer (.parsed
              (.startProxyConnRsp publicFd id.chars)) loc.received).link id).server.proxy.proxyId =
                id.chars by simpa [System.mapLink, Link.parseAtServer] using hname)
            (by rw [hparse.self]; exact hwaiting) publicFd
          rw [hparse.self] at hrsp
          refine Simulated.of_moves hwf (fun _ => rfl) rfl (fun _ hkey => hkey)
            (hparse.trans hrsp) ?_ ?_
          · intro other hother
            simp [Event.about, Ne.symm hother]
          · have hstep := @LinkStep.bind cfg id (s.view id) count publicFd loc.received
              hwaiting hclaimed hstart hreq hstream
            have hserver : (s.link id).server.proxy.proxyId = id.chars := hname
            have hclaim : (s.link id).claimed = true := hclaimed
            simpa [Event.about, View.mapLink, View.startServer, Link.parseAtServer, ← hserver,
              hclaim] using hstep
  | level pub loc trailing hlevel =>
      have hempty : (s.link id).toServer = [] := (hlevel.up.resting_of_not_isStart hstart).flight
      simp only [hempty, readMsg_nil] at hread
      cases hread

theorem sim_serverProxyRead (hwf : WellFormed cfg s) {count : Nat}
    (hread : Server.proxyRead cfg s id count = some s') :
    Simulated cfg s (.serverProxyRead id count) s' := by
  unfold Server.proxyRead at hread
  split at hread
  · cases hread
  · next haccepted =>
      split at hread
      · next hstart => exact sim_serverForwardRead hwf hstart hread
      · next hstart =>
          exact sim_serverMessageRead hwf (by simpa using haccepted) (by simpa using hstart) hread

theorem sim_publicRead (hwf : WellFormed cfg s) {bytes : List UInt8}
    (hread : Server.publicRead s id bytes = some s') :
    Simulated cfg s (.publicRead id bytes) s' := by
  unfold Server.publicRead at hread
  cases hpeer : (s.link id).server.peer with
  | none => simp [hpeer] at hread
  | some conn =>
      simp only [hpeer] at hread
      split at hread
      · next hbytes =>
          subst hbytes
          cases hclosing : conn.closing with
          | true =>
              simp only [hclosing, if_true] at hread
              obtain rfl := Option.some.inj hread
              refine Simulated.of_moves hwf (fun _ => rfl) rfl (fun _ hkey => hkey)
                (Moves.refl hwf.keyed id) ?_ ?_
              · intro other hother
                simp [Event.about, Ne.symm hother]
              · simp only [Event.about, if_true]
                exact .reclosedAtServer _ conn hpeer hclosing
          | false =>
              simp only [hclosing, Bool.false_eq_true, if_false] at hread
              obtain rfl := Option.some.inj hread
              rw [(hwf.inv id).level_of_pub_open hpeer hclosing]
              refine Simulated.of_moves hwf (fun _ => rfl) rfl (fun _ hkey => hkey)
                ((moves_shutdownFromPublic hwf.keyed (uint32 conn.tranCount)).mapLink
                  fun link => { link with server := link.server.close }) ?_ ?_
              · intro other hother
                simp [Event.about, Ne.symm hother]
              · simp only [Event.about, if_true]
                exact .closeAtServer _ conn hpeer hclosing
      · next hbytes =>
          split at hread
          · cases hread
          · next hguard =>
              push Not at hguard
              obtain ⟨hopen, _, hfits⟩ := hguard
              obtain rfl := Option.some.inj hread
              refine Simulated.of_moves hwf (fun _ => rfl) rfl (fun _ hkey => hkey)
                ((Moves.refl hwf.keyed id).mapLink fun link =>
                  link.relayAtServer bytes) ?_ ?_
              · intro other hother
                simp [Event.about, Ne.symm hother]
              · simp only [Event.about, if_true]
                exact .relayAtServer _ conn bytes hpeer (by simpa using hopen) hbytes hfits

/-! ## The control connection -/

theorem Event.about_serverCtlRead {msg : CtlMsg} {rest : List CtlMsg}
    (hctl : s.ctlToServer = msg :: rest) (id : RandStr) :
    Event.about s id .serverCtlRead =
      match CtlMsg.toNotice id msg with
      | some notice => .serverNotice notice
      | none => .stay := by
  unfold Event.about
  rw [hctl]
  rfl

/-- A message that names no connection is of no consequence. -/
theorem sim_serverCtlRead_unrelated (hwf : WellFormed cfg s) {msg : CtlMsg} {rest : List CtlMsg}
    (hctl : s.ctlToServer = msg :: rest) (hmsg : ∀ id, CtlMsg.toNotice id msg = none) :
    Simulated cfg s .serverCtlRead { s with ctlToServer := rest } := by
  refine Simulated.of_stay hwf ?_ ?_ { hwf.keyed with } rfl (fun _ hkey => hkey)
  · intro id
    simp [System.view, hctl, hmsg]
  · intro id
    simp [Event.about_serverCtlRead hctl, hmsg]

theorem lookup_eq_none_of_unnamed {name : Str} {map : ConnMap Str}
    (hkeyed : KeyedBy RandStr.chars map) (hname : ¬ ∃ id : RandStr, name = id.chars) :
    map.lookup name = none := by
  cases hlookup : map.lookup name with
  | none => rfl
  | some found => exact absurd ⟨found, hkeyed _ _ hlookup⟩ hname

theorem sim_serverCtlRead (hwf : WellFormed cfg s) (hread : Server.ctlRead s = some s') :
    Simulated cfg s .serverCtlRead s' := by
  unfold Server.ctlRead at hread
  cases hctl : s.ctlToServer with
  | nil => simp [hctl] at hread
  | cons msg rest =>
      simp only [hctl] at hread
      have hpopped : Keyed { s with ctlToServer := rest } := { hwf.keyed with }
      cases msg with
      | notifyClientNeedProxy =>
          obtain rfl := Option.some.inj hread
          exact sim_serverCtlRead_unrelated hwf hctl fun _ => rfl
      | notifyProxyShutdownPeerConn proxyId tranCount =>
          obtain rfl := Option.some.inj hread
          by_cases hname : ∃ id : RandStr, proxyId = id.chars
          · obtain ⟨id, rfl⟩ := hname
            have hnotice : CtlMsg.toNotice id (.notifyProxyShutdownPeerConn id.chars tranCount) =
                some (.shutdownPeer tranCount) := by simp [CtlMsg.toNotice]
            have hpop := moves_popCtlToServer hwf.keyed hctl hnotice
            have hshut := @moves_handleShutdownPublicConn _ id hpopped tranCount (by
              intro hmapped
              have hhome : 0 < (s.view id).mapped + (s.view id).free :=
                Nat.add_pos_left (Nat.pos_of_ne_zero hmapped) _
              obtain ⟨pub, loc, trailing, hlevel⟩ := (hwf.inv id).level_of_home hhome
              exact hlevel.serverName)
            rw [hpop.self] at hshut
            refine Simulated.of_moves hwf (fun _ => rfl) rfl (fun _ hkey => hkey)
              (hpop.trans hshut) ?_ ?_
            · intro other hother
              simp [Event.about_serverCtlRead hctl, toNotice_of_ne hnotice hother]
            · simp only [Event.about_serverCtlRead hctl, hnotice]
              exact .hearAtServer _ tranCount _ (by simp [System.view, hctl, hnotice])
          · have hmiss : Server.handleShutdownPublicConn { s with ctlToServer := rest } proxyId
                tranCount = { s with ctlToServer := rest } := by
              simp [Server.handleShutdownPublicConn,
                lookup_eq_none_of_unnamed hwf.keyed.proxyConnMap hname]
            rw [hmiss]
            apply sim_serverCtlRead_unrelated hwf hctl
            intro id
            simp only [CtlMsg.toNotice, ite_eq_right_iff, reduceCtorEq, imp_false]
            exact fun heq => hname ⟨id, heq⟩
      | freeProxyConnReq proxyId =>
          obtain rfl := Option.some.inj hread
          by_cases hname : ∃ id : RandStr, proxyId = id.chars
          · obtain ⟨id, rfl⟩ := hname
            have hnotice : CtlMsg.toNotice id (.freeProxyConnReq id.chars) = some .freeReq := by
              simp [CtlMsg.toNotice]
            have hpop := moves_popCtlToServer hwf.keyed hctl hnotice
            have hfreed := moves_freeProxyConn hpopped id
            rw [hpop.self] at hfreed
            refine Simulated.of_moves hwf (fun _ => rfl) rfl (fun _ hkey => hkey)
              (hpop.trans hfreed) ?_ ?_
            · intro other hother
              simp [Event.about_serverCtlRead hctl, toNotice_of_ne hnotice hother]
            · simp only [Event.about_serverCtlRead hctl, hnotice]
              exact .freeAtServer _ _ (by simp [System.view, hctl, hnotice])
          · have hmiss : Server.handleFreeProxyConnReq { s with ctlToServer := rest } proxyId =
                { s with ctlToServer := rest } := by
              simp [Server.handleFreeProxyConnReq, Server.freeProxyConn,
                lookup_eq_none_of_unnamed hwf.keyed.proxyConnMap hname]
            rw [hmiss]
            apply sim_serverCtlRead_unrelated hwf hctl
            intro id
            simp only [CtlMsg.toNotice, ite_eq_right_iff, reduceCtorEq, imp_false]
            exact fun heq => hname ⟨id, heq⟩

theorem sim_strayFreeReq (hwf : WellFormed cfg s) (proxyId : Str) :
    Simulated cfg s (.strayFreeReq proxyId) (Server.handleFreeProxyConnReq s proxyId) := by
  by_cases hname : ∃ id : RandStr, proxyId = id.chars
  · obtain ⟨id, rfl⟩ := hname
    refine Simulated.of_moves hwf (fun _ => rfl) rfl (fun _ hkey => hkey)
      (moves_freeProxyConn hwf.keyed id) ?_ ?_
    · intro other hother
      have hchars : id.chars ≠ other.chars := fun heq => hother (RandStr.chars_injective heq).symm
      simp [Event.about, hchars]
    · simp only [Event.about, if_true]
      exact .strayFreeReq _
  · have hmiss : Server.handleFreeProxyConnReq s proxyId = s := by
      simp [Server.handleFreeProxyConnReq, Server.freeProxyConn,
        lookup_eq_none_of_unnamed hwf.keyed.proxyConnMap hname]
    rw [hmiss]
    refine Simulated.of_stay hwf (fun _ => rfl) ?_ hwf.keyed rfl (fun _ hkey => hkey)
    intro id
    simp only [Event.about, ite_eq_right_iff, reduceCtorEq, imp_false]
    exact fun heq => hname ⟨id, heq⟩

/-! ## The events of the client -/

theorem sim_clientCtlRead_unrelated (hwf : WellFormed cfg s) {msg : CtlMsg} {rest : List CtlMsg}
    {proxyFd localFd : Fd} (hctl : s.ctlToClient = msg :: rest)
    (hmsg : ∀ id, CtlMsg.toTotal id msg = none) (hneed : msg ≠ .notifyClientNeedProxy) :
    Simulated cfg s (.clientCtlRead id proxyFd localFd) { s with ctlToClient := rest } := by
  refine Simulated.of_stay hwf ?_ ?_ { hwf.keyed with } rfl (fun _ hkey => hkey)
  · intro other
    simp [System.view, hctl, hmsg]
  · intro other
    cases msg with
    | notifyClientNeedProxy => exact absurd rfl hneed
    | notifyProxyShutdownPeerConn proxyId tranCount => simp [Event.about, hctl, hmsg]
    | freeProxyConnReq proxyId => simp [Event.about, hctl, CtlMsg.toTotal]

theorem sim_clientCtlRead (hwf : WellFormed cfg s) {proxyFd localFd : Fd} (hlocal : 0 < localFd)
    (hread : Client.ctlRead cfg s id proxyFd localFd = some s') :
    Simulated cfg s (.clientCtlRead id proxyFd localFd) s' := by
  unfold Client.ctlRead at hread
  cases hctl : s.ctlToClient with
  | nil => simp [hctl] at hread
  | cons msg rest =>
      simp only [hctl] at hread
      have hpopped : Keyed { s with ctlToClient := rest } := { hwf.keyed with }
      cases msg with
      | notifyClientNeedProxy =>
          simp only at hread
          split at hread
          · cases hread
          · next hfresh =>
              obtain rfl := Option.some.inj hread
              have hviews : ∀ other, ({ s with ctlToClient := rest } : System).view other =
                  s.view other := by
                intro other
                simp only [System.view, hctl]
                rfl
              have hmoves := @moves_handleProxyNotify cfg _ id hpopped hfresh
                proxyFd localFd
              rw [hviews id] at hmoves
              have hcreated : (s.view id).created = false := by
                simpa [System.view, AList.lookup_eq_none] using hfresh
              refine Simulated.of_moves hwf hviews rfl (fun _ hkey => hkey) hmoves ?_ ?_
              · intro other hother
                simp [Event.about, hctl, Ne.symm hother]
              · simp only [Event.about, hctl, List.head?_cons, if_true]
                exact .connect _ proxyFd localFd hcreated hlocal
      | notifyProxyShutdownPeerConn proxyId tranCount =>
          obtain rfl := Option.some.inj hread
          by_cases hname : ∃ target : RandStr, proxyId = target.chars
          · obtain ⟨target, rfl⟩ := hname
            have htotal : CtlMsg.toTotal target
                (.notifyProxyShutdownPeerConn target.chars tranCount) = some tranCount := by
              simp [CtlMsg.toTotal]
            have hview : (s.view target).ctlToClient =
                tranCount :: rest.filterMap (CtlMsg.toTotal target) := by
              simp [System.view, hctl, htotal]
            -- only a connection that exists is announced to the client
            have hcreated : (s.view target).created = true := by
              cases hunknown : (s.view target).created with
              | true => rfl
              | false => simp [(hwf.inv target).eq_unused hunknown] at hview
            have hpop := moves_popCtlToClient hwf.keyed hctl htotal
            have hshut := @moves_handleShutdownLocalConn _ target hpopped tranCount hcreated
              ((hwf.inv target).clientName hcreated)
            rw [hpop.self] at hshut
            refine Simulated.of_moves hwf (fun _ => rfl) rfl (fun _ hkey => hkey)
              (hpop.trans hshut) ?_ ?_
            · intro other hother
              simp [Event.about, hctl, toTotal_of_ne htotal hother]
            · simp only [Event.about, hctl, List.head?_cons, htotal]
              exact .hearAtClient _ tranCount _ hcreated hview
          · have hmiss : Client.handleShutdownLocalConn { s with ctlToClient := rest } proxyId
                tranCount = { s with ctlToClient := rest } := by
              simp [Client.handleShutdownLocalConn,
                lookup_eq_none_of_unnamed hwf.keyed.client hname]
            rw [hmiss]
            refine sim_clientCtlRead_unrelated hwf hctl ?_ (by simp)
            intro target
            simp only [CtlMsg.toTotal, ite_eq_right_iff, reduceCtorEq, imp_false]
            exact fun heq => hname ⟨target, heq⟩
      | freeProxyConnReq proxyId =>
          obtain rfl := Option.some.inj hread
          exact sim_clientCtlRead_unrelated hwf hctl (fun _ => rfl) (by simp)

theorem sim_clientForwardRead (hwf : WellFormed cfg s)
    (hcreated : (s.view id).created = true)
    (hstart : (s.link id).client.proxy.isStart = true) {count : Nat} {localFd : Fd}
    (hread : Client.forwardRead s id count = some s') :
    Simulated cfg s (.clientProxyRead id count localFd) s' := by
  have hforward := (Moves.refl hwf.keyed id).mapLink fun link => link.forwardAtClient count
  have hname : ((s.mapLink id fun link => link.forwardAtClient count).link id).client.proxy.proxyId =
      id.chars := by
    simpa [System.mapLink, Link.forwardAtClient, End.forward] using
      (hwf.inv id).clientName hcreated
  unfold Client.forwardRead at hread
  split at hread
  · cases hread
  · next hsplice =>
      split at hread
      · cases hread
      · next hfits =>
          push Not at hsplice hfits
          have hmoves : Moves s s' id ((s.view id).mapLink fun link =>
              link.forwardAtClient count).shutdonwLocalConn := by
            dsimp only at hread
            split at hread
            · obtain rfl := Option.some.inj hread
              have hshut := moves_shutdonwLocalConn hforward.keyed hname
              rw [hforward.self] at hshut
              exact hforward.trans hshut
            · next hcheck =>
                obtain rfl := Option.some.inj hread
                rw [← hforward.self, View.shutdonwLocalConn_of_ne hcheck, hforward.self]
                exact hforward
          refine Simulated.of_moves hwf (fun _ => rfl) rfl (fun _ hkey => hkey) hmoves ?_ ?_
          · intro other hother
            simp [Event.about, Ne.symm hother]
          · simp only [Event.about, if_true]
            exact .forwardAtClient _ count localFd hstart hsplice.1 hsplice.2 hfits

/-- An idle client end reads a request, or nothing. -/
theorem sim_clientMessageRead (hwf : WellFormed cfg s) (hcreated : (s.view id).created = true)
    (hstart : (s.link id).client.proxy.isStart = false) {count : Nat} {localFd : Fd}
    (hlocal : 0 < localFd) (hread : Client.messageRead s id localFd = some s') :
    Simulated cfg s (.clientProxyRead id count localFd) s' := by
  unfold Client.messageRead at hread
  cases hwf.inv id with
  | unused hunused => simp [hunused] at hcreated
  | ahead loc msg hahead =>
      have hstarted : (s.link id).client.proxy.isStart = true := (hahead.down 0).isStart
      simp [hstart] at hstarted
  | level pub loc trailing hlevel =>
      have hflight : (s.link id).toClient = trailing :=
        (hlevel.down.resting_of_not_isStart hstart).flight
      rcases hlevel.requested with ⟨_, hnone⟩ | ⟨hwaiting, publicFd, hfd, hreq, hframe⟩
      · simp only [hflight, hnone, readMsg_nil] at hread
        cases hread
      · have hsent : ProxyCtlMsg.Sent (.startProxyConnReq publicFd id.chars) :=
          .startProxyConnReq publicFd hfd id
        rw [hframe] at hflight
        have hwhole := ProxyCtlMsg.readMsg_wire hsent []
        rw [List.append_nil] at hwhole
        simp only [hflight, hwhole, ProxyCtlMsg.decode_body hsent] at hread
        obtain rfl := Option.some.inj hread
        have hparse := (Moves.refl hwf.keyed id).mapLink fun link =>
          { link with toClient := [] }
        have hmoves := @moves_handleStartProxyConnReq _ id hparse.keyed
          (by rw [hparse.self]; exact hcreated)
          (by simpa [System.mapLink] using hstart) publicFd localFd
        rw [hparse.self] at hmoves
        refine Simulated.of_moves hwf (fun _ => rfl) rfl (fun _ hkey => hkey)
          (hparse.trans hmoves) ?_ ?_
        · intro other hother
          simp [Event.about, Ne.symm hother]
        · simp only [Event.about, if_true]
          exact .startAtClient _ count localFd publicFd hlocal hcreated hstart hreq hfd hflight

theorem sim_clientProxyRead (hwf : WellFormed cfg s) {count : Nat} {localFd : Fd}
    (hlocal : 0 < localFd) (hread : Client.proxyRead s id count localFd = some s') :
    Simulated cfg s (.clientProxyRead id count localFd) s' := by
  unfold Client.proxyRead at hread
  split at hread
  · cases hread
  · next hmem =>
      have hcreated : (s.view id).created = true := AList.lookup_isSome.mpr (not_not.mp hmem)
      split at hread
      · next hstart => exact sim_clientForwardRead hwf hcreated hstart hread
      · next hstart => exact sim_clientMessageRead hwf hcreated (by simpa using hstart) hlocal hread

theorem sim_localRead (hwf : WellFormed cfg s) {bytes : List UInt8}
    (hread : Client.localRead s id bytes = some s') :
    Simulated cfg s (.localRead id bytes) s' := by
  unfold Client.localRead at hread
  cases hpeer : (s.link id).client.peer with
  | none => simp [hpeer] at hread
  | some conn =>
      obtain ⟨hcreated, hname⟩ := (hwf.inv id).created_of_peer hpeer
      simp only [hpeer] at hread
      split at hread
      · next hbytes =>
          subst hbytes
          cases hclosing : conn.closing with
          | true =>
              simp only [hclosing, if_true] at hread
              obtain rfl := Option.some.inj hread
              refine Simulated.of_moves hwf (fun _ => rfl) rfl (fun _ hkey => hkey)
                (Moves.refl hwf.keyed id) ?_ ?_
              · intro other hother
                simp [Event.about, Ne.symm hother]
              · simp only [Event.about, if_true]
                exact .reclosedAtClient _ conn hpeer hclosing
          | false =>
              simp only [hclosing, Bool.false_eq_true, if_false] at hread
              obtain rfl := Option.some.inj hread
              rw [hname]
              refine Simulated.of_moves hwf (fun _ => rfl) rfl (fun _ hkey => hkey)
                ((moves_shutdownFromLocal hwf.keyed (uint32 conn.tranCount) hcreated).mapLink
                  fun link => { link with client := link.client.close }) ?_ ?_
              · intro other hother
                simp [Event.about, Ne.symm hother]
              · simp only [Event.about, if_true]
                exact .closeAtClient _ conn hpeer hclosing
      · next hbytes =>
          split at hread
          · cases hread
          · next hguard =>
              push Not at hguard
              obtain ⟨hopen, _, hfits⟩ := hguard
              obtain rfl := Option.some.inj hread
              refine Simulated.of_moves hwf (fun _ => rfl) rfl (fun _ hkey => hkey)
                ((Moves.refl hwf.keyed id).mapLink fun link =>
                  link.relayAtClient bytes) ?_ ?_
              · intro other hother
                simp [Event.about, Ne.symm hother]
              · simp only [Event.about, if_true]
                exact .relayAtClient _ conn bytes hpeer (by simpa using hopen) hbytes hfits

/-! ## Steps and runs -/

/-- The tunnel's step is a step of every connection. -/
theorem step_simulated (hwf : WellFormed cfg s) (hstep : step cfg s event = some s') :
    Simulated cfg s event s' := by
  cases event with
  | newPublicConn acceptFd =>
      simp only [step, Option.ite_none_right_eq_some] at hstep
      obtain ⟨hfresh, hsome⟩ := hstep
      obtain rfl := Option.some.inj hsome
      exact sim_newPublicConn hwf hfresh
  | newProxyConn id acceptFd =>
      simp only [step, Option.ite_none_right_eq_some] at hstep
      obtain ⟨⟨hfresh, hcreated, haccepted⟩, hsome⟩ := hstep
      obtain rfl := Option.some.inj hsome
      exact sim_newProxyConn hwf hfresh hcreated haccepted
  | serverProxyRead id count => exact sim_serverProxyRead hwf hstep
  | publicRead id bytes => exact sim_publicRead hwf hstep
  | serverCtlRead => exact sim_serverCtlRead hwf hstep
  | clientCtlRead id proxyFd localFd =>
      simp only [step, Option.ite_none_right_eq_some] at hstep
      exact sim_clientCtlRead hwf hstep.1.2 hstep.2
  | clientProxyRead id count localFd =>
      simp only [step, Option.ite_none_right_eq_some] at hstep
      exact sim_clientProxyRead hwf hstep.1 hstep.2
  | localRead id bytes => exact sim_localRead hwf hstep
  | strayFreeReq proxyId =>
      obtain rfl := Option.some.inj hstep
      exact sim_strayFreeReq hwf proxyId

theorem WellFormed.step (hwf : WellFormed cfg s) (hstep : CProxy.step cfg s event = some s') :
    WellFormed cfg s' := by
  have hsim := step_simulated hwf hstep
  exact ⟨hsim.keyed, hsim.unclaimed, fun id => (hwf.inv id).step (hsim.links id)⟩

theorem view_init (id : RandStr) : System.init.view id = {} := by
  simp [System.view, System.init, occurrences]

theorem wellFormed_init (cfg : Config) : WellFormed cfg System.init where
  keyed := ⟨KeyedBy.empty, KeyedBy.empty, KeyedBy.empty⟩
  unclaimed := by
    intro idx key id hlookup
    simp [System.init] at hlookup
  inv := fun id => .unused (view_init id)

theorem Reachable.wellFormed (hreach : Reachable cfg s) : WellFormed cfg s := by
  obtain ⟨events, hrun⟩ := hreach
  exact run_invariant (fun _ _ _ hwf hstep => hwf.step hstep) (wellFormed_init cfg) hrun

end CProxy
