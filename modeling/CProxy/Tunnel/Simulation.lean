import CProxy.Tunnel.LinkLaws

/-! # A step of the tunnel is a step of each connection -/

namespace CProxy

open Foundation Wire

/-- Each of the maps keyed by identifier holds a connection under its own. -/
structure Keyed (s : System) : Prop where
  proxyConnMap : KeyedBy RandStr.chars s.proxyConnMap
  waiting : KeyedBy RandStr.chars s.waitForStartProxyConnMap
  client : KeyedBy RandStr.chars s.clientProxyConnMap

/-- From `s` to `s'` only the view of `id` changes, and it becomes `v`. -/
structure Moves (s s' : System) (id : RandStr) (v : View) : Prop where
  self : s'.view id = v
  others : ∀ other, other ≠ id → s'.view other = s.view other
  keyed : Keyed s'
  unclaimed : s'.unclaimed = s.unclaimed
  accepted : s'.accepted = s.accepted

namespace Moves

variable {s s₁ s₂ : System} {id : RandStr} {v v₁ v₂ : View}

theorem refl (hkeyed : Keyed s) (id : RandStr) : Moves s s id (s.view id) :=
  ⟨rfl, fun _ _ => rfl, hkeyed, rfl, rfl⟩

theorem trans (hfirst : Moves s s₁ id v₁) (hsecond : Moves s₁ s₂ id v₂) : Moves s s₂ id v₂ where
  self := hsecond.self
  others := fun other hother => (hsecond.others other hother).trans (hfirst.others other hother)
  keyed := hsecond.keyed
  unclaimed := hsecond.unclaimed.trans hfirst.unclaimed
  accepted := hsecond.accepted.trans hfirst.accepted

theorem mapLink (hmoves : Moves s s₁ id v) (update : Link → Link) :
    Moves s (s₁.mapLink id update) id (v.mapLink update) where
  self := by
    rw [← hmoves.self]
    simp [System.view, System.mapLink, View.mapLink]
  others := by
    intro other hother
    rw [← hmoves.others other hother]
    simp [System.view, System.mapLink, hother]
  keyed := { hmoves.keyed with }
  unclaimed := hmoves.unclaimed
  accepted := hmoves.accepted

end Moves

variable {cfg : Config} {s s' : System} {id : RandStr} {event : Event}

theorem Keyed.mapped_iff (hkeyed : Keyed s) :
    (s.view id).mapped = 0 ↔ s.proxyConnMap.lookup id.chars ≠ some id := by
  have hpos := hkeyed.proxyConnMap.occurrences_pos id
  rw [ne_eq, ← hpos]
  simp only [System.view]
  omega

theorem Keyed.lookup_eq_none (hkeyed : Keyed s) (hmapped : (s.view id).mapped = 0) :
    s.proxyConnMap.lookup id.chars = none := by
  cases hlookup : s.proxyConnMap.lookup id.chars with
  | none => rfl
  | some found =>
      have hname := RandStr.chars_injective (hkeyed.proxyConnMap _ _ hlookup)
      exact absurd (hname ▸ hlookup) (hkeyed.mapped_iff.mp hmapped)

theorem Keyed.lookup_client (hkeyed : Keyed s) (hcreated : (s.view id).created = true) :
    s.clientProxyConnMap.lookup id.chars = some id := by
  rw [← hkeyed.client.mem_iff RandStr.chars_injective]
  exact AList.lookup_isSome.mp hcreated

@[simp] theorem view_link (s : System) (id : RandStr) : (s.view id).link = s.link id := rfl

/-! ## Messages on the control connection -/

theorem toNotice_of_ne {msg : CtlMsg} {notice : Notice} {other : RandStr}
    (hmsg : CtlMsg.toNotice id msg = some notice) (hother : other ≠ id) :
    CtlMsg.toNotice other msg = none := by
  have hchars : id.chars ≠ other.chars := fun heq => hother (RandStr.chars_injective heq).symm
  cases msg with
  | notifyClientNeedProxy => rfl
  | notifyProxyShutdownPeerConn proxyId tranCount =>
      simp only [CtlMsg.toNotice, Option.ite_none_right_eq_some] at hmsg
      simp [CtlMsg.toNotice, hmsg.1, hchars]
  | freeProxyConnReq proxyId =>
      simp only [CtlMsg.toNotice, Option.ite_none_right_eq_some] at hmsg
      simp [CtlMsg.toNotice, hmsg.1, hchars]

theorem toTotal_of_ne {msg : CtlMsg} {tranCount : Nat} {other : RandStr}
    (hmsg : CtlMsg.toTotal id msg = some tranCount) (hother : other ≠ id) :
    CtlMsg.toTotal other msg = none := by
  have hchars : id.chars ≠ other.chars := fun heq => hother (RandStr.chars_injective heq).symm
  cases msg with
  | notifyClientNeedProxy => rfl
  | notifyProxyShutdownPeerConn proxyId tranCount =>
      simp only [CtlMsg.toTotal, Option.ite_none_right_eq_some] at hmsg
      simp [CtlMsg.toTotal, hmsg.1, hchars]
  | freeProxyConnReq proxyId => rfl

theorem moves_popCtlToServer (hkeyed : Keyed s) {msg : CtlMsg} {rest : List CtlMsg}
    (hctl : s.ctlToServer = msg :: rest) {notice : Notice}
    (hmsg : CtlMsg.toNotice id msg = some notice) :
    Moves s { s with ctlToServer := rest } id
      { s.view id with ctlToServer := rest.filterMap (CtlMsg.toNotice id) } where
  self := rfl
  others := by
    intro other hother
    simp [System.view, hctl, toNotice_of_ne hmsg hother]
  keyed := { hkeyed with }
  unclaimed := rfl
  accepted := rfl

theorem moves_popCtlToClient (hkeyed : Keyed s) {msg : CtlMsg} {rest : List CtlMsg}
    (hctl : s.ctlToClient = msg :: rest) {tranCount : Nat}
    (hmsg : CtlMsg.toTotal id msg = some tranCount) :
    Moves s { s with ctlToClient := rest } id
      { s.view id with ctlToClient := rest.filterMap (CtlMsg.toTotal id) } where
  self := rfl
  others := by
    intro other hother
    simp [System.view, hctl, toTotal_of_ne hmsg hother]
  keyed := { hkeyed with }
  unclaimed := rfl
  accepted := rfl

theorem moves_pushCtlToServer (hkeyed : Keyed s) {msg : CtlMsg} {notice : Notice}
    (hmsg : CtlMsg.toNotice id msg = some notice) :
    Moves s { s with ctlToServer := s.ctlToServer ++ [msg] } id
      { s.view id with ctlToServer := (s.view id).ctlToServer ++ [notice] } where
  self := by simp [System.view, hmsg]
  others := by
    intro other hother
    simp [System.view, toNotice_of_ne hmsg hother]
  keyed := { hkeyed with }
  unclaimed := rfl
  accepted := rfl

theorem moves_pushCtlToClient (hkeyed : Keyed s) {msg : CtlMsg} {tranCount : Nat}
    (hmsg : CtlMsg.toTotal id msg = some tranCount) :
    Moves s { s with ctlToClient := s.ctlToClient ++ [msg] } id
      { s.view id with ctlToClient := (s.view id).ctlToClient ++ [tranCount] } where
  self := by simp [System.view, hmsg]
  others := by
    intro other hother
    simp [System.view, toTotal_of_ne hmsg hother]
  keyed := { hkeyed with }
  unclaimed := rfl
  accepted := rfl

/-! ## The server's handlers -/

theorem moves_freeProxyConn (hkeyed : Keyed s) (id : RandStr) :
    Moves s (Server.freeProxyConn s id.chars) id (s.view id).freeProxyConn := by
  unfold Server.freeProxyConn View.freeProxyConn
  by_cases hmapped : (s.view id).mapped = 0
  · rw [hkeyed.lookup_eq_none hmapped, if_pos (Or.inl hmapped)]
    exact Moves.refl hkeyed id
  · have hlookup := not_not.mp (mt hkeyed.mapped_iff.mpr hmapped)
    rw [hlookup]
    by_cases hstart : (s.link id).server.proxy.isStart = true
    · have hkept : (s.view id).link.server.proxy.isStart = true := hstart
      simp only [hstart, hkept, or_true, if_true]
      exact Moves.refl hkeyed id
    · have hidle : ¬ ((s.view id).mapped = 0 ∨ (s.view id).link.server.proxy.isStart = true) := by
        rintro (hnone | hkept)
        · exact hmapped hnone
        · exact hstart hkept
      simp only [hstart, if_neg hidle]
      constructor
      · simp [System.view, hkeyed.proxyConnMap.occurrences_erase RandStr.chars_injective]
      · intro other hother
        simp [System.view, hkeyed.proxyConnMap.occurrences_erase RandStr.chars_injective,
          Ne.symm hother]
      · exact { hkeyed with proxyConnMap := hkeyed.proxyConnMap.erase }
      · rfl
      · rfl

theorem moves_shutdownPublicConn (hkeyed : Keyed s)
    (hname : (s.link id).server.proxy.proxyId = id.chars) :
    Moves s (Server.shutdownPublicConn s id) id (s.view id).shutdownPublicConn := by
  have hsettled := (Moves.refl hkeyed id).mapLink fun link =>
    link.mapServer fun conn => conn.shutdownWhenComplete.1
  unfold Server.shutdownPublicConn View.shutdownPublicConn
  dsimp only
  rw [view_link]
  split
  · have hproxy : ((s.mapLink id fun link => link.mapServer fun conn =>
        conn.shutdownWhenComplete.1).link id).server.proxy.proxyId = id.chars := by
      simp [System.mapLink, Link.mapServer, End.mapProxy, hname]
    rw [hproxy]
    have hfreed := moves_freeProxyConn hsettled.keyed id
    rw [hsettled.self] at hfreed
    exact hsettled.trans hfreed
  · exact hsettled

theorem moves_handleShutdownPublicConn (hkeyed : Keyed s) (tranCount : Nat)
    (hname : (s.view id).mapped ≠ 0 → (s.link id).server.proxy.proxyId = id.chars) :
    Moves s (Server.handleShutdownPublicConn s id.chars tranCount) id
      ((s.view id).handleShutdownPublicConn tranCount) := by
  unfold Server.handleShutdownPublicConn View.handleShutdownPublicConn
  by_cases hmapped : (s.view id).mapped = 0
  · rw [hkeyed.lookup_eq_none hmapped, if_pos hmapped]
    exact Moves.refl hkeyed id
  · have hlookup := not_not.mp (mt hkeyed.mapped_iff.mpr hmapped)
    rw [hlookup, if_neg hmapped]
    have hcounted := (Moves.refl hkeyed id).mapLink fun link =>
      link.mapServer fun conn => conn.incrTheoreticalTotalRecvCount tranCount
    have hproxy : ((s.mapLink id fun link => link.mapServer fun conn =>
        conn.incrTheoreticalTotalRecvCount tranCount).link id).server.proxy.proxyId = id.chars := by
      simp [System.mapLink, Link.mapServer, End.mapProxy, hname hmapped]
    have hshut := moves_shutdownPublicConn hcounted.keyed hproxy
    rw [hcounted.self] at hshut
    exact hcounted.trans hshut

theorem moves_shutdownFromPublic (hkeyed : Keyed s) (tranCount : Nat) :
    Moves s (Server.shutdownFromPublic s id.chars tranCount) id
      ((s.view id).shutdownFromPublic tranCount) := by
  unfold Server.shutdownFromPublic View.shutdownFromPublic
  by_cases hmapped : (s.view id).mapped = 0
  · rw [hkeyed.lookup_eq_none hmapped, if_pos hmapped]
    exact Moves.refl hkeyed id
  · have hlookup := not_not.mp (mt hkeyed.mapped_iff.mpr hmapped)
    rw [hlookup, if_neg hmapped]
    have hlocal := (Moves.refl hkeyed id).mapLink fun link =>
      link.mapServer fun conn => conn.shutdownFromLocal.1
    have hpush := moves_pushCtlToClient hlocal.keyed (show CtlMsg.toTotal id
      (.notifyProxyShutdownPeerConn id.chars tranCount) = some tranCount by simp [CtlMsg.toTotal])
    rw [hlocal.self] at hpush
    exact hlocal.trans hpush

theorem moves_emplaceWaiting (hkeyed : Keyed s) (id : RandStr) :
    Moves s { s with
        waitForStartProxyConnMap := emplace s.waitForStartProxyConnMap id.chars id } id
      { s.view id with waiting := 1 } where
  self := by
    simp [System.view, hkeyed.waiting.occurrences_emplace RandStr.chars_injective]
  others := by
    intro other hother
    simp [System.view, hkeyed.waiting.occurrences_emplace RandStr.chars_injective, Ne.symm hother]
  keyed := { hkeyed with waiting := hkeyed.waiting.emplace rfl }
  unclaimed := rfl
  accepted := rfl

theorem moves_eraseWaiting (hkeyed : Keyed s) (id : RandStr) :
    Moves s { s with waitForStartProxyConnMap := s.waitForStartProxyConnMap.erase id.chars } id
      { s.view id with waiting := 0 } where
  self := by
    simp [System.view, hkeyed.waiting.occurrences_erase RandStr.chars_injective]
  others := by
    intro other hother
    simp [System.view, hkeyed.waiting.occurrences_erase RandStr.chars_injective, Ne.symm hother]
  keyed := { hkeyed with waiting := hkeyed.waiting.erase }
  unclaimed := rfl
  accepted := rfl

theorem moves_emplaceMapped (hkeyed : Keyed s) (id : RandStr) :
    Moves s { s with proxyConnMap := emplace s.proxyConnMap id.chars id } id
      { s.view id with mapped := 1 } where
  self := by
    simp [System.view, hkeyed.proxyConnMap.occurrences_emplace RandStr.chars_injective]
  others := by
    intro other hother
    simp [System.view, hkeyed.proxyConnMap.occurrences_emplace RandStr.chars_injective,
      Ne.symm hother]
  keyed := { hkeyed with proxyConnMap := hkeyed.proxyConnMap.emplace rfl }
  unclaimed := rfl
  accepted := rfl

theorem moves_reqStartProxy (hkeyed : Keyed s) (publicFd : Fd)
    (hname : (s.link id).server.proxy.proxyId = id.chars) :
    Moves s (Server.reqStartProxy s publicFd id) id
      { (s.view id).mapLink fun link => link.request publicFd with waiting := 1 } := by
  have hrequest := (Moves.refl hkeyed id).mapLink fun link => link.request publicFd
  have hproxy : ((s.mapLink id fun link => link.request publicFd).link id).server.proxy.proxyId =
      id.chars := by
    simpa [System.mapLink, Link.request] using hname
  have hwait := moves_emplaceWaiting hrequest.keyed id
  rw [hrequest.self] at hwait
  unfold Server.reqStartProxy
  dsimp only
  rw [hproxy]
  exact hrequest.trans hwait

theorem moves_bindPublicFdToProxyConn (hkeyed : Keyed s) (publicFd : Fd)
    (hname : (s.link id).server.proxy.proxyId = id.chars) :
    Moves s (Server.bindPublicFdToProxyConn s publicFd id) id
      { (s.view id).mapLink fun link => { link with
          server := link.server.start { fd := publicFd, proxyId := id.chars } } with
        mapped := 1 } := by
  have hstart := (Moves.refl hkeyed id).mapLink fun link => { link with
    server := link.server.start { fd := publicFd, proxyId := id.chars } }
  have hmap := moves_emplaceMapped hstart.keyed id
  rw [hstart.self] at hmap
  unfold Server.bindPublicFdToProxyConn
  dsimp only
  rw [hname]
  exact hstart.trans hmap

theorem moves_handleStartProxyConnRsp (hkeyed : Keyed s)
    (hname : (s.link id).server.proxy.proxyId = id.chars) (hwaiting : (s.view id).waiting = 1)
    (publicFd : Fd) :
    Moves s (Server.handleStartProxyConnRsp s publicFd id) id
      { (s.view id).mapLink fun link => { link with
          server := link.server.start { fd := publicFd, proxyId := id.chars } } with
        mapped := 1
        waiting := 0 } := by
  have hmem : id.chars ∈ s.waitForStartProxyConnMap := by
    rw [hkeyed.waiting.mem_iff RandStr.chars_injective, ← hkeyed.waiting.occurrences_pos]
    have hone : occurrences s.waitForStartProxyConnMap id = 1 := hwaiting
    omega
  have hbind := moves_bindPublicFdToProxyConn hkeyed publicFd hname
  have herase := moves_eraseWaiting hbind.keyed id
  rw [hbind.self] at herase
  unfold Server.handleStartProxyConnRsp
  simp only [hname, hmem, not_true, if_false]
  exact hbind.trans herase

/-! ## The client's handlers -/

theorem moves_shutdonwLocalConn (hkeyed : Keyed s)
    (hname : (s.link id).client.proxy.proxyId = id.chars) :
    Moves s (Client.shutdonwLocalConn s id) id (s.view id).shutdonwLocalConn := by
  have hsettled := (Moves.refl hkeyed id).mapLink fun link =>
    link.mapClient fun conn => conn.shutdownWhenComplete.1
  unfold Client.shutdonwLocalConn View.shutdonwLocalConn
  dsimp only
  rw [view_link]
  split
  · have hproxy : ((s.mapLink id fun link => link.mapClient fun conn =>
        conn.shutdownWhenComplete.1).link id).client.proxy.proxyId = id.chars := by
      simp [System.mapLink, Link.mapClient, End.mapProxy, hname]
    rw [hproxy]
    have hpush := moves_pushCtlToServer hsettled.keyed
      (show CtlMsg.toNotice id (.freeProxyConnReq id.chars) = some .freeReq by
        simp [CtlMsg.toNotice])
    rw [hsettled.self] at hpush
    exact hsettled.trans hpush
  · exact hsettled

theorem moves_handleShutdownLocalConn (hkeyed : Keyed s) (tranCount : Nat)
    (hcreated : (s.view id).created = true)
    (hname : (s.link id).client.proxy.proxyId = id.chars) :
    Moves s (Client.handleShutdownLocalConn s id.chars tranCount) id
      ((s.view id).handleShutdownLocalConn tranCount) := by
  unfold Client.handleShutdownLocalConn View.handleShutdownLocalConn
  rw [hkeyed.lookup_client hcreated]
  have hcounted := (Moves.refl hkeyed id).mapLink fun link =>
    link.mapClient fun conn => conn.incrTheoreticalTotalRecvCount tranCount
  have hproxy : ((s.mapLink id fun link => link.mapClient fun conn =>
      conn.incrTheoreticalTotalRecvCount tranCount).link id).client.proxy.proxyId = id.chars := by
    simp [System.mapLink, Link.mapClient, End.mapProxy, hname]
  have hshut := moves_shutdonwLocalConn hcounted.keyed hproxy
  rw [hcounted.self] at hshut
  exact hcounted.trans hshut

theorem moves_shutdownFromLocal (hkeyed : Keyed s) (tranCount : Nat)
    (hcreated : (s.view id).created = true) :
    Moves s (Client.shutdownFromLocal s id.chars tranCount) id
      ((s.view id).shutdownFromLocal tranCount) := by
  unfold Client.shutdownFromLocal View.shutdownFromLocal
  rw [hkeyed.lookup_client hcreated]
  have hlocal := (Moves.refl hkeyed id).mapLink fun link =>
    link.mapClient fun conn => conn.shutdownFromLocal.1
  have hpush := moves_pushCtlToServer hlocal.keyed
    (show CtlMsg.toNotice id (.notifyProxyShutdownPeerConn id.chars tranCount) =
      some (.shutdownPeer tranCount) by simp [CtlMsg.toNotice])
  rw [hlocal.self] at hpush
  exact hlocal.trans hpush

theorem moves_handleProxyNotify (hkeyed : Keyed s) (hfresh : id.chars ∉ s.clientProxyConnMap)
    (proxyFd localFd : Fd) :
    Moves s (Client.handleProxyNotify cfg s id proxyFd localFd) id
      ((s.view id).connect cfg id proxyFd localFd) := by
  have hinsert := emplace_of_notMem hfresh id
  unfold Client.handleProxyNotify
  constructor
  · simp [System.view, System.mapLink, View.connect, Link.sendAndStart, hinsert]
  · intro other hother
    have hchars : other.chars ≠ id.chars := fun heq => hother (RandStr.chars_injective heq)
    simp [System.view, System.mapLink, hother, hinsert, AList.lookup_insert_ne hchars]
  · exact { hkeyed with client := hkeyed.client.emplace rfl }
  · rfl
  · rfl

theorem moves_handleStartProxyConnReq (hkeyed : Keyed s) (hcreated : (s.view id).created = true)
    (hstart : (s.link id).client.proxy.isStart = false) (publicFd : Nat) (localFd : Fd) :
    Moves s (Client.handleStartProxyConnReq s publicFd id.chars localFd) id
      ((s.view id).mapLink fun link =>
        link.sendAndStart (.startProxyConnRsp publicFd id.chars) localFd) := by
  unfold Client.handleStartProxyConnReq
  rw [hkeyed.lookup_client hcreated]
  simp only [hstart, Bool.false_eq_true, if_false]
  exact (Moves.refl hkeyed id).mapLink _

end CProxy
