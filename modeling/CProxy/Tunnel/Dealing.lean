import CProxy.Tunnel.Reachable

/-! # Where a step takes the public descriptors

Only two handlers of the server touch the list of public descriptors that wait
for a proxy connection: the one that accepts a public connection and the one that
claims a proxy connection. The other handlers keep what is listed in `Keeps`.
-/

namespace CProxy

open Foundation Wire

/-- The requests for a proxy connection on their way to the client. -/
def System.needs (s : System) : Nat := s.ctlToClient.count .notifyClientNeedProxy

structure Keeps (s s' : System) : Prop where
  undeal : s'.undealPublicFds = s.undealPublicFds
  needs : s'.needs = s.needs
  accepted : s'.accepted = s.accepted
  client : s'.clientProxyConnMap = s.clientProxyConnMap
  claimed : ∀ id, (s'.link id).claimed = (s.link id).claimed

namespace Keeps

variable {s s₁ s₂ : System}

theorem refl (s : System) : Keeps s s := ⟨rfl, rfl, rfl, rfl, fun _ => rfl⟩

theorem trans (hfirst : Keeps s s₁) (hsecond : Keeps s₁ s₂) : Keeps s s₂ where
  undeal := hsecond.undeal.trans hfirst.undeal
  needs := hsecond.needs.trans hfirst.needs
  accepted := hsecond.accepted.trans hfirst.accepted
  client := hsecond.client.trans hfirst.client
  claimed := fun id => (hsecond.claimed id).trans (hfirst.claimed id)

theorem mapLink (s : System) (id : RandStr) (update : Link → Link)
    (hupdate : ∀ link, (update link).claimed = link.claimed) : Keeps s (s.mapLink id update) where
  undeal := rfl
  needs := rfl
  accepted := rfl
  client := rfl
  claimed := by
    intro other
    by_cases hid : other = id
    · subst hid
      simp [System.mapLink, hupdate]
    · simp [System.mapLink, hid]

theorem afterMapLink {id : RandStr} {update : Link → Link}
    (hrest : Keeps (s.mapLink id update) s₁)
    (hupdate : ∀ link, (update link).claimed = link.claimed) : Keeps s s₁ :=
  (mapLink s id update hupdate).trans hrest

theorem freeProxyConn (s : System) (proxyId : Str) : Keeps s (Server.freeProxyConn s proxyId) := by
  unfold Server.freeProxyConn
  split
  · exact refl s
  · split
    · exact refl s
    · exact ⟨rfl, rfl, rfl, rfl, fun _ => rfl⟩

theorem shutdownPublicConn (s : System) (id : RandStr) :
    Keeps s (Server.shutdownPublicConn s id) := by
  unfold Server.shutdownPublicConn
  dsimp only
  split
  · exact (freeProxyConn _ _).afterMapLink fun _ => rfl
  · exact mapLink s id _ fun _ => rfl

theorem handleShutdownPublicConn (s : System) (proxyId : Str) (tranCount : Nat) :
    Keeps s (Server.handleShutdownPublicConn s proxyId tranCount) := by
  unfold Server.handleShutdownPublicConn
  split
  · exact refl s
  · exact (shutdownPublicConn _ _).afterMapLink fun _ => rfl

theorem shutdownFromPublic (s : System) (proxyId : Str) (tranCount : Nat) :
    Keeps s (Server.shutdownFromPublic s proxyId tranCount) := by
  unfold Server.shutdownFromPublic
  split
  · exact refl s
  · next id _ =>
      refine (mapLink s id (fun link => link.mapServer fun conn =>
        conn.shutdownFromLocal.1) fun _ => rfl).trans ⟨rfl, ?_, rfl, rfl, fun _ => rfl⟩
      simp [System.needs]

theorem bindPublicFdToProxyConn (s : System) (publicFd : Fd) (id : RandStr) :
    Keeps s (Server.bindPublicFdToProxyConn s publicFd id) := by
  have hstart := mapLink s id (fun link => { link with
    server := link.server.start
      { fd := publicFd, proxyId := (s.link id).server.proxy.proxyId } }) fun _ => rfl
  exact hstart.trans ⟨rfl, rfl, rfl, rfl, fun _ => rfl⟩

theorem handleStartProxyConnRsp (s : System) (publicFd : Fd) (id : RandStr) :
    Keeps s (Server.handleStartProxyConnRsp s publicFd id) := by
  unfold Server.handleStartProxyConnRsp
  dsimp only
  split
  · exact refl s
  · exact (bindPublicFdToProxyConn s publicFd id).trans ⟨rfl, rfl, rfl, rfl, fun _ => rfl⟩

theorem reqStartProxy (s : System) (publicFd : Fd) (id : RandStr) :
    Keeps s (Server.reqStartProxy s publicFd id) := by
  have hrequest := mapLink s id (fun link => link.request publicFd) fun _ => rfl
  exact hrequest.trans ⟨rfl, rfl, rfl, rfl, fun _ => rfl⟩

theorem serverForwardRead {s s' : System} {id : RandStr} {count : Nat}
    (hread : Server.forwardRead s id count = some s') : Keeps s s' := by
  unfold Server.forwardRead at hread
  dsimp only at hread
  have hforward := mapLink s id (fun link => link.forwardAtServer count) fun _ => rfl
  split at hread
  · cases hread
  · split at hread
    · cases hread
    · split at hread
      · obtain rfl := Option.some.inj hread
        exact hforward.trans (shutdownPublicConn _ _)
      · obtain rfl := Option.some.inj hread
        exact hforward

theorem publicRead {s s' : System} {id : RandStr} {bytes : List UInt8}
    (hread : Server.publicRead s id bytes = some s') : Keeps s s' := by
  unfold Server.publicRead at hread
  dsimp only at hread
  split at hread
  · cases hread
  · split at hread
    · split at hread
      · obtain rfl := Option.some.inj hread
        exact refl s
      · obtain rfl := Option.some.inj hread
        exact (shutdownFromPublic s _ _).trans (mapLink _ id _ fun _ => rfl)
    · split at hread
      · cases hread
      · obtain rfl := Option.some.inj hread
        exact mapLink s id _ fun _ => rfl

theorem serverCtlRead {s s' : System} (hread : Server.ctlRead s = some s') : Keeps s s' := by
  unfold Server.ctlRead at hread
  split at hread
  · cases hread
  · next msg rest _ =>
      have hpopped : Keeps s { s with ctlToServer := rest } := ⟨rfl, rfl, rfl, rfl, fun _ => rfl⟩
      cases msg with
      | notifyClientNeedProxy =>
          obtain rfl := Option.some.inj hread
          exact hpopped
      | notifyProxyShutdownPeerConn proxyId tranCount =>
          obtain rfl := Option.some.inj hread
          exact hpopped.trans (handleShutdownPublicConn _ _ _)
      | freeProxyConnReq proxyId =>
          obtain rfl := Option.some.inj hread
          exact hpopped.trans (freeProxyConn _ _)

theorem shutdonwLocalConn (s : System) (id : RandStr) :
    Keeps s (Client.shutdonwLocalConn s id) := by
  have hsettled := mapLink s id (fun link =>
    link.mapClient fun conn => conn.shutdownWhenComplete.1) fun _ => rfl
  unfold Client.shutdonwLocalConn
  dsimp only
  split
  · exact hsettled.trans ⟨rfl, rfl, rfl, rfl, fun _ => rfl⟩
  · exact hsettled

theorem handleShutdownLocalConn (s : System) (proxyId : Str) (tranCount : Nat) :
    Keeps s (Client.handleShutdownLocalConn s proxyId tranCount) := by
  unfold Client.handleShutdownLocalConn
  split
  · exact refl s
  · exact (shutdonwLocalConn _ _).afterMapLink fun _ => rfl

theorem shutdownFromLocal (s : System) (proxyId : Str) (tranCount : Nat) :
    Keeps s (Client.shutdownFromLocal s proxyId tranCount) := by
  unfold Client.shutdownFromLocal
  split
  · exact refl s
  · next id _ =>
      have hlocal := mapLink s id (fun link =>
        link.mapClient fun conn => conn.shutdownFromLocal.1) fun _ => rfl
      exact hlocal.trans ⟨rfl, rfl, rfl, rfl, fun _ => rfl⟩

theorem handleStartProxyConnReq (s : System) (publicFd : Nat) (proxyId : Str) (localFd : Fd) :
    Keeps s (Client.handleStartProxyConnReq s publicFd proxyId localFd) := by
  unfold Client.handleStartProxyConnReq
  split
  · exact refl s
  · split
    · exact refl s
    · exact mapLink s _ _ fun _ => rfl

theorem clientProxyRead {s s' : System} {id : RandStr} {count : Nat} {localFd : Fd}
    (hread : Client.proxyRead s id count localFd = some s') : Keeps s s' := by
  unfold Client.proxyRead at hread
  split at hread
  · cases hread
  · split at hread
    · unfold Client.forwardRead at hread
      dsimp only at hread
      have hforward := mapLink s id (fun link => link.forwardAtClient count) fun _ => rfl
      split at hread
      · cases hread
      · split at hread
        · cases hread
        · split at hread
          · obtain rfl := Option.some.inj hread
            exact hforward.trans (shutdonwLocalConn _ _)
          · obtain rfl := Option.some.inj hread
            exact hforward
    · unfold Client.messageRead at hread
      split at hread
      · cases hread
      · obtain rfl := Option.some.inj hread
        exact mapLink s id _ fun _ => rfl
      · cases hread
      · next type body rest _ =>
          have hread' := mapLink s id (fun link => { link with toClient := rest })
            fun _ => rfl
          split at hread
          · cases hread
          · dsimp only at hread
            split at hread
            · obtain rfl := Option.some.inj hread
              exact hread'.trans (handleStartProxyConnReq _ _ _ _)
            · obtain rfl := Option.some.inj hread
              exact hread'

theorem localRead {s s' : System} {id : RandStr} {bytes : List UInt8}
    (hread : Client.localRead s id bytes = some s') : Keeps s s' := by
  unfold Client.localRead at hread
  dsimp only at hread
  split at hread
  · cases hread
  · split at hread
    · split at hread
      · obtain rfl := Option.some.inj hread
        exact refl s
      · obtain rfl := Option.some.inj hread
        exact (shutdownFromLocal s _ _).trans (mapLink _ id _ fun _ => rfl)
    · split at hread
      · cases hread
      · obtain rfl := Option.some.inj hread
        exact mapLink s id _ fun _ => rfl

end Keeps

/-! ## The five things a step can do to the descriptors -/

inductive Dealt (s s' : System) (event : Event) : Prop
  | kept (hundeal : s'.undealPublicFds = s.undealPublicFds) (hneeds : s'.needs = s.needs)
      (haccepted : ∀ fd, fd ∈ s.accepted → fd ∈ s'.accepted)
      (hclient : s'.clientProxyConnMap = s.clientProxyConnMap)
      (hclaimed : ∀ id, (s'.link id).claimed = (s.link id).claimed)
      (hrequest : ∀ id fd, event.about s id ≠ .request fd)
      (hpositive : ∀ fd ∈ s'.accepted, fd ∈ s.accepted ∨ 0 < fd)
  /-- A public connection waits for a new proxy connection. -/
  | asked (fd : Fd) (hfresh : fd ∉ s.accepted)
      (hundeal : s'.undealPublicFds = s.undealPublicFds ++ [fd]) (hneeds : s'.needs = s.needs + 1)
      (haccepted : s'.accepted = s.accepted ++ [fd])
      (hclient : s'.clientProxyConnMap = s.clientProxyConnMap)
      (hviews : ∀ id, s'.view id = s.view id) (hpositive : 0 < fd)
  /-- A public connection is offered to a free proxy connection. -/
  | offered (id : RandStr) (fd : Fd) (hfresh : fd ∉ s.accepted)
      (hundeal : s'.undealPublicFds = s.undealPublicFds) (hneeds : s'.needs = s.needs)
      (haccepted : s'.accepted = s.accepted ++ [fd])
      (hclient : s'.clientProxyConnMap = s.clientProxyConnMap)
      (hevent : event = .newPublicConn fd) (hlast : s.freeProxyConns.getLast? = some id)
      (hclaimed : ∀ id, (s'.link id).claimed = (s.link id).claimed) (hpositive : 0 < fd)
  /-- The client makes a new proxy connection. -/
  | heard (id : RandStr) (hundeal : s'.undealPublicFds = s.undealPublicFds)
      (hneeds : s.needs = s'.needs + 1) (haccepted : s'.accepted = s.accepted)
      (hfresh : id.chars ∉ s.clientProxyConnMap)
      (hclient : s'.clientProxyConnMap = s.clientProxyConnMap.insert id.chars id)
      (hclaimed : ∀ id, (s'.link id).claimed = (s.link id).claimed)
      (hrequest : ∀ id fd, event.about s id ≠ .request fd)
  /-- A new proxy connection takes a public connection. -/
  | taken (id : RandStr) (fd : Fd) (hundeal : s.undealPublicFds = s'.undealPublicFds ++ [fd])
      (hneeds : s'.needs = s.needs) (haccepted : s'.accepted = s.accepted)
      (hclient : s'.clientProxyConnMap = s.clientProxyConnMap)
      (hopen : (s.link id).accepted = true) (hbefore : (s.link id).claimed = false)
      (hafter : (s'.link id).claimed = true)
      (hstarts : (s'.link id).server.starts = (s.link id).server.starts ++ [fd])
      (hothers : ∀ other, other ≠ id → (s'.link other).claimed = (s.link other).claimed)
      (hrequest : ∀ id fd, event.about s id ≠ .request fd)

theorem Dealt.of_keeps {s s' : System} {event : Event} (hkeeps : Keeps s s')
    (hrequest : ∀ id fd, event.about s id ≠ .request fd) : Dealt s s' event :=
  .kept hkeeps.undeal hkeeps.needs (fun _ hfd => hkeeps.accepted ▸ hfd) hkeeps.client
    hkeeps.claimed hrequest fun _ hfd => Or.inl (hkeeps.accepted ▸ hfd)

variable {cfg : Config} {s s' : System} {id : RandStr} {event : Event}

theorem dealt_newPublicConn {acceptFd : Fd} (hfresh : Fresh s acceptFd) :
    Dealt s (Server.newPublicConnHandler s acceptFd) (.newPublicConn acceptFd) := by
  unfold Server.newPublicConnHandler
  cases hlast : s.freeProxyConns.getLast? with
  | none =>
      simp only [hlast]
      refine .asked acceptFd hfresh.2.2 rfl ?_ rfl rfl ?_ hfresh.1
      · simp [System.needs]
      · intro id
        simp [System.view, CtlMsg.toTotal]
  | some id =>
      simp only [hlast]
      have hkeeps := Keeps.reqStartProxy { s with
        accepted := s.accepted ++ [acceptFd]
        freeProxyConns := s.freeProxyConns.dropLast } acceptFd id
      exact .offered id acceptFd hfresh.2.2 hkeeps.undeal hkeeps.needs hkeeps.accepted
        hkeeps.client rfl hlast hkeeps.claimed hfresh.1

theorem dealt_claimProxyConn {s₁ : System} (hkeeps : Keeps s s₁)
    (hsame : (s₁.link id).server.starts = (s.link id).server.starts)
    (hopen : (s.link id).accepted = true) (hclaimed : (s.link id).claimed = false)
    {ctlId tunId proxyId : Str}
    (hclaim : Server.claimProxyConn cfg s₁ id ctlId tunId proxyId = some s')
    (hrequest : ∀ id fd, event.about s id ≠ .request fd) : Dealt s s' event := by
  have hnamed := hkeeps.trans (Keeps.mapLink s₁ id (fun link =>
    link.mapServer fun conn => { conn with proxyId := proxyId }) fun _ => rfl)
  unfold Server.claimProxyConn at hclaim
  dsimp only at hclaim
  split at hclaim
  · obtain rfl := Option.some.inj hclaim
    exact .of_keeps hnamed hrequest
  · split at hclaim
    · obtain rfl := Option.some.inj hclaim
      exact .of_keeps hnamed hrequest
    · obtain ⟨bound, hbound, rfl⟩ := Option.map_eq_some_iff.mp hclaim
      unfold Server.tunnelClaimProxyConn at hbound
      dsimp only at hbound
      split at hbound
      · cases hbound
      · next publicFd hlast =>
          obtain ⟨others, hsplit⟩ := List.getLast?_eq_some_iff.mp hlast
          have hundeal : s₁.undealPublicFds = others ++ [publicFd] := hsplit
          obtain rfl := Option.some.inj hbound
          refine .taken id publicFd ?_ hkeeps.needs hkeeps.accepted hkeeps.client hopen hclaimed
            ?_ ?_ ?_ hrequest
          · simp [Server.eraseUnclaimed, Server.bindPublicFdToProxyConn, System.mapLink,
              ← hkeeps.undeal, hundeal]
          · simp [Server.eraseUnclaimed, Server.bindPublicFdToProxyConn, System.mapLink]
          · simp [Server.eraseUnclaimed, Server.bindPublicFdToProxyConn, System.mapLink,
              Link.mapServer, End.mapProxy, End.start, hsame]
          · intro other hother
            rw [← hkeeps.claimed other]
            simp [Server.eraseUnclaimed, Server.bindPublicFdToProxyConn, System.mapLink, hother]

theorem dealt_serverMessageRead (hwf : WellFormed cfg s) (haccepted : (s.link id).accepted = true)
    (hstart : (s.link id).server.proxy.isStart = false)
    (hread : Server.messageRead cfg s id = some s')
    (hrequest : ∀ id fd, event.about s id ≠ .request fd) : Dealt s s' event := by
  unfold Server.messageRead at hread
  cases hwf.inv id with
  | unused hunused =>
      have hopen : (s.view id).link.accepted = false := by rw [hunused]
      rw [view_link, haccepted] at hopen
      cases hopen
  | ahead loc msg hahead =>
      have hstream : (s.link id).toServer = msg.wire ++ loc.received := hahead.stream
      have hparse := Keeps.mapLink s id (fun link =>
        link.parseAtServer (.parsed msg) loc.received) fun _ => rfl
      simp only [hstream, ProxyCtlMsg.readMsg_wire hahead.origin.sent,
        ProxyCtlMsg.decode_body hahead.origin.sent] at hread
      cases hahead.origin with
      | fresh hclaimed =>
          refine dealt_claimProxyConn hparse ?_ haccepted hclaimed hread hrequest
          simp [System.mapLink, Link.parseAtServer]
      | reused publicFd hfd _ hclaimed =>
          simp only at hread
          split at hread
          · obtain rfl := Option.some.inj hread
            exact .of_keeps (hparse.trans (Keeps.handleStartProxyConnRsp _ _ _)) hrequest
          · obtain rfl := Option.some.inj hread
            exact .of_keeps hparse hrequest
  | level pub loc trailing hlevel =>
      have hempty : (s.link id).toServer = [] := (hlevel.up.resting_of_not_isStart hstart).flight
      simp only [hempty, readMsg_nil] at hread
      cases hread

theorem dealt_clientCtlRead {proxyFd localFd : Fd}
    (hread : Client.ctlRead cfg s id proxyFd localFd = some s') :
    Dealt s s' (.clientCtlRead id proxyFd localFd) := by
  have hrequest := @about_ne_request s (.clientCtlRead id proxyFd localFd) nofun
  unfold Client.ctlRead at hread
  split at hread
  · cases hread
  · next msg rest hctl =>
      cases msg with
      | notifyClientNeedProxy =>
          simp only at hread
          split at hread
          · cases hread
          · next hfresh =>
              obtain rfl := Option.some.inj hread
              have hinsert := emplace_of_notMem hfresh id
              refine .heard id rfl ?_ rfl hfresh hinsert ?_ hrequest
              · simp [System.needs, hctl, Client.handleProxyNotify, System.mapLink]
              · intro other
                by_cases hid : other = id
                · subst hid
                  simp [Client.handleProxyNotify, System.mapLink, Link.sendAndStart]
                · simp [Client.handleProxyNotify, System.mapLink, hid]
      | notifyProxyShutdownPeerConn proxyId tranCount =>
          obtain rfl := Option.some.inj hread
          have hpopped : Keeps s { s with ctlToClient := rest } :=
            ⟨rfl, by simp [System.needs, hctl], rfl, rfl, fun _ => rfl⟩
          exact .of_keeps (hpopped.trans (Keeps.handleShutdownLocalConn _ _ _)) hrequest
      | freeProxyConnReq proxyId =>
          obtain rfl := Option.some.inj hread
          have hpopped : Keeps s { s with ctlToClient := rest } :=
            ⟨rfl, by simp [System.needs, hctl], rfl, rfl, fun _ => rfl⟩
          exact .of_keeps hpopped hrequest

theorem step_dealt (hwf : WellFormed cfg s) (hstep : step cfg s event = some s') :
    Dealt s s' event := by
  cases event with
  | newPublicConn acceptFd =>
      simp only [step, Option.ite_none_right_eq_some] at hstep
      obtain ⟨hfresh, hsome⟩ := hstep
      obtain rfl := Option.some.inj hsome
      exact dealt_newPublicConn hfresh
  | newProxyConn id acceptFd =>
      simp only [step, Option.ite_none_right_eq_some] at hstep
      obtain ⟨⟨hfresh, _⟩, hsome⟩ := hstep
      obtain rfl := Option.some.inj hsome
      have hlink := Keeps.mapLink s id (fun link => { link with
        accepted := true
        server := { link.server with proxy := { fd := acceptFd } } }) fun _ => rfl
      refine .kept rfl rfl (fun _ hfd => List.mem_append_left _ hfd) rfl hlink.claimed
        (about_ne_request (by simp)) ?_
      intro fd hfd
      rcases List.mem_append.mp hfd with hold | hnew
      · exact Or.inl hold
      · exact Or.inr (List.mem_singleton.mp hnew ▸ hfresh.1)
  | serverProxyRead id count =>
      have hrequest := @about_ne_request s (.serverProxyRead id count) (by simp)
      simp only [step, Server.proxyRead] at hstep
      split at hstep
      · cases hstep
      · next haccepted =>
          split at hstep
          · exact .of_keeps (Keeps.serverForwardRead hstep) hrequest
          · next hstart =>
              exact dealt_serverMessageRead hwf (by simpa using haccepted) (by simpa using hstart)
                hstep hrequest
  | publicRead id bytes => exact .of_keeps (Keeps.publicRead hstep) (about_ne_request (by simp))
  | serverCtlRead => exact .of_keeps (Keeps.serverCtlRead hstep) (about_ne_request (by simp))
  | clientCtlRead id proxyFd localFd =>
      simp only [step, Option.ite_none_right_eq_some] at hstep
      exact dealt_clientCtlRead hstep.2
  | clientProxyRead id count localFd =>
      simp only [step, Option.ite_none_right_eq_some] at hstep
      exact .of_keeps (Keeps.clientProxyRead hstep.2) (about_ne_request (by simp))
  | localRead id bytes => exact .of_keeps (Keeps.localRead hstep) (about_ne_request (by simp))
  | strayFreeReq proxyId =>
      obtain rfl := Option.some.inj hstep
      exact .of_keeps (Keeps.freeProxyConn s proxyId) (about_ne_request (by simp))

end CProxy
