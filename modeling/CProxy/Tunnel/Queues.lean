import CProxy.Tunnel.CtlMsgs
import CProxy.Tunnel.Reachable

/-! # The handlers and the control connection

No handler looks at the messages that are on the control connection already: it puts
its own behind them. The messages that the handlers send name a proxy connection that
the client has made.
-/

namespace CProxy

open Foundation Wire

/-- The tunnel with older messages on the control connection. -/
def System.behind (s : System) (toServer toClient : List CtlMsg) : System :=
  { s with ctlToServer := toServer ++ s.ctlToServer, ctlToClient := toClient ++ s.ctlToClient }

variable {cfg : Config} {s s' : System} {id : RandStr} {event : Event}
variable {toServer toClient : List CtlMsg}

@[simp] theorem mapLink_behind (update : Link → Link) :
    (s.behind toServer toClient).mapLink id update =
      (s.mapLink id update).behind toServer toClient := rfl

@[simp] theorem behind_link : (s.behind toServer toClient).link = s.link := rfl

@[simp] theorem behind_proxyConnMap :
    (s.behind toServer toClient).proxyConnMap = s.proxyConnMap := rfl

@[simp] theorem behind_clientProxyConnMap :
    (s.behind toServer toClient).clientProxyConnMap = s.clientProxyConnMap := rfl

@[simp] theorem behind_waitForStartProxyConnMap :
    (s.behind toServer toClient).waitForStartProxyConnMap = s.waitForStartProxyConnMap := rfl

@[simp] theorem behind_freeProxyConns :
    (s.behind toServer toClient).freeProxyConns = s.freeProxyConns := rfl

@[simp] theorem behind_undealPublicFds :
    (s.behind toServer toClient).undealPublicFds = s.undealPublicFds := rfl

/-! ## The server's handlers -/

namespace Server

theorem freeProxyConn_behind (proxyId : Str) :
    freeProxyConn (s.behind toServer toClient) proxyId =
      (freeProxyConn s proxyId).behind toServer toClient := by
  unfold freeProxyConn
  rw [behind_proxyConnMap]
  split
  · rfl
  · rw [behind_link]
    split
    · rfl
    · rfl

theorem shutdownPublicConn_behind (id : RandStr) :
    shutdownPublicConn (s.behind toServer toClient) id =
      (shutdownPublicConn s id).behind toServer toClient := by
  unfold shutdownPublicConn
  dsimp only
  rw [apply_ite fun s : System => s.behind toServer toClient]
  refine if_congr Iff.rfl ?_ rfl
  rw [mapLink_behind, behind_link, freeProxyConn_behind]

theorem handleShutdownPublicConn_behind (proxyId : Str) (tranCount : Nat) :
    handleShutdownPublicConn (s.behind toServer toClient) proxyId tranCount =
      (handleShutdownPublicConn s proxyId tranCount).behind toServer toClient := by
  unfold handleShutdownPublicConn
  rw [behind_proxyConnMap]
  split
  · rfl
  · dsimp only
    rw [mapLink_behind, shutdownPublicConn_behind]

theorem shutdownFromPublic_behind (proxyId : Str) (tranCount : Nat) :
    shutdownFromPublic (s.behind toServer toClient) proxyId tranCount =
      (shutdownFromPublic s proxyId tranCount).behind toServer toClient := by
  unfold shutdownFromPublic
  rw [behind_proxyConnMap]
  split
  · rfl
  · simp [System.behind, System.mapLink]

theorem newPublicConnHandler_behind (acceptFd : Fd) :
    newPublicConnHandler (s.behind toServer toClient) acceptFd =
      (newPublicConnHandler s acceptFd).behind toServer toClient := by
  unfold newPublicConnHandler
  dsimp only
  rw [behind_freeProxyConns]
  split
  · rfl
  · simp [System.behind]

theorem claimProxyConn_behind (id : RandStr) (ctlId tunId proxyId : Str) :
    claimProxyConn cfg (s.behind toServer toClient) id ctlId tunId proxyId =
      (claimProxyConn cfg s id ctlId tunId proxyId).map (·.behind toServer toClient) := by
  unfold claimProxyConn
  dsimp only
  split
  · rfl
  · split
    · rfl
    · unfold tunnelClaimProxyConn
      dsimp only
      rw [mapLink_behind, mapLink_behind, behind_undealPublicFds]
      split
      · rfl
      · rfl

theorem handleStartProxyConnRsp_behind (publicFd : Nat) (id : RandStr) :
    handleStartProxyConnRsp (s.behind toServer toClient) publicFd id =
      (handleStartProxyConnRsp s publicFd id).behind toServer toClient := by
  unfold handleStartProxyConnRsp
  dsimp only
  rw [behind_link, behind_waitForStartProxyConnMap]
  split
  · rfl
  · rfl

theorem forwardRead_behind (id : RandStr) (count : Nat) :
    forwardRead (s.behind toServer toClient) id count =
      (forwardRead s id count).map (·.behind toServer toClient) := by
  unfold forwardRead
  rw [behind_link]
  split
  · rfl
  · split
    · rfl
    · simp only [mapLink_behind, behind_link]
      rw [shutdownPublicConn_behind, apply_ite (Option.map fun s : System =>
        s.behind toServer toClient)]
      rfl

theorem messageRead_behind (id : RandStr) :
    messageRead cfg (s.behind toServer toClient) id =
      (messageRead cfg s id).map (·.behind toServer toClient) := by
  unfold messageRead
  simp only [behind_link, mapLink_behind]
  split
  · rfl
  · rfl
  · rfl
  · split
    · rfl
    · rfl
    · split
      · exact claimProxyConn_behind _ _ _ _
      · rfl
      · rw [apply_ite (Option.map fun s : System => s.behind toServer toClient)]
        exact if_congr Iff.rfl (congrArg some (handleStartProxyConnRsp_behind _ _)) rfl

theorem proxyRead_behind (id : RandStr) (count : Nat) :
    proxyRead cfg (s.behind toServer toClient) id count =
      (proxyRead cfg s id count).map (·.behind toServer toClient) := by
  unfold proxyRead
  rw [behind_link]
  split
  · rfl
  · split
    · exact forwardRead_behind id count
    · exact messageRead_behind id

theorem publicRead_behind (id : RandStr) (bytes : List UInt8) :
    publicRead (s.behind toServer toClient) id bytes =
      (publicRead s id bytes).map (·.behind toServer toClient) := by
  unfold publicRead
  rw [behind_link]
  split
  · rfl
  · split
    · split
      · rfl
      · rw [shutdownFromPublic_behind]
        rfl
    · split
      · rfl
      · rfl

/-- The oldest message is read, whatever is behind it. -/
theorem ctlRead_behind {msg : CtlMsg} (hctl : s.ctlToServer = [msg]) :
    ctlRead { s with
        ctlToServer := msg :: toServer
        ctlToClient := toClient ++ s.ctlToClient } =
      (ctlRead s).map (·.behind toServer toClient) := by
  have hrest : { s with ctlToServer := toServer, ctlToClient := toClient ++ s.ctlToClient } =
      { s with ctlToServer := [] }.behind toServer toClient := by
    simp [System.behind]
  simp only [ctlRead, hctl]
  rw [hrest]
  cases msg with
  | notifyClientNeedProxy => rfl
  | notifyProxyShutdownPeerConn proxyId tranCount =>
      exact congrArg some (handleShutdownPublicConn_behind proxyId tranCount)
  | freeProxyConnReq proxyId => exact congrArg some (freeProxyConn_behind proxyId)

end Server

/-! ## The client's handlers -/

namespace Client

theorem shutdonwLocalConn_behind (id : RandStr) :
    shutdonwLocalConn (s.behind toServer toClient) id =
      (shutdonwLocalConn s id).behind toServer toClient := by
  unfold shutdonwLocalConn
  dsimp only
  rw [apply_ite fun s : System => s.behind toServer toClient]
  exact if_congr Iff.rfl (by simp [System.behind, System.mapLink]) rfl

theorem handleShutdownLocalConn_behind (proxyId : Str) (tranCount : Nat) :
    handleShutdownLocalConn (s.behind toServer toClient) proxyId tranCount =
      (handleShutdownLocalConn s proxyId tranCount).behind toServer toClient := by
  unfold handleShutdownLocalConn
  rw [behind_clientProxyConnMap]
  split
  · rfl
  · dsimp only
    rw [mapLink_behind, shutdonwLocalConn_behind]

theorem shutdownFromLocal_behind (proxyId : Str) (tranCount : Nat) :
    shutdownFromLocal (s.behind toServer toClient) proxyId tranCount =
      (shutdownFromLocal s proxyId tranCount).behind toServer toClient := by
  unfold shutdownFromLocal
  rw [behind_clientProxyConnMap]
  split
  · rfl
  · simp [System.behind, System.mapLink]

theorem handleStartProxyConnReq_behind (publicFd : Nat) (proxyId : Str) (localFd : Fd) :
    handleStartProxyConnReq (s.behind toServer toClient) publicFd proxyId localFd =
      (handleStartProxyConnReq s publicFd proxyId localFd).behind toServer toClient := by
  unfold handleStartProxyConnReq
  rw [behind_clientProxyConnMap]
  split
  · rfl
  · rw [behind_link]
    split
    · rfl
    · rfl

theorem forwardRead_behind (id : RandStr) (count : Nat) :
    forwardRead (s.behind toServer toClient) id count =
      (forwardRead s id count).map (·.behind toServer toClient) := by
  unfold forwardRead
  rw [behind_link]
  split
  · rfl
  · split
    · rfl
    · simp only [mapLink_behind, behind_link]
      rw [shutdonwLocalConn_behind,
        apply_ite (Option.map fun s : System => s.behind toServer toClient)]
      rfl

theorem messageRead_behind (id : RandStr) (localFd : Fd) :
    messageRead (s.behind toServer toClient) id localFd =
      (messageRead s id localFd).map (·.behind toServer toClient) := by
  unfold messageRead
  simp only [behind_link, mapLink_behind]
  split
  · rfl
  · rfl
  · rfl
  · split
    · rfl
    · split
      · rw [handleStartProxyConnReq_behind]
        rfl
      · rfl

theorem proxyRead_behind (id : RandStr) (count : Nat) (localFd : Fd) :
    proxyRead (s.behind toServer toClient) id count localFd =
      (proxyRead s id count localFd).map (·.behind toServer toClient) := by
  unfold proxyRead
  rw [behind_clientProxyConnMap, behind_link]
  split
  · rfl
  · split
    · exact forwardRead_behind id count
    · exact messageRead_behind id localFd

theorem localRead_behind (id : RandStr) (bytes : List UInt8) :
    localRead (s.behind toServer toClient) id bytes =
      (localRead s id bytes).map (·.behind toServer toClient) := by
  unfold localRead
  rw [behind_link]
  split
  · rfl
  · split
    · split
      · rfl
      · rw [shutdownFromLocal_behind]
        rfl
    · split
      · rfl
      · rfl

/-- The oldest message is read, whatever is behind it. -/
theorem ctlRead_behind {msg : CtlMsg} (hctl : s.ctlToClient = [msg]) (id : RandStr)
    (proxyFd localFd : Fd) :
    ctlRead cfg { s with
        ctlToServer := toServer ++ s.ctlToServer
        ctlToClient := msg :: toClient } id proxyFd localFd =
      (ctlRead cfg s id proxyFd localFd).map (·.behind toServer toClient) := by
  have hrest : { s with ctlToServer := toServer ++ s.ctlToServer, ctlToClient := toClient } =
      { s with ctlToClient := [] }.behind toServer toClient := by
    simp [System.behind]
  simp only [ctlRead, hctl]
  rw [hrest]
  cases msg with
  | notifyClientNeedProxy =>
      dsimp only
      rw [apply_ite (Option.map fun s : System => s.behind toServer toClient)]
      rfl
  | notifyProxyShutdownPeerConn proxyId tranCount =>
      exact congrArg some (handleShutdownLocalConn_behind proxyId tranCount)
  | freeProxyConnReq proxyId => rfl

end Client

/-- Older messages do not matter to a handler that reads none. -/
theorem step_behind (hserver : event ≠ .serverCtlRead)
    (hclient : ∀ id proxyFd localFd, event ≠ .clientCtlRead id proxyFd localFd) :
    step cfg (s.behind toServer toClient) event =
      (step cfg s event).map (·.behind toServer toClient) := by
  have hfresh (acceptFd : Fd) : Fresh (s.behind toServer toClient) acceptFd = Fresh s acceptFd :=
    rfl
  cases event with
  | newPublicConn acceptFd =>
      simp only [step, hfresh]
      split
      · rw [Server.newPublicConnHandler_behind]
        rfl
      · rfl
  | newProxyConn id acceptFd =>
      rw [step, step, apply_ite (Option.map fun s : System => s.behind toServer toClient)]
      rfl
  | serverProxyRead id count => exact Server.proxyRead_behind id count
  | publicRead id bytes => exact Server.publicRead_behind id bytes
  | serverCtlRead => exact absurd rfl hserver
  | clientCtlRead id proxyFd localFd => exact absurd rfl (hclient id proxyFd localFd)
  | clientProxyRead id count localFd =>
      simp only [step]
      split
      · exact Client.proxyRead_behind id count localFd
      · rfl
  | localRead id bytes => exact Client.localRead_behind id bytes
  | strayFreeReq proxyId => exact congrArg some (Server.freeProxyConn_behind proxyId)

/-! ## What the handlers send -/

/-- Nothing is put on the control connection. -/
def Silent (s s' : System) : Prop :=
  s'.ctlToServer = s.ctlToServer ∧ s'.ctlToClient = s.ctlToClient

theorem Silent.trans {s'' : System} (hfirst : Silent s s') (hsecond : Silent s' s'') :
    Silent s s'' :=
  ⟨hsecond.1.trans hfirst.1, hsecond.2.trans hfirst.2⟩

theorem silent_mapLink (s : System) (id : RandStr) (update : Link → Link) :
    Silent s (s.mapLink id update) := ⟨rfl, rfl⟩

namespace Server

theorem freeProxyConn_silent (s : System) (proxyId : Str) : Silent s (freeProxyConn s proxyId) := by
  unfold freeProxyConn
  split
  · exact ⟨rfl, rfl⟩
  · split
    · exact ⟨rfl, rfl⟩
    · exact ⟨rfl, rfl⟩

theorem shutdownPublicConn_silent (s : System) (id : RandStr) :
    Silent s (shutdownPublicConn s id) := by
  unfold shutdownPublicConn
  dsimp only
  split
  · exact (silent_mapLink s id _).trans (freeProxyConn_silent _ _)
  · exact silent_mapLink s id _

theorem handleShutdownPublicConn_silent (s : System) (proxyId : Str) (tranCount : Nat) :
    Silent s (handleShutdownPublicConn s proxyId tranCount) := by
  unfold handleShutdownPublicConn
  split
  · exact ⟨rfl, rfl⟩
  · exact (silent_mapLink s _ _).trans (shutdownPublicConn_silent _ _)

theorem tunnelClaimProxyConn_silent (hclaim : tunnelClaimProxyConn s id = some s') :
    Silent s s' := by
  unfold tunnelClaimProxyConn at hclaim
  dsimp only at hclaim
  split at hclaim
  · cases hclaim
  · rw [← Option.some.inj hclaim]
    exact ⟨rfl, rfl⟩

theorem claimProxyConn_silent {ctlId tunId proxyId : Str}
    (hclaim : claimProxyConn cfg s id ctlId tunId proxyId = some s') : Silent s s' := by
  unfold claimProxyConn at hclaim
  dsimp only at hclaim
  split at hclaim
  · rw [← Option.some.inj hclaim]
    exact ⟨rfl, rfl⟩
  · split at hclaim
    · rw [← Option.some.inj hclaim]
      exact ⟨rfl, rfl⟩
    · obtain ⟨claimed, hclaimed, rfl⟩ := Option.map_eq_some_iff.mp hclaim
      obtain ⟨hserver, hclient⟩ := tunnelClaimProxyConn_silent hclaimed
      exact ⟨hserver, hclient⟩

theorem handleStartProxyConnRsp_silent (s : System) (publicFd : Nat) (id : RandStr) :
    Silent s (handleStartProxyConnRsp s publicFd id) := by
  unfold handleStartProxyConnRsp
  dsimp only
  split
  · exact ⟨rfl, rfl⟩
  · exact ⟨rfl, rfl⟩

theorem forwardRead_silent {count : Nat} (hread : forwardRead s id count = some s') :
    Silent s s' := by
  unfold forwardRead at hread
  split at hread
  · cases hread
  · split at hread
    · cases hread
    · dsimp only at hread
      split at hread
      · rw [← Option.some.inj hread]
        exact (silent_mapLink s id _).trans (shutdownPublicConn_silent _ _)
      · rw [← Option.some.inj hread]
        exact silent_mapLink s id _

theorem messageRead_silent (hread : messageRead cfg s id = some s') : Silent s s' := by
  unfold messageRead at hread
  split at hread
  · cases hread
  · rw [← Option.some.inj hread]
    exact silent_mapLink s id _
  · cases hread
  · split at hread
    · cases hread
    · rw [← Option.some.inj hread]
      exact silent_mapLink s id _
    · dsimp only at hread
      split at hread
      · exact (silent_mapLink s id _).trans (claimProxyConn_silent hread)
      · rw [← Option.some.inj hread]
        exact silent_mapLink s id _
      · split at hread
        · rw [← Option.some.inj hread]
          exact (silent_mapLink s id _).trans (handleStartProxyConnRsp_silent _ _ _)
        · rw [← Option.some.inj hread]
          exact silent_mapLink s id _

theorem proxyRead_silent {count : Nat} (hread : proxyRead cfg s id count = some s') :
    Silent s s' := by
  unfold proxyRead at hread
  split at hread
  · cases hread
  · split at hread
    · exact forwardRead_silent hread
    · exact messageRead_silent hread

end Server

namespace Client

theorem messageRead_silent {localFd : Fd} (hread : messageRead s id localFd = some s') :
    Silent s s' := by
  unfold messageRead at hread
  split at hread
  · cases hread
  · obtain rfl := Option.some.inj hread
    exact ⟨rfl, rfl⟩
  · cases hread
  · split at hread
    · cases hread
    · dsimp only at hread
      split at hread
      · obtain rfl := Option.some.inj hread
        unfold handleStartProxyConnReq
        split
        · exact ⟨rfl, rfl⟩
        · split
          · exact ⟨rfl, rfl⟩
          · exact ⟨rfl, rfl⟩
      · obtain rfl := Option.some.inj hread
        exact ⟨rfl, rfl⟩

end Client

/-- All messages on the control connection are of a type that its reader handles, and
name a connection of the client. -/
structure NamedQueues (s : System) : Prop where
  toServer : ∀ msg ∈ s.ctlToServer, msg.FromClient
  toClient : ∀ msg ∈ s.ctlToClient, msg.FromServer

namespace NamedQueues

theorem silent (hnamed : NamedQueues s) (hsilent : Silent s s') : NamedQueues s' where
  toServer := by
    rw [hsilent.1]
    exact hnamed.toServer
  toClient := by
    rw [hsilent.2]
    exact hnamed.toClient

theorem pushToServer (hnamed : NamedQueues s) {msg : CtlMsg} (hmsg : msg.FromClient)
    (hserver : s'.ctlToServer = s.ctlToServer ++ [msg]) (hclient : s'.ctlToClient = s.ctlToClient) :
    NamedQueues s' where
  toServer := by
    intro other hmem
    rw [hserver] at hmem
    rcases List.mem_append.mp hmem with hold | hnew
    · exact hnamed.toServer other hold
    · rw [List.mem_singleton.mp hnew]
      exact hmsg
  toClient := by
    rw [hclient]
    exact hnamed.toClient

theorem pushToClient (hnamed : NamedQueues s) {msg : CtlMsg} (hmsg : msg.FromServer)
    (hserver : s'.ctlToServer = s.ctlToServer) (hclient : s'.ctlToClient = s.ctlToClient ++ [msg]) :
    NamedQueues s' where
  toServer := by
    rw [hserver]
    exact hnamed.toServer
  toClient := by
    intro other hmem
    rw [hclient] at hmem
    rcases List.mem_append.mp hmem with hold | hnew
    · exact hnamed.toClient other hold
    · rw [List.mem_singleton.mp hnew]
      exact hmsg

theorem shutdonwLocalConn (hnamed : NamedQueues s)
    (hname : (s.link id).client.proxy.proxyId = id.chars) :
    NamedQueues (Client.shutdonwLocalConn s id) := by
  unfold Client.shutdonwLocalConn
  dsimp only
  split
  · refine hnamed.pushToServer (.freeProxyConnReq id) ?_ rfl
    simp [System.mapLink, Link.mapClient, End.mapProxy, hname]
  · exact hnamed.silent ⟨rfl, rfl⟩

theorem popToServer (hnamed : NamedQueues s) {msg : CtlMsg} {rest : List CtlMsg}
    (hctl : s.ctlToServer = msg :: rest) : NamedQueues { s with ctlToServer := rest } where
  toServer := by
    intro other hmem
    apply hnamed.toServer
    rw [hctl]
    exact List.mem_cons_of_mem msg hmem
  toClient := hnamed.toClient

theorem popToClient (hnamed : NamedQueues s) {msg : CtlMsg} {rest : List CtlMsg}
    (hctl : s.ctlToClient = msg :: rest) : NamedQueues { s with ctlToClient := rest } where
  toServer := hnamed.toServer
  toClient := by
    intro other hmem
    apply hnamed.toClient
    rw [hctl]
    exact List.mem_cons_of_mem msg hmem

/-! ### The handlers that send -/

theorem newPublicConnHandler (hnamed : NamedQueues s) (acceptFd : Fd) :
    NamedQueues (Server.newPublicConnHandler s acceptFd) := by
  unfold Server.newPublicConnHandler
  dsimp only
  split
  · exact hnamed.silent ⟨rfl, rfl⟩
  · exact hnamed.pushToClient .notifyClientNeedProxy rfl rfl

theorem publicRead (hnamed : NamedQueues s) (hinv : LinkInv cfg id (s.view id))
    {bytes : List UInt8} (hread : Server.publicRead s id bytes = some s') : NamedQueues s' := by
  unfold Server.publicRead at hread
  split at hread
  · cases hread
  · next conn hpeer =>
      split at hread
      · split at hread
        · rw [← Option.some.inj hread]
          exact hnamed
        · next hopen =>
            rw [← Option.some.inj hread,
              hinv.level_of_pub_open hpeer (Bool.eq_false_of_not_eq_true hopen)]
            unfold Server.shutdownFromPublic
            split
            · exact hnamed.silent ⟨rfl, rfl⟩
            · exact hnamed.pushToClient
                (.notifyProxyShutdownPeerConn id (uint32_lt conn.tranCount)) rfl rfl
      · split at hread
        · cases hread
        · rw [← Option.some.inj hread]
          exact hnamed.silent ⟨rfl, rfl⟩

theorem localRead (hnamed : NamedQueues s) (hinv : LinkInv cfg id (s.view id))
    {bytes : List UInt8} (hread : Client.localRead s id bytes = some s') : NamedQueues s' := by
  unfold Client.localRead at hread
  split at hread
  · cases hread
  · next conn hpeer =>
      split at hread
      · split at hread
        · rw [← Option.some.inj hread]
          exact hnamed
        · rw [← Option.some.inj hread, (hinv.created_of_peer hpeer).2]
          unfold Client.shutdownFromLocal
          split
          · exact hnamed.silent ⟨rfl, rfl⟩
          · exact hnamed.pushToServer
              (.notifyProxyShutdownPeerConn id (uint32_lt conn.tranCount)) rfl rfl
      · split at hread
        · cases hread
        · rw [← Option.some.inj hread]
          exact hnamed.silent ⟨rfl, rfl⟩

theorem clientProxyRead (hnamed : NamedQueues s) (hinv : LinkInv cfg id (s.view id))
    {count : Nat} {localFd : Fd} (hread : Client.proxyRead s id count localFd = some s') :
    NamedQueues s' := by
  unfold Client.proxyRead at hread
  split at hread
  · cases hread
  · next hmem =>
      have hname : (s.link id).client.proxy.proxyId = id.chars :=
        hinv.clientName (AList.lookup_isSome.mpr (not_not.mp hmem))
      split at hread
      · unfold Client.forwardRead at hread
        split at hread
        · cases hread
        · split at hread
          · cases hread
          · have hforwarded := hnamed.silent (silent_mapLink s id fun link =>
              link.forwardAtClient count)
            dsimp only at hread
            split at hread
            · rw [← Option.some.inj hread]
              apply hforwarded.shutdonwLocalConn
              simpa [System.mapLink, Link.forwardAtClient, End.forward] using hname
            · rw [← Option.some.inj hread]
              exact hforwarded
      · exact hnamed.silent (Client.messageRead_silent hread)

theorem serverCtlRead (hnamed : NamedQueues s) (hread : Server.ctlRead s = some s') :
    NamedQueues s' := by
  unfold Server.ctlRead at hread
  split at hread
  · cases hread
  · next msg rest hctl =>
      have hpopped := hnamed.popToServer hctl
      dsimp only at hread
      split at hread
      · rw [← Option.some.inj hread]
        exact hpopped
      · rw [← Option.some.inj hread]
        exact hpopped.silent (Server.handleShutdownPublicConn_silent _ _ _)
      · rw [← Option.some.inj hread]
        exact hpopped.silent (Server.freeProxyConn_silent _ _)

theorem clientCtlRead (hnamed : NamedQueues s) (hwf : WellFormed cfg s) {proxyFd localFd : Fd}
    (hread : Client.ctlRead cfg s id proxyFd localFd = some s') : NamedQueues s' := by
  unfold Client.ctlRead at hread
  split at hread
  · cases hread
  · next msg rest hctl =>
      have hpopped := hnamed.popToClient hctl
      dsimp only at hread
      split at hread
      · split at hread
        · cases hread
        · rw [← Option.some.inj hread]
          exact hpopped.silent ⟨rfl, rfl⟩
      · next proxyId tranCount =>
          rw [← Option.some.inj hread]
          unfold Client.handleShutdownLocalConn
          split
          · exact hpopped
          · next target hlookup =>
              refine (hpopped.silent (silent_mapLink _ target _)).shutdonwLocalConn ?_
              obtain rfl := hwf.keyed.client proxyId target hlookup
              simpa [System.mapLink, Link.mapClient, End.mapProxy] using
                (hwf.inv target).clientName (Option.isSome_of_mem hlookup)
      · rw [← Option.some.inj hread]
        exact hpopped

theorem step (hnamed : NamedQueues s) (hwf : WellFormed cfg s)
    (hstep : CProxy.step cfg s event = some s') : NamedQueues s' := by
  cases event with
  | newPublicConn acceptFd =>
      obtain ⟨-, hsome⟩ := Option.ite_none_right_eq_some.mp hstep
      rw [← Option.some.inj hsome]
      exact hnamed.newPublicConnHandler acceptFd
  | newProxyConn id acceptFd =>
      obtain ⟨-, hsome⟩ := Option.ite_none_right_eq_some.mp hstep
      rw [← Option.some.inj hsome]
      exact hnamed.silent ⟨rfl, rfl⟩
  | serverProxyRead id count => exact hnamed.silent (Server.proxyRead_silent hstep)
  | publicRead id bytes => exact hnamed.publicRead (hwf.inv id) hstep
  | serverCtlRead => exact hnamed.serverCtlRead hstep
  | clientCtlRead id proxyFd localFd =>
      exact hnamed.clientCtlRead hwf (Option.ite_none_right_eq_some.mp hstep).2
  | clientProxyRead id count localFd =>
      exact hnamed.clientProxyRead (hwf.inv id) (Option.ite_none_right_eq_some.mp hstep).2
  | localRead id bytes => exact hnamed.localRead (hwf.inv id) hstep
  | strayFreeReq proxyId =>
      rw [← Option.some.inj hstep]
      exact hnamed.silent (Server.freeProxyConn_silent s proxyId)

end NamedQueues

theorem Reachable.namedQueues (hreach : Reachable cfg s) : NamedQueues s := by
  obtain ⟨events, hrun⟩ := hreach
  have hinv := @run_invariant _ _ (CProxy.step cfg)
    (fun s => WellFormed cfg s ∧ NamedQueues s)
    (fun _ _ _ hinv hstep => ⟨hinv.1.step hstep, hinv.2.step hinv.1 hstep⟩) System.init s events
    ⟨wellFormed_init cfg, by simp [System.init], by simp [System.init]⟩ hrun
  exact hinv.2

end CProxy
