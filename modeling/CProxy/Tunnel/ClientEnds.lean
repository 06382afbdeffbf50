import CProxy.Tunnel.Step

/-! # What the handlers have to do with a client's end

The handlers of the server do not look at the client's end of any connection and
those of the client look at the one they serve. Each of them therefore commutes
with a change of the other ends.
-/

namespace CProxy

open Foundation Wire

def Link.mapClientEnd (link : Link) (update : End → End) : Link :=
  { link with client := update link.client }

def System.mapClients (s : System) (update : RandStr → End → End) : System :=
  { s with link := fun id => (s.link id).mapClientEnd (update id) }

variable {cfg : Config} {s s' : System} {id : RandStr} (update : RandStr → End → End)

@[simp] theorem System.mapClients_link (s : System) (id : RandStr) :
    (s.mapClients update).link id = (s.link id).mapClientEnd (update id) := rfl

theorem Link.mapClientEnd_eq {change : End → End} (hkept : ∀ side, change side = side)
    (link : Link) : link.mapClientEnd change = link := by
  simp [Link.mapClientEnd, hkept]

@[simp] theorem System.mapClients_undealPublicFds (s : System) :
    (s.mapClients update).undealPublicFds = s.undealPublicFds := rfl

@[simp] theorem System.mapClients_proxyConnMap (s : System) :
    (s.mapClients update).proxyConnMap = s.proxyConnMap := rfl

@[simp] theorem System.mapClients_waitForStartProxyConnMap (s : System) :
    (s.mapClients update).waitForStartProxyConnMap = s.waitForStartProxyConnMap := rfl

@[simp] theorem System.mapClients_freeProxyConns (s : System) :
    (s.mapClients update).freeProxyConns = s.freeProxyConns := rfl

@[simp] theorem System.mapClients_clientProxyConnMap (s : System) :
    (s.mapClients update).clientProxyConnMap = s.clientProxyConnMap := rfl

@[simp] theorem System.mapClients_ctlToServer (s : System) :
    (s.mapClients update).ctlToServer = s.ctlToServer := rfl

@[simp] theorem System.mapClients_ctlToClient (s : System) :
    (s.mapClients update).ctlToClient = s.ctlToClient := rfl

@[simp] theorem Link.mapClientEnd_server (link : Link) (change : End → End) :
    (link.mapClientEnd change).server = link.server := rfl

theorem System.mapClients_mapLink {change : Link → Link}
    (hchange : ∀ link : Link, change (link.mapClientEnd (update id)) =
      (change link).mapClientEnd (update id)) :
    (s.mapClients update).mapLink id change = (s.mapLink id change).mapClients update := by
  simp only [System.mapLink, System.mapClients, System.mk.injEq, true_and]
  funext other
  by_cases hid : other = id
  · subst hid
    simp [hchange]
  · simp [hid]

/-! ## The server's handlers do not look at the client's end -/

namespace Server

theorem newProxyConnHandler_mapClients (s : System) (id : RandStr) (acceptFd : Fd) :
    newProxyConnHandler (s.mapClients update) id acceptFd =
      (newProxyConnHandler s id acceptFd).mapClients update := by
  unfold newProxyConnHandler
  dsimp only
  rw [System.mapClients_mapLink update fun _ => rfl]
  rfl

theorem bindPublicFdToProxyConn_mapClients (s : System) (publicFd : Fd) (id : RandStr) :
    bindPublicFdToProxyConn (s.mapClients update) publicFd id =
      (bindPublicFdToProxyConn s publicFd id).mapClients update := by
  unfold bindPublicFdToProxyConn
  dsimp only
  rw [System.mapClients_mapLink update fun _ => rfl]
  rfl

theorem tunnelClaimProxyConn_mapClients (s : System) (id : RandStr) :
    tunnelClaimProxyConn (s.mapClients update) id =
      (tunnelClaimProxyConn s id).map fun s => s.mapClients update := by
  unfold tunnelClaimProxyConn
  dsimp only
  rw [System.mapClients_mapLink update fun _ => rfl]
  generalize s.mapLink id _ = t
  cases hlast : t.undealPublicFds.getLast? with
  | none => simp [hlast]
  | some publicFd =>
      simp only [System.mapClients_undealPublicFds, hlast, Option.map_some, Option.some.injEq]
      exact bindPublicFdToProxyConn_mapClients update
        { t with undealPublicFds := t.undealPublicFds.dropLast } publicFd id

theorem claimProxyConn_mapClients (s : System) (id : RandStr) (ctlId tunId proxyId : Str) :
    claimProxyConn cfg (s.mapClients update) id ctlId tunId proxyId =
      (claimProxyConn cfg s id ctlId tunId proxyId).map fun s => s.mapClients update := by
  unfold claimProxyConn
  dsimp only
  rw [System.mapClients_mapLink update fun _ => rfl]
  generalize s.mapLink id _ = t
  split
  · rfl
  · split
    · rfl
    · rw [tunnelClaimProxyConn_mapClients, Option.map_map, Option.map_map]
      rfl

theorem reqStartProxy_mapClients (s : System) (publicFd : Fd) (id : RandStr) :
    reqStartProxy (s.mapClients update) publicFd id =
      (reqStartProxy s publicFd id).mapClients update := by
  unfold reqStartProxy
  dsimp only
  rw [System.mapClients_mapLink update fun _ => rfl]
  rfl

theorem newPublicConnHandler_mapClients (s : System) (acceptFd : Fd) :
    newPublicConnHandler (s.mapClients update) acceptFd =
      (newPublicConnHandler s acceptFd).mapClients update := by
  unfold newPublicConnHandler
  dsimp only
  cases hlast : s.freeProxyConns.getLast? with
  | none =>
      simp only [System.mapClients_freeProxyConns, hlast]
      rfl
  | some id =>
      simp only [System.mapClients_freeProxyConns, hlast]
      exact reqStartProxy_mapClients update { s with
        accepted := s.accepted ++ [acceptFd]
        freeProxyConns := s.freeProxyConns.dropLast } acceptFd id

theorem handleStartProxyConnRsp_mapClients (s : System) (publicFd : Nat) (id : RandStr) :
    handleStartProxyConnRsp (s.mapClients update) publicFd id =
      (handleStartProxyConnRsp s publicFd id).mapClients update := by
  unfold handleStartProxyConnRsp
  simp only [System.mapClients_link, Link.mapClientEnd_server,
    System.mapClients_waitForStartProxyConnMap, bindPublicFdToProxyConn_mapClients]
  split
  · rfl
  · rfl

theorem freeProxyConn_mapClients (s : System) (proxyId : Str) :
    freeProxyConn (s.mapClients update) proxyId =
      (freeProxyConn s proxyId).mapClients update := by
  unfold freeProxyConn
  cases hlookup : s.proxyConnMap.lookup proxyId with
  | none => simp [hlookup]
  | some id =>
      simp only [System.mapClients_proxyConnMap, hlookup]
      by_cases hstart : (s.link id).server.proxy.isStart = true
      · rw [if_pos hstart]
        exact if_pos hstart
      · rw [if_neg hstart]
        exact if_neg hstart

theorem shutdownPublicConn_mapClients (s : System) (id : RandStr) :
    shutdownPublicConn (s.mapClients update) id =
      (shutdownPublicConn s id).mapClients update := by
  unfold shutdownPublicConn
  dsimp only
  rw [System.mapClients_mapLink update fun _ => rfl]
  simp only [System.mapClients_link, Link.mapClientEnd_server, freeProxyConn_mapClients]
  split
  · rfl
  · rfl

theorem shutdownFromPublic_mapClients (s : System) (proxyId : Str) (tranCount : Nat) :
    shutdownFromPublic (s.mapClients update) proxyId tranCount =
      (shutdownFromPublic s proxyId tranCount).mapClients update := by
  unfold shutdownFromPublic
  cases hlookup : s.proxyConnMap.lookup proxyId with
  | none => simp [hlookup]
  | some id =>
      simp only [System.mapClients_proxyConnMap, hlookup]
      rw [System.mapClients_mapLink update fun _ => rfl]
      rfl

theorem handleShutdownPublicConn_mapClients (s : System) (proxyId : Str) (tranCount : Nat) :
    handleShutdownPublicConn (s.mapClients update) proxyId tranCount =
      (handleShutdownPublicConn s proxyId tranCount).mapClients update := by
  unfold handleShutdownPublicConn
  cases hlookup : s.proxyConnMap.lookup proxyId with
  | none => simp [hlookup]
  | some id =>
      simp only [System.mapClients_proxyConnMap, hlookup]
      rw [System.mapClients_mapLink update fun _ => rfl, shutdownPublicConn_mapClients]

theorem ctlRead_mapClients (s : System) :
    ctlRead (s.mapClients update) = (ctlRead s).map fun s => s.mapClients update := by
  unfold ctlRead
  cases hctl : s.ctlToServer with
  | nil => simp [hctl]
  | cons msg rest =>
      simp only [System.mapClients_ctlToServer, hctl]
      cases msg with
      | notifyClientNeedProxy => rfl
      | notifyProxyShutdownPeerConn proxyId tranCount =>
          exact congrArg some (handleShutdownPublicConn_mapClients update
            { s with ctlToServer := rest } proxyId tranCount)
      | freeProxyConnReq proxyId =>
          exact congrArg some (freeProxyConn_mapClients update
            { s with ctlToServer := rest } proxyId)

theorem forwardRead_mapClients (s : System) (id : RandStr) (count : Nat) :
    forwardRead (s.mapClients update) id count =
      (forwardRead s id count).map fun s => s.mapClients update := by
  unfold forwardRead
  dsimp only
  rw [System.mapClients_mapLink update fun _ => rfl, shutdownPublicConn_mapClients]
  by_cases hsplice : ¬ SpliceLen count ∨ (s.link id).toServer.length < count
  · rw [if_pos hsplice]
    exact if_pos hsplice
  · rw [if_neg hsplice]
    refine (if_neg hsplice).trans ?_
    by_cases hfits : (s.link id).server.proxy.recvCount + count > intMax
    · rw [if_pos hfits]
      exact if_pos hfits
    · rw [if_neg hfits]
      refine (if_neg hfits).trans ?_
      rw [apply_ite (Option.map fun t : System => t.mapClients update)]
      rfl

theorem messageRead_mapClients (s : System) (id : RandStr) :
    messageRead cfg (s.mapClients update) id =
      (messageRead cfg s id).map fun s => s.mapClients update := by
  unfold messageRead
  have hlink : ((s.mapClients update).link id).toServer = (s.link id).toServer := rfl
  rw [hlink]
  cases hread : readMsg (s.link id).toServer with
  | waiting => rfl
  | dropped rest =>
      simp only [Option.map_some]
      rw [System.mapClients_mapLink update fun _ => rfl]
  | unset rest => rfl
  | message type body rest =>
      dsimp only
      cases hmsg : ProxyCtlMsg.decode type body with
      | none => rfl
      | some decoded =>
          cases decoded with
          | none =>
              simp only [Option.map_some]
              rw [System.mapClients_mapLink update fun _ => rfl]
          | some msg =>
              dsimp only
              rw [System.mapClients_mapLink update fun _ => rfl]
              cases msg with
              | proxyMetaSet ctlId tunId proxyId => exact claimProxyConn_mapClients update _ _ _ _ _
              | startProxyConnReq publicFd proxyId => rfl
              | startProxyConnRsp publicFd proxyId =>
                  simp only [handleStartProxyConnRsp_mapClients]
                  change (if ((s.mapLink id _).link id).claimed = true then _ else _) = _
                  split
                  · rfl
                  · rfl

theorem proxyRead_mapClients (s : System) (id : RandStr) (count : Nat) :
    proxyRead cfg (s.mapClients update) id count =
      (proxyRead cfg s id count).map fun s => s.mapClients update := by
  unfold proxyRead
  rw [forwardRead_mapClients, messageRead_mapClients]
  change (if (s.link id).accepted = false then none
    else if (s.link id).server.proxy.isStart = true then _ else _) = _
  split
  · rfl
  · split
    · rfl
    · rfl

theorem publicRead_mapClients (s : System) (id : RandStr) (bytes : List UInt8) :
    publicRead (s.mapClients update) id bytes =
      (publicRead s id bytes).map fun s => s.mapClients update := by
  unfold publicRead
  simp only [System.mapClients_link, Link.mapClientEnd_server]
  cases hpeer : (s.link id).server.peer with
  | none => rfl
  | some conn =>
      dsimp only
      rw [shutdownFromPublic_mapClients, System.mapClients_mapLink update fun _ => rfl,
        System.mapClients_mapLink update fun _ => rfl]
      split
      · split
        · rfl
        · rfl
      · split
        · rfl
        · rfl

end Server

/-! ## The client's handlers look at no other connection's end -/

namespace Client

theorem handleProxyNotify_mapClients (s : System) (hid : ∀ side, update id side = side) (proxyFd localFd : Fd) :
    handleProxyNotify cfg (s.mapClients update) id proxyFd localFd =
      (handleProxyNotify cfg s id proxyFd localFd).mapClients update := by
  unfold handleProxyNotify
  dsimp only
  rw [System.mapClients_mapLink update fun link => by simp only [Link.mapClientEnd_eq hid]]
  exact System.mapClients_mapLink (s := { s.mapLink id fun link => { link with
      client := { link.client with proxy := { fd := proxyFd, proxyId := id.chars } } } with
    clientProxyConnMap := emplace s.clientProxyConnMap id.chars id }) update fun link => by
      simp only [Link.mapClientEnd_eq hid]

theorem shutdonwLocalConn_mapClients (s : System) (hid : ∀ side, update id side = side) :
    shutdonwLocalConn (s.mapClients update) id =
      (shutdonwLocalConn s id).mapClients update := by
  unfold shutdonwLocalConn
  dsimp only
  rw [System.mapClients_mapLink update fun link => by simp only [Link.mapClientEnd_eq hid]]
  simp only [System.mapClients_link, Link.mapClientEnd_eq hid]
  split
  · rfl
  · rfl

theorem handleShutdownLocalConn_mapClients (s : System) {proxyId : Str} (tranCount : Nat)
    (hfound : ∀ id, s.clientProxyConnMap.lookup proxyId = some id → ∀ side, update id side = side) :
    handleShutdownLocalConn (s.mapClients update) proxyId tranCount =
      (handleShutdownLocalConn s proxyId tranCount).mapClients update := by
  unfold handleShutdownLocalConn
  cases hlookup : s.clientProxyConnMap.lookup proxyId with
  | none => simp [hlookup]
  | some id =>
      have hid := hfound id hlookup
      simp only [System.mapClients_clientProxyConnMap, hlookup]
      rw [System.mapClients_mapLink update fun link => by simp only [Link.mapClientEnd_eq hid]]
      exact shutdonwLocalConn_mapClients update _ hid

theorem shutdownFromLocal_mapClients (s : System) {proxyId : Str} (tranCount : Nat)
    (hfound : ∀ id, s.clientProxyConnMap.lookup proxyId = some id → ∀ side, update id side = side) :
    shutdownFromLocal (s.mapClients update) proxyId tranCount =
      (shutdownFromLocal s proxyId tranCount).mapClients update := by
  unfold shutdownFromLocal
  cases hlookup : s.clientProxyConnMap.lookup proxyId with
  | none => simp [hlookup]
  | some id =>
      have hid := hfound id hlookup
      simp only [System.mapClients_clientProxyConnMap, hlookup]
      rw [System.mapClients_mapLink update fun link => by simp only [Link.mapClientEnd_eq hid]]
      rfl

theorem forwardRead_mapClients (s : System) (hid : ∀ side, update id side = side) (count : Nat) :
    forwardRead (s.mapClients update) id count =
      (forwardRead s id count).map fun s => s.mapClients update := by
  unfold forwardRead
  dsimp only
  rw [System.mapClients_mapLink update fun link => by simp only [Link.mapClientEnd_eq hid],
    shutdonwLocalConn_mapClients update _ hid]
  simp only [System.mapClients_link, Link.mapClientEnd_eq hid]
  split
  · rfl
  · split
    · rfl
    · split
      · rfl
      · rfl

theorem localRead_mapClients (s : System) (hid : ∀ side, update id side = side) (bytes : List UInt8)
    (hfound : ∀ conn found, (s.link id).client.peer = some conn →
      s.clientProxyConnMap.lookup conn.proxyId = some found → ∀ side, update found side = side) :
    localRead (s.mapClients update) id bytes =
      (localRead s id bytes).map fun s => s.mapClients update := by
  unfold localRead
  simp only [System.mapClients_link, Link.mapClientEnd_eq hid]
  cases hpeer : (s.link id).client.peer with
  | none => rfl
  | some conn =>
      dsimp only
      rw [shutdownFromLocal_mapClients update s _ fun found => hfound conn found hpeer,
        System.mapClients_mapLink update fun link => by simp only [Link.mapClientEnd_eq hid],
        System.mapClients_mapLink update fun link => by simp only [Link.mapClientEnd_eq hid]]
      split
      · split
        · rfl
        · rfl
      · split
        · rfl
        · rfl

theorem ctlRead_mapClients (s : System) (proxyFd localFd : Fd)
    (hnew : id.chars ∉ s.clientProxyConnMap → ∀ side, update id side = side)
    (hfound : ∀ proxyId tranCount rest id,
      s.ctlToClient = .notifyProxyShutdownPeerConn proxyId tranCount :: rest →
      s.clientProxyConnMap.lookup proxyId = some id → ∀ side, update id side = side) :
    ctlRead cfg (s.mapClients update) id proxyFd localFd =
      (ctlRead cfg s id proxyFd localFd).map fun s => s.mapClients update := by
  unfold ctlRead
  cases hctl : s.ctlToClient with
  | nil => simp [hctl]
  | cons msg rest =>
      simp only [System.mapClients_ctlToClient, hctl]
      cases msg with
      | notifyClientNeedProxy =>
          dsimp only
          by_cases hmem : id.chars ∈ s.clientProxyConnMap
          · simp only [System.mapClients_clientProxyConnMap, hmem, if_true]
            rfl
          · simp only [System.mapClients_clientProxyConnMap, hmem, if_false, Option.map_some]
            exact congrArg some (handleProxyNotify_mapClients update
              { s with ctlToClient := rest } (hnew hmem) proxyFd localFd)
      | notifyProxyShutdownPeerConn proxyId tranCount =>
          exact congrArg some (handleShutdownLocalConn_mapClients update
            { s with ctlToClient := rest } tranCount
              fun id hlookup => hfound proxyId tranCount rest id hctl hlookup)
      | freeProxyConnReq proxyId => rfl

end Client

/-! ## The events -/

/-- The connections whose client's end an event may work on. -/
def Touches (s : System) (found : RandStr) : Event → Prop
  | .clientCtlRead id _ _ =>
      (id = found ∧ id.chars ∉ s.clientProxyConnMap) ∨
        ∃ proxyId tranCount rest,
          s.ctlToClient = .notifyProxyShutdownPeerConn proxyId tranCount :: rest ∧
            s.clientProxyConnMap.lookup proxyId = some found
  | .clientProxyRead id _ _ => id = found
  | .localRead id _ =>
      id = found ∨ ∃ conn, (s.link id).client.peer = some conn ∧
        s.clientProxyConnMap.lookup conn.proxyId = some found
  | _ => False

/-- A step in which the client reads no message from a proxy connection. -/
theorem step_mapClients {event : Event}
    (hspares : ∀ id, Touches s id event → ∀ side, update id side = side)
    (hmode : ∀ id count localFd, event = .clientProxyRead id count localFd →
      (s.link id).client.proxy.isStart = true) :
    step cfg (s.mapClients update) event =
      (step cfg s event).map fun s => s.mapClients update := by
  cases event with
  | newPublicConn acceptFd =>
      by_cases hfresh : Fresh s acceptFd
      · refine (if_pos hfresh).trans ?_
        rw [Server.newPublicConnHandler_mapClients, step, if_pos hfresh]
        rfl
      · refine (if_neg hfresh).trans ?_
        rw [step, if_neg hfresh]
        rfl
  | newProxyConn id acceptFd =>
      by_cases hopen : Fresh s acceptFd ∧ id.chars ∈ s.clientProxyConnMap ∧
          (s.link id).accepted = false
      · refine (if_pos hopen).trans ?_
        rw [Server.newProxyConnHandler_mapClients, step, if_pos hopen]
        rfl
      · refine (if_neg hopen).trans ?_
        rw [step, if_neg hopen]
        rfl
  | serverProxyRead id count => exact Server.proxyRead_mapClients update s id count
  | publicRead id bytes => exact Server.publicRead_mapClients update s id bytes
  | serverCtlRead => exact Server.ctlRead_mapClients update s
  | clientCtlRead id proxyFd localFd =>
      have hnew (hfresh : id.chars ∉ s.clientProxyConnMap) : ∀ side, update id side = side :=
        hspares id (Or.inl ⟨rfl, hfresh⟩)
      have hfound (proxyId : Str) (tranCount : Nat) (rest : List CtlMsg) (found : RandStr)
          (hctl : s.ctlToClient = .notifyProxyShutdownPeerConn proxyId tranCount :: rest)
          (hlookup : s.clientProxyConnMap.lookup proxyId = some found) :
          ∀ side, update found side = side :=
        hspares found (Or.inr ⟨proxyId, tranCount, rest, hctl, hlookup⟩)
      simp only [step]
      rw [Client.ctlRead_mapClients update s proxyFd localFd hnew hfound,
        apply_ite (Option.map fun t : System => t.mapClients update)]
      rfl
  | clientProxyRead id count localFd =>
      have hstart := hmode id count localFd rfl
      have hid : ∀ side, update id side = side := hspares id rfl
      simp only [step, Client.proxyRead, System.mapClients_clientProxyConnMap,
        System.mapClients_link, Link.mapClientEnd_eq hid, hstart, if_true,
        Client.forwardRead_mapClients update s hid]
      split
      · split
        · rfl
        · rfl
      · rfl
  | localRead id bytes =>
      have hfound (conn : EdgeConn) (found : RandStr) (hpeer : (s.link id).client.peer = some conn)
          (hlookup : s.clientProxyConnMap.lookup conn.proxyId = some found) :
          ∀ side, update found side = side :=
        hspares found (Or.inr ⟨conn, hpeer, hlookup⟩)
      exact Client.localRead_mapClients update s (hspares id (Or.inl rfl)) bytes hfound
  | strayFreeReq proxyId =>
      exact congrArg some (Server.freeProxyConn_mapClients update s proxyId)

/-- The client's end of a connection that the event does not touch. -/
theorem client_of_step {event : Event} (hstep : step cfg s event = some s')
    (hother : ¬ Touches s id event)
    (hmode : ∀ id count localFd, event = .clientProxyRead id count localFd →
      (s.link id).client.proxy.isStart = true) :
    (s'.link id).client = (s.link id).client := by
  have hspares (found : RandStr) (htouch : Touches s found event) (side : End) :
      (if found = id then (s.link id).client else side) = side := by
    rw [if_neg]
    rintro rfl
    exact hother htouch
  have hcommutes := @step_mapClients cfg s
    (fun found side => if found = id then (s.link id).client else side) event hspares hmode
  have hsame : s.mapClients
      (fun found side => if found = id then (s.link id).client else side) = s := by
    simp only [System.mapClients]
    congr 1
    funext found
    by_cases hid : found = id
    · subst hid
      simp [Link.mapClientEnd]
    · simp [Link.mapClientEnd, hid]
  rw [hsame, hstep, Option.map_some, Option.some.injEq] at hcommutes
  rw [hcommutes]
  simp [Link.mapClientEnd]

end CProxy
