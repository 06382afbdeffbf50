import CProxy.Tunnel.Step

/-! # The handlers and what has not been sent

Bytes for the client wait at the server behind those that its sockets have taken. A
handler that runs with the bytes of the sockets does the same with the others behind
them, unless it puts something between the two.
-/

namespace CProxy

open Foundation Wire

def Link.withPending (link : Link) (bytes : List UInt8) : Link :=
  { link with toClient := link.toClient ++ bytes }

/-- The tunnel with more bytes on the way to the client. -/
def System.withPending (s : System) (pending : RandStr → List UInt8) : System :=
  { s with link := fun id => (s.link id).withPending (pending id) }

variable {cfg : Config} {s s' : System} {id : RandStr} {pending : RandStr → List UInt8}

namespace Link

variable {link : Link} {bytes : List UInt8}

@[simp] theorem withPending_server : (link.withPending bytes).server = link.server := rfl

@[simp] theorem withPending_client : (link.withPending bytes).client = link.client := rfl

@[simp] theorem withPending_toServer : (link.withPending bytes).toServer = link.toServer := rfl

@[simp] theorem withPending_accepted : (link.withPending bytes).accepted = link.accepted := rfl

@[simp] theorem withPending_nil : link.withPending [] = link := by
  simp [withPending]

theorem forwardAtClient_withPending {count : Nat} (hcount : count ≤ link.toClient.length) :
    (link.withPending bytes).forwardAtClient count =
      (link.forwardAtClient count).withPending bytes := by
  simp only [withPending, forwardAtClient, List.take_append_of_le_length hcount,
    List.drop_append_of_le_length hcount]

end Link

@[simp] theorem withPending_link : (s.withPending pending).link id =
    (s.link id).withPending (pending id) := rfl

@[simp] theorem withPending_proxyConnMap :
    (s.withPending pending).proxyConnMap = s.proxyConnMap := rfl

@[simp] theorem withPending_clientProxyConnMap :
    (s.withPending pending).clientProxyConnMap = s.clientProxyConnMap := rfl

@[simp] theorem withPending_waitForStartProxyConnMap :
    (s.withPending pending).waitForStartProxyConnMap = s.waitForStartProxyConnMap := rfl

@[simp] theorem withPending_undealPublicFds :
    (s.withPending pending).undealPublicFds = s.undealPublicFds := rfl

@[simp] theorem withPending_freeProxyConns :
    (s.withPending pending).freeProxyConns = s.freeProxyConns := rfl

@[simp] theorem withPending_ctlToServer :
    (s.withPending pending).ctlToServer = s.ctlToServer := rfl

@[simp] theorem withPending_ctlToClient :
    (s.withPending pending).ctlToClient = s.ctlToClient := rfl

/-- Updates of a connection that agree up to the bytes at the end. -/
theorem mapLink_withPending_update {update later : Link → Link} {rest : List UInt8}
    (hlater : later ((s.link id).withPending (pending id)) =
      (update (s.link id)).withPending rest) :
    (s.withPending pending).mapLink id later =
      (s.mapLink id update).withPending (Function.update pending id rest) := by
  have hlink : Function.update (s.withPending pending).link id
      (later ((s.withPending pending).link id)) =
        fun other => ((s.mapLink id update).link other).withPending
          (Function.update pending id rest other) := by
    funext other
    by_cases hother : other = id
    · subst hother
      simp [System.mapLink, hlater]
    · simp [System.mapLink, Function.update_of_ne hother]
  simp only [System.mapLink, hlink]
  rfl

/-- Bytes that have been sent come onto the socket. -/
theorem mapLink_withPending_taken {head rest : List UInt8} (hsplit : pending id = head ++ rest) :
    (s.mapLink id fun link => { link with toClient := link.toClient ++ head }).withPending
      (Function.update pending id rest) = s.withPending pending := by
  have hlink : (s.link id).withPending (pending id) =
      ({ s.link id with toClient := (s.link id).toClient ++ head } : Link).withPending rest := by
    simp only [Link.withPending, hsplit, List.append_assoc]
  rw [← @mapLink_withPending_update s id pending
    (fun link => { link with toClient := link.toClient ++ head }) (fun link => link) rest hlink]
  simp only [System.mapLink, Function.update_eq_self]

theorem mapLink_withPending_eq {update later : Link → Link}
    (hlater : later ((s.link id).withPending (pending id)) =
      (update (s.link id)).withPending (pending id)) :
    (s.withPending pending).mapLink id later = (s.mapLink id update).withPending pending := by
  rw [mapLink_withPending_update hlater, Function.update_eq_self]

theorem mapLink_withPending {update : Link → Link}
    (hkeeps : update ((s.link id).withPending (pending id)) =
      (update (s.link id)).withPending (pending id)) :
    (s.withPending pending).mapLink id update = (s.mapLink id update).withPending pending :=
  mapLink_withPending_eq hkeeps

/-! ## The server's handlers -/

namespace Server

theorem freeProxyConn_withPending (proxyId : Str) :
    freeProxyConn (s.withPending pending) proxyId =
      (freeProxyConn s proxyId).withPending pending := by
  unfold freeProxyConn
  rw [withPending_proxyConnMap]
  split
  · rfl
  · rw [withPending_link, Link.withPending_server]
    split
    · rfl
    · rfl

theorem shutdownPublicConn_withPending (id : RandStr) :
    shutdownPublicConn (s.withPending pending) id =
      (shutdownPublicConn s id).withPending pending := by
  unfold shutdownPublicConn
  dsimp only
  rw [apply_ite fun s : System => s.withPending pending, mapLink_withPending rfl]
  refine if_congr Iff.rfl ?_ rfl
  rw [freeProxyConn_withPending]
  rfl

theorem handleShutdownPublicConn_withPending (proxyId : Str) (tranCount : Nat) :
    handleShutdownPublicConn (s.withPending pending) proxyId tranCount =
      (handleShutdownPublicConn s proxyId tranCount).withPending pending := by
  unfold handleShutdownPublicConn
  rw [withPending_proxyConnMap]
  split
  · rfl
  · dsimp only
    rw [mapLink_withPending rfl, shutdownPublicConn_withPending]

theorem shutdownFromPublic_withPending (proxyId : Str) (tranCount : Nat) :
    shutdownFromPublic (s.withPending pending) proxyId tranCount =
      (shutdownFromPublic s proxyId tranCount).withPending pending := by
  unfold shutdownFromPublic
  rw [withPending_proxyConnMap]
  split
  · rfl
  · dsimp only
    rw [mapLink_withPending rfl]
    rfl

theorem newProxyConnHandler_withPending (id : RandStr) (acceptFd : Fd) :
    newProxyConnHandler (s.withPending pending) id acceptFd =
      (newProxyConnHandler s id acceptFd).withPending pending := by
  unfold newProxyConnHandler
  dsimp only
  rw [mapLink_withPending rfl]
  rfl

theorem bindPublicFdToProxyConn_withPending (publicFd : Fd) (id : RandStr) :
    bindPublicFdToProxyConn (s.withPending pending) publicFd id =
      (bindPublicFdToProxyConn s publicFd id).withPending pending := by
  unfold bindPublicFdToProxyConn
  dsimp only
  rw [mapLink_withPending rfl]
  rfl

theorem tunnelClaimProxyConn_withPending (id : RandStr) :
    tunnelClaimProxyConn (s.withPending pending) id =
      (tunnelClaimProxyConn s id).map (·.withPending pending) := by
  unfold tunnelClaimProxyConn
  dsimp only
  rw [mapLink_withPending rfl, withPending_undealPublicFds]
  split
  · rfl
  · refine congrArg some (Eq.trans ?_ (bindPublicFdToProxyConn_withPending _ _))
    rfl

theorem claimProxyConn_withPending (id : RandStr) (ctlId tunId proxyId : Str) :
    claimProxyConn cfg (s.withPending pending) id ctlId tunId proxyId =
      (claimProxyConn cfg s id ctlId tunId proxyId).map (·.withPending pending) := by
  unfold claimProxyConn
  dsimp only
  rw [mapLink_withPending rfl]
  split
  · rfl
  · split
    · rfl
    · rw [tunnelClaimProxyConn_withPending, Option.map_map, Option.map_map]
      rfl

theorem handleStartProxyConnRsp_withPending (publicFd : Nat) (id : RandStr) :
    handleStartProxyConnRsp (s.withPending pending) publicFd id =
      (handleStartProxyConnRsp s publicFd id).withPending pending := by
  unfold handleStartProxyConnRsp
  dsimp only
  rw [withPending_link, Link.withPending_server, withPending_waitForStartProxyConnMap,
    bindPublicFdToProxyConn_withPending]
  split
  · rfl
  · rfl

theorem forwardRead_withPending (id : RandStr) (count : Nat) :
    forwardRead (s.withPending pending) id count =
      (forwardRead s id count).map (·.withPending pending) := by
  unfold forwardRead
  rw [withPending_link, Link.withPending_server, Link.withPending_toServer]
  split
  · rfl
  · split
    · rfl
    · dsimp only
      rw [mapLink_withPending rfl, shutdownPublicConn_withPending,
        apply_ite (Option.map fun s : System => s.withPending pending)]
      rfl

theorem messageRead_withPending (id : RandStr) :
    messageRead cfg (s.withPending pending) id =
      (messageRead cfg s id).map (·.withPending pending) := by
  have hparse (item : Handled) (rest : List UInt8) :
      ((s.withPending pending).mapLink id fun link => link.parseAtServer item rest) =
        (s.mapLink id fun link => link.parseAtServer item rest).withPending pending :=
    mapLink_withPending rfl
  unfold messageRead
  simp only [withPending_link, Link.withPending_toServer, hparse]
  split
  · rfl
  · rfl
  · rfl
  · split
    · rfl
    · rfl
    · split
      · exact claimProxyConn_withPending _ _ _ _
      · rfl
      · rw [apply_ite (Option.map fun s : System => s.withPending pending)]
        exact if_congr Iff.rfl (congrArg some (handleStartProxyConnRsp_withPending _ _)) rfl

theorem proxyRead_withPending (id : RandStr) (count : Nat) :
    proxyRead cfg (s.withPending pending) id count =
      (proxyRead cfg s id count).map (·.withPending pending) := by
  unfold proxyRead
  rw [withPending_link, Link.withPending_accepted, Link.withPending_server]
  split
  · rfl
  · split
    · exact forwardRead_withPending id count
    · exact messageRead_withPending id

/-- The bytes of a public connection go to the socket, so nothing may wait before them. -/
theorem publicRead_withPending {bytes : List UInt8}
    (hnone : ∀ conn, (s.link id).server.peer = some conn → conn.closing = false →
      pending id = []) :
    publicRead (s.withPending pending) id bytes =
      (publicRead s id bytes).map (·.withPending pending) := by
  unfold publicRead
  rw [withPending_link, Link.withPending_server]
  split
  · rfl
  · next conn hpeer =>
      split
      · split
        · rfl
        · rw [shutdownFromPublic_withPending]
          dsimp only
          rw [mapLink_withPending rfl]
          rfl
      · split
        · rfl
        · next hlaws =>
            have hopen : conn.closing = false :=
              Bool.eq_false_of_not_eq_true fun hclosing => hlaws (Or.inl hclosing)
            rw [mapLink_withPending]
            · rfl
            · simp [hnone conn hpeer hopen]

theorem ctlRead_withPending :
    ctlRead (s.withPending pending) = (ctlRead s).map (·.withPending pending) := by
  have hpop (rest : List CtlMsg) : { s.withPending pending with ctlToServer := rest } =
      { s with ctlToServer := rest }.withPending pending := rfl
  unfold ctlRead
  rw [withPending_ctlToServer]
  split
  · rfl
  · simp only [hpop]
    split
    · rfl
    · exact congrArg some (handleShutdownPublicConn_withPending _ _)
    · exact congrArg some (freeProxyConn_withPending _)

/-- With no free connection the descriptor waits for a new one. -/
theorem newPublicConnHandler_withPending (acceptFd : Fd) (hnone : s.freeProxyConns = []) :
    newPublicConnHandler (s.withPending pending) acceptFd =
      (newPublicConnHandler s acceptFd).withPending pending := by
  simp only [newPublicConnHandler, withPending_freeProxyConns, hnone, List.getLast?_nil]
  rfl

end Server

/-! ## The client's handlers -/

namespace Client

theorem handleProxyNotify_withPending (id : RandStr) (proxyFd localFd : Fd) :
    handleProxyNotify cfg (s.withPending pending) id proxyFd localFd =
      (handleProxyNotify cfg s id proxyFd localFd).withPending pending := by
  unfold handleProxyNotify
  dsimp only
  rw [mapLink_withPending rfl]
  refine Eq.trans ?_ (mapLink_withPending ?_)
  · rfl
  · rfl

theorem shutdonwLocalConn_withPending (id : RandStr) :
    shutdonwLocalConn (s.withPending pending) id =
      (shutdonwLocalConn s id).withPending pending := by
  unfold shutdonwLocalConn
  dsimp only
  rw [apply_ite fun s : System => s.withPending pending, mapLink_withPending rfl]
  rfl

theorem handleShutdownLocalConn_withPending (proxyId : Str) (tranCount : Nat) :
    handleShutdownLocalConn (s.withPending pending) proxyId tranCount =
      (handleShutdownLocalConn s proxyId tranCount).withPending pending := by
  unfold handleShutdownLocalConn
  rw [withPending_clientProxyConnMap]
  split
  · rfl
  · dsimp only
    rw [mapLink_withPending rfl, shutdonwLocalConn_withPending]

theorem shutdownFromLocal_withPending (proxyId : Str) (tranCount : Nat) :
    shutdownFromLocal (s.withPending pending) proxyId tranCount =
      (shutdownFromLocal s proxyId tranCount).withPending pending := by
  unfold shutdownFromLocal
  rw [withPending_clientProxyConnMap]
  split
  · rfl
  · dsimp only
    rw [mapLink_withPending rfl]
    rfl

theorem handleStartProxyConnReq_withPending (publicFd : Nat) (proxyId : Str) (localFd : Fd) :
    handleStartProxyConnReq (s.withPending pending) publicFd proxyId localFd =
      (handleStartProxyConnReq s publicFd proxyId localFd).withPending pending := by
  unfold handleStartProxyConnReq
  rw [withPending_clientProxyConnMap]
  split
  · rfl
  · rw [withPending_link, Link.withPending_client]
    split
    · rfl
    · exact mapLink_withPending rfl

theorem ctlRead_withPending (id : RandStr) (proxyFd localFd : Fd) :
    ctlRead cfg (s.withPending pending) id proxyFd localFd =
      (ctlRead cfg s id proxyFd localFd).map (·.withPending pending) := by
  have hpop (rest : List CtlMsg) : { s.withPending pending with ctlToClient := rest } =
      { s with ctlToClient := rest }.withPending pending := rfl
  unfold ctlRead
  rw [withPending_ctlToClient]
  split
  · rfl
  · simp only [hpop]
    split
    · rw [withPending_clientProxyConnMap, handleProxyNotify_withPending,
        apply_ite (Option.map fun s : System => s.withPending pending)]
      rfl
    · exact congrArg some (handleShutdownLocalConn_withPending _ _)
    · rfl

/-- A splice of bytes that the socket has. -/
theorem forwardRead_withPending {count : Nat} (hread : forwardRead s id count = some s') :
    forwardRead (s.withPending pending) id count = some (s'.withPending pending) := by
  unfold forwardRead at hread ⊢
  obtain ⟨hthere, hread⟩ := Option.ite_none_left_eq_some.mp hread
  obtain ⟨hsplice, hcount⟩ := not_or.mp hthere
  have hforward := @mapLink_withPending s id pending (fun link => link.forwardAtClient count)
    (Link.forwardAtClient_withPending (Nat.le_of_not_lt hcount))
  have hlonger : ¬ ((s.withPending pending).link id).toClient.length < count := by
    simp only [withPending_link, Link.withPending, List.length_append]
    omega
  rw [if_neg (not_or.mpr ⟨hsplice, hlonger⟩), withPending_link, Link.withPending_client]
  obtain ⟨hfits, hread⟩ := Option.ite_none_left_eq_some.mp hread
  rw [if_neg hfits]
  dsimp only at hread ⊢
  rw [hforward, shutdonwLocalConn_withPending, withPending_link, Link.withPending_client]
  split at hread
  · next hcomplete => rw [if_pos hcomplete, ← Option.some.inj hread]
  · next hopen => rw [if_neg hopen, ← Option.some.inj hread]

/-- A message that the socket has whole. -/
theorem messageRead_withPending {localFd : Fd} (hread : messageRead s id localFd = some s') :
    messageRead (s.withPending pending) id localFd = some (s'.withPending pending) := by
  have hrest (rest : List UInt8) : ((s.withPending pending).mapLink id fun link =>
      { link with toClient := rest ++ pending id }) =
        (s.mapLink id fun link => { link with toClient := rest }).withPending pending :=
    mapLink_withPending_eq rfl
  unfold messageRead at hread ⊢
  have hwhole : readMsg (s.link id).toClient ≠ .waiting := by
    intro hwaiting
    rw [hwaiting] at hread
    cases hread
  have hsame : readMsg ((s.withPending pending).link id).toClient =
      (readMsg (s.link id).toClient).followedBy (pending id) :=
    readMsg_followedBy hwhole (pending id)
  rw [hsame]
  cases hmsg : readMsg (s.link id).toClient with
  | waiting => exact absurd hmsg hwhole
  | dropped rest =>
      rw [hmsg] at hread
      rw [← Option.some.inj hread, ← hrest]
      rfl
  | unset rest =>
      rw [hmsg] at hread
      cases hread
  | message type body rest =>
      rw [hmsg] at hread
      simp only [Received.followedBy, hrest] at hread ⊢
      split at hread
      · cases hread
      · split at hread
        · rw [handleStartProxyConnReq_withPending, ← Option.some.inj hread]
        · rw [← Option.some.inj hread]

theorem proxyRead_withPending {count : Nat} {localFd : Fd}
    (hread : proxyRead s id count localFd = some s') :
    proxyRead (s.withPending pending) id count localFd = some (s'.withPending pending) := by
  unfold proxyRead at hread ⊢
  rw [withPending_clientProxyConnMap, withPending_link, Link.withPending_client]
  obtain ⟨hmem, hread⟩ := Option.ite_none_left_eq_some.mp hread
  rw [if_neg hmem]
  split at hread
  · next hstart => rw [if_pos hstart, forwardRead_withPending hread]
  · next hidle => rw [if_neg hidle, messageRead_withPending hread]

theorem localRead_withPending (id : RandStr) (bytes : List UInt8) :
    localRead (s.withPending pending) id bytes =
      (localRead s id bytes).map (·.withPending pending) := by
  unfold localRead
  rw [withPending_link, Link.withPending_client]
  split
  · rfl
  · split
    · split
      · rfl
      · rw [shutdownFromLocal_withPending]
        dsimp only
        rw [mapLink_withPending rfl]
        rfl
    · split
      · rfl
      · rw [mapLink_withPending rfl]
        rfl

end Client

/-- A step that puts nothing on a proxy connection whose socket has not taken everything. -/
theorem step_withPending {event : Event}
    (hfree : ∀ acceptFd, event = .newPublicConn acceptFd → s.freeProxyConns = [])
    (hpublic : ∀ id bytes, event = .publicRead id bytes →
      ∀ conn, (s.link id).server.peer = some conn → conn.closing = false → pending id = [])
    (hstep : step cfg s event = some s') :
    step cfg (s.withPending pending) event = some (s'.withPending pending) := by
  have hfresh (acceptFd : Fd) : Fresh (s.withPending pending) acceptFd = Fresh s acceptFd := rfl
  cases event with
  | newPublicConn acceptFd =>
      simp only [step, hfresh] at hstep ⊢
      obtain ⟨hnew, hsome⟩ := Option.ite_none_right_eq_some.mp hstep
      rw [if_pos hnew,
        Server.newPublicConnHandler_withPending acceptFd (hfree acceptFd rfl),
        Option.some.inj hsome]
  | newProxyConn id acceptFd =>
      simp only [step, hfresh] at hstep ⊢
      obtain ⟨hnew, hsome⟩ := Option.ite_none_right_eq_some.mp hstep
      rw [withPending_clientProxyConnMap, withPending_link, Link.withPending_accepted,
        if_pos hnew, Server.newProxyConnHandler_withPending, Option.some.inj hsome]
  | serverProxyRead id count =>
      exact (Server.proxyRead_withPending id count).trans (congrArg (Option.map _) hstep)
  | publicRead id bytes =>
      exact (Server.publicRead_withPending (hpublic id bytes rfl)).trans
        (congrArg (Option.map _) hstep)
  | serverCtlRead => exact Server.ctlRead_withPending.trans (congrArg (Option.map _) hstep)
  | clientCtlRead id proxyFd localFd =>
      simp only [step] at hstep ⊢
      obtain ⟨hfds, hread⟩ := Option.ite_none_right_eq_some.mp hstep
      rw [if_pos hfds, Client.ctlRead_withPending, hread]
      rfl
  | clientProxyRead id count localFd =>
      simp only [step] at hstep ⊢
      obtain ⟨hfd, hread⟩ := Option.ite_none_right_eq_some.mp hstep
      rw [if_pos hfd, Client.proxyRead_withPending hread]
  | localRead id bytes =>
      exact (Client.localRead_withPending id bytes).trans (congrArg (Option.map _) hstep)
  | strayFreeReq proxyId =>
      rw [← Option.some.inj hstep]
      exact congrArg some (Server.freeProxyConn_withPending proxyId)

end CProxy
