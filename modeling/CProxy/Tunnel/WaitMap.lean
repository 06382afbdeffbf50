import CProxy.Tunnel.Step

/-! # The map of connections that wait for their start

Only `newPublicConnHandler` puts a connection into the map, and only
`handleStartProxyConnRsp` looks at it. Every other handler commutes with a change
of the map.
-/

namespace CProxy

open Foundation Wire

def System.mapWaiting (s : System) (update : ConnMap Str → ConnMap Str) : System :=
  { s with waitForStartProxyConnMap := update s.waitForStartProxyConnMap }

/-- A change of the map that leaves the entry of one identifier alone. -/
structure SparesKey (update : ConnMap Str → ConnMap Str) (key : Str) : Prop where
  mem : ∀ map, key ∈ update map ↔ key ∈ map
  erase : ∀ map : ConnMap Str, (update map).erase key = update (map.erase key)

theorem sparesKey_emplace {id : RandStr} {key : Str} (hkey : key ≠ id.chars) :
    SparesKey (fun map => emplace map id.chars id) key where
  mem := by
    intro map
    rw [mem_emplace, or_iff_right hkey]
  erase := fun _ => erase_emplace hkey

/-- The descriptor in a StartProxyConnRsp at the front of a stream. -/
def frontAnswer (stream : List UInt8) : Option Nat :=
  match readMsg stream with
  | .message type body _ =>
      match ProxyCtlMsg.decode type body with
      | some (some (.startProxyConnRsp publicFd _)) => some publicFd
      | _ => none
  | _ => none

/-- An idle server end has the answer to a request before it. -/
def AnswersAt (s : System) (id : RandStr) (publicFd : Nat) : Prop :=
  (s.link id).server.proxy.isStart = false ∧ frontAnswer (s.link id).toServer = some publicFd

theorem frontAnswer_eq_some {stream : List UInt8} {publicFd : Nat}
    (hanswer : frontAnswer stream = some publicFd) :
    ∃ type body rest proxyId, readMsg stream = .message type body rest ∧
      ProxyCtlMsg.decode type body = some (some (.startProxyConnRsp publicFd proxyId)) := by
  unfold frontAnswer at hanswer
  split at hanswer
  · next type body rest hread =>
      split at hanswer
      · next found proxyId hmsg =>
          obtain rfl := Option.some.inj hanswer
          exact ⟨type, body, rest, proxyId, hread, hmsg⟩
      · cases hanswer
  · cases hanswer

variable {cfg : Config} {s s' : System} {id : RandStr}
variable (update : ConnMap Str → ConnMap Str)

@[simp] theorem System.mapWaiting_link (s : System) : (s.mapWaiting update).link = s.link := rfl

@[simp] theorem System.mapWaiting_proxyConnMap (s : System) :
    (s.mapWaiting update).proxyConnMap = s.proxyConnMap := rfl

@[simp] theorem System.mapWaiting_clientProxyConnMap (s : System) :
    (s.mapWaiting update).clientProxyConnMap = s.clientProxyConnMap := rfl

@[simp] theorem System.mapWaiting_ctlToServer (s : System) :
    (s.mapWaiting update).ctlToServer = s.ctlToServer := rfl

@[simp] theorem System.mapWaiting_ctlToClient (s : System) :
    (s.mapWaiting update).ctlToClient = s.ctlToClient := rfl

theorem System.mapWaiting_mapLink (s : System) (id : RandStr) (change : Link → Link) :
    (s.mapWaiting update).mapLink id change = (s.mapLink id change).mapWaiting update := rfl

/-! ## The server's handlers -/

namespace Server

theorem bindPublicFdToProxyConn_mapWaiting (s : System) (publicFd : Fd) (id : RandStr) :
    bindPublicFdToProxyConn (s.mapWaiting update) publicFd id =
      (bindPublicFdToProxyConn s publicFd id).mapWaiting update := rfl

theorem tunnelClaimProxyConn_mapWaiting (s : System) (id : RandStr) :
    tunnelClaimProxyConn (s.mapWaiting update) id =
      (tunnelClaimProxyConn s id).map fun s => s.mapWaiting update := by
  simp only [tunnelClaimProxyConn, System.mapWaiting, System.mapLink]
  cases s.undealPublicFds.getLast? with
  | none => rfl
  | some publicFd => rfl

theorem claimProxyConn_mapWaiting (s : System) (id : RandStr) (ctlId tunId proxyId : Str) :
    claimProxyConn cfg (s.mapWaiting update) id ctlId tunId proxyId =
      (claimProxyConn cfg s id ctlId tunId proxyId).map fun s => s.mapWaiting update := by
  unfold claimProxyConn
  dsimp only
  rw [System.mapWaiting_mapLink, tunnelClaimProxyConn_mapWaiting]
  split
  · rfl
  · split
    · rfl
    · rw [Option.map_map, Option.map_map]
      rfl

/-- The answer is matched with the same result when its own entry is spared. -/
theorem handleStartProxyConnRsp_mapWaiting (s : System) (publicFd : Nat) (id : RandStr)
    (hspares : SparesKey update (s.link id).server.proxy.proxyId) :
    handleStartProxyConnRsp (s.mapWaiting update) publicFd id =
      (handleStartProxyConnRsp s publicFd id).mapWaiting update := by
  unfold handleStartProxyConnRsp
  have hmem := hspares.mem s.waitForStartProxyConnMap
  by_cases hwaiting : (s.link id).server.proxy.proxyId ∈ s.waitForStartProxyConnMap
  · rw [if_neg (not_not.mpr hwaiting)]
    refine (if_neg (not_not.mpr (hmem.mpr hwaiting))).trans ?_
    have herase := hspares.erase s.waitForStartProxyConnMap
    simp only [bindPublicFdToProxyConn_mapWaiting]
    exact congrArg (fun map : ConnMap Str =>
      { bindPublicFdToProxyConn s publicFd id with waitForStartProxyConnMap := map }) herase
  · rw [if_pos hwaiting]
    exact if_pos (mt hmem.mp hwaiting)

theorem freeProxyConn_mapWaiting (s : System) (proxyId : Str) :
    freeProxyConn (s.mapWaiting update) proxyId =
      (freeProxyConn s proxyId).mapWaiting update := by
  unfold freeProxyConn
  rw [System.mapWaiting_proxyConnMap]
  cases s.proxyConnMap.lookup proxyId with
  | none => rfl
  | some id =>
      dsimp only
      rw [System.mapWaiting_link]
      split
      · rfl
      · rfl

theorem shutdownPublicConn_mapWaiting (s : System) (id : RandStr) :
    shutdownPublicConn (s.mapWaiting update) id =
      (shutdownPublicConn s id).mapWaiting update := by
  unfold shutdownPublicConn
  dsimp only
  rw [System.mapWaiting_mapLink, freeProxyConn_mapWaiting, System.mapWaiting_link]
  split
  · rfl
  · rfl

theorem shutdownFromPublic_mapWaiting (s : System) (proxyId : Str) (tranCount : Nat) :
    shutdownFromPublic (s.mapWaiting update) proxyId tranCount =
      (shutdownFromPublic s proxyId tranCount).mapWaiting update := by
  simp only [shutdownFromPublic, System.mapWaiting]
  cases s.proxyConnMap.lookup proxyId with
  | none => rfl
  | some id => rfl

theorem handleShutdownPublicConn_mapWaiting (s : System) (proxyId : Str) (tranCount : Nat) :
    handleShutdownPublicConn (s.mapWaiting update) proxyId tranCount =
      (handleShutdownPublicConn s proxyId tranCount).mapWaiting update := by
  unfold handleShutdownPublicConn
  rw [System.mapWaiting_proxyConnMap]
  cases s.proxyConnMap.lookup proxyId with
  | none => rfl
  | some id =>
      exact shutdownPublicConn_mapWaiting update (s.mapLink id fun link =>
        link.mapServer fun conn => conn.incrTheoreticalTotalRecvCount tranCount) id

theorem ctlRead_mapWaiting (s : System) :
    ctlRead (s.mapWaiting update) = (ctlRead s).map fun s => s.mapWaiting update := by
  unfold ctlRead
  rw [System.mapWaiting_ctlToServer]
  cases s.ctlToServer with
  | nil => rfl
  | cons msg rest =>
      cases msg with
      | notifyClientNeedProxy => rfl
      | notifyProxyShutdownPeerConn proxyId tranCount =>
          exact congrArg some (handleShutdownPublicConn_mapWaiting update
            { s with ctlToServer := rest } proxyId tranCount)
      | freeProxyConnReq proxyId =>
          exact congrArg some (freeProxyConn_mapWaiting update
            { s with ctlToServer := rest } proxyId)

theorem forwardRead_mapWaiting (s : System) (id : RandStr) (count : Nat) :
    forwardRead (s.mapWaiting update) id count =
      (forwardRead s id count).map fun s => s.mapWaiting update := by
  unfold forwardRead
  dsimp only
  rw [System.mapWaiting_mapLink, shutdownPublicConn_mapWaiting]
  rw [System.mapWaiting_link]
  split
  · rfl
  · split
    · rfl
    · rw [System.mapWaiting_link]
      split
      · rfl
      · rfl

theorem messageRead_mapWaiting (s : System) (id : RandStr)
    (hspares : ∀ publicFd, AnswersAt s id publicFd →
      SparesKey update (s.link id).server.proxy.proxyId)
    (hidle : (s.link id).server.proxy.isStart = false) :
    messageRead cfg (s.mapWaiting update) id =
      (messageRead cfg s id).map fun s => s.mapWaiting update := by
  unfold messageRead
  rw [System.mapWaiting_link]
  cases hread : readMsg (s.link id).toServer with
  | waiting => rfl
  | dropped rest => rfl
  | unset rest => rfl
  | message type body rest =>
      dsimp only
      cases hmsg : ProxyCtlMsg.decode type body with
      | none => rfl
      | some decoded =>
          cases decoded with
          | none => rfl
          | some msg =>
              dsimp only
              rw [System.mapWaiting_mapLink]
              cases msg with
              | proxyMetaSet ctlId tunId proxyId => exact claimProxyConn_mapWaiting update _ _ _ _ _
              | startProxyConnReq publicFd proxyId => rfl
              | startProxyConnRsp publicFd proxyId =>
                  -- the other messages do not look at the map
                  have hanswer : AnswersAt s id publicFd :=
                    ⟨hidle, by simp only [frontAnswer, hread, hmsg]⟩
                  have hkey : SparesKey update ((s.mapLink id fun link => link.parseAtServer
                      (.parsed (.startProxyConnRsp publicFd proxyId)) rest).link
                        id).server.proxy.proxyId := by
                    simpa [System.mapLink, Link.parseAtServer] using hspares publicFd hanswer
                  dsimp only
                  rw [handleStartProxyConnRsp_mapWaiting update _ publicFd id hkey]
                  rw [System.mapWaiting_link]
                  split
                  · rfl
                  · rfl

theorem proxyRead_mapWaiting (s : System) (id : RandStr) (count : Nat)
    (hspares : ∀ publicFd, AnswersAt s id publicFd →
      SparesKey update (s.link id).server.proxy.proxyId) :
    proxyRead cfg (s.mapWaiting update) id count =
      (proxyRead cfg s id count).map fun s => s.mapWaiting update := by
  unfold proxyRead
  rw [System.mapWaiting_link]
  split
  · rfl
  · split
    · exact forwardRead_mapWaiting update s id count
    · next hidle => exact messageRead_mapWaiting update s id hspares (by simpa using hidle)

theorem publicRead_mapWaiting (s : System) (id : RandStr) (bytes : List UInt8) :
    publicRead (s.mapWaiting update) id bytes =
      (publicRead s id bytes).map fun s => s.mapWaiting update := by
  unfold publicRead
  rw [System.mapWaiting_link]
  cases (s.link id).server.peer with
  | none => rfl
  | some conn =>
      dsimp only
      rw [shutdownFromPublic_mapWaiting]
      split
      · split
        · rfl
        · rfl
      · split
        · rfl
        · rfl

end Server

/-! ## The client's handlers -/

namespace Client

theorem shutdonwLocalConn_mapWaiting (s : System) (id : RandStr) :
    shutdonwLocalConn (s.mapWaiting update) id =
      (shutdonwLocalConn s id).mapWaiting update := by
  unfold shutdonwLocalConn
  dsimp only
  rw [System.mapWaiting_link]
  split
  · rfl
  · rfl

theorem handleShutdownLocalConn_mapWaiting (s : System) (proxyId : Str) (tranCount : Nat) :
    handleShutdownLocalConn (s.mapWaiting update) proxyId tranCount =
      (handleShutdownLocalConn s proxyId tranCount).mapWaiting update := by
  unfold handleShutdownLocalConn
  rw [System.mapWaiting_clientProxyConnMap]
  cases s.clientProxyConnMap.lookup proxyId with
  | none => rfl
  | some id =>
      exact shutdonwLocalConn_mapWaiting update (s.mapLink id fun link =>
        link.mapClient fun conn => conn.incrTheoreticalTotalRecvCount tranCount) id

theorem shutdownFromLocal_mapWaiting (s : System) (proxyId : Str) (tranCount : Nat) :
    shutdownFromLocal (s.mapWaiting update) proxyId tranCount =
      (shutdownFromLocal s proxyId tranCount).mapWaiting update := by
  simp only [shutdownFromLocal, System.mapWaiting]
  cases s.clientProxyConnMap.lookup proxyId with
  | none => rfl
  | some id => rfl

theorem handleStartProxyConnReq_mapWaiting (s : System) (publicFd : Nat) (proxyId : Str)
    (localFd : Fd) :
    handleStartProxyConnReq (s.mapWaiting update) publicFd proxyId localFd =
      (handleStartProxyConnReq s publicFd proxyId localFd).mapWaiting update := by
  unfold handleStartProxyConnReq
  rw [System.mapWaiting_clientProxyConnMap]
  cases s.clientProxyConnMap.lookup proxyId with
  | none => rfl
  | some id =>
      dsimp only
      rw [System.mapWaiting_link]
      split
      · rfl
      · rfl

theorem ctlRead_mapWaiting (s : System) (id : RandStr) (proxyFd localFd : Fd) :
    ctlRead cfg (s.mapWaiting update) id proxyFd localFd =
      (ctlRead cfg s id proxyFd localFd).map fun s => s.mapWaiting update := by
  unfold ctlRead
  rw [System.mapWaiting_ctlToClient]
  cases s.ctlToClient with
  | nil => rfl
  | cons msg rest =>
      cases msg with
      | notifyClientNeedProxy =>
          dsimp only
          rw [System.mapWaiting_clientProxyConnMap]
          split
          · rfl
          · rfl
      | notifyProxyShutdownPeerConn proxyId tranCount =>
          exact congrArg some (handleShutdownLocalConn_mapWaiting update
            { s with ctlToClient := rest } proxyId tranCount)
      | freeProxyConnReq proxyId => rfl

theorem forwardRead_mapWaiting (s : System) (id : RandStr) (count : Nat) :
    forwardRead (s.mapWaiting update) id count =
      (forwardRead s id count).map fun s => s.mapWaiting update := by
  unfold forwardRead
  dsimp only
  rw [System.mapWaiting_mapLink, shutdonwLocalConn_mapWaiting]
  rw [System.mapWaiting_link]
  split
  · rfl
  · split
    · rfl
    · rw [System.mapWaiting_link]
      split
      · rfl
      · rfl

theorem messageRead_mapWaiting (s : System) (id : RandStr) (localFd : Fd) :
    messageRead (s.mapWaiting update) id localFd =
      (messageRead s id localFd).map fun s => s.mapWaiting update := by
  unfold messageRead
  rw [System.mapWaiting_link]
  cases readMsg (s.link id).toClient with
  | waiting => rfl
  | dropped rest => rfl
  | unset rest => rfl
  | message type body rest =>
      dsimp only
      cases ProxyCtlMsg.decode type body with
      | none => rfl
      | some decoded =>
          dsimp only
          rw [System.mapWaiting_mapLink]
          cases decoded with
          | none => rfl
          | some msg =>
              cases msg with
              | proxyMetaSet ctlId tunId proxyId => rfl
              | startProxyConnReq publicFd proxyId =>
                  exact congrArg some (handleStartProxyConnReq_mapWaiting update _ _ _ _)
              | startProxyConnRsp publicFd proxyId => rfl

theorem proxyRead_mapWaiting (s : System) (id : RandStr) (count : Nat) (localFd : Fd) :
    proxyRead (s.mapWaiting update) id count localFd =
      (proxyRead s id count localFd).map fun s => s.mapWaiting update := by
  unfold proxyRead
  rw [forwardRead_mapWaiting, messageRead_mapWaiting]
  rw [System.mapWaiting_clientProxyConnMap, System.mapWaiting_link]
  split
  · rfl
  · split
    · rfl
    · rfl

theorem localRead_mapWaiting (s : System) (id : RandStr) (bytes : List UInt8) :
    localRead (s.mapWaiting update) id bytes =
      (localRead s id bytes).map fun s => s.mapWaiting update := by
  unfold localRead
  rw [System.mapWaiting_link]
  cases (s.link id).client.peer with
  | none => rfl
  | some conn =>
      dsimp only
      rw [shutdownFromLocal_mapWaiting]
      split
      · split
        · rfl
        · rfl
      · split
        · rfl
        · rfl

end Client

/-! ## The events -/

/-- An event at which the server reads the answer to a request. -/
def Answers (s : System) (id : RandStr) (publicFd : Nat) : Event → Prop
  | .serverProxyRead found _ => found = id ∧ AnswersAt s id publicFd
  | _ => False

theorem step_mapWaiting {event : Event} (hpublic : ∀ acceptFd, event ≠ .newPublicConn acceptFd)
    (hspares : ∀ id publicFd, Answers s id publicFd event →
      SparesKey update (s.link id).server.proxy.proxyId) :
    step cfg (s.mapWaiting update) event =
      (step cfg s event).map fun s => s.mapWaiting update := by
  cases event with
  | newPublicConn acceptFd => exact absurd rfl (hpublic acceptFd)
  | newProxyConn id acceptFd =>
      by_cases hopen : Fresh s acceptFd ∧ id.chars ∈ s.clientProxyConnMap ∧
          (s.link id).accepted = false
      · refine (if_pos hopen).trans ?_
        rw [step, if_pos hopen]
        rfl
      · refine (if_neg hopen).trans ?_
        rw [step, if_neg hopen]
        rfl
  | serverProxyRead id count =>
      exact Server.proxyRead_mapWaiting update s id count
        fun publicFd hanswer => hspares id publicFd ⟨rfl, hanswer⟩
  | publicRead id bytes => exact Server.publicRead_mapWaiting update s id bytes
  | serverCtlRead => exact Server.ctlRead_mapWaiting update s
  | clientCtlRead id proxyFd localFd =>
      simp only [step]
      rw [Client.ctlRead_mapWaiting]
      split
      · rfl
      · rfl
  | clientProxyRead id count localFd =>
      simp only [step]
      rw [Client.proxyRead_mapWaiting]
      split
      · rfl
      · rfl
  | localRead id bytes => exact Client.localRead_mapWaiting update s id bytes
  | strayFreeReq proxyId => exact congrArg some (Server.freeProxyConn_mapWaiting update s proxyId)

/-- No other event changes the map. -/
theorem waiting_of_step {event : Event} (hpublic : ∀ acceptFd, event ≠ .newPublicConn acceptFd)
    (hanswers : ∀ id publicFd, ¬ Answers s id publicFd event)
    (hstep : step cfg s event = some s') :
    s'.waitForStartProxyConnMap = s.waitForStartProxyConnMap := by
  -- a map that is put in the place of the old one is still there after the step
  have hcommutes := @step_mapWaiting cfg s (fun _ => s.waitForStartProxyConnMap) event hpublic
    fun id publicFd hanswer => absurd hanswer (hanswers id publicFd)
  have hsame : s.mapWaiting (fun _ => s.waitForStartProxyConnMap) = s := rfl
  rw [hsame, hstep, Option.map_some, Option.some.injEq] at hcommutes
  rw [hcommutes]
  rfl

end CProxy
