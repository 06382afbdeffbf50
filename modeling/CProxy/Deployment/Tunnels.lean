import CProxy.Deployment.Handshake

/-! # A deployment is its tunnels

Whatever the handlers do, a step of the deployment is a step of one of its tunnels or of
none: every message finds the tunnel it is about at both ends, and every proxy connection
is claimed by the tunnel that its client has made it for.
-/

namespace CProxy

open Foundation Wire

/-- The control connections are at one of their stages, the queues of the tunnels are
empty, and a tunnel that is not there has done nothing. -/
structure Controls (d : Deployment) : Prop where
  keyed : KeyedBy RandStr.chars d.controlMap
  known : ∀ ctlId, ctlId.chars ∈ d.controlMap → Stage ctlId (d.control ctlId)
  absent : ∀ ctlId, ctlId.chars ∉ d.controlMap → d.control ctlId = {}
  quiet : ∀ cfg, (d.tunnel cfg).quiet = d.tunnel cfg
  unbuilt : ∀ cfg : Config, cfg.tunId.chars ∉ (d.control cfg.ctlId).tunnelMap →
    d.tunnel cfg = System.init

/-- The event that an event of the deployment may be to a tunnel. -/
def DeploymentEvent.inTunnel : DeploymentEvent → Option Event
  | newCtlConn _ _ => none
  | serverCtlRead _ _ => some .serverCtlRead
  | clientCtlRead _ id proxyFd localFd => some (.clientCtlRead id proxyFd localFd)
  | newPublicConn _ acceptFd => some (.newPublicConn acceptFd)
  | newProxyConn _ id acceptFd => some (.newProxyConn id acceptFd)
  | serverProxyRead _ id count => some (.serverProxyRead id count)
  | publicRead _ id bytes => some (.publicRead id bytes)
  | clientProxyRead _ id count localFd => some (.clientProxyRead id count localFd)
  | localRead _ id bytes => some (.localRead id bytes)

/-- A step of the deployment is an event of one tunnel, and nothing to the others. -/
structure Acts (d : Deployment) (cfg : Config) (event : Event) (d' : Deployment) : Prop where
  step : ownStep cfg (d.view cfg) event = some (d'.view cfg)
  others : ∀ other, other ≠ cfg → d'.view other = d.view other

/-- What a step of the deployment is to the tunnels. -/
inductive Shared (d : Deployment) (inTunnel : Option Event) (shown : List (Config × Splice))
    (d' : Deployment) : Prop
  | none (hviews : ∀ cfg, d'.view cfg = d.view cfg) (hshown : shown = [])
  | one (cfg : Config) (event : Event) (hevent : inTunnel = some event)
      (hacts : Acts d cfg event d')
      (hshown : shown = ((d.view cfg).splices event).map (cfg, ·))

variable {d d' : Deployment} {cfg : Config} {ctlId : RandStr} {shown : List (Config × Splice)}
variable {event : Event} {inTunnel : Option Event}

theorem Shared.matches (hshared : Shared d inTunnel shown d') (part : Config) :
    Matches (ownStep part) System.splices (d.view part) (ofPart part shown) (d'.view part) := by
  cases hshared with
  | none hviews hshown =>
      rw [hviews part, hshown]
      exact matches_refl _
  | one cfg event hevent hacts hshown =>
      by_cases hpart : part = cfg
      · subst hpart
        rw [hshown, ofPart_map_self]
        exact matches_of_step hacts.step
      · rw [hacts.others part hpart, hshown, ofPart_map_other (Ne.symm hpart)]
        exact matches_refl _

theorem ownStep_of_step {s s' : System} (hown : ∀ proxyId, event ≠ .strayFreeReq proxyId)
    (hstep : step cfg s event = some s') : ownStep cfg s event = some s' := by
  cases event with
  | strayFreeReq proxyId => exact absurd rfl (hown proxyId)
  | newPublicConn | newProxyConn | serverProxyRead | publicRead | serverCtlRead | clientCtlRead
  | clientProxyRead | localRead => exact hstep

namespace Deployment

theorem mapControl_mapControl (ctlId : RandStr) (first second : ControlConn → ControlConn) :
    (d.mapControl ctlId first).mapControl ctlId second =
      d.mapControl ctlId fun conn => second (first conn) := by
  simp [mapControl]

@[simp] theorem put_tunnelMap (s : System) (ctlId : RandStr) :
    ((d.put cfg s).control ctlId).tunnelMap = (d.control ctlId).tunnelMap := by
  by_cases hctl : ctlId = cfg.ctlId
  · rw [hctl, put_control_self]
  · exact congrArg ControlConn.tunnelMap (mapControl_other hctl _)

end Deployment

namespace Controls

/-! ## What is known of a connection -/

theorem mem_controlMap (hcontrols : Controls d)
    (hbuilt : cfg.tunId.chars ∈ (d.control cfg.ctlId).tunnelMap) :
    cfg.ctlId.chars ∈ d.controlMap := by
  by_contra hnone
  rw [hcontrols.absent cfg.ctlId hnone] at hbuilt
  exact AList.notMem_empty _ hbuilt

theorem serving (hcontrols : Controls d)
    (hbuilt : cfg.tunId.chars ∈ (d.control cfg.ctlId).tunnelMap) :
    ∃ up down, Serving cfg.ctlId cfg.tunId (d.control cfg.ctlId) up down :=
  (hcontrols.known cfg.ctlId (hcontrols.mem_controlMap hbuilt)).serving_of_mem hbuilt

/-- `Server::claimProxyConn` finds a tunnel by its names. -/
theorem claimant (hcontrols : Controls d)
    (hbuilt : cfg.tunId.chars ∈ (d.control cfg.ctlId).tunnelMap) :
    d.claimant cfg.ctlId.chars cfg.tunId.chars = some cfg := by
  obtain ⟨up, down, hserving⟩ := hcontrols.serving hbuilt
  have hctl : d.controlMap.lookup cfg.ctlId.chars = some cfg.ctlId :=
    (hcontrols.keyed.mem_iff RandStr.chars_injective).mp (hcontrols.mem_controlMap hbuilt)
  rw [Deployment.claimant, hctl, Option.bind_some, hserving.tunnelMap, lookup_onlyTunnel_self]
  rfl

theorem view_quiet (hcontrols : Controls d) (cfg : Config) : (d.view cfg).quiet = d.tunnel cfg := by
  have hquiet := hcontrols.quiet cfg
  rw [← hquiet]
  rfl

theorem view_queues (hcontrols : Controls d) (cfg : Config) :
    (d.view cfg).ctlToServer = aboutOf cfg.tunId (d.control cfg.ctlId).toServer ∧
      (d.view cfg).ctlToClient = aboutOf cfg.tunId (d.control cfg.ctlId).toClient := by
  have hserver : (d.tunnel cfg).ctlToServer = [] := by rw [← hcontrols.quiet cfg]; rfl
  have hclient : (d.tunnel cfg).ctlToClient = [] := by rw [← hcontrols.quiet cfg]; rfl
  simp [Deployment.view, System.behind, hserver, hclient]

/-! ## Changes -/

theorem put (hcontrols : Controls d)
    (hbuilt : cfg.tunId.chars ∈ (d.control cfg.ctlId).tunnelMap) (s : System) :
    Controls (d.put cfg s) where
  keyed := hcontrols.keyed
  known := by
    intro ctlId hmem
    by_cases hctl : ctlId = cfg.ctlId
    · obtain ⟨up, down, hserving⟩ := hcontrols.serving hbuilt
      rw [hctl, Deployment.put_control_self]
      exact .serving cfg.tunId _ _ (hserving.send s.ctlToServer s.ctlToClient)
    · have hsame : (d.put cfg s).control ctlId = d.control ctlId :=
        Deployment.mapControl_other hctl _
      rw [hsame]
      exact hcontrols.known ctlId hmem
  absent := by
    intro ctlId hnone
    have hctl : ctlId ≠ cfg.ctlId := by
      rintro rfl
      exact hnone (hcontrols.mem_controlMap hbuilt)
    have hsame : (d.put cfg s).control ctlId = d.control ctlId :=
      Deployment.mapControl_other hctl _
    rw [hsame]
    exact hcontrols.absent ctlId hnone
  quiet := by
    intro other
    by_cases hother : other = cfg
    · rw [hother, Deployment.put_tunnel_self]
      rfl
    · rw [Deployment.put_tunnel_other hother]
      exact hcontrols.quiet other
  unbuilt := by
    intro other hnone
    rw [Deployment.put_tunnelMap] at hnone
    have hother : other ≠ cfg := by
      rintro rfl
      exact hnone hbuilt
    rw [Deployment.put_tunnel_other hother]
    exact hcontrols.unbuilt other hnone

/-- A connection goes on to another stage. -/
theorem mapControl (hcontrols : Controls d) (hmem : ctlId.chars ∈ d.controlMap)
    {update : ControlConn → ControlConn} (hstage : Stage ctlId (update (d.control ctlId)))
    (htunnels : ∀ tunId : RandStr, tunId.chars ∈ (d.control ctlId).tunnelMap →
      tunId.chars ∈ (update (d.control ctlId)).tunnelMap) :
    Controls (d.mapControl ctlId update) where
  keyed := hcontrols.keyed
  known := by
    intro found hfound
    by_cases hctl : found = ctlId
    · rw [hctl, Deployment.mapControl_self]
      exact hstage
    · rw [Deployment.mapControl_other hctl]
      exact hcontrols.known found hfound
  absent := by
    intro found hnone
    have hctl : found ≠ ctlId := by
      rintro rfl
      exact hnone hmem
    rw [Deployment.mapControl_other hctl]
    exact hcontrols.absent found hnone
  quiet := hcontrols.quiet
  unbuilt := by
    intro cfg hnone
    apply hcontrols.unbuilt cfg
    by_cases hctl : cfg.ctlId = ctlId
    · rw [hctl, Deployment.mapControl_self] at hnone
      rw [hctl]
      exact fun hbuilt => hnone (htunnels cfg.tunId hbuilt)
    · rwa [Deployment.mapControl_other hctl] at hnone

end Controls

/-! ## The handlers of one tunnel -/

/-- Nothing happens at a tunnel that has not been built, unless it accepts. -/
theorem step_init (haccept : ∀ fd, event ≠ .newPublicConn fd)
    (hown : ∀ proxyId, event ≠ .strayFreeReq proxyId) : step cfg System.init event = none := by
  cases event with
  | newPublicConn fd => exact absurd rfl (haccept fd)
  | strayFreeReq proxyId => exact absurd rfl (hown proxyId)
  | newProxyConn id acceptFd =>
      have hnone : id.chars ∉ System.init.clientProxyConnMap := AList.notMem_empty _
      simp [step, hnone]
  | serverProxyRead | publicRead | serverCtlRead | localRead => rfl
  | clientCtlRead id proxyFd localFd => simp [step, Client.ctlRead, System.init]
  | clientProxyRead id count localFd =>
      have hnone : id.chars ∉ System.init.clientProxyConnMap := AList.notMem_empty _
      simp [step, Client.proxyRead, hnone]

/-- The step of one tunnel, whose messages go behind those that are left of it. -/
theorem put_acts {d₀ : Deployment} {core : System} (hcontrols : Controls d₀)
    (hbuilt : cfg.tunId.chars ∈ (d₀.control cfg.ctlId).tunnelMap)
    (hothers : ∀ other, other ≠ cfg → d₀.view other = d.view other)
    (hown : ∀ proxyId, event ≠ .strayFreeReq proxyId)
    (hstep : step cfg (d.view cfg) event =
      some (core.behind (d₀.view cfg).ctlToServer (d₀.view cfg).ctlToClient)) :
    Controls (d₀.put cfg core) ∧ Acts d cfg event (d₀.put cfg core) := by
  refine ⟨hcontrols.put hbuilt core, ?_, ?_⟩
  · apply ownStep_of_step hown
    rw [hstep, Deployment.view_put, (hcontrols.view_queues cfg).1, (hcontrols.view_queues cfg).2]
  · exact fun other hother =>
      (Deployment.view_put_other hother core).trans (hothers other hother)

/-- The step of one tunnel that reads no message. -/
theorem handler_acts {d₀ : Deployment} {core : System} (hcontrols : Controls d₀)
    (hbuilt : cfg.tunId.chars ∈ (d₀.control cfg.ctlId).tunnelMap)
    (hviews : ∀ other, d₀.view other = d.view other)
    (hown : ∀ proxyId, event ≠ .strayFreeReq proxyId)
    (hcore : step cfg (d₀.tunnel cfg) event = some core) :
    Controls (d₀.put cfg core) ∧ Acts d cfg event (d₀.put cfg core) := by
  rw [← hcontrols.view_quiet cfg] at hcore
  refine put_acts hcontrols hbuilt (fun other _ => hviews other) hown ?_
  rw [← hviews cfg]
  exact step_of_quiet hcore

/-- A handler of a tunnel is a step of that tunnel. -/
theorem tunnelStep_acts (hcontrols : Controls d)
    (hbuilt : (∀ fd, event ≠ .newPublicConn fd) ∨
      cfg.tunId.chars ∈ (d.control cfg.ctlId).tunnelMap)
    (hown : ∀ proxyId, event ≠ .strayFreeReq proxyId)
    (hstep : d.tunnelStep cfg event = some d') : Controls d' ∧ Acts d cfg event d' := by
  obtain ⟨core, hcore, rfl⟩ := Option.map_eq_some_iff.mp hstep
  have hbuilt : cfg.tunId.chars ∈ (d.control cfg.ctlId).tunnelMap := by
    rcases hbuilt with haccept | hbuilt
    · by_contra hnone
      rw [hcontrols.unbuilt cfg hnone, step_init haccept hown] at hcore
      cases hcore
    · exact hbuilt
  exact handler_acts hcontrols hbuilt (fun _ => rfl) hown hcore

/-! ## The claim of a proxy connection -/

variable {id : RandStr}

theorem Link.metaSet_of_sent {link : Link} {msg : ProxyCtlMsg} (hsent : ProxyCtlMsg.Sent msg)
    {rest : List UInt8} (hframe : link.toServer = msg.wire ++ rest) :
    link.metaSet = match msg with
      | .proxyMetaSet ctlId tunId proxyId => some (ctlId, tunId, proxyId, rest)
      | _ => none := by
  unfold metaSet
  simp only [hframe, ProxyCtlMsg.readMsg_wire hsent, ProxyCtlMsg.decode_body hsent]
  cases msg with
  | proxyMetaSet | startProxyConnReq | startProxyConnRsp => rfl

/-- A connection on which a ProxyMetaSet is read. -/
structure Claimable (cfg : Config) (id : RandStr) (link : Link) : Prop where
  accepted : link.accepted = true
  isStart : link.server.proxy.isStart = false
  claimed : link.claimed = false

/-- The ProxyMetaSet on a connection is the one that its client has sent. -/
theorem LinkInv.of_awaited {v : View} (hinv : LinkInv cfg id v) {named tun proxyId : Str}
    {rest : List UInt8} (hawaited : v.link.awaited = some (named, tun, proxyId, rest)) :
    Claimable cfg id v.link ∧ named = cfg.ctlId.chars ∧ tun = cfg.tunId.chars ∧
      proxyId = id.chars := by
  obtain ⟨⟨haccepted, hidle⟩, hmeta⟩ := Option.ite_none_right_eq_some.mp hawaited
  have hidle := Bool.eq_false_of_not_eq_true hidle
  cases hinv with
  | unused hunused =>
      rw [hunused] at haccepted
      cases haccepted
  | ahead loc msg hahead =>
      rw [Link.metaSet_of_sent hahead.origin.sent hahead.stream] at hmeta
      cases hahead.origin with
      | fresh hclaimed =>
          simp only [Option.some.injEq, Prod.mk.injEq] at hmeta
          obtain ⟨rfl, rfl, rfl, rfl⟩ := hmeta
          exact ⟨⟨haccepted, hidle, hclaimed⟩, rfl, rfl, rfl⟩
      | reused => cases hmeta
  | level pub loc trailing hlevel =>
      have hempty : v.link.toServer = [] := (hlevel.up.resting_of_not_isStart hidle).flight
      rw [Link.metaSet, hempty, readMsg_nil] at hmeta
      cases hmeta

/-- The read of a ProxyMetaSet. -/
theorem step_of_awaited {s : System} {named tun proxyId : Str} {rest : List UInt8}
    (hawaited : (s.link id).awaited = some (named, tun, proxyId, rest)) (count : Nat) :
    step cfg s (.serverProxyRead id count) =
      Server.claimProxyConn cfg (s.mapLink id fun link =>
        link.parseAtServer (.parsed (.proxyMetaSet named tun proxyId)) rest)
          id named tun proxyId := by
  obtain ⟨⟨haccepted, hidle⟩, hmeta⟩ := Option.ite_none_right_eq_some.mp hawaited
  unfold Link.metaSet at hmeta
  rw [step, Server.proxyRead, if_neg (by simp [haccepted]), if_neg hidle, Server.messageRead]
  split at hmeta
  · next type body more hread =>
      split at hmeta
      · next ctl tunnel proxy hdecode =>
          simp only [Option.some.injEq, Prod.mk.injEq] at hmeta
          obtain ⟨rfl, rfl, rfl, rfl⟩ := hmeta
          simp only [hread, hdecode]
      · cases hmeta
  · cases hmeta

/-- The tunnel of the client claims a proxy connection, and no other one. -/
theorem serverProxyRead_of_awaited (hcontrols : Controls d)
    (hinv : LinkInv cfg id ((d.view cfg).view id)) {named tun proxyId : Str} {rest : List UInt8}
    (hawaited : ((d.tunnel cfg).link id).awaited = some (named, tun, proxyId, rest)) (count : Nat) :
    cfg.tunId.chars ∈ (d.control cfg.ctlId).tunnelMap ∧
      d.claimant named tun = some cfg ∧
      d.serverProxyRead cfg id count =
        (step cfg (d.tunnel cfg) (.serverProxyRead id count)).map
          ((d.eraseUnclaimed ((d.tunnel cfg).link id).server.proxy.fd).put cfg) := by
  obtain ⟨hclaimable, hnamed, htun, -⟩ := hinv.of_awaited hawaited
  have hbuilt : cfg.tunId.chars ∈ (d.control cfg.ctlId).tunnelMap := by
    by_contra hnone
    have haccepted := hclaimable.accepted
    rw [view_link, Deployment.view, hcontrols.unbuilt cfg hnone] at haccepted
    cases haccepted
  have hclaimant : d.claimant named tun = some cfg := by
    rw [hnamed, htun]
    exact hcontrols.claimant hbuilt
  refine ⟨hbuilt, hclaimant, ?_⟩
  rw [step_of_awaited hawaited, Deployment.serverProxyRead, hawaited]
  dsimp only
  rw [Deployment.claimProxyConn, hclaimant]
  dsimp only
  rw [if_pos rfl]
  simp [System.mapLink, Link.parseAtServer]

/-- A read of the server's end of a proxy connection. -/
theorem serverProxyRead_acts (hcontrols : Controls d)
    (hinv : LinkInv cfg id ((d.view cfg).view id)) {count : Nat}
    (hread : d.serverProxyRead cfg id count = some d') :
    Controls d' ∧ Acts d cfg (.serverProxyRead id count) d' := by
  cases hawaited : ((d.tunnel cfg).link id).awaited with
  | none =>
      rw [Deployment.serverProxyRead, hawaited] at hread
      exact tunnelStep_acts hcontrols (Or.inl (by simp)) (by simp) hread
  | some found =>
      obtain ⟨named, tun, proxyId, rest⟩ := found
      obtain ⟨hbuilt, -, heq⟩ := serverProxyRead_of_awaited hcontrols hinv hawaited count
      rw [heq] at hread
      obtain ⟨claimed, hclaimed, rfl⟩ := Option.map_eq_some_iff.mp hread
      exact handler_acts { hcontrols with } hbuilt (fun _ => rfl) (by simp) hclaimed

/-! ## The messages on the control connections -/

/-- A new client has nothing but its first message. -/
theorem newCtlConn_shared (hcontrols : Controls d) {acceptFd : Fd}
    (hconn : d.newCtlConnHandler acceptFd ctlId = some d') :
    Controls d' ∧ Shared d none [] d' := by
  obtain ⟨hnone, hsome⟩ := Option.ite_none_left_eq_some.mp hconn
  obtain rfl := Option.some.inj hsome
  have hempty : d.control ctlId = {} := hcontrols.absent ctlId hnone
  refine ⟨⟨hcontrols.keyed.emplace rfl, ?_, ?_, hcontrols.quiet, ?_⟩, .none (fun cfg => ?_) rfl⟩
  · intro found hmem
    by_cases hctl : found = ctlId
    · rw [hctl]
      exact .asking (Deployment.mapControl_self ctlId _)
    · rw [Deployment.mapControl_other hctl]
      rcases mem_emplace.mp hmem with hsame | hold
      · exact absurd (RandStr.chars_injective hsame) hctl
      · exact hcontrols.known found hold
  · intro found hmissing
    have hctl : found ≠ ctlId := by
      rintro rfl
      exact hmissing (mem_emplace.mpr (Or.inl rfl))
    rw [Deployment.mapControl_other hctl]
    exact hcontrols.absent found fun hold => hmissing (mem_emplace.mpr (Or.inr hold))
  · intro cfg hmissing
    apply hcontrols.unbuilt cfg
    by_cases hctl : cfg.ctlId = ctlId
    · rw [hctl, hempty]
      exact AList.notMem_empty _
    · rwa [Deployment.mapControl_other hctl] at hmissing
  · refine (Deployment.view_mapControl ?_ ?_).trans rfl
    · intro _
      rw [hempty, aboutOf_newCtlReq]
    · intro _
      rw [hempty]

/-- A message is taken from a connection that is in use. -/
theorem Controls.mem_of_toServer (hcontrols : Controls d) {msg : ConnMsg} {rest : List ConnMsg}
    (hmsgs : (d.control ctlId).toServer = msg :: rest) : ctlId.chars ∈ d.controlMap := by
  by_contra hnone
  rw [hcontrols.absent ctlId hnone] at hmsgs
  cases hmsgs

theorem Controls.mem_of_toClient (hcontrols : Controls d) {msg : ConnMsg} {rest : List ConnMsg}
    (hmsgs : (d.control ctlId).toClient = msg :: rest) : ctlId.chars ∈ d.controlMap := by
  by_contra hnone
  rw [hcontrols.absent ctlId hnone] at hmsgs
  cases hmsgs

/-- A read that changes nothing but the connection, before there is anything about a tunnel. -/
structure Answered (d : Deployment) (ctlId : RandStr) (conn : ControlConn) (d' : Deployment) :
    Prop where
  controls : Controls d'
  controlMap : d'.controlMap = d.controlMap
  conn : d'.control ctlId = conn
  views : ∀ cfg, d'.view cfg = d.view cfg

theorem Answered.shared {conn : ControlConn} (hanswered : Answered d ctlId conn d') :
    Controls d' ∧ Shared d inTunnel [] d' :=
  ⟨hanswered.controls, .none hanswered.views rfl⟩

theorem answered_of_stage (hcontrols : Controls d) (hmem : ctlId.chars ∈ d.controlMap)
    {update : ControlConn → ControlConn} (hstage : Stage ctlId (update (d.control ctlId)))
    (htunnels : ∀ tunId : RandStr, tunId.chars ∈ (d.control ctlId).tunnelMap →
      tunId.chars ∈ (update (d.control ctlId)).tunnelMap)
    (hserver : ∀ tunId, aboutOf tunId (update (d.control ctlId)).toServer =
      aboutOf tunId (d.control ctlId).toServer)
    (hclient : ∀ tunId, aboutOf tunId (update (d.control ctlId)).toClient =
      aboutOf tunId (d.control ctlId).toClient) :
    Answered d ctlId (update (d.control ctlId)) (d.mapControl ctlId update) where
  controls := hcontrols.mapControl hmem hstage htunnels
  controlMap := rfl
  conn := Deployment.mapControl_self ctlId update
  views := fun cfg => Deployment.view_mapControl (fun _ => hserver cfg.tunId)
    fun _ => hclient cfg.tunId

/-- The server names the client. -/
theorem answered_newCtlReq (hcontrols : Controls d) (hmem : ctlId.chars ∈ d.controlMap)
    (hconn : d.control ctlId = { toServer := [.newCtlReq] }) (tunId : RandStr) :
    ∃ d', d.serverCtlRead ctlId tunId = some d' ∧
      Answered d ctlId { toClient := [.newCtlRsp ctlId] } d' := by
  refine ⟨_, by rw [Deployment.serverCtlRead, hconn], ?_⟩
  rw [Deployment.handleNewCtlReq, Deployment.mapControl_mapControl]
  have hanswered := @answered_of_stage d ctlId hcontrols hmem (fun conn =>
    { conn with toServer := [], toClient := conn.toClient ++ [.newCtlRsp ctlId] })
  rw [hconn] at hanswered
  exact hanswered (.named rfl) (fun _ hbuilt => hbuilt) (fun _ => rfl) fun _ => rfl

/-- The client asks for a tunnel. -/
theorem answered_newCtlRsp (hcontrols : Controls d) (hmem : ctlId.chars ∈ d.controlMap)
    (hconn : d.control ctlId = { toClient := [.newCtlRsp ctlId] }) (id : RandStr)
    (proxyFd localFd : Fd) :
    ∃ d', d.clientCtlRead ctlId id proxyFd localFd = some d' ∧
      Answered d ctlId { clientId := some ctlId, toServer := [.newTunnelReq] } d' := by
  refine ⟨_, by rw [Deployment.clientCtlRead, hconn], ?_⟩
  rw [Deployment.handleNewCtlRsp, Deployment.mapControl_mapControl]
  have hanswered := @answered_of_stage d ctlId hcontrols hmem (fun conn =>
    { conn with
      toClient := []
      clientId := some ctlId
      toServer := conn.toServer ++ [.newTunnelReq] })
  rw [hconn] at hanswered
  exact hanswered (.requesting rfl) (fun _ hbuilt => hbuilt) (fun _ => rfl) fun _ => rfl

/-- The server builds the tunnel. -/
theorem answered_newTunnelReq (hcontrols : Controls d) (hmem : ctlId.chars ∈ d.controlMap)
    (hconn : d.control ctlId = { clientId := some ctlId, toServer := [.newTunnelReq] })
    (tunId : RandStr) :
    ∃ d', d.serverCtlRead ctlId tunId = some d' ∧ Answered d ctlId {
      tunnelMap := onlyTunnel tunId
      clientId := some ctlId
      toClient := [.newTunnelRsp tunId] } d' := by
  have hbuild : d.serverCtlRead ctlId tunId = some (d.mapControl ctlId fun conn => { conn with
      toServer := []
      tunnelMap := emplace conn.tunnelMap tunId.chars tunId
      toClient := conn.toClient ++ [.newTunnelRsp tunId] }) := by
    rw [Deployment.serverCtlRead, hconn]
    change Deployment.handleNewTunnelReq _ ctlId tunId = _
    rw [Deployment.handleNewTunnelReq, Deployment.mapControl_self, hconn,
      if_neg (AList.notMem_empty _), Deployment.mapControl_mapControl]
  refine ⟨_, hbuild, ?_⟩
  have hanswered := @answered_of_stage d ctlId hcontrols hmem (fun conn => { conn with
    toServer := []
    tunnelMap := emplace conn.tunnelMap tunId.chars tunId
    toClient := conn.toClient ++ [.newTunnelRsp tunId] })
  rw [hconn] at hanswered
  exact hanswered (.serving tunId [] [] ⟨rfl, rfl, rfl, Or.inl ⟨rfl, rfl⟩⟩)
    (fun _ hbuilt => absurd hbuilt (AList.notMem_empty _)) (fun _ => rfl) fun _ => rfl

/-- The client hears of its tunnel. -/
theorem answered_newTunnelRsp (hcontrols : Controls d) {tunId : RandStr} {up down : List CtlMsg}
    (hserving : Serving ctlId tunId (d.control ctlId) up down)
    (hmap : (d.control ctlId).clientTunnelMap = ∅)
    (hmsgs : (d.control ctlId).toClient = .newTunnelRsp tunId :: down.map (.about tunId))
    (id : RandStr) (proxyFd localFd : Fd) :
    ∃ d', d.clientCtlRead ctlId id proxyFd localFd = some d' ∧ Answered d ctlId
      { d.control ctlId with
        clientTunnelMap := onlyTunnel tunId
        toClient := down.map (.about tunId) } d' := by
  refine ⟨_, by rw [Deployment.clientCtlRead, hmsgs], ?_⟩
  rw [Deployment.handleNewTunnelRsp, Deployment.mapControl_mapControl]
  have hanswered := @answered_of_stage d ctlId hcontrols (hcontrols.mem_of_toClient hmsgs)
    (fun conn => { conn with
      clientTunnelMap := emplace conn.clientTunnelMap tunId.chars tunId
      toClient := down.map (.about tunId) })
  rw [hmap] at hanswered
  refine hanswered (.serving tunId up down ⟨hserving.tunnelMap, hserving.clientId,
    hserving.toServer, Or.inr ⟨rfl, rfl⟩⟩) (fun _ hbuilt => hbuilt) (fun _ => rfl) fun _ => ?_
  rw [hmsgs, aboutOf_newTunnelRsp]

theorem Deployment.handleAboutAtServer_eq {tunId : RandStr} {up down : List CtlMsg} {msg : CtlMsg}
    {update : ControlConn → ControlConn}
    (hserving : Serving ctlId tunId (update (d.control ctlId)) up down) :
    (d.mapControl ctlId update).handleAboutAtServer ctlId tunId msg =
      (CProxy.step ⟨ctlId, tunId⟩ { d.tunnel ⟨ctlId, tunId⟩ with ctlToServer := [msg] }
        .serverCtlRead).map ((d.mapControl ctlId update).put ⟨ctlId, tunId⟩) := by
  rw [handleAboutAtServer, mapControl_self, hserving.tunnelMap, lookup_onlyTunnel_self,
    mapControl_tunnel]

theorem Deployment.handleAboutAtClient_eq {tunId : RandStr} {up down : List CtlMsg} {msg : CtlMsg}
    {update : ControlConn → ControlConn}
    (hserving : Serving ctlId tunId (update (d.control ctlId)) up down)
    (hopen : (update (d.control ctlId)).clientTunnelMap = onlyTunnel tunId)
    (id : RandStr) (proxyFd localFd : Fd) :
    (d.mapControl ctlId update).handleAboutAtClient ctlId tunId msg id proxyFd localFd =
      (CProxy.step ⟨ctlId, tunId⟩ { d.tunnel ⟨ctlId, tunId⟩ with ctlToClient := [msg] }
        (.clientCtlRead id proxyFd localFd)).map
          ((d.mapControl ctlId update).put ⟨ctlId, tunId⟩) := by
  rw [handleAboutAtClient, mapControl_self, hopen, lookup_onlyTunnel_self, hserving.clientId,
    mapControl_tunnel]

/-- A message about a tunnel is read by that tunnel. -/
theorem read_acts (update : ControlConn → ControlConn) (hcontrols : Controls d) {tunId : RandStr}
    {up down up' down' : List CtlMsg} {core : System}
    (hbefore : Serving ctlId tunId (d.control ctlId) up down)
    (hafter : Serving ctlId tunId (update (d.control ctlId)) up' down')
    (hmem : ctlId.chars ∈ d.controlMap) (hown : ∀ proxyId, event ≠ .strayFreeReq proxyId)
    (hstep : step ⟨ctlId, tunId⟩ (d.view ⟨ctlId, tunId⟩) event = some (core.behind up' down')) :
    Controls ((d.mapControl ctlId update).put ⟨ctlId, tunId⟩ core) ∧
      Acts d ⟨ctlId, tunId⟩ event ((d.mapControl ctlId update).put ⟨ctlId, tunId⟩ core) := by
  have hcontrols' : Controls (d.mapControl ctlId update) := by
    refine hcontrols.mapControl hmem (.serving tunId up' down' hafter) fun other hbuilt => ?_
    rwa [hafter.tunnelMap, ← hbefore.tunnelMap]
  have hqueues := hcontrols'.view_queues ⟨ctlId, tunId⟩
  rw [Deployment.mapControl_self, hafter.aboutOf_toServer, hafter.aboutOf_toClient] at hqueues
  apply put_acts hcontrols'
  · rw [Deployment.mapControl_self, hafter.tunnelMap]
    exact mem_onlyTunnel.mpr rfl
  · intro other hother
    have hnone (hctl : other.ctlId = ctlId) : other.tunId.chars ∉ onlyTunnel tunId := by
      intro hsame
      apply hother
      cases other
      cases hctl
      exact congrArg (Config.mk _) (RandStr.chars_injective (mem_onlyTunnel.mp hsame))
    have hold (hctl : other.ctlId = ctlId) := Stage.aboutOf_of_notMem
      (.serving tunId up down hbefore) (hbefore.tunnelMap ▸ hnone hctl)
    have hnew (hctl : other.ctlId = ctlId) := Stage.aboutOf_of_notMem
      (.serving tunId up' down' hafter) (hafter.tunnelMap ▸ hnone hctl)
    exact Deployment.view_mapControl (fun hctl => (hnew hctl).1.trans (hold hctl).1.symm)
      fun hctl => (hnew hctl).2.trans (hold hctl).2.symm
  · exact hown
  · rw [hqueues.1, hqueues.2]
    exact hstep

/-- The server reads a message about a tunnel. -/
theorem serverCtlRead_of_serving {found : RandStr} {head : CtlMsg} {later down : List CtlMsg}
    (hserving : Serving ctlId found (d.control ctlId) (head :: later) down) (tunId : RandStr) :
    d.serverCtlRead ctlId tunId =
      (step ⟨ctlId, found⟩ { d.tunnel ⟨ctlId, found⟩ with ctlToServer := [head] }
        .serverCtlRead).map ((d.mapControl ctlId fun conn =>
          { conn with toServer := later.map (.about found) }).put ⟨ctlId, found⟩) := by
  have hpopped : Serving ctlId found { d.control ctlId with
      toServer := later.map (.about found) } later down :=
    ⟨hserving.tunnelMap, hserving.clientId, rfl, hserving.toClient⟩
  rw [Deployment.serverCtlRead, hserving.toServer, List.map_cons]
  exact Deployment.handleAboutAtServer_eq hpopped

theorem serverCtlRead_acts (hcontrols : Controls d) {found tunId : RandStr} {head : CtlMsg}
    {later down : List CtlMsg}
    (hserving : Serving ctlId found (d.control ctlId) (head :: later) down)
    (hread : d.serverCtlRead ctlId tunId = some d') :
    Controls d' ∧ Acts d ⟨ctlId, found⟩ .serverCtlRead d' := by
  rw [serverCtlRead_of_serving hserving] at hread
  obtain ⟨core, hcore, rfl⟩ := Option.map_eq_some_iff.mp hread
  have hqueues := hcontrols.view_queues ⟨ctlId, found⟩
  rw [hserving.aboutOf_toServer, hserving.aboutOf_toClient] at hqueues
  rw [← hcontrols.view_quiet] at hcore
  have hstep : step ⟨ctlId, found⟩ (d.view ⟨ctlId, found⟩) .serverCtlRead =
      some (core.behind later down) := by
    rw [← hqueues.2]
    exact step_of_serverCtlRead hqueues.1 hcore
  exact read_acts (fun conn => { conn with toServer := later.map (.about found) }) hcontrols
    hserving ⟨hserving.tunnelMap, hserving.clientId, rfl, hserving.toClient⟩
    (hcontrols.mem_of_toServer hserving.toServer) (by simp) hstep

/-- The client reads a message about its tunnel. -/
theorem clientCtlRead_of_serving {found : RandStr} {head : CtlMsg} {up later : List CtlMsg}
    (hserving : Serving ctlId found (d.control ctlId) up (head :: later))
    (hopen : (d.control ctlId).clientTunnelMap = onlyTunnel found)
    (hdown : (d.control ctlId).toClient = (head :: later).map (.about found))
    (id : RandStr) (proxyFd localFd : Fd) :
    d.clientCtlRead ctlId id proxyFd localFd =
      (step ⟨ctlId, found⟩ { d.tunnel ⟨ctlId, found⟩ with ctlToClient := [head] }
        (.clientCtlRead id proxyFd localFd)).map ((d.mapControl ctlId fun conn =>
          { conn with toClient := later.map (.about found) }).put ⟨ctlId, found⟩) := by
  have hpopped : Serving ctlId found { d.control ctlId with
      toClient := later.map (.about found) } up later :=
    ⟨hserving.tunnelMap, hserving.clientId, hserving.toServer, Or.inr ⟨hopen, rfl⟩⟩
  rw [Deployment.clientCtlRead, hdown, List.map_cons]
  exact Deployment.handleAboutAtClient_eq hpopped hopen id proxyFd localFd

theorem clientCtlRead_acts (hcontrols : Controls d) {found : RandStr} {head : CtlMsg}
    {up later : List CtlMsg}
    (hserving : Serving ctlId found (d.control ctlId) up (head :: later))
    (hopen : (d.control ctlId).clientTunnelMap = onlyTunnel found)
    (hdown : (d.control ctlId).toClient = (head :: later).map (.about found))
    {proxyFd localFd : Fd} (hread : d.clientCtlRead ctlId id proxyFd localFd = some d') :
    Controls d' ∧ Acts d ⟨ctlId, found⟩ (.clientCtlRead id proxyFd localFd) d' := by
  rw [clientCtlRead_of_serving hserving hopen hdown] at hread
  obtain ⟨core, hcore, rfl⟩ := Option.map_eq_some_iff.mp hread
  have hqueues := hcontrols.view_queues ⟨ctlId, found⟩
  rw [hserving.aboutOf_toServer, hserving.aboutOf_toClient] at hqueues
  rw [← hcontrols.view_quiet] at hcore
  have hstep := step_of_clientCtlRead hqueues.2 hcore
  rw [hqueues.1] at hstep
  exact read_acts (fun conn => { conn with toClient := later.map (.about found) }) hcontrols
    hserving ⟨hserving.tunnelMap, hserving.clientId, hserving.toServer, Or.inr ⟨hopen, rfl⟩⟩
    (hcontrols.mem_of_toClient hdown) (by simp) hstep

/-- A read of the server's end of a control connection. -/
theorem serverCtlRead_shared (hcontrols : Controls d) {tunId : RandStr}
    (hread : d.serverCtlRead ctlId tunId = some d') :
    Controls d' ∧ Shared d (some .serverCtlRead) [] d' := by
  cases hmsgs : (d.control ctlId).toServer with
  | nil =>
      rw [Deployment.serverCtlRead, hmsgs] at hread
      cases hread
  | cons msg rest =>
      have hmem := hcontrols.mem_of_toServer hmsgs
      cases hcontrols.known ctlId hmem with
      | asking hconn =>
          obtain ⟨next, hnext, hanswered⟩ := answered_newCtlReq hcontrols hmem hconn tunId
          obtain rfl := Option.some.inj (hnext.symm.trans hread)
          exact hanswered.shared
      | named hconn =>
          rw [hconn] at hmsgs
          cases hmsgs
      | requesting hconn =>
          obtain ⟨next, hnext, hanswered⟩ := answered_newTunnelReq hcontrols hmem hconn tunId
          obtain rfl := Option.some.inj (hnext.symm.trans hread)
          exact hanswered.shared
      | serving found up down hserving =>
          cases up with
          | nil =>
              rw [hserving.toServer] at hmsgs
              cases hmsgs
          | cons head later =>
              obtain ⟨hnew, hacts⟩ := serverCtlRead_acts hcontrols hserving hread
              exact ⟨hnew, .one ⟨ctlId, found⟩ .serverCtlRead rfl hacts rfl⟩

/-- A read of the client's end of a control connection. -/
theorem clientCtlRead_shared (hcontrols : Controls d) {proxyFd localFd : Fd}
    (hread : d.clientCtlRead ctlId id proxyFd localFd = some d') :
    Controls d' ∧ Shared d (some (.clientCtlRead id proxyFd localFd)) [] d' := by
  cases hmsgs : (d.control ctlId).toClient with
  | nil =>
      rw [Deployment.clientCtlRead, hmsgs] at hread
      cases hread
  | cons msg rest =>
      have hmem := hcontrols.mem_of_toClient hmsgs
      cases hcontrols.known ctlId hmem with
      | asking hconn =>
          rw [hconn] at hmsgs
          cases hmsgs
      | named hconn =>
          obtain ⟨next, hnext, hanswered⟩ :=
            answered_newCtlRsp hcontrols hmem hconn id proxyFd localFd
          obtain rfl := Option.some.inj (hnext.symm.trans hread)
          exact hanswered.shared
      | requesting hconn =>
          rw [hconn] at hmsgs
          cases hmsgs
      | serving found up down hserving =>
          rcases hserving.toClient with ⟨hmap, hdown⟩ | ⟨hmap, hdown⟩
          · obtain ⟨next, hnext, hanswered⟩ :=
              answered_newTunnelRsp hcontrols hserving hmap hdown id proxyFd localFd
            obtain rfl := Option.some.inj (hnext.symm.trans hread)
            exact hanswered.shared
          · cases down with
            | nil =>
                rw [hdown] at hmsgs
                cases hmsgs
            | cons head later =>
                obtain ⟨hnew, hacts⟩ := clientCtlRead_acts hcontrols hserving hmap hdown hread
                exact ⟨hnew, .one ⟨ctlId, found⟩ (.clientCtlRead id proxyFd localFd) rfl hacts rfl⟩

/-! ## Runs -/

structure Deployed (d : Deployment) : Prop extends Controls d where
  reachable : ∀ cfg, Reachable cfg (d.view cfg)

theorem reachable_init (cfg : Config) : Reachable cfg System.init := ⟨[], rfl⟩

theorem controls_init : Controls {} where
  keyed := KeyedBy.empty
  known := fun _ hmem => absurd hmem (AList.notMem_empty _)
  absent := fun _ _ => rfl
  quiet := fun _ => rfl
  unbuilt := fun _ _ => rfl

theorem deployed_init : Deployed {} where
  toControls := controls_init
  reachable := reachable_init

theorem Acts.reachable (hacts : Acts d cfg event d')
    (hreach : ∀ cfg, Reachable cfg (d.view cfg)) (part : Config) :
    Reachable part (d'.view part) := by
  by_cases hpart : part = cfg
  · subst hpart
    exact (hreach part).step (step_of_ownStep hacts.step).1
  · rw [hacts.others part hpart]
    exact hreach part

theorem view_splices (d : Deployment) (cfg : Config) (event : Event) :
    (d.view cfg).splices event = (d.tunnel cfg).splices event := by
  cases event with
  | newPublicConn | newProxyConn | serverProxyRead | publicRead | serverCtlRead | clientCtlRead
  | clientProxyRead | localRead | strayFreeReq => rfl

/-- Every step of a deployment is a step of one of its tunnels, or of none. -/
theorem step_shared (hdeployed : Deployed d) {event : DeploymentEvent}
    (hstep : d.step event = some d') :
    Controls d' ∧ Shared d event.inTunnel (d.splices event) d' := by
  have hcontrols := hdeployed.toControls
  cases event with
  | newCtlConn =>
      obtain ⟨-, hconn⟩ := Option.ite_none_right_eq_some.mp hstep
      exact newCtlConn_shared hcontrols hconn
  | serverCtlRead ctlId tunId => exact serverCtlRead_shared hcontrols hstep
  | clientCtlRead ctlId id proxyFd localFd => exact clientCtlRead_shared hcontrols hstep
  | newPublicConn cfg acceptFd =>
      obtain ⟨⟨-, hbuilt⟩, haccept⟩ := Option.ite_none_right_eq_some.mp hstep
      obtain ⟨next, hnext, rfl⟩ := Option.map_eq_some_iff.mp haccept
      obtain ⟨hnew, hacts⟩ := tunnelStep_acts hcontrols (Or.inr hbuilt) (by simp) hnext
      exact ⟨{ hnew with }, .one cfg _ rfl { hacts with } rfl⟩
  | newProxyConn cfg id acceptFd =>
      obtain ⟨-, haccept⟩ := Option.ite_none_right_eq_some.mp hstep
      obtain ⟨next, hnext, rfl⟩ := Option.map_eq_some_iff.mp haccept
      obtain ⟨hnew, hacts⟩ := tunnelStep_acts hcontrols (Or.inl (by simp)) (by simp) hnext
      exact ⟨{ hnew with }, .one cfg _ rfl { hacts with } rfl⟩
  | serverProxyRead cfg id count =>
      have hinv := (hdeployed.reachable cfg).wellFormed.inv id
      obtain ⟨hnew, hacts⟩ := serverProxyRead_acts hcontrols hinv hstep
      exact ⟨hnew, .one cfg _ rfl hacts (by rw [view_splices]; rfl)⟩
  | publicRead cfg id bytes =>
      obtain ⟨hnew, hacts⟩ := tunnelStep_acts hcontrols (Or.inl (by simp)) (by simp) hstep
      exact ⟨hnew, .one cfg _ rfl hacts (by rw [view_splices]; rfl)⟩
  | clientProxyRead cfg id count localFd =>
      obtain ⟨hnew, hacts⟩ := tunnelStep_acts hcontrols (Or.inl (by simp)) (by simp) hstep
      exact ⟨hnew, .one cfg _ rfl hacts (by rw [view_splices]; rfl)⟩
  | localRead cfg id bytes =>
      obtain ⟨hnew, hacts⟩ := tunnelStep_acts hcontrols (Or.inl (by simp)) (by simp) hstep
      exact ⟨hnew, .one cfg _ rfl hacts (by rw [view_splices]; rfl)⟩

theorem Deployed.step (hdeployed : Deployed d) {event : DeploymentEvent}
    (hstep : d.step event = some d') : Deployed d' := by
  obtain ⟨hcontrols, hshared⟩ := step_shared hdeployed hstep
  refine ⟨hcontrols, fun cfg => ?_⟩
  cases hshared with
  | none hviews hshown =>
      rw [hviews cfg]
      exact hdeployed.reachable cfg
  | one found event hevent hacts hshown => exact hacts.reachable hdeployed.reachable cfg

/-- What a run of a deployment shows. -/
def deploymentTape (events : List DeploymentEvent) : List (Config × Splice) :=
  observed Deployment.step Deployment.splices {} events

/-- A run of a deployment is a run of each tunnel. -/
theorem deployed_run {events : List DeploymentEvent}
    (hrun : run Deployment.step {} events = some d) :
    Deployed d ∧ ∀ cfg, ∃ tunnelEvents,
      run (ownStep cfg) System.init tunnelEvents = some (d.view cfg) ∧
        tape cfg tunnelEvents = ofPart cfg (deploymentTape events) := by
  have hstep (d : Deployment) (event : DeploymentEvent) (d' : Deployment) (hdeployed : Deployed d)
      (hnext : d.step event = some d') : Deployed d' ∧ ∀ cfg,
        Matches (ownStep cfg) System.splices (d.view cfg) (ofPart cfg (d.splices event))
          (d'.view cfg) :=
    ⟨hdeployed.step hnext, (step_shared hdeployed hnext).2.matches⟩
  obtain ⟨hdeployed, hmatches⟩ := run_projects hstep deployed_init hrun
  refine ⟨hdeployed, fun cfg => ?_⟩
  obtain ⟨tunnelEvents, htunnel, hshown⟩ := hmatches cfg
  exact ⟨tunnelEvents, htunnel, (run_of_ownRun htunnel).2.symm.trans hshown⟩

end CProxy
