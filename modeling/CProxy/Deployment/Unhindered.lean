import CProxy.Deployment.Isolation

/-! # No client hinders another

A client that has connected gets its tunnel whatever the others do, and what a tunnel can do
on its own it can do here, with the descriptors that the server has to give.
-/

namespace CProxy

open Foundation Wire

variable {d d' : Deployment} {cfg : Config} {ctlId tunId : RandStr} {event : Event}
variable {s after : System}

/-! ## Steps of one tunnel -/

/-- Both ends are past the answer. -/
theorem Controls.serving_of_open (hcontrols : Controls d)
    (hopen : (d.control cfg.ctlId).Open cfg.tunId) :
    (∃ up down, Serving cfg.ctlId cfg.tunId (d.control cfg.ctlId) up down ∧
      (d.control cfg.ctlId).toClient = down.map (.about cfg.tunId)) ∧
    (d.control cfg.ctlId).clientTunnelMap = onlyTunnel cfg.tunId := by
  have hmem : cfg.ctlId.chars ∈ d.controlMap := by
    by_contra hnone
    rw [hcontrols.absent cfg.ctlId hnone] at hopen
    exact AList.notMem_empty _ hopen
  cases hcontrols.known cfg.ctlId hmem with
  | asking hconn | named hconn | requesting hconn =>
      rw [hconn] at hopen
      exact absurd hopen (AList.notMem_empty _)
  | serving found up down hserving =>
      rcases hserving.toClient with ⟨hmap, hmsgs⟩ | ⟨hmap, hmsgs⟩
      · rw [ControlConn.Open, hmap] at hopen
        exact absurd hopen (AList.notMem_empty _)
      · rw [ControlConn.Open, hmap] at hopen
        obtain rfl := RandStr.chars_injective (mem_onlyTunnel.mp hopen)
        exact ⟨⟨up, down, hserving, hmsgs⟩, hmap⟩

theorem Deployment.open_put {found : RandStr} (hopen : (d.control ctlId).Open found) (s : System) :
    ((d.put cfg s).control ctlId).Open found := by
  by_cases hctl : ctlId = cfg.ctlId
  · rw [hctl, put_control_self]
    rwa [hctl] at hopen
  · have hsame : (d.put cfg s).control ctlId = d.control ctlId := mapControl_other hctl _
    rwa [hsame]

/-- The messages that are under way do not keep a handler from its step. -/
theorem Controls.exists_core (hcontrols : Controls d) (hserver : event ≠ .serverCtlRead)
    (hclient : ∀ id proxyFd localFd, event ≠ .clientCtlRead id proxyFd localFd)
    (hstep : step cfg (d.view cfg) event = some after) :
    ∃ core, step cfg (d.tunnel cfg) event = some core := by
  have hbehind := @step_behind cfg (d.view cfg).quiet event (d.view cfg).ctlToServer
    (d.view cfg).ctlToClient hserver hclient
  rw [quiet_behind, hstep, hcontrols.view_quiet] at hbehind
  obtain ⟨core, hcore, -⟩ := Option.map_eq_some_iff.mp hbehind.symm
  exact ⟨core, hcore⟩

theorem exists_serverCtlRead (s : System) (msg : CtlMsg) :
    ∃ core, step cfg { s with ctlToServer := [msg] } .serverCtlRead = some core := by
  cases msg with
  | notifyClientNeedProxy | notifyProxyShutdownPeerConn | freeProxyConnReq => exact ⟨_, rfl⟩

theorem exists_clientCtlRead {msg : CtlMsg} {rest : List CtlMsg}
    (hctl : s.ctlToClient = msg :: rest) {id : RandStr} {proxyFd localFd : Fd}
    (hstep : step cfg s (.clientCtlRead id proxyFd localFd) = some after) :
    ∃ core, step cfg { s.quiet with ctlToClient := [msg] } (.clientCtlRead id proxyFd localFd) =
      some core := by
  obtain ⟨hfds, hread⟩ := Option.ite_none_right_eq_some.mp hstep
  have hbehind := @Client.ctlRead_behind cfg { s.quiet with ctlToClient := [msg] }
    s.ctlToServer rest msg rfl id proxyFd localFd
  have hsame : { s.quiet with
      ctlToServer := s.ctlToServer ++ [], ctlToClient := msg :: rest } = s := by
    rw [← hctl, List.append_nil]
    rfl
  obtain ⟨core, hcore, -⟩ := Option.map_eq_some_iff.mp
    (hbehind.symm.trans ((congrArg (Client.ctlRead cfg · id proxyFd localFd) hsame).trans hread))
  exact ⟨core, by rw [step, if_pos hfds, hcore]⟩

/-- The deployment takes a step of one of its tunnels. -/
structure TakenAs (d : Deployment) (cfg : Config) (event : Event) (whole : DeploymentEvent)
    (d' : Deployment) : Prop where
  step : d.step whole = some d'
  acts : Acts d cfg event d'
  opened : (d'.control cfg.ctlId).Open cfg.tunId
  inTunnel : whole.inTunnel = some event
  shown : d.splices whole = ((d.view cfg).splices event).map (cfg, ·)

/-- A handler that reads no control message. -/
theorem exists_tunnelStep (hcontrols : Controls d) (hopen : (d.control cfg.ctlId).Open cfg.tunId)
    (hown : ownStep cfg (d.view cfg) event = some after) (hserver : event ≠ .serverCtlRead)
    (hclient : ∀ id proxyFd localFd, event ≠ .clientCtlRead id proxyFd localFd) :
    ∃ core, step cfg (d.tunnel cfg) event = some core ∧
      d.tunnelStep cfg event = some (d.put cfg core) ∧ Acts d cfg event (d.put cfg core) ∧
      cfg.tunId.chars ∈ (d.control cfg.ctlId).tunnelMap := by
  obtain ⟨⟨up, down, hserving, -⟩, -⟩ := hcontrols.serving_of_open hopen
  obtain ⟨hstep, hstray⟩ := step_of_ownStep hown
  obtain ⟨core, hcore⟩ := hcontrols.exists_core hserver hclient hstep
  have hput : d.tunnelStep cfg event = some (d.put cfg core) := by
    rw [Deployment.tunnelStep, hcore, Option.map_some]
  have hbuilt : cfg.tunId.chars ∈ (d.control cfg.ctlId).tunnelMap := by
    rw [hserving.tunnelMap]
    exact mem_onlyTunnel.mpr rfl
  exact ⟨core, hcore, hput, (tunnelStep_acts hcontrols (Or.inr hbuilt) hstray hput).2, hbuilt⟩

/-- A handler that is called for a connection of the tunnel. -/
theorem taken_tunnelStep (hcontrols : Controls d) (hopen : (d.control cfg.ctlId).Open cfg.tunId)
    (hown : ownStep cfg (d.view cfg) event = some after) (hserver : event ≠ .serverCtlRead)
    (hclient : ∀ id proxyFd localFd, event ≠ .clientCtlRead id proxyFd localFd)
    (whole : DeploymentEvent) (hwhole : d.step whole = d.tunnelStep cfg event)
    (hinTunnel : whole.inTunnel = some event)
    (hshown : d.splices whole = ((d.tunnel cfg).splices event).map (cfg, ·)) :
    ∃ whole d', TakenAs d cfg event whole d' := by
  obtain ⟨core, -, hput, hacts, -⟩ := exists_tunnelStep hcontrols hopen hown hserver hclient
  exact ⟨whole, d.put cfg core, hwhole.trans hput, hacts, Deployment.open_put hopen core,
    hinTunnel, by rw [hshown, view_splices]⟩

theorem taken_newPublicConn (hcontrols : Controls d)
    (hopen : (d.control cfg.ctlId).Open cfg.tunId) {acceptFd : Fd}
    (hown : ownStep cfg (d.view cfg) (.newPublicConn acceptFd) = some after)
    (hfresh : acceptFd ∉ d.accepted) :
    ∃ whole d', TakenAs d cfg (.newPublicConn acceptFd) whole d' := by
  obtain ⟨core, -, hput, hacts, hbuilt⟩ := exists_tunnelStep hcontrols hopen hown nofun nofun
  obtain ⟨⟨hpositive, hbound, -⟩, -⟩ := Option.ite_none_right_eq_some.mp hown
  have hstep : d.step (.newPublicConn cfg acceptFd) = some { d.put cfg core with
      accepted := (d.put cfg core).accepted ++ [acceptFd] } := by
    rw [Deployment.step, if_pos ⟨⟨hpositive, hbound, hfresh⟩, hbuilt⟩, hput, Option.map_some]
  exact ⟨.newPublicConn cfg acceptFd, _, hstep, { hacts with }, Deployment.open_put hopen core,
    rfl, rfl⟩

theorem taken_newProxyConn (hcontrols : Controls d)
    (hopen : (d.control cfg.ctlId).Open cfg.tunId) {id : RandStr} {acceptFd : Fd}
    (hown : ownStep cfg (d.view cfg) (.newProxyConn id acceptFd) = some after)
    (hfresh : acceptFd ∉ d.accepted) :
    ∃ whole d', TakenAs d cfg (.newProxyConn id acceptFd) whole d' := by
  obtain ⟨core, -, hput, hacts, -⟩ := exists_tunnelStep hcontrols hopen hown nofun nofun
  obtain ⟨⟨⟨hpositive, hbound, -⟩, -⟩, -⟩ := Option.ite_none_right_eq_some.mp hown
  have hstep : d.step (.newProxyConn cfg id acceptFd) =
      some ((d.put cfg core).addUnclaimed cfg id acceptFd) := by
    rw [Deployment.step, if_pos ⟨hpositive, hbound, hfresh⟩, hput, Option.map_some]
  exact ⟨.newProxyConn cfg id acceptFd, _, hstep, { hacts with }, Deployment.open_put hopen core,
    rfl, rfl⟩

/-- A read of a proxy connection, with the claim if it is the first one. -/
theorem taken_serverProxyRead (hdeployed : Deployed d)
    (hopen : (d.control cfg.ctlId).Open cfg.tunId) {id : RandStr} {count : Nat}
    (hown : ownStep cfg (d.view cfg) (.serverProxyRead id count) = some after) :
    ∃ whole d', TakenAs d cfg (.serverProxyRead id count) whole d' := by
  have hcontrols := hdeployed.toControls
  have hinv := (hdeployed.reachable cfg).wellFormed.inv id
  cases hawaited : ((d.tunnel cfg).link id).awaited with
  | none =>
      apply taken_tunnelStep hcontrols hopen hown nofun nofun (.serverProxyRead cfg id count)
      · change d.serverProxyRead cfg id count = _
        rw [Deployment.serverProxyRead, hawaited]
      · rfl
      · rfl
  | some found =>
      obtain ⟨named, tun, proxyId, rest⟩ := found
      obtain ⟨core, hcore, -⟩ := exists_tunnelStep hcontrols hopen hown nofun nofun
      obtain ⟨-, -, hread⟩ := serverProxyRead_of_awaited hcontrols hinv hawaited count
      rw [hcore, Option.map_some] at hread
      exact ⟨.serverProxyRead cfg id count, _, hread, (serverProxyRead_acts hcontrols hinv hread).2,
        Deployment.open_put hopen core, rfl, by rw [view_splices]; rfl⟩

theorem taken_serverCtlRead (hcontrols : Controls d)
    (hopen : (d.control cfg.ctlId).Open cfg.tunId)
    (hown : ownStep cfg (d.view cfg) .serverCtlRead = some after) :
    ∃ whole d', TakenAs d cfg .serverCtlRead whole d' := by
  obtain ⟨⟨up, down, hserving, -⟩, -⟩ := hcontrols.serving_of_open hopen
  have hqueue := (hcontrols.view_queues cfg).1
  rw [hserving.aboutOf_toServer] at hqueue
  cases up with
  | nil =>
      change Server.ctlRead (d.view cfg) = _ at hown
      rw [Server.ctlRead, hqueue] at hown
      cases hown
  | cons head later =>
      obtain ⟨core, hcore⟩ := @exists_serverCtlRead cfg (d.tunnel cfg) head
      have hread := serverCtlRead_of_serving hserving cfg.tunId
      rw [hcore, Option.map_some] at hread
      refine ⟨.serverCtlRead cfg.ctlId cfg.tunId, _, hread,
        (serverCtlRead_acts hcontrols hserving hread).2, ?_, rfl, rfl⟩
      apply Deployment.open_put
      rwa [Deployment.mapControl_self]

theorem taken_clientCtlRead (hcontrols : Controls d)
    (hopen : (d.control cfg.ctlId).Open cfg.tunId) {id : RandStr} {proxyFd localFd : Fd}
    (hown : ownStep cfg (d.view cfg) (.clientCtlRead id proxyFd localFd) = some after) :
    ∃ whole d', TakenAs d cfg (.clientCtlRead id proxyFd localFd) whole d' := by
  obtain ⟨⟨up, down, hserving, hdown⟩, hmap⟩ := hcontrols.serving_of_open hopen
  have hqueue := (hcontrols.view_queues cfg).2
  rw [hserving.aboutOf_toClient] at hqueue
  cases down with
  | nil =>
      obtain ⟨-, hread⟩ := Option.ite_none_right_eq_some.mp hown
      rw [Client.ctlRead, hqueue] at hread
      cases hread
  | cons head later =>
      obtain ⟨core, hcore⟩ := exists_clientCtlRead hqueue hown
      rw [hcontrols.view_quiet] at hcore
      have hread := clientCtlRead_of_serving hserving hmap hdown id proxyFd localFd
      rw [hcore, Option.map_some] at hread
      refine ⟨.clientCtlRead cfg.ctlId id proxyFd localFd, _, hread,
        (clientCtlRead_acts hcontrols hserving hmap hdown hread).2, ?_, rfl, rfl⟩
      apply Deployment.open_put
      rwa [Deployment.mapControl_self]

/-- Every step of a tunnel can be taken. -/
theorem exists_taken (hdeployed : Deployed d) (hopen : (d.control cfg.ctlId).Open cfg.tunId)
    (hown : ownStep cfg (d.view cfg) event = some after)
    (hfresh : ∀ fd ∈ event.accepts, fd ∉ d.accepted) :
    ∃ whole d', TakenAs d cfg event whole d' := by
  have hcontrols := hdeployed.toControls
  cases event with
  | newPublicConn acceptFd =>
      exact taken_newPublicConn hcontrols hopen hown (hfresh acceptFd List.mem_cons_self)
  | newProxyConn id acceptFd =>
      exact taken_newProxyConn hcontrols hopen hown (hfresh acceptFd List.mem_cons_self)
  | serverProxyRead id count => exact taken_serverProxyRead hdeployed hopen hown
  | publicRead id bytes =>
      exact taken_tunnelStep hcontrols hopen hown nofun nofun (.publicRead cfg id bytes) rfl rfl rfl
  | serverCtlRead => exact taken_serverCtlRead hcontrols hopen hown
  | clientCtlRead id proxyFd localFd => exact taken_clientCtlRead hcontrols hopen hown
  | clientProxyRead id count localFd =>
      exact taken_tunnelStep hcontrols hopen hown nofun nofun
        (.clientProxyRead cfg id count localFd) rfl rfl rfl
  | localRead id bytes =>
      exact taken_tunnelStep hcontrols hopen hown nofun nofun (.localRead cfg id bytes) rfl rfl rfl
  | strayFreeReq proxyId => cases hown

/-! ## Runs of one tunnel -/

theorem fresh_of_step {s' : System} (hstep : step cfg s event = some s') :
    ∀ fd ∈ event.accepts, Fresh s fd := by
  intro fd hfd
  cases event with
  | newPublicConn acceptFd =>
      obtain rfl := List.mem_singleton.mp hfd
      exact (Option.ite_none_right_eq_some.mp hstep).1
  | newProxyConn id acceptFd =>
      obtain rfl := List.mem_singleton.mp hfd
      exact (Option.ite_none_right_eq_some.mp hstep).1.1
  | serverProxyRead | publicRead | serverCtlRead | clientCtlRead | clientProxyRead | localRead
  | strayFreeReq =>
      cases hfd

/-- While only one tunnel goes on, its are the only new descriptors. -/
structure Alive (start : Deployment) (cfg : Config) (d : Deployment) : Prop extends Deployed d where
  opened : (d.control cfg.ctlId).Open cfg.tunId
  accepted : ∀ fd ∈ d.accepted, fd ∈ start.accepted ∨ fd ∈ (d.view cfg).accepted

theorem Alive.taken {start : Deployment} (halive : Alive start cfg d) {whole : DeploymentEvent}
    (htaken : TakenAs d cfg event whole d') : Alive start cfg d' where
  toDeployed := halive.toDeployed.step htaken.step
  opened := htaken.opened
  accepted := by
    intro fd hfd
    rw [(Deployment.accepted_of_step htaken.step).1,
      ← DeploymentEvent.accepts_inTunnel htaken.inTunnel] at hfd
    rw [accepted_of_step (step_of_ownStep htaken.acts.step).1]
    rcases List.mem_append.mp hfd with hold | hnew
    · exact (halive.accepted fd hold).imp_right (List.mem_append_left _)
    · exact Or.inr (List.mem_append_right _ hnew)

/-- The deployment goes through a run of one of its tunnels. -/
theorem Deployed.exists_run (hdeployed : Deployed d)
    (hopen : (d.control cfg.ctlId).Open cfg.tunId) {tunnelEvents : List Event}
    (hrun : run (ownStep cfg) (d.view cfg) tunnelEvents = some s)
    (hfresh : ∀ event ∈ tunnelEvents, ∀ fd ∈ event.accepts, fd ∉ d.accepted) :
    ∃ wholes d', d'.view cfg = s ∧
      Alone Deployment.step Deployment.splices Deployment.view cfg d wholes d'
        (observed (ownStep cfg) System.splices (d.view cfg) tunnelEvents) := by
  have hlift (now : Deployment) (event : Event) (after : System) (halive : Alive d cfg now)
      (hlaw : ∀ fd ∈ event.accepts, fd ∉ d.accepted)
      (hown : ownStep cfg (now.view cfg) event = some after) :
      ∃ whole next, now.step whole = some next ∧ Alive d cfg next ∧ next.view cfg = after ∧
        (∀ other, other ≠ cfg → next.view other = now.view other) ∧
        now.splices whole = ((now.view cfg).splices event).map (cfg, ·) := by
    have hunused (fd : Fd) (hfd : fd ∈ event.accepts) : fd ∉ now.accepted := by
      intro hmem
      rcases halive.accepted fd hmem with hold | hown'
      · exact hlaw fd hfd hold
      · exact (fresh_of_step (step_of_ownStep hown).1 fd hfd).2.2 hown'
    obtain ⟨whole, next, htaken⟩ := exists_taken halive.toDeployed halive.opened hown hunused
    exact ⟨whole, next, htaken.step, halive.taken htaken,
      Option.some.inj (htaken.acts.step.symm.trans hown), htaken.acts.others, htaken.shown⟩
  have hstart : Alive d cfg d := ⟨hdeployed, hopen, fun _ hfd => Or.inl hfd⟩
  obtain ⟨wholes, d', -, hfinal, halone⟩ := run_lifts hlift hstart hfresh hrun
  exact ⟨wholes, d', hfinal, halone⟩

/-! ## The way to a tunnel -/

/-- Reads of the control connection bring the client its tunnel; no tunnel notices. -/
def GetsTunnel (ctlId : RandStr) (count : Nat) (d : Deployment) : Prop :=
  ∃ events d' tunId, events.length ≤ count ∧ run Deployment.step d events = some d' ∧
    (d'.control ctlId).Open tunId ∧ ∀ cfg, d'.view cfg = d.view cfg

namespace GetsTunnel

variable {count : Nat}

theorem of_open (hopen : (d.control ctlId).Open tunId) : GetsTunnel ctlId count d :=
  ⟨[], d, tunId, Nat.zero_le count, rfl, hopen, fun _ => rfl⟩

theorem of_answered {conn : ControlConn} {event : DeploymentEvent} (hstep : d.step event = some d')
    (hanswered : Answered d ctlId conn d') (hgets : GetsTunnel ctlId count d') :
    GetsTunnel ctlId (count + 1) d := by
  obtain ⟨events, final, tunId, hlength, hrun, hopen, hviews⟩ := hgets
  refine ⟨event :: events, final, tunId, ?_, ?_, hopen, fun cfg => ?_⟩
  · rw [List.length_cons]
    exact Nat.succ_le_succ hlength
  · rw [run_cons hstep, hrun]
  · rw [hviews cfg, hanswered.views cfg]

theorem mono {most : Nat} (hgets : GetsTunnel ctlId count d) (hcount : count ≤ most) :
    GetsTunnel ctlId most d := by
  obtain ⟨events, final, tunId, hlength, hrest⟩ := hgets
  exact ⟨events, final, tunId, hlength.trans hcount, hrest⟩

end GetsTunnel

variable {up down : List CtlMsg}

theorem gets_of_serving (hcontrols : Controls d)
    (hserving : Serving ctlId tunId (d.control ctlId) up down) : GetsTunnel ctlId 1 d := by
  have hmem : tunId.chars ∈ onlyTunnel tunId := mem_onlyTunnel.mpr rfl
  rcases hserving.toClient with ⟨hmap, hmsgs⟩ | ⟨hmap, hmsgs⟩
  · obtain ⟨d', hread, hanswered⟩ :=
      answered_newTunnelRsp hcontrols hserving hmap hmsgs tunId 1 1
    have hstep : d.step (.clientCtlRead ctlId tunId 1 1) = some d' := hread
    have hopen : (d'.control ctlId).Open tunId := by
      rw [hanswered.conn]
      exact hmem
    exact .of_answered hstep hanswered (.of_open hopen)
  · apply GetsTunnel.of_open
    rw [ControlConn.Open, hmap]
    exact hmem

theorem gets_of_requesting (hcontrols : Controls d) (hmem : ctlId.chars ∈ d.controlMap)
    (hconn : d.control ctlId = { clientId := some ctlId, toServer := [.newTunnelReq] })
    (drawn : RandStr) : GetsTunnel ctlId 2 d := by
  obtain ⟨d', hread, hanswered⟩ := answered_newTunnelReq hcontrols hmem hconn drawn
  have hstep : d.step (.serverCtlRead ctlId drawn) = some d' := hread
  have hserving : Serving ctlId drawn (d'.control ctlId) [] [] := by
    rw [hanswered.conn]
    exact ⟨rfl, rfl, rfl, Or.inl ⟨rfl, rfl⟩⟩
  exact .of_answered hstep hanswered (gets_of_serving hanswered.controls hserving)

theorem gets_of_named (hcontrols : Controls d) (hmem : ctlId.chars ∈ d.controlMap)
    (hconn : d.control ctlId = { toClient := [.newCtlRsp ctlId] }) (drawn : RandStr) :
    GetsTunnel ctlId 3 d := by
  obtain ⟨d', hread, hanswered⟩ := answered_newCtlRsp hcontrols hmem hconn drawn 1 1
  have hstep : d.step (.clientCtlRead ctlId drawn 1 1) = some d' := hread
  have hmem' : ctlId.chars ∈ d'.controlMap := hanswered.controlMap ▸ hmem
  exact .of_answered hstep hanswered
    (gets_of_requesting hanswered.controls hmem' hanswered.conn drawn)

theorem gets_of_asking (hcontrols : Controls d) (hmem : ctlId.chars ∈ d.controlMap)
    (hconn : d.control ctlId = { toServer := [.newCtlReq] }) (drawn : RandStr) :
    GetsTunnel ctlId 4 d := by
  obtain ⟨d', hread, hanswered⟩ := answered_newCtlReq hcontrols hmem hconn drawn
  have hstep : d.step (.serverCtlRead ctlId drawn) = some d' := hread
  have hmem' : ctlId.chars ∈ d'.controlMap := hanswered.controlMap ▸ hmem
  exact .of_answered hstep hanswered (gets_of_named hanswered.controls hmem' hanswered.conn drawn)

/-- The reads that are left follow from the stage of the connection. -/
theorem Controls.getsTunnel (hcontrols : Controls d) (hmem : ctlId.chars ∈ d.controlMap) :
    GetsTunnel ctlId 4 d := by
  cases hcontrols.known ctlId hmem with
  | asking hconn => exact gets_of_asking hcontrols hmem hconn ctlId
  | named hconn => exact (gets_of_named hcontrols hmem hconn ctlId).mono (by decide)
  | requesting hconn => exact (gets_of_requesting hcontrols hmem hconn ctlId).mono (by decide)
  | serving tunId up down hserving =>
      exact (gets_of_serving hcontrols hserving).mono (by decide)

/-- Whatever the other clients of a server have done, a client that has connected has its
tunnel after at most four reads of its control connection, and it has only one. From then on
every run that the tunnel could go through on its own, with descriptors that are not open,
is one that the deployment can go through, with the same bytes at the connections of that
tunnel and nothing at the others. -/
theorem clients_unhindered {events : List DeploymentEvent}
    (hrun : run Deployment.step {} events = some d) :
    (∀ ctlId : RandStr, ctlId.chars ∈ d.controlMap →
      (∃ more d' tunId, more.length ≤ 4 ∧ run Deployment.step d more = some d' ∧
        (d'.control ctlId).Open tunId ∧ ∀ cfg, d'.view cfg = d.view cfg) ∧
      ∀ first second, (d.control ctlId).Open first → (d.control ctlId).Open second →
        first = second) ∧
    ∀ cfg, (d.control cfg.ctlId).Open cfg.tunId → ∀ tunnelEvents s,
      run (ownStep cfg) (d.view cfg) tunnelEvents = some s →
      (∀ event ∈ tunnelEvents, ∀ fd ∈ event.accepts, fd ∉ d.accepted) →
      ∃ more d', run Deployment.step d more = some d' ∧ d'.view cfg = s ∧
        (∀ other, other ≠ cfg → d'.view other = d.view other) ∧
        observed Deployment.step Deployment.splices d more =
          (observed (ownStep cfg) System.splices (d.view cfg) tunnelEvents).map (cfg, ·) := by
  have hdeployed := (deployed_run hrun).1
  have hcontrols := hdeployed.toControls
  constructor
  · intro ctlId hmem
    refine ⟨hcontrols.getsTunnel hmem, fun first second hfirst hsecond => ?_⟩
    have hone : (d.control ctlId).clientTunnelMap = onlyTunnel first :=
      (@Controls.serving_of_open d ⟨ctlId, first⟩ hcontrols hfirst).2
    rw [ControlConn.Open, hone] at hsecond
    exact (RandStr.chars_injective (mem_onlyTunnel.mp hsecond)).symm
  · intro cfg hopen tunnelEvents s htunnel hfresh
    obtain ⟨more, d', hfinal, halone⟩ := hdeployed.exists_run hopen htunnel hfresh
    exact ⟨more, d', halone.run, hfinal, halone.others, halone.shown⟩

/-- The second client's tunnel goes on while the first one's stands still. -/
def sampleAlone : List Event :=
  [.serverProxyRead sampleId 1, .newPublicConn 9, .publicRead sampleId [71, 69, 84]]

theorem clients_unhindered_sample :
    ∃ more d', run Deployment.step (deploymentAfter sampleClients) more = some d' ∧
      d'.view sampleConfig = (deploymentAfter sampleClients).view sampleConfig ∧
      observed Deployment.step Deployment.splices (deploymentAfter sampleClients) more =
        [(otherClient, ⟨sampleId, .publicConn, .taken, 1, some 6, [71, 69, 84]⟩)] := by
  have hunhindered :=
    (clients_unhindered (deploymentAfter_eq_some sampleClients (by decide +kernel))).2 otherClient
      (by decide +kernel) sampleAlone
  have hsome : (run (ownStep otherClient) ((deploymentAfter sampleClients).view otherClient)
      sampleAlone).isSome = true := by decide +kernel
  obtain ⟨s, hs⟩ := Option.isSome_iff_exists.mp hsome
  obtain ⟨more, d', hrun, -, hothers, hshown⟩ := hunhindered s hs (by decide +kernel)
  have hother : sampleConfig ≠ otherClient := by decide
  have hown : observed (ownStep otherClient) System.splices
      ((deploymentAfter sampleClients).view otherClient) sampleAlone =
        [⟨sampleId, .publicConn, .taken, 1, some 6, [71, 69, 84]⟩] := by decide +kernel
  rw [hown] at hshown
  exact ⟨more, d', hrun, hothers sampleConfig hother, hshown⟩

end CProxy
