import CProxy.Deployment.Unclaimed

/-! # The clients of one server

Each tunnel of a deployment runs as it would run alone, so that what holds of a tunnel holds
of every tunnel here, and the public connections of one client are never those of another.
-/

namespace CProxy

open Foundation Wire

variable {d : Deployment} {cfg : Config}

/-- What is shown about a tunnel is what a run of the tunnel shows. -/
theorem taped_part {events : List DeploymentEvent} (hrun : run Deployment.step {} events = some d)
    (cfg : Config) : TapedSystem cfg (d.view cfg) (ofPart cfg (deploymentTape events)) := by
  obtain ⟨tunnelEvents, htunnel, hshown⟩ := (deployed_run hrun).2 cfg
  rw [← hshown]
  exact taped_run (run_of_ownRun htunnel).1

/-- A public descriptor that is shown is one that the tunnel has accepted for a session. -/
theorem Shelved.bound_of_mem (hshelved : Shelved d) {trace : List (Config × Splice)}
    (htaped : ∀ cfg, TapedSystem cfg (d.view cfg) (ofPart cfg trace))
    {shown : Config × Splice} (hmem : shown ∈ trace) (hedge : shown.2.edge = .publicConn) {fd : Fd}
    (hfd : shown.2.fd = some fd) :
    1 ≤ shown.2.session ∧
      Holds (d.view shown.1) (.bound shown.2.id (shown.2.session - 1)) fd ∧
      fd ∈ (d.view shown.1).accepted := by
  have hpart : shown.2 ∈ ofPart shown.1 trace := mem_ofPart.mpr hmem
  have hunshared := (hshelved.reachable shown.1).matching.unshared
  obtain ⟨hfirst, hbound, -⟩ := bytesAt_eq (htaped shown.1) hunshared hpart hedge hfd
  have hholds : Holds (d.view shown.1) (.bound shown.2.id (shown.2.session - 1)) fd := hbound
  exact ⟨hfirst, hholds, hunshared.accepted _ fd hholds⟩

/-- Whatever the other clients of a server do, a tunnel goes through a run that it has on its
own, with the same bytes at its connections; so each of its sessions relays its streams. A
public descriptor is never shown for two tunnels, two proxy connections or two sessions. -/
theorem tunnels_run_apart {events : List DeploymentEvent}
    (hrun : run Deployment.step {} events = some d) :
    (∀ cfg, ∃ tunnelEvents, run (ownStep cfg) System.init tunnelEvents = some (d.view cfg) ∧
      tape cfg tunnelEvents = ofPart cfg (deploymentTape events)) ∧
    (∀ cfg id session,
      Relayed ((d.tunnel cfg).link id) (ofPart cfg (deploymentTape events)) id session) ∧
    ∀ first ∈ deploymentTape events, ∀ second ∈ deploymentTape events,
      first.2.edge = .publicConn → second.2.edge = .publicConn →
      ∀ fd, first.2.fd = some fd → second.2.fd = some fd →
        first.1 = second.1 ∧ first.2.id = second.2.id ∧ first.2.session = second.2.session := by
  have hshelved := shelved_run hrun
  have htaped := taped_part hrun
  refine ⟨(deployed_run hrun).2, ?_, ?_⟩
  · intro cfg id session
    exact Taped.relayed ((htaped cfg).taped id) ((htaped cfg).wellFormed.inv id) session
  · intro first hfirst second hsecond hedge hedge' fd hfd hfd'
    obtain ⟨hone, hbound, haccepted⟩ := hshelved.bound_of_mem htaped hfirst hedge hfd
    obtain ⟨hone', hbound', haccepted'⟩ := hshelved.bound_of_mem htaped hsecond hedge' hfd'
    have htunnel := hshelved.apart first.1 second.1 fd haccepted haccepted'
    rw [← htunnel] at hbound'
    have hunshared := (hshelved.reachable first.1).matching.unshared
    have hplace := Place.bound.inj (hunshared.one _ _ fd hbound hbound')
    exact ⟨htunnel, hplace.1, by omega⟩

/-- The second client's public side asks and its local side answers, while the first
client's proxy connection is claimed. -/
def sampleTraffic : List DeploymentEvent :=
  sampleClients ++ [.serverProxyRead otherClient sampleId 1,
    .publicRead otherClient sampleId [71, 69, 84], .serverProxyRead sampleConfig sampleId 1,
    .clientProxyRead otherClient sampleId 3 1, .publicRead sampleConfig sampleId [72],
    .localRead otherClient sampleId [79, 75], .serverProxyRead otherClient sampleId 2]

theorem tunnels_run_apart_sample :
    Relayed (((deploymentAfter sampleTraffic).tunnel otherClient).link sampleId)
      (ofPart otherClient (deploymentTape sampleTraffic)) sampleId 1 ∧
    bytesAt (ofPart otherClient (deploymentTape sampleTraffic)) 6 .given = [79, 75] ∧
    bytesAt (ofPart sampleConfig (deploymentTape sampleTraffic)) 5 .taken = [72] := by
  have hapart := tunnels_run_apart (deploymentAfter_eq_some sampleTraffic (by decide +kernel))
  exact ⟨hapart.2.1 otherClient sampleId 1, by decide +kernel, by decide +kernel⟩

end CProxy
