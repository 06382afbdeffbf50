import CProxy.Deployment.Tunnels
import CProxy.Tunnel.Matching

/-! # The descriptors of a server

`accept` gives a descriptor to one connection of one tunnel, so the descriptors of two
tunnels are never the same. The buckets of the unclaimed proxy connections are shared: they
hold those of all tunnels, each under its own descriptor, and nothing else.
-/

namespace CProxy

open Foundation Wire

/-- The descriptors that an event of a tunnel takes from `accept`. -/
def Event.accepts : Event → List Fd
  | newPublicConn acceptFd => [acceptFd]
  | newProxyConn _ acceptFd => [acceptFd]
  | _ => []

def DeploymentEvent.accepts : DeploymentEvent → List Fd
  | newCtlConn acceptFd _ => [acceptFd]
  | newPublicConn _ acceptFd => [acceptFd]
  | newProxyConn _ _ acceptFd => [acceptFd]
  | _ => []

variable {d d' : Deployment} {cfg : Config} {s s' : System} {id : RandStr} {fd : Fd}

/-! ## In a tunnel -/

theorem accepted_of_claimProxyConn {ctlId tunId proxyId : Str}
    (hclaim : Server.claimProxyConn cfg s id ctlId tunId proxyId = some s') :
    s'.accepted = s.accepted := by
  unfold Server.claimProxyConn at hclaim
  dsimp only at hclaim
  split at hclaim
  · obtain rfl := Option.some.inj hclaim
    rfl
  · split at hclaim
    · obtain rfl := Option.some.inj hclaim
      rfl
    · obtain ⟨bound, hbound, rfl⟩ := Option.map_eq_some_iff.mp hclaim
      unfold Server.tunnelClaimProxyConn at hbound
      dsimp only at hbound
      split at hbound
      · cases hbound
      · obtain rfl := Option.some.inj hbound
        rfl

theorem accepted_of_serverMessageRead (hread : Server.messageRead cfg s id = some s') :
    s'.accepted = s.accepted := by
  unfold Server.messageRead at hread
  split at hread
  · cases hread
  · obtain rfl := Option.some.inj hread
    rfl
  · cases hread
  · split at hread
    · cases hread
    · obtain rfl := Option.some.inj hread
      rfl
    · next msg _ =>
        dsimp only at hread
        cases msg with
        | proxyMetaSet ctlId tunId proxyId => exact (accepted_of_claimProxyConn hread).trans rfl
        | startProxyConnReq publicFd proxyId =>
            obtain rfl := Option.some.inj hread
            rfl
        | startProxyConnRsp publicFd proxyId =>
            dsimp only at hread
            split at hread
            · obtain rfl := Option.some.inj hread
              exact (Keeps.handleStartProxyConnRsp _ _ _).accepted
            · obtain rfl := Option.some.inj hread
              rfl

theorem accepted_of_clientCtlRead {proxyFd localFd : Fd}
    (hread : Client.ctlRead cfg s id proxyFd localFd = some s') : s'.accepted = s.accepted := by
  unfold Client.ctlRead at hread
  split at hread
  · cases hread
  · next msg rest _ =>
      cases msg with
      | notifyClientNeedProxy =>
          obtain ⟨-, hsome⟩ := Option.ite_none_left_eq_some.mp hread
          obtain rfl := Option.some.inj hsome
          rfl
      | notifyProxyShutdownPeerConn proxyId tranCount =>
          obtain rfl := Option.some.inj hread
          exact (Keeps.handleShutdownLocalConn { s with ctlToClient := rest } _ _).accepted
      | freeProxyConnReq proxyId =>
          obtain rfl := Option.some.inj hread
          rfl

theorem accepted_of_newPublicConn (s : System) (acceptFd : Fd) :
    (Server.newPublicConnHandler s acceptFd).accepted = s.accepted ++ [acceptFd] := by
  unfold Server.newPublicConnHandler
  dsimp only
  split
  · exact (Keeps.reqStartProxy _ _ _).accepted
  · rfl

/-- A step accepts what its event says. -/
theorem accepted_of_step {event : Event} (hstep : step cfg s event = some s') :
    s'.accepted = s.accepted ++ event.accepts := by
  have hnone (hsame : s'.accepted = s.accepted) : s'.accepted = s.accepted ++ [] :=
    hsame.trans (List.append_nil _).symm
  cases event with
  | newPublicConn acceptFd =>
      obtain ⟨-, hsome⟩ := Option.ite_none_right_eq_some.mp hstep
      obtain rfl := Option.some.inj hsome
      exact accepted_of_newPublicConn s acceptFd
  | newProxyConn id acceptFd =>
      obtain ⟨-, hsome⟩ := Option.ite_none_right_eq_some.mp hstep
      obtain rfl := Option.some.inj hsome
      rfl
  | serverProxyRead id count =>
      apply hnone
      obtain ⟨-, hread⟩ := Option.ite_none_left_eq_some.mp hstep
      split at hread
      · exact (Keeps.serverForwardRead hread).accepted
      · exact accepted_of_serverMessageRead hread
  | publicRead id bytes => exact hnone (Keeps.publicRead hstep).accepted
  | serverCtlRead => exact hnone (Keeps.serverCtlRead hstep).accepted
  | clientCtlRead id proxyFd localFd =>
      obtain ⟨-, hread⟩ := Option.ite_none_right_eq_some.mp hstep
      exact hnone (accepted_of_clientCtlRead hread)
  | clientProxyRead id count localFd =>
      obtain ⟨-, hread⟩ := Option.ite_none_right_eq_some.mp hstep
      exact hnone (Keeps.clientProxyRead hread).accepted
  | localRead id bytes => exact hnone (Keeps.localRead hstep).accepted
  | strayFreeReq proxyId =>
      obtain rfl := Option.some.inj hstep
      exact hnone (Keeps.freeProxyConn _ _).accepted

/-! ## In a deployment -/

namespace Deployment

theorem tunnelStep_accepted {event : Event} (hstep : d.tunnelStep cfg event = some d') :
    d'.accepted = d.accepted ∧ d'.unclaimed = d.unclaimed := by
  obtain ⟨core, -, rfl⟩ := Option.map_eq_some_iff.mp hstep
  exact ⟨rfl, rfl⟩

/-- A read of a control connection accepts nothing and claims nothing. -/
theorem serverCtlRead_accepted {ctlId tunId : RandStr}
    (hread : d.serverCtlRead ctlId tunId = some d') :
    d'.accepted = d.accepted ∧ d'.unclaimed = d.unclaimed := by
  unfold serverCtlRead at hread
  split at hread
  · cases hread
  · next msg rest _ =>
      cases msg with
      | newCtlReq | newCtlRsp | newTunnelRsp =>
          obtain rfl := Option.some.inj hread
          exact ⟨rfl, rfl⟩
      | newTunnelReq =>
          obtain ⟨-, hsome⟩ := Option.ite_none_left_eq_some.mp hread
          obtain rfl := Option.some.inj hsome
          exact ⟨rfl, rfl⟩
      | about named msg =>
          dsimp only [handleAboutAtServer] at hread
          split at hread
          · obtain rfl := Option.some.inj hread
            exact ⟨rfl, rfl⟩
          · obtain ⟨core, -, rfl⟩ := Option.map_eq_some_iff.mp hread
            exact ⟨rfl, rfl⟩

theorem clientCtlRead_accepted {ctlId : RandStr} {proxyFd localFd : Fd}
    (hread : d.clientCtlRead ctlId id proxyFd localFd = some d') :
    d'.accepted = d.accepted ∧ d'.unclaimed = d.unclaimed := by
  unfold clientCtlRead at hread
  split at hread
  · cases hread
  · next msg rest _ =>
      cases msg with
      | newCtlRsp | newTunnelRsp | newCtlReq | newTunnelReq =>
          obtain rfl := Option.some.inj hread
          exact ⟨rfl, rfl⟩
      | about named msg =>
          dsimp only [handleAboutAtClient] at hread
          split at hread
          · obtain rfl := Option.some.inj hread
            exact ⟨rfl, rfl⟩
          · split at hread
            · cases hread
            · obtain ⟨core, -, rfl⟩ := Option.map_eq_some_iff.mp hread
              exact ⟨rfl, rfl⟩

theorem serverProxyRead_accepted {count : Nat}
    (hread : d.serverProxyRead cfg id count = some d') : d'.accepted = d.accepted := by
  unfold serverProxyRead at hread
  split at hread
  · exact (tunnelStep_accepted hread).1
  · unfold claimProxyConn at hread
    dsimp only at hread
    split at hread
    · obtain rfl := Option.some.inj hread
      rfl
    · obtain ⟨-, hsome⟩ := Option.ite_none_right_eq_some.mp hread
      obtain ⟨claimed, -, rfl⟩ := Option.map_eq_some_iff.mp hsome
      rfl

/-- A step accepts what its event says, and only descriptors that are not open. -/
theorem accepted_of_step {event : DeploymentEvent} (hstep : d.step event = some d') :
    d'.accepted = d.accepted ++ event.accepts ∧ ∀ fd ∈ event.accepts, d.Fresh fd := by
  have hnone (hsame : d'.accepted = d.accepted) :
      d'.accepted = d.accepted ++ [] ∧ ∀ fd ∈ ([] : List Fd), d.Fresh fd :=
    ⟨hsame.trans (List.append_nil _).symm, fun _ hfd => absurd hfd List.not_mem_nil⟩
  have hone {acceptFd : Fd} (hfresh : d.Fresh acceptFd)
      (hsame : d'.accepted = d.accepted ++ [acceptFd]) :
      d'.accepted = d.accepted ++ [acceptFd] ∧ ∀ fd ∈ [acceptFd], d.Fresh fd :=
    ⟨hsame, fun _ hfd => List.mem_singleton.mp hfd ▸ hfresh⟩
  cases event with
  | newCtlConn acceptFd ctlId =>
      obtain ⟨hfresh, hconn⟩ := Option.ite_none_right_eq_some.mp hstep
      obtain ⟨-, hsome⟩ := Option.ite_none_left_eq_some.mp hconn
      obtain rfl := Option.some.inj hsome
      exact hone hfresh rfl
  | serverCtlRead ctlId tunId => exact hnone (serverCtlRead_accepted hstep).1
  | clientCtlRead ctlId id proxyFd localFd => exact hnone (clientCtlRead_accepted hstep).1
  | newPublicConn cfg acceptFd =>
      obtain ⟨⟨hfresh, -⟩, haccept⟩ := Option.ite_none_right_eq_some.mp hstep
      obtain ⟨next, hnext, rfl⟩ := Option.map_eq_some_iff.mp haccept
      exact hone hfresh (congrArg (· ++ [acceptFd]) (tunnelStep_accepted hnext).1)
  | newProxyConn cfg id acceptFd =>
      obtain ⟨hfresh, haccept⟩ := Option.ite_none_right_eq_some.mp hstep
      obtain ⟨next, hnext, rfl⟩ := Option.map_eq_some_iff.mp haccept
      exact hone hfresh (congrArg (· ++ [acceptFd]) (tunnelStep_accepted hnext).1)
  | serverProxyRead cfg id count => exact hnone (serverProxyRead_accepted hstep)
  | publicRead | clientProxyRead | localRead => exact hnone (tunnelStep_accepted hstep).1

end Deployment

theorem DeploymentEvent.accepts_inTunnel {event : DeploymentEvent} {inner : Event}
    (hinner : event.inTunnel = some inner) : inner.accepts = event.accepts := by
  cases event with
  | newCtlConn => cases hinner
  | serverCtlRead | clientCtlRead | newPublicConn | newProxyConn | serverProxyRead | publicRead
  | clientProxyRead | localRead =>
      obtain rfl := Option.some.inj hinner
      rfl

/-! ## No descriptor is of two tunnels -/

structure Apart (d : Deployment) : Prop where
  within : ∀ cfg fd, fd ∈ (d.view cfg).accepted → fd ∈ d.accepted
  apart : ∀ first second fd, fd ∈ (d.view first).accepted → fd ∈ (d.view second).accepted →
    first = second

theorem apart_init : Apart {} where
  within := fun _ _ hfd => absurd hfd List.not_mem_nil
  apart := fun _ _ _ hfd => absurd hfd List.not_mem_nil

/-- The descriptors of an event go to one tunnel at most. -/
theorem Shared.accepted {event : DeploymentEvent} {shown : List (Config × Splice)}
    (hshared : Shared d event.inTunnel shown d') :
    (∀ cfg, (d'.view cfg).accepted = (d.view cfg).accepted) ∨
      ∃ cfg, (d'.view cfg).accepted = (d.view cfg).accepted ++ event.accepts ∧
        ∀ other, other ≠ cfg → (d'.view other).accepted = (d.view other).accepted := by
  cases hshared with
  | none hviews hshown => exact Or.inl fun cfg => congrArg System.accepted (hviews cfg)
  | one cfg inner hinner hacts hshown =>
      refine Or.inr ⟨cfg, ?_, fun other hother =>
        congrArg System.accepted (hacts.others other hother)⟩
      rw [← DeploymentEvent.accepts_inTunnel hinner]
      exact accepted_of_step (step_of_ownStep hacts.step).1

theorem Apart.step (hapart : Apart d) (hdeployed : Deployed d) {event : DeploymentEvent}
    (hstep : d.step event = some d') : Apart d' := by
  obtain ⟨haccepted, hfresh⟩ := Deployment.accepted_of_step hstep
  have hkept (fd : Fd) (hfd : fd ∈ d.accepted) : fd ∈ d'.accepted :=
    haccepted ▸ List.mem_append_left _ hfd
  rcases (step_shared hdeployed hstep).2.accepted with hsame | ⟨cfg, hself, hothers⟩
  · constructor
    · intro cfg fd hfd
      exact hkept fd (hapart.within cfg fd (hsame cfg ▸ hfd))
    · intro first second fd hfirst hsecond
      exact hapart.apart first second fd (hsame first ▸ hfirst) (hsame second ▸ hsecond)
  · have hcases (other : Config) (fd : Fd) (hfd : fd ∈ (d'.view other).accepted) :
        fd ∈ (d.view other).accepted ∨ other = cfg ∧ fd ∈ event.accepts := by
      by_cases hother : other = cfg
      · rw [hother, hself] at hfd
        rw [hother]
        exact (List.mem_append.mp hfd).imp_right fun hnew => ⟨rfl, hnew⟩
      · exact Or.inl (hothers other hother ▸ hfd)
    have hunused (other : Config) (fd : Fd) (hfd : fd ∈ (d.view other).accepted)
        (hnew : fd ∈ event.accepts) : False :=
      (hfresh fd hnew).2.2 (hapart.within other fd hfd)
    constructor
    · intro other fd hfd
      rcases hcases other fd hfd with hold | ⟨-, hnew⟩
      · exact hkept fd (hapart.within other fd hold)
      · exact haccepted ▸ List.mem_append_right _ hnew
    · intro first second fd hfirst hsecond
      rcases hcases first fd hfirst with hold | ⟨hcfg, hnew⟩
      · rcases hcases second fd hsecond with hold' | ⟨hcfg', hnew'⟩
        · exact hapart.apart first second fd hold hold'
        · exact (hunused first fd hold hnew').elim
      · rcases hcases second fd hsecond with hold' | ⟨hcfg', hnew'⟩
        · exact (hunused second fd hold' hnew).elim
        · exact hcfg.trans hcfg'.symm

end CProxy
