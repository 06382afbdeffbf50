import CProxy.Deployment.Descriptors
import CProxy.Foundation.Buckets

/-! # The shared buckets

The server keeps the proxy connections of all clients in one set of buckets until they are
claimed. They hold what every single tunnel would have in buckets of its own.
-/

namespace CProxy

open Foundation Wire

namespace Link

/-- The descriptor under which a connection waits to be claimed. -/
def unclaimedFd (link : Link) : Option Fd :=
  if link.accepted ∧ ¬ link.claimed then some link.server.proxy.fd else none

theorem unclaimedFd_congr {link link' : Link} (haccepted : link'.accepted = link.accepted)
    (hclaimed : link'.claimed = link.claimed)
    (hfd : link'.server.proxy.fd = link.server.proxy.fd) :
    link'.unclaimedFd = link.unclaimedFd := by
  rw [unclaimedFd, unclaimedFd, haccepted, hclaimed, hfd]

theorem unclaimedFd_of_claimed {link : Link} (hclaimed : link.claimed = true) :
    link.unclaimedFd = none :=
  if_neg fun hunclaimed => hunclaimed.2 hclaimed

end Link

variable {d d' : Deployment} {cfg : Config} {s s' : System} {id : RandStr} {fd : Fd}
variable {v v' : View}

/-! ## In a tunnel -/

/-- Only an accept and a claim change it. -/
theorem LinkStep.unclaimedFd_eq {about : LinkEvent} (hstep : LinkStep cfg id v about v')
    (haccept : ∀ fd, about ≠ .accept fd)
    (hclaim : ∀ count, about = .serverRead count → v.link.awaited = none) :
    v'.link.unclaimedFd = v.link.unclaimedFd := by
  cases hstep with
  | stay | reclosedAtServer | reclosedAtClient => rfl
  | connect | request | startAtClient | relayAtServer | relayAtClient | closeAtClient => rfl
  | accept acceptFd => exact absurd rfl (haccept acceptFd)
  | claim count publicFd rest haccepted hclaimed hstart hframe =>
      have hnone := hclaim count rfl
      rw [Link.awaited, if_pos ⟨haccepted, by rw [hstart]; exact Bool.false_ne_true⟩,
        Link.metaSet_of_sent (.proxyMetaSet _ _ _) hframe] at hnone
      cases hnone
  | bind count publicFd rest hwaiting hclaimed =>
      exact (Link.unclaimedFd_of_claimed rfl).trans (Link.unclaimedFd_of_claimed hclaimed).symm
  | forwardAtServer count =>
      apply Link.unclaimedFd_congr
      all_goals simp [Link.forwardAtServer, End.settle, End.mapProxy, End.forward,
        ProxyConn.incrRecvCount]
  | closeAtServer conn =>
      unfold View.shutdownFromPublic
      split
      · rfl
      · apply Link.unclaimedFd_congr
        all_goals simp [View.mapLink, Link.mapServer, End.close, End.mapProxy]
  | hearAtServer tranCount rest =>
      unfold View.handleShutdownPublicConn
      split
      · rfl
      · apply Link.unclaimedFd_congr
        all_goals simp [Link.mapServer, End.settle, End.mapProxy]
  | freeAtServer rest => simp
  | strayFreeReq => simp
  | hearAtClient tranCount rest =>
      apply Link.unclaimedFd_congr
      all_goals simp [View.handleShutdownLocalConn, Link.mapClient]
  | forwardAtClient count localFd =>
      apply Link.unclaimedFd_congr
      all_goals simp [Link.forwardAtClient]

/-- The read of a ProxyMetaSet is a claim. -/
theorem LinkStep.unclaimedFd_of_claim {count : Nat}
    (hstep : LinkStep cfg id v (.serverRead count) v')
    (hidle : v.link.server.proxy.isStart = false) : v'.link.unclaimedFd = none := by
  cases hstep with
  | claim | bind => exact Link.unclaimedFd_of_claimed rfl
  | forwardAtServer count hstart => simp [hidle] at hstart

/-- The state knows of the descriptor. -/
theorem WellFormed.mem_of_unclaimedFd (hwf : WellFormed cfg s)
    (hunclaimed : (s.link id).unclaimedFd = some fd) : fd ∈ s.accepted := by
  obtain ⟨⟨haccepted, hclaimed⟩, hfd⟩ := Option.ite_none_right_eq_some.mp hunclaimed
  have hone : (s.view id).unclaimed ≠ 0 := by
    cases hwf.inv id with
    | unused hunused =>
        rw [← view_link, hunused] at haccepted
        cases haccepted
    | ahead loc msg hahead =>
        cases hahead.origin with
        | fresh _ _ _ hunclaimed =>
            rw [hunclaimed, view_link, if_pos haccepted]
            exact Nat.one_ne_zero
        | reused _ _ _ hyes => exact absurd hyes hclaimed
    | level pub loc trailing hlevel => exact absurd hlevel.claimed hclaimed
  obtain ⟨-, -, -, hmem⟩ := hwf.unclaimed _ _ id (hwf.unclaimed.lookup hone)
  rwa [← Option.some.inj hfd]

theorem LinkInv.claimed_of_not_accepted (hinv : LinkInv cfg id v)
    (haccepted : v.link.accepted = false) : v.link.claimed = false := by
  cases hinv with
  | unused hunused => rw [hunused]
  | ahead loc msg hahead =>
      cases hahead.origin with
      | fresh hclaimed => exact hclaimed
      | reused publicFd hfd hyes => simp [haccepted] at hyes
  | level pub loc trailing hlevel => simp [hlevel.accepted] at haccepted

/-- A connection is accepted and read by the events that name it. -/
theorem Event.eq_of_about (event : Event) (s : System) (id : RandStr) :
    (∀ fd, event.about s id = .accept fd → event = .newProxyConn id fd) ∧
      ∀ count, event.about s id = .serverRead count → event = .serverProxyRead id count := by
  cases event with
  | newPublicConn acceptFd =>
      by_cases hlast : s.freeProxyConns.getLast? = some id <;> simp [about, hlast]
  | newProxyConn other | serverProxyRead other | publicRead other | clientProxyRead other
  | localRead other =>
      by_cases hid : other = id <;> simp [about, hid]
  | serverCtlRead =>
      simp only [about]
      split <;> simp
  | clientCtlRead other proxyFd localFd =>
      simp only [about]
      split
      · by_cases hid : other = id <;> simp [hid]
      · split <;> simp
      · simp
  | strayFreeReq proxyId => by_cases hid : proxyId = id.chars <;> simp [about, hid]

/-! ## In a deployment -/

/-- What the buckets are to hold. -/
def Deployment.unclaimedFd (d : Deployment) (item : Config × RandStr) : Option Fd :=
  ((d.view item.1).link item.2).unclaimedFd

structure Shelved (d : Deployment) : Prop extends Deployed d, Apart d where
  bucketed : Bucketed unclaimedIndex d.unclaimed d.unclaimedFd

theorem shelved_init : Shelved {} where
  toDeployed := deployed_init
  toApart := apart_init
  bucketed := Bucketed.empty

/-- No other tunnel has to do with it. -/
theorem Acts.unclaimedFd_other {event : Event} (hacts : Acts d cfg event d')
    {item : Config × RandStr} (hitem : item.1 ≠ cfg) :
    d'.unclaimedFd item = d.unclaimedFd item := by
  rw [Deployment.unclaimedFd, hacts.others item.1 hitem, Deployment.unclaimedFd]

theorem Acts.links {event : Event} (hacts : Acts d cfg event d')
    (hwf : WellFormed cfg (d.view cfg)) (id : RandStr) :
    LinkStep cfg id ((d.view cfg).view id) (event.about (d.view cfg) id) ((d'.view cfg).view id) :=
  (step_simulated hwf (step_of_ownStep hacts.step).1).links id

/-- Only an accept and a claim move a connection. -/
theorem Acts.unclaimedFd_eq {event : Event} (hacts : Acts d cfg event d')
    (hwf : WellFormed cfg (d.view cfg)) {item : Config × RandStr}
    (haccept : ∀ fd, item.1 = cfg → event ≠ .newProxyConn item.2 fd)
    (hclaim : ∀ count, item.1 = cfg → event = .serverProxyRead item.2 count →
      ((d.view cfg).link item.2).awaited = none) :
    d'.unclaimedFd item = d.unclaimedFd item := by
  by_cases hitem : item.1 = cfg
  · have hsame := (hacts.links hwf item.2).unclaimedFd_eq
      (fun fd habout => haccept fd hitem ((event.eq_of_about _ item.2).1 fd habout))
      fun count habout => hclaim count hitem ((event.eq_of_about _ item.2).2 count habout)
    rw [Deployment.unclaimedFd, Deployment.unclaimedFd, hitem]
    exact hsame
  · exact hacts.unclaimedFd_other hitem

/-- A step that is no accept and no claim of a proxy connection. -/
theorem Shared.unclaimedFd_eq {inTunnel : Option Event} {shown : List (Config × Splice)}
    (hshared : Shared d inTunnel shown d') (hwf : ∀ cfg, WellFormed cfg (d.view cfg))
    (haccept : ∀ id fd, inTunnel ≠ some (.newProxyConn id fd))
    (hread : ∀ id count, inTunnel ≠ some (.serverProxyRead id count)) (item : Config × RandStr) :
    d'.unclaimedFd item = d.unclaimedFd item := by
  cases hshared with
  | none hviews hshown => rw [Deployment.unclaimedFd, hviews item.1, Deployment.unclaimedFd]
  | one cfg event hevent hacts hshown =>
      subst hevent
      apply hacts.unclaimedFd_eq (hwf cfg)
      · rintro fd - rfl
        exact haccept item.2 fd rfl
      · rintro count - rfl
        exact absurd rfl (hread item.2 count)

/-- A read of a proxy connection is a claim, or leaves the buckets alone. -/
theorem Deployment.unclaimed_of_serverProxyRead (hcontrols : Controls d)
    (hinv : LinkInv cfg id ((d.view cfg).view id)) {count : Nat}
    (hread : d.serverProxyRead cfg id count = some d') :
    (((d.tunnel cfg).link id).awaited = none ∧ d'.unclaimed = d.unclaimed) ∨
      Claimable cfg id ((d.tunnel cfg).link id) ∧
        d'.unclaimed = (d.eraseUnclaimed ((d.tunnel cfg).link id).server.proxy.fd).unclaimed := by
  cases hawaited : ((d.tunnel cfg).link id).awaited with
  | none =>
      rw [serverProxyRead, hawaited] at hread
      exact Or.inl ⟨rfl, (tunnelStep_accepted hread).2⟩
  | some found =>
      obtain ⟨named, tun, proxyId, rest⟩ := found
      obtain ⟨-, -, heq⟩ := serverProxyRead_of_awaited hcontrols hinv hawaited count
      rw [heq] at hread
      obtain ⟨claimed, -, rfl⟩ := Option.map_eq_some_iff.mp hread
      exact Or.inr ⟨(hinv.of_awaited hawaited).1, rfl⟩

/-- A connection that has been accepted goes into its bucket. -/
theorem Shelved.newProxyConn (hshelved : Shelved d) {acceptFd : Fd} (hfresh : d.Fresh acceptFd)
    (hacts : Acts d cfg (.newProxyConn id acceptFd) d')
    (hbuckets : d'.unclaimed = (d.addUnclaimed cfg id acceptFd).unclaimed) :
    Bucketed unclaimedIndex d'.unclaimed d'.unclaimedFd := by
  have hwf := (hshelved.reachable cfg).wellFormed
  have hstep := hacts.links hwf id
  rw [Event.about, if_pos rfl] at hstep
  have hplaced : d.unclaimedFd (cfg, id) = none ∧ d'.unclaimedFd (cfg, id) = some acceptFd := by
    have hinv := hwf.inv id
    unfold Deployment.unclaimedFd
    rw [← view_link, ← view_link]
    generalize (d'.view cfg).view id = v', (d.view cfg).view id = v at hstep hinv ⊢
    cases hstep with
    | accept _ hcreated haccepted =>
        have hclaimed : v.link.claimed = false := hinv.claimed_of_not_accepted haccepted
        simp [Link.unclaimedFd, View.accept, haccepted, hclaimed]
  rw [hbuckets]
  apply hshelved.bucketed.insert hplaced.1
  · intro other hother
    have hmem := ((hshelved.reachable other.1).wellFormed).mem_of_unclaimedFd hother
    exact hfresh.2.2 (hshelved.within other.1 acceptFd hmem)
  · exact hplaced.2
  · intro other hother
    apply hacts.unclaimedFd_eq hwf
    · intro fd hcfg hevent
      exact hother (Prod.ext hcfg (Event.newProxyConn.inj hevent).1.symm)
    · rintro count - hevent
      cases hevent

/-- A claim takes one connection out. -/
theorem Acts.unclaimedFd_of_claim {count : Nat} (hacts : Acts d cfg (.serverProxyRead id count) d')
    (hwf : WellFormed cfg (d.view cfg)) (hclaimable : Claimable cfg id ((d.tunnel cfg).link id)) :
    d'.unclaimedFd (cfg, id) = none ∧
      ∀ other, other ≠ (cfg, id) → d'.unclaimedFd other = d.unclaimedFd other := by
  have hstep := hacts.links hwf id
  rw [Event.about, if_pos rfl] at hstep
  refine ⟨hstep.unclaimedFd_of_claim hclaimable.isStart, fun other hother => ?_⟩
  apply hacts.unclaimedFd_eq hwf
  · rintro fd - hevent
    cases hevent
  · intro total hcfg hevent
    exact absurd (Prod.ext hcfg (Event.serverProxyRead.inj hevent).1.symm) hother

/-- A connection that is claimed leaves its bucket. -/
theorem Shelved.claim (hshelved : Shelved d) {count : Nat}
    (hacts : Acts d cfg (.serverProxyRead id count) d')
    (hclaimable : Claimable cfg id ((d.tunnel cfg).link id))
    (hbuckets : d'.unclaimed =
      (d.eraseUnclaimed ((d.tunnel cfg).link id).server.proxy.fd).unclaimed) :
    Bucketed unclaimedIndex d'.unclaimed d'.unclaimedFd := by
  have hplaced : d.unclaimedFd (cfg, id) = some ((d.tunnel cfg).link id).server.proxy.fd :=
    if_pos ⟨hclaimable.accepted, fun hclaimed =>
      Bool.false_ne_true (hclaimable.claimed.symm.trans hclaimed)⟩
  obtain ⟨hself, hothers⟩ :=
    hacts.unclaimedFd_of_claim (hshelved.reachable cfg).wellFormed hclaimable
  rw [hbuckets]
  exact hshelved.bucketed.erase hplaced hself hothers

/-- The buckets are kept by every step. -/
theorem Shelved.step (hshelved : Shelved d) {event : DeploymentEvent}
    (hstep : d.step event = some d') : Shelved d' := by
  have hdeployed := hshelved.toDeployed
  have hwf (cfg : Config) : WellFormed cfg (d.view cfg) := (hdeployed.reachable cfg).wellFormed
  have hshared := (step_shared hdeployed hstep).2
  refine ⟨hdeployed.step hstep, hshelved.toApart.step hdeployed hstep, ?_⟩
  have hkept (hsame : d'.unclaimed = d.unclaimed)
      (haccept : ∀ id fd, event.inTunnel ≠ some (.newProxyConn id fd))
      (hread : ∀ id count, event.inTunnel ≠ some (.serverProxyRead id count)) :
      Bucketed unclaimedIndex d'.unclaimed d'.unclaimedFd := by
    rw [hsame]
    exact hshelved.bucketed.congr (hshared.unclaimedFd_eq hwf haccept hread)
  cases event with
  | newCtlConn acceptFd ctlId =>
      obtain ⟨-, hconn⟩ := Option.ite_none_right_eq_some.mp hstep
      obtain ⟨-, hsome⟩ := Option.ite_none_left_eq_some.mp hconn
      obtain rfl := Option.some.inj hsome
      exact hkept rfl nofun nofun
  | serverCtlRead ctlId tunId =>
      exact hkept (Deployment.serverCtlRead_accepted hstep).2 nofun nofun
  | clientCtlRead ctlId id proxyFd localFd =>
      exact hkept (Deployment.clientCtlRead_accepted hstep).2 nofun nofun
  | newPublicConn cfg acceptFd =>
      obtain ⟨-, haccept⟩ := Option.ite_none_right_eq_some.mp hstep
      obtain ⟨next, hnext, rfl⟩ := Option.map_eq_some_iff.mp haccept
      exact hkept (Deployment.tunnelStep_accepted hnext).2 nofun nofun
  | newProxyConn cfg id acceptFd =>
      obtain ⟨hfresh, haccept⟩ := Option.ite_none_right_eq_some.mp hstep
      obtain ⟨next, hnext, rfl⟩ := Option.map_eq_some_iff.mp haccept
      have hacts := (tunnelStep_acts hdeployed.toControls (Or.inl (by simp)) (by simp) hnext).2
      have hadded : Acts d cfg (.newProxyConn id acceptFd) (next.addUnclaimed cfg id acceptFd) :=
        { hacts with }
      apply hshelved.newProxyConn hfresh hadded
      have hsame := (Deployment.tunnelStep_accepted hnext).2
      rw [Deployment.addUnclaimed, Deployment.addUnclaimed, hsame]
  | serverProxyRead cfg id count =>
      have hinv := (hwf cfg).inv id
      have hacts := (serverProxyRead_acts hdeployed.toControls hinv hstep).2
      rcases Deployment.unclaimed_of_serverProxyRead hdeployed.toControls hinv hstep with
        ⟨hnone, hsame⟩ | ⟨hclaimable, hsame⟩
      · rw [hsame]
        apply hshelved.bucketed.congr
        intro item
        apply hacts.unclaimedFd_eq (hwf cfg)
        · rintro fd - hevent
          cases hevent
        · rintro total - hevent
          rw [← (Event.serverProxyRead.inj hevent).1]
          exact hnone
      · exact hshelved.claim hacts hclaimable hsame
  | publicRead | clientProxyRead | localRead =>
      exact hkept (Deployment.tunnelStep_accepted hstep).2 nofun nofun

theorem shelved_run {events : List DeploymentEvent}
    (hrun : run Deployment.step {} events = some d) : Shelved d :=
  run_invariant (fun _ _ _ hshelved hstep => hshelved.step hstep) shelved_init hrun

theorem exists_tunnelClaim (s : System) (id : RandStr) (hwaiting : s.undealPublicFds ≠ []) :
    ∃ claimed, Server.tunnelClaimProxyConn s id = some claimed := by
  unfold Server.tunnelClaimProxyConn
  dsimp only
  split
  · next hnone => exact absurd (List.getLast?_eq_none_iff.mp hnone) hwaiting
  · exact ⟨_, rfl⟩

/-- A ProxyMetaSet finds a public connection of its tunnel. -/
theorem exists_claim (hdeployed : Deployed d) {named tun proxyId : Str} {rest : List UInt8}
    (hawaited : ((d.tunnel cfg).link id).awaited = some (named, tun, proxyId, rest)) (count : Nat) :
    ∃ claimed, step cfg (d.tunnel cfg) (.serverProxyRead id count) = some claimed := by
  have hmatching := (hdeployed.reachable cfg).matching
  obtain ⟨hclaimable, hnamed, htun, -⟩ := (hmatching.wellFormed.inv id).of_awaited hawaited
  obtain ⟨-, hmeta⟩ := Option.ite_none_right_eq_some.mp hawaited
  have hwaiting : (d.tunnel cfg).undealPublicFds ≠ [] := by
    unfold Link.metaSet at hmeta
    split at hmeta
    · next type body more hread =>
        split at hmeta
        · next ctl tunnel proxy hdecode =>
            exact hmatching.undeal_ne_nil hclaimable.accepted hclaimable.isStart hread hdecode
        · cases hmeta
    · cases hmeta
  rw [step_of_awaited hawaited, Server.claimProxyConn, if_neg (not_not_intro hnamed),
    if_neg (not_not_intro htun)]
  obtain ⟨claimed, hclaimed⟩ := exists_tunnelClaim (((d.tunnel cfg).mapLink id fun link =>
    link.parseAtServer (.parsed (.proxyMetaSet named tun proxyId)) rest).mapLink id fun link =>
      link.mapServer fun conn => { conn with proxyId := proxyId }) id hwaiting
  exact ⟨_, Option.map_eq_some_iff.mpr ⟨claimed, hclaimed, rfl⟩⟩

/-- The buckets of the server hold the proxy connections of all tunnels that are accepted and
not claimed, each under its own descriptor. A connection that is read for its ProxyMetaSet is
claimed by the tunnel of its client, and the other connections stay in their buckets. -/
theorem proxyConns_claimed_by_own_tunnel {events : List DeploymentEvent}
    (hrun : run Deployment.step {} events = some d) :
    (∀ bucket fd cfg id, (d.unclaimed bucket).lookup fd = some (cfg, id) ↔
      bucket = unclaimedIndex fd ∧ ((d.tunnel cfg).link id).accepted = true ∧
        ((d.tunnel cfg).link id).claimed = false ∧
        ((d.tunnel cfg).link id).server.proxy.fd = fd) ∧
    ∀ cfg id named tun proxyId rest,
      ((d.tunnel cfg).link id).awaited = some (named, tun, proxyId, rest) →
      d.claimant named tun = some cfg ∧ proxyId = id.chars ∧
      ∀ count, ∃ d', d.step (.serverProxyRead cfg id count) = some d' ∧
        ∀ bucket fd item, (d'.unclaimed bucket).lookup fd = some item ↔
          (d.unclaimed bucket).lookup fd = some item ∧ item ≠ (cfg, id) := by
  have hshelved := shelved_run hrun
  have hdeployed := hshelved.toDeployed
  constructor
  · intro bucket fd cfg id
    rw [hshelved.bucketed bucket fd (cfg, id)]
    apply and_congr_right
    rintro -
    change ((d.tunnel cfg).link id).unclaimedFd = some fd ↔ _
    simp [Link.unclaimedFd, and_assoc]
  · intro cfg id named tun proxyId rest hawaited
    have hwf := (hdeployed.reachable cfg).wellFormed
    have hmeta := (hwf.inv id).of_awaited hawaited
    have hread (count : Nat) :=
      serverProxyRead_of_awaited hdeployed.toControls (hwf.inv id) hawaited count
    refine ⟨(hread 0).2.1, hmeta.2.2.2, fun count => ?_⟩
    obtain ⟨claimed, hclaimed⟩ := exists_claim hdeployed hawaited count
    have hstep : d.step (.serverProxyRead cfg id count) =
        some ((d.eraseUnclaimed ((d.tunnel cfg).link id).server.proxy.fd).put cfg claimed) := by
      change d.serverProxyRead cfg id count = _
      rw [(hread count).2.2, hclaimed, Option.map_some]
    refine ⟨_, hstep, fun bucket fd item => ?_⟩
    have hacts := (serverProxyRead_acts hdeployed.toControls (hwf.inv id) hstep).2
    obtain ⟨hself, hothers⟩ := hacts.unclaimedFd_of_claim hwf hmeta.1
    rw [(hshelved.step hstep).bucketed bucket fd item, hshelved.bucketed bucket fd item]
    by_cases hitem : item = (cfg, id)
    · rw [hitem, hself]
      simp
    · rw [hothers item hitem]
      simp [hitem]

/-- A client with one name for itself and its tunnel. -/
def sampleConnect (acceptFd : Fd) (id : RandStr) : List DeploymentEvent :=
  [.newCtlConn acceptFd id, .serverCtlRead id id, .clientCtlRead id id 1 1, .serverCtlRead id id,
    .clientCtlRead id id 1 1]

def otherClientId : RandStr := ⟨[72, 73, 74, 75, 76], rfl, List.all_eq_true.mp rfl⟩

def otherClient : Config := ⟨otherClientId, otherClientId⟩

/-- Two clients that draw the same identifier for their proxy connections. -/
def sampleClients : List DeploymentEvent :=
  sampleConnect 3 sampleId ++ sampleConnect 4 otherClientId ++
    [.newPublicConn sampleConfig 5, .newPublicConn otherClient 6,
      .clientCtlRead sampleId sampleId 10 11, .clientCtlRead otherClientId sampleId 12 13,
      .newProxyConn sampleConfig sampleId 7, .newProxyConn otherClient sampleId 8]

/-- The sample clients and their server after the listed events. -/
def deploymentAfter (events : List DeploymentEvent) : Deployment :=
  (run Deployment.step {} events).getD {}

theorem deploymentAfter_eq_some (events : List DeploymentEvent)
    (hrun : (run Deployment.step {} events).isSome = true) :
    run Deployment.step {} events = some (deploymentAfter events) := by
  obtain ⟨final, hfinal⟩ := Option.isSome_iff_exists.mp hrun
  rw [deploymentAfter, hfinal, Option.getD_some]

/-- Both connections wait, and the second client's one is claimed first. -/
theorem proxyConns_claimed_by_own_tunnel_sample :
    ∃ d',
      (deploymentAfter sampleClients).step (.serverProxyRead otherClient sampleId 1) = some d' ∧
      (d'.unclaimed (unclaimedIndex 7)).lookup 7 = some (sampleConfig, sampleId) := by
  have hclaimed := (proxyConns_claimed_by_own_tunnel
    (deploymentAfter_eq_some sampleClients (by decide +kernel))).2 otherClient sampleId
      otherClientId.chars otherClientId.chars sampleId.chars [] (by decide +kernel)
  obtain ⟨d', hstep, hbuckets⟩ := hclaimed.2.2 1
  have hfirst : ((deploymentAfter sampleClients).unclaimed (unclaimedIndex 7)).lookup 7 =
      some (sampleConfig, sampleId) := by decide +kernel
  exact ⟨d', hstep, (hbuckets _ 7 _).mpr ⟨hfirst, by decide⟩⟩

end CProxy
