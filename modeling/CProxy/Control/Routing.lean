import CProxy.Control.Ownership
import CProxy.Foundation.Issued

/-! # Where identifiers lead

Three kinds of identifiers are drawn with `rand_str`: a `ctl_id` and a `proxy_id` again
and again until one is not in use, a `tun_id` once. The server's maps are those of the
`Control`s; each control connection has its client, which reads the NewTunnelRsp in their
order and puts its own tunnels and proxy connections into maps.
-/

namespace CProxy

open Foundation Wire

/-- A loop that draws until the string is not in use, with the results of `rand_str`. -/
def drawUnused (used : RandStr → Bool) : List RandStr → Option RandStr
  | [] => none
  | id :: rest => if used id then drawUnused used rest else some id

/-- The client's `Tunnel`. Its proxy connections are named by the order in which they are
created, and `proxyIds` has their `proxy_id_`s. -/
structure RouteTunnel where
  tunId : RandStr
  proxyServerPort : Nat
  proxyIds : List RandStr := []
  proxyConnMap : AList (fun _ : RandStr => Nat) := ∅

/-- A NewTunnelRsp that has been sent: the tunnel and its `listen_port_`. -/
structure Announcement where
  tunId : RandStr
  place : Nat
  port : Nat

/-- A control connection and its client. `incoming` are the messages on their way;
`announced` is history. -/
structure CtlRoute where
  announced : List Announcement := []
  incoming : List (RandStr × Nat) := []
  tunnels : List RouteTunnel := []
  tunnelMap : AList (fun _ : RandStr => Nat) := ∅

/-- `routes` goes with the `Control`s, `ports` with the server's tunnels. -/
structure Routing where
  owners : Owners := {}
  ports : List Nat := []
  routes : List CtlRoute := []

inductive RoutingEvent where
  | newCtlConn (draws : List RandStr)
  /-- The kernel picks a port that no listener has. -/
  | newTunnelReq (index : Nat) (tunId : RandStr) (port : Nat)
  | ctlConnClose (index : Nat)
  | newTunnelRsp (index : Nat)
  | newProxyConn (index : Nat) (tunId : RandStr) (draws : List RandStr)

/-- `Client::handleNewTunnelRsp`. -/
def CtlRoute.handleNewTunnelRsp (route : CtlRoute) : Option CtlRoute :=
  match route.incoming with
  | [] => none
  | (tunId, port) :: rest => some { route with
      incoming := rest
      tunnels := route.tunnels ++ [{ tunId := tunId, proxyServerPort := port }]
      tunnelMap := emplace route.tunnelMap tunId route.tunnels.length }

/-- `getValidProxyID` and the `add` that follows it. -/
def RouteTunnel.newProxyConn (tun : RouteTunnel) (draws : List RandStr) : Option RouteTunnel :=
  (drawUnused (fun id => decide (id ∈ tun.proxyConnMap)) draws).map fun proxyId => { tun with
    proxyIds := tun.proxyIds ++ [proxyId]
    proxyConnMap := emplace tun.proxyConnMap proxyId tun.proxyIds.length }

/-- `Client::handleProxyNotify` for a `tun_id` that is in `tunnel_map_`, up to the `add`. -/
def CtlRoute.handleProxyNotify (route : CtlRoute) (tunId : RandStr) (draws : List RandStr) :
    Option CtlRoute := do
  let place ← route.tunnelMap.lookup tunId
  let tun ← route.tunnels[place]?
  let tun ← tun.newProxyConn draws
  some { route with tunnels := route.tunnels.set place tun }

namespace Routing

def mapRoute (s : Routing) (index : Nat) (update : CtlRoute → Option CtlRoute) : Option Routing :=
  s.routes[index]?.bind fun route =>
    (update route).map fun route => { s with routes := s.routes.set index route }

def newCtlConnHandler (s : Routing) (draws : List RandStr) : Option Routing := do
  let ctlId ← drawUnused (fun id => decide (id.chars ∈ s.owners.controlMap)) draws
  let owners ← s.owners.newCtlConnHandler ctlId.chars
  some { s with owners := owners, routes := s.routes ++ [{}] }

def handleNewTunnelReq (s : Routing) (index : Nat) (tunId : RandStr) (port : Nat) :
    Option Routing :=
  if port ∈ s.ports then none
  else do
    let owners ← s.owners.handleNewTunnelReq index tunId.chars
    let created : Routing := { s with owners := owners, ports := s.ports ++ [port] }
    created.mapRoute index fun route => some { route with
      announced := route.announced ++ [⟨tunId, s.ports.length, port⟩]
      incoming := route.incoming ++ [(tunId, port)] }

def step (s : Routing) : RoutingEvent → Option Routing
  | .newCtlConn draws => s.newCtlConnHandler draws
  | .newTunnelReq index tunId port => s.handleNewTunnelReq index tunId port
  | .ctlConnClose index =>
      (s.owners.handleCtlConnClose index).map fun owners => { s with owners := owners }
  | .newTunnelRsp index => s.mapRoute index CtlRoute.handleNewTunnelRsp
  | .newProxyConn index tunId draws =>
      s.mapRoute index fun route => route.handleProxyNotify tunId draws

/-! ## What is claimed, and when it holds -/

/-- The listener's acceptor is in the poller. -/
def Live (s : Routing) (announcement : Announcement) : Prop := announcement.place ∈ s.owners.polled

instance (s : Routing) : DecidablePred s.Live := fun announcement =>
  inferInstanceAs (Decidable (announcement.place ∈ s.owners.polled))

/-- The `ctl_id`s differ, and so do the announced `tun_id`s of live listeners. The server's
map has the tunnel whose port was announced, and so has the client's once the message is
read. A `proxy_id` leads to the connection it was drawn for. -/
structure Routed (s : Routing) : Prop where
  ctlIds : ∀ first second ctl ctl', s.owners.Present first → s.owners.Present second →
    s.owners.controls[first]? = some ctl → s.owners.controls[second]? = some ctl' →
    ctl.ctlId = ctl'.ctlId → first = second
  tunIds : ∀ route ∈ s.routes, ((route.announced.filter s.Live).map Announcement.tunId).Nodup
  server : ∀ (index : Nat) (ctl : ControlObj) (route : CtlRoute),
    s.owners.controls[index]? = some ctl → s.routes[index]? = some route →
    ∀ announcement ∈ route.announced,
      ctl.tunnelMap.lookup announcement.tunId.chars = some announcement.place ∧
        s.ports[announcement.place]? = some announcement.port
  client : ∀ route ∈ s.routes, ∀ announcement ∈ route.announced,
    (announcement.tunId, announcement.port) ∉ route.incoming → ∃ place tun,
      route.tunnelMap.lookup announcement.tunId = some place ∧
        route.tunnels[place]? = some tun ∧ tun.proxyServerPort = announcement.port
  proxyIds : ∀ route ∈ s.routes, ∀ tun ∈ route.tunnels, ∀ place proxyId,
    tun.proxyIds[place]? = some proxyId → tun.proxyConnMap.lookup proxyId = some place

/-- A `tun_id` that is drawn is not in the `Control`'s `tunnel_map_`. -/
def FreshTunId (s : Routing) : RoutingEvent → Prop
  | .newTunnelReq index tunId _ => ∀ ctl, s.owners.controls[index]? = some ctl →
      tunId.chars ∉ ctl.tunnelMap
  | _ => True

/-! ## What holds of one control connection -/

/-- What the maps of a control connection lead to, for the tunnels there are. -/
structure RouteInv (s : Routing) (tunnelMap : AList (fun _ : Str => Nat)) (route : CtlRoute) :
    Prop where
  server : Routes tunnelMap (route.announced.map fun a => (a.tunId.chars, a.place))
  serverCovers : Covers tunnelMap (route.announced.map fun a => (a.tunId.chars, a.place))
  ports : ∀ a ∈ route.announced, s.ports[a.place]? = some a.port
  nodup : (route.announced.map Announcement.tunId).Nodup
  /-- What has been announced has been read or is on its way. -/
  split : (route.tunnels.map fun tun => (tun.tunId, tun.proxyServerPort)) ++ route.incoming =
    route.announced.map fun a => (a.tunId, a.port)
  client : Routes route.tunnelMap (route.tunnels.map RouteTunnel.tunId).zipIdx
  clientCovers : Covers route.tunnelMap (route.tunnels.map RouteTunnel.tunId).zipIdx
  proxies : ∀ tun ∈ route.tunnels, Routes tun.proxyConnMap tun.proxyIds.zipIdx

variable {s s' : Routing} {index : Nat} {route : CtlRoute} {tunnelMap : AList (fun _ : Str => Nat)}

theorem drawUnused_notMem {used : RandStr → Bool} {draws : List RandStr} {id : RandStr}
    (hdraw : drawUnused used draws = some id) : used id = false := by
  induction draws with
  | nil => cases hdraw
  | cons head rest ih =>
      unfold drawUnused at hdraw
      split at hdraw
      · exact ih hdraw
      · next hunused =>
          obtain rfl := Option.some.inj hdraw
          simpa using hunused

theorem routeInv_init (s : Routing) : RouteInv s ∅ {} where
  server := routes_empty
  serverCovers := covers_empty
  ports := by simp
  nodup := List.nodup_nil
  split := rfl
  client := routes_empty
  clientCovers := covers_empty
  proxies := by simp

/-- More tunnels change nothing for those that are there. -/
theorem RouteInv.mono (hinv : RouteInv s tunnelMap route)
    (hports : ∀ place port : Nat, s.ports[place]? = some port → s'.ports[place]? = some port) :
    RouteInv s' tunnelMap route :=
  { hinv with ports := fun a ha => hports a.place a.port (hinv.ports a ha) }

/-- A message names a tunnel that the client does not have yet. -/
theorem RouteInv.handleNewTunnelRsp (hinv : RouteInv s tunnelMap route) {route' : CtlRoute}
    (hstep : route.handleNewTunnelRsp = some route') : RouteInv s tunnelMap route' := by
  unfold CtlRoute.handleNewTunnelRsp at hstep
  rcases hincoming : route.incoming with _ | ⟨⟨tunId, port⟩, rest⟩
  · simp [hincoming] at hstep
  · simp only [hincoming, Option.some.injEq] at hstep
    subst hstep
    have hsplit := hinv.split
    rw [hincoming] at hsplit
    have hfresh : tunId ∉ route.tunnelMap := by
      intro hmem
      obtain ⟨place, hissued⟩ := hinv.clientCovers tunId hmem
      have hread : tunId ∈ route.tunnels.map RouteTunnel.tunId :=
        (List.mem_zipIdx hissued).2.2 ▸ List.getElem_mem _
      have hnodup := hinv.nodup
      have hids := congrArg (List.map Prod.fst) hsplit
      simp only [List.map_append, List.map_map, List.map_cons] at hids
      have hboth : (route.tunnels.map RouteTunnel.tunId ++ tunId :: rest.map Prod.fst).Nodup := by
        have hsame : route.announced.map Announcement.tunId =
            route.tunnels.map RouteTunnel.tunId ++ tunId :: rest.map Prod.fst := hids.symm
        rw [← hsame]
        exact hnodup
      exact (List.nodup_append.mp hboth).2.2 tunId hread tunId List.mem_cons_self rfl
    have hnames : (route.tunnels ++ [RouteTunnel.mk tunId port [] ∅]).map RouteTunnel.tunId =
        route.tunnels.map RouteTunnel.tunId ++ [tunId] := by
      simp
    have hlength : (route.tunnels.map RouteTunnel.tunId).length = route.tunnels.length :=
      List.length_map _
    refine { hinv with split := ?_, client := ?_, clientCovers := ?_, proxies := ?_ }
    · rw [← hsplit]
      simp
    · rw [hnames, zipIdx_concat, hlength]
      exact hinv.client.emplace hfresh _
    · rw [hnames, zipIdx_concat, hlength]
      exact hinv.clientCovers.emplace _ _
    · intro tun htun
      rcases List.mem_append.mp htun with hbefore | hnew
      · exact hinv.proxies tun hbefore
      · rw [List.mem_singleton.mp hnew]
        exact routes_empty

/-- A new proxy connection takes a `proxy_id` that is not in its tunnel's map. -/
theorem newProxyConn_routes {tun tun' : RouteTunnel} {draws : List RandStr}
    (hroutes : Routes tun.proxyConnMap tun.proxyIds.zipIdx)
    (hstep : tun.newProxyConn draws = some tun') :
    Routes tun'.proxyConnMap tun'.proxyIds.zipIdx ∧ tun'.tunId = tun.tunId ∧
      tun'.proxyServerPort = tun.proxyServerPort := by
  obtain ⟨proxyId, hdraw, rfl⟩ := Option.map_eq_some_iff.mp hstep
  have hunused := of_decide_eq_false (drawUnused_notMem hdraw)
  refine ⟨?_, rfl, rfl⟩
  rw [zipIdx_concat]
  exact hroutes.emplace hunused _

theorem map_set_of_eq {α β : Type} (f : α → β) {items : List α} {place : Nat} {old new : α}
    (hold : items[place]? = some old) (hsame : f new = f old) :
    (items.set place new).map f = items.map f := by
  apply List.ext_getElem?
  intro i
  rw [List.getElem?_map, List.getElem?_map, List.getElem?_set]
  by_cases hi : place = i
  · subst hi
    obtain ⟨hplace, hget⟩ := List.getElem?_eq_some_iff.mp hold
    simp [hplace, hget, hsame]
  · rw [if_neg hi]

theorem RouteInv.handleProxyNotify (hinv : RouteInv s tunnelMap route) {tunId : RandStr}
    {draws : List RandStr} {route' : CtlRoute}
    (hstep : route.handleProxyNotify tunId draws = some route') :
    RouteInv s tunnelMap route' := by
  simp only [CtlRoute.handleProxyNotify, Option.bind_eq_bind, Option.bind_eq_some_iff,
    Option.some.injEq] at hstep
  obtain ⟨place, -, tun, htun, tun', hstep, rfl⟩ := hstep
  obtain ⟨hroutes, htunId, hport⟩ :=
    newProxyConn_routes (hinv.proxies tun (List.mem_of_getElem? htun)) hstep
  have hnames : (route.tunnels.set place tun').map RouteTunnel.tunId =
      route.tunnels.map RouteTunnel.tunId := map_set_of_eq _ htun htunId
  have hpairs : (route.tunnels.set place tun').map (fun tun => (tun.tunId, tun.proxyServerPort)) =
      route.tunnels.map fun tun => (tun.tunId, tun.proxyServerPort) :=
    map_set_of_eq _ htun (by rw [htunId, hport])
  refine { hinv with split := ?_, client := ?_, clientCovers := ?_, proxies := ?_ }
  · rw [hpairs]
    exact hinv.split
  · rw [hnames]
    exact hinv.client
  · rw [hnames]
    exact hinv.clientCovers
  · intro other hother
    rcases List.mem_or_eq_of_mem_set hother with hbefore | rfl
    · exact hinv.proxies other hbefore
    · exact hroutes

/-- A new tunnel whose `tun_id` is not in the `Control`'s map gets the name to itself. -/
theorem RouteInv.announce (hinv : RouteInv s tunnelMap route) {tunId : RandStr} {port : Nat}
    (hfresh : tunId.chars ∉ tunnelMap)
    (hports : ∀ place port : Nat, s.ports[place]? = some port → s'.ports[place]? = some port)
    (hport : s'.ports[s.ports.length]? = some port) :
    RouteInv s' (emplace tunnelMap tunId.chars s.ports.length) { route with
      announced := route.announced ++ [⟨tunId, s.ports.length, port⟩]
      incoming := route.incoming ++ [(tunId, port)] } := by
  refine { hinv with
    server := ?_, serverCovers := ?_, ports := ?_, nodup := ?_, split := ?_ }
  · rw [List.map_append]
    exact hinv.server.emplace hfresh _
  · rw [List.map_append]
    exact hinv.serverCovers.emplace _ _
  · intro a ha
    rcases List.mem_append.mp ha with hbefore | hnew
    · exact hports a.place a.port (hinv.ports a hbefore)
    · rw [List.mem_singleton.mp hnew]
      exact hport
  · rw [List.map_append, List.nodup_append]
    refine ⟨hinv.nodup, List.nodup_singleton _, ?_⟩
    rintro other hother _ hnew rfl
    obtain ⟨a, ha, hsame⟩ := List.mem_map.mp hother
    have hnew : a.tunId = tunId := hsame.trans (List.mem_singleton.mp hnew)
    have hissued : (tunId.chars, a.place) ∈ route.announced.map fun a => (a.tunId.chars, a.place) :=
      List.mem_map.mpr ⟨a, ha, by rw [hnew]⟩
    exact hfresh (hinv.server.mem hissued)
  · rw [List.map_append, ← hinv.split, List.append_assoc]
    rfl

/-! ## What the invariant gives -/

theorem RouteInv.tunnel_read (hinv : RouteInv s tunnelMap route) {a : Announcement}
    (ha : a ∈ route.announced) (hread : (a.tunId, a.port) ∉ route.incoming) : ∃ place tun,
    route.tunnelMap.lookup a.tunId = some place ∧ route.tunnels[place]? = some tun ∧
      tun.proxyServerPort = a.port := by
  have hpair : (a.tunId, a.port) ∈
      (route.tunnels.map fun tun => (tun.tunId, tun.proxyServerPort)) ++ route.incoming := by
    rw [hinv.split]
    exact List.mem_map.mpr ⟨a, ha, rfl⟩
  rcases List.mem_append.mp hpair with hthere | hcoming
  · obtain ⟨tun, htun, hsame⟩ := List.mem_map.mp hthere
    obtain ⟨htunId, hport⟩ := Prod.mk.inj hsame
    obtain ⟨place, hplace⟩ := List.mem_iff_getElem?.mp htun
    refine ⟨place, tun, ?_, hplace, hport⟩
    apply hinv.client
    rw [List.mk_mem_zipIdx_iff_getElem?, List.getElem?_map, hplace, Option.map_some, htunId]
  · exact absurd hcoming hread

/-- What every history without a repeated `tun_id` keeps. -/
structure RoutingInv (s : Routing) : Prop where
  routes : s.routes.length = s.owners.controls.length
  ports : s.ports.length = s.owners.tunnels.length
  polled : ∀ place < s.owners.tunnels.length, place ∈ s.owners.polled
  controlMap : ∀ (ctlId : Str) (index : Nat), s.owners.controlMap.lookup ctlId = some index →
    (s.owners.controls[index]?.map ControlObj.ctlId) = some ctlId
  route : ∀ (index : Nat) (ctl : ControlObj) (route : CtlRoute),
    s.owners.controls[index]? = some ctl → s.routes[index]? = some route →
    RouteInv s ctl.tunnelMap route

theorem routingInv_init : RoutingInv {} where
  routes := rfl
  ports := rfl
  polled := by simp
  controlMap := by simp
  route := by simp

theorem RoutingInv.exists_control (hinv : RoutingInv s) (hroute : s.routes[index]? = some route) :
    ∃ ctl, s.owners.controls[index]? = some ctl ∧ RouteInv s ctl.tunnelMap route := by
  have hindex : index < s.owners.controls.length := by
    rw [← hinv.routes]
    exact (List.getElem?_eq_some_iff.mp hroute).1
  have hctl : s.owners.controls[index]? = some s.owners.controls[index] :=
    List.getElem?_eq_getElem hindex
  exact ⟨_, hctl, hinv.route index _ route hctl hroute⟩

theorem RoutingInv.routed (hinv : RoutingInv s) : s.Routed where
  ctlIds := by
    rintro first second ctl ctl' ⟨name, hfirst⟩ ⟨name', hsecond⟩ hctl hctl' hsame
    have hname := hinv.controlMap name first hfirst
    have hname' := hinv.controlMap name' second hsecond
    rw [hctl, Option.map_some, Option.some.injEq] at hname
    rw [hctl', Option.map_some, Option.some.injEq] at hname'
    rw [← hname, hsame, hname', hsecond] at hfirst
    exact (Option.some.inj hfirst).symm
  tunIds := by
    intro route hroute
    obtain ⟨index, hindex⟩ := List.mem_iff_getElem?.mp hroute
    obtain ⟨ctl, -, hrouteInv⟩ := hinv.exists_control hindex
    exact hrouteInv.nodup.sublist (List.filter_sublist.map _)
  server := by
    intro index ctl route hctl hroute a ha
    have hrouteInv := hinv.route index ctl route hctl hroute
    exact ⟨hrouteInv.server _ _ (List.mem_map.mpr ⟨a, ha, rfl⟩), hrouteInv.ports a ha⟩
  client := by
    intro route hroute a ha hread
    obtain ⟨index, hindex⟩ := List.mem_iff_getElem?.mp hroute
    obtain ⟨ctl, -, hrouteInv⟩ := hinv.exists_control hindex
    exact hrouteInv.tunnel_read ha hread
  proxyIds := by
    intro route hroute tun htun place proxyId hproxy
    obtain ⟨index, hindex⟩ := List.mem_iff_getElem?.mp hroute
    obtain ⟨ctl, -, hrouteInv⟩ := hinv.exists_control hindex
    exact hrouteInv.proxies tun htun _ _ (List.mk_mem_zipIdx_iff_getElem?.mpr hproxy)

/-! ## The steps -/

theorem RoutingInv.mapRoute (hinv : RoutingInv s) {update : CtlRoute → Option CtlRoute}
    (hkeeps : ∀ tunnelMap route route', RouteInv s tunnelMap route → update route = some route' →
      RouteInv s tunnelMap route')
    (hstep : s.mapRoute index update = some s') : RoutingInv s' := by
  obtain ⟨old, hold, hstep⟩ := Option.bind_eq_some_iff.mp hstep
  obtain ⟨new, hnew, rfl⟩ := Option.map_eq_some_iff.mp hstep
  refine ⟨List.length_set.trans hinv.routes, hinv.ports, hinv.polled, hinv.controlMap, ?_⟩
  intro other ctl route hctl hroute
  have hbefore : RouteInv s ctl.tunnelMap route := by
    rw [List.getElem?_set] at hroute
    by_cases hother : index = other
    · subst hother
      rw [if_pos rfl, if_pos (List.getElem?_eq_some_iff.mp hold).1, Option.some.injEq] at hroute
      subst hroute
      exact hkeeps ctl.tunnelMap old _ (hinv.route index ctl old hctl hold) hnew
    · rw [if_neg hother] at hroute
      exact hinv.route other ctl route hctl hroute
  exact hbefore.mono fun _ _ hport => hport

theorem RoutingInv.newCtlConn (hinv : RoutingInv s) {draws : List RandStr}
    (hstep : s.newCtlConnHandler draws = some s') : RoutingInv s' := by
  simp only [newCtlConnHandler, Option.bind_eq_bind, Option.bind_eq_some_iff,
    Option.some.injEq] at hstep
  obtain ⟨ctlId, -, owners, howners, rfl⟩ := hstep
  obtain ⟨-, rfl⟩ := Owners.newCtlConnHandler_cases howners
  refine ⟨?_, hinv.ports, hinv.polled, ?_, ?_⟩
  · rw [List.length_append, List.length_append, hinv.routes]
    rfl
  · intro found index hlookup
    rcases lookup_of_emplace hlookup with hbefore | ⟨rfl, rfl⟩
    · have hname := hinv.controlMap found index hbefore
      obtain ⟨ctl, hctl, rfl⟩ := Option.map_eq_some_iff.mp hname
      rw [List.getElem?_append_left (List.getElem?_eq_some_iff.mp hctl).1, hctl]
      rfl
    · rw [List.getElem?_concat_length]
      rfl
  · intro index ctl route hctl hroute
    rcases Nat.lt_or_ge index s.owners.controls.length with hindex | hindex
    · rw [List.getElem?_append_left hindex] at hctl
      rw [List.getElem?_append_left (by rw [hinv.routes]; exact hindex)] at hroute
      exact (hinv.route index ctl route hctl hroute).mono fun _ _ hport => hport
    · rw [List.getElem?_append_right hindex, List.getElem?_singleton] at hctl
      rw [List.getElem?_append_right (by rw [hinv.routes]; exact hindex),
        List.getElem?_singleton] at hroute
      split at hctl
      · split at hroute
        · obtain rfl := Option.some.inj hctl
          obtain rfl := Option.some.inj hroute
          exact routeInv_init _
        · cases hroute
      · cases hctl

theorem handleNewTunnelReq_cases {tunId : RandStr} {port : Nat}
    (hstep : s.handleNewTunnelReq index tunId port = some s') :
    ∃ old, s.routes[index]? = some old ∧ s' = {
      owners := (s.owners.withTunnel index tunId.chars).settle
      ports := s.ports ++ [port]
      routes := s.routes.set index { old with
        announced := old.announced ++ [⟨tunId, s.ports.length, port⟩]
        incoming := old.incoming ++ [(tunId, port)] } } := by
  simp only [handleNewTunnelReq, Option.ite_none_left_eq_some, Option.bind_eq_bind,
    Option.bind_eq_some_iff] at hstep
  obtain ⟨-, owners, howners, hstep⟩ := hstep
  obtain ⟨-, -, -, rfl⟩ := Owners.handleNewTunnelReq_cases howners
  obtain ⟨old, hold, hstep⟩ := Option.bind_eq_some_iff.mp hstep
  rw [Option.map_some, Option.some.injEq] at hstep
  exact ⟨old, hold, hstep.symm⟩

theorem RoutingInv.newTunnelReq (hinv : RoutingInv s) {tunId : RandStr} {port : Nat}
    (hfresh : s.FreshTunId (.newTunnelReq index tunId port))
    (hstep : s.handleNewTunnelReq index tunId port = some s') : RoutingInv s' := by
  obtain ⟨old, hold, rfl⟩ := handleNewTunnelReq_cases hstep
  have hports (place found : Nat) (hfound : s.ports[place]? = some found) :
      (s.ports ++ [port])[place]? = some found := by
    rw [List.getElem?_append_left (List.getElem?_eq_some_iff.mp hfound).1]
    exact hfound
  refine ⟨?_, ?_, ?_, ?_, ?_⟩
  · exact List.length_set.trans (hinv.routes.trans (List.length_modify ..).symm)
  · change (s.ports ++ [port]).length = (s.owners.tunnels ++ [_]).length
    rw [List.length_append, List.length_append, hinv.ports]
    rfl
  · intro place hplace
    change place < (s.owners.tunnels ++ [_]).length at hplace
    change place ∈ s.owners.polled ++ [s.owners.tunnels.length]
    rw [List.length_append, List.length_singleton] at hplace
    rcases Nat.lt_succ_iff_lt_or_eq.mp hplace with hbefore | rfl
    · exact List.mem_append_left _ (hinv.polled place hbefore)
    · exact List.mem_append_right _ (List.mem_singleton_self _)
  · intro ctlId other hlookup
    exact (Owners.ctlId_withTunnel other).trans (hinv.controlMap ctlId other hlookup)
  · intro other ctl route hctl hroute
    change (s.owners.controls.modify index _)[other]? = some ctl at hctl
    rw [List.getElem?_modify] at hctl
    obtain ⟨before, hbefore, rfl⟩ := Option.map_eq_some_iff.mp hctl
    rw [List.getElem?_set] at hroute
    by_cases hother : index = other
    · subst hother
      rw [if_pos rfl, if_pos (List.getElem?_eq_some_iff.mp hold).1, Option.some.injEq] at hroute
      subst hroute
      let created : Routing := { s with
        owners := (s.owners.withTunnel index tunId.chars).settle
        ports := s.ports ++ [port] }
      have hkept : RouteInv created _ _ := (hinv.route index before old hbefore hold).announce
        (hfresh before hbefore) hports List.getElem?_concat_length
      simp only [if_true, ← hinv.ports]
      exact hkept.mono fun _ _ hport => hport
    · rw [if_neg hother] at hroute
      simp only [if_neg hother]
      exact (hinv.route other before route hbefore hroute).mono hports

/-- A `Control` that is erased keeps its tunnels and its client. -/
theorem RoutingInv.ctlConnClose (hinv : RoutingInv s) {owners : Owners}
    (hstep : s.owners.handleCtlConnClose index = some owners) :
    RoutingInv { s with owners := owners } := by
  obtain ⟨ctl, -, -, rfl⟩ := Owners.handleCtlConnClose_cases hstep
  refine ⟨hinv.routes, hinv.ports, hinv.polled, ?_, ?_⟩
  · intro found other hlookup
    exact hinv.controlMap found other (lookup_of_erase hlookup)
  · intro other ctl' route hctl' hroute
    exact (hinv.route other ctl' route hctl' hroute).mono fun _ _ hport => hport

theorem RoutingInv.step (hinv : RoutingInv s) {event : RoutingEvent}
    (hfresh : s.FreshTunId event) (hstep : s.step event = some s') : RoutingInv s' := by
  cases event with
  | newCtlConn draws => exact hinv.newCtlConn hstep
  | newTunnelReq index tunId port => exact hinv.newTunnelReq hfresh hstep
  | ctlConnClose index =>
      obtain ⟨owners, howners, rfl⟩ := Option.map_eq_some_iff.mp hstep
      exact hinv.ctlConnClose howners
  | newTunnelRsp index =>
      exact hinv.mapRoute (fun _ _ _ hroute hread => hroute.handleNewTunnelRsp hread) hstep
  | newProxyConn index tunId draws =>
      exact hinv.mapRoute (fun _ _ _ hroute hnotified => hroute.handleProxyNotify hnotified) hstep

/-- When a `tun_id` is drawn again, the map keeps the earlier tunnel. -/
theorem RoutingInv.not_routed (hinv : RoutingInv s) {event : RoutingEvent}
    (hstep : s.step event = some s') (hused : ¬ s.FreshTunId event) : ¬ s'.Routed := by
  cases event with
  | newCtlConn draws => exact absurd trivial hused
  | ctlConnClose index => exact absurd trivial hused
  | newTunnelRsp index => exact absurd trivial hused
  | newProxyConn index tunId draws => exact absurd trivial hused
  | newTunnelReq index tunId port =>
      simp only [FreshTunId, not_forall, not_not] at hused
      obtain ⟨ctl, hctl, hmem⟩ := hused
      obtain ⟨old, hold, rfl⟩ := handleNewTunnelReq_cases hstep
      have hroute := hinv.route index ctl old hctl hold
      obtain ⟨place, hissued⟩ := hroute.serverCovers tunId.chars hmem
      have hearlier : place < s.ports.length := by
        obtain ⟨a, ha, hsame⟩ := List.mem_map.mp hissued
        rw [← (Prod.mk.inj hsame).2]
        exact (List.getElem?_eq_some_iff.mp (hroute.ports a ha)).1
      have hlookup := hroute.server _ _ hissued
      intro hrouted
      have hindex := (List.getElem?_eq_some_iff.mp hold).1
      obtain ⟨hfound, -⟩ := hrouted.server index
        { ctl with tunnelMap := emplace ctl.tunnelMap tunId.chars s.owners.tunnels.length } _
        (by
          change (s.owners.controls.modify index _)[index]? = _
          rw [List.getElem?_modify, hctl]
          simp)
        (List.getElem?_set_self hindex) ⟨tunId, s.ports.length, port⟩
        (List.mem_append_right _ (List.mem_singleton_self _))
      rw [emplace_of_mem hmem, hlookup, Option.some.injEq] at hfound
      exact hearlier.ne hfound

/-- Identifiers lead to what they were issued for exactly in the runs in which no `tun_id` is
drawn that the `Control` has. -/
theorem routed_iff (events : List RoutingEvent) :
    Visits step Routed {} events ↔ Takes step FreshTunId {} events :=
  visits_iff_takes (fun _ _ _ hinv hfresh hstep => RoutingInv.step hinv hfresh hstep)
    (fun _ hinv => hinv.routed)
    (fun _ _ _ hinv hstep hused => hinv.not_routed hstep hused) routingInv_init events

def sampleCtlId : RandStr := ⟨[81, 82, 83, 84, 85], rfl, List.all_eq_true.mp rfl⟩

def drawnTwice : RandStr := ⟨[50, 51, 52, 53, 54], rfl, List.all_eq_true.mp rfl⟩

/-- Two tunnels of one `Control` whose `tun_id`s are the same. -/
def sampleDrawnTwice : List RoutingEvent :=
  [.newCtlConn [sampleCtlId], .newTunnelReq 0 drawnTwice 40001, .newTunnelReq 0 drawnTwice 40002,
    .newTunnelRsp 0, .newTunnelRsp 0]

/-- The `tun_id` of the second listener leads to the first tunnel, here and at the client. -/
theorem not_routed_drawn_twice :
    ¬ (∀ events, Visits step Routed {} events) ∧
      (run step {} sampleDrawnTwice).map (fun s => (s.ports, s.routes.map fun route =>
        ((route.tunnelMap.lookup drawnTwice : Option Nat),
          route.tunnels.map RouteTunnel.proxyServerPort))) =
        some ([40001, 40002], [(some 0, [40001, 40002])]) := by
  refine ⟨?_, by decide⟩
  intro hall
  have hreached : (run step {} sampleDrawnTwice).map (fun s =>
      s.routes.map fun route => (route.announced.filter s.Live).map Announcement.tunId) =
        some [[drawnTwice, drawnTwice]] := by
    decide
  obtain ⟨s, hrun, hs⟩ := Option.map_eq_some_iff.mp hreached
  have hrouted : Routed s := hall sampleDrawnTwice sampleDrawnTwice s List.prefix_rfl hrun
  obtain ⟨route, hroute, hids⟩ := List.mem_map.mp
    (show [drawnTwice, drawnTwice] ∈ s.routes.map _ from hs ▸ List.mem_singleton_self _)
  have hnodup := hrouted.tunIds route hroute
  rw [hids] at hnodup
  simp at hnodup

end Routing

end CProxy
