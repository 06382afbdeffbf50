import CProxy.Deployment.Handlers

/-! # How a client gets its tunnel

A control connection goes through the same four messages whatever else happens: a client
asks for its `ctl_id`, then for a tunnel, and is told of both. From the answer on, the
messages of its one tunnel are all there is on the connection, behind the answer.
-/

namespace CProxy

open Foundation Wire

/-- A `tunnel_map_` with one tunnel. -/
def onlyTunnel (tunId : RandStr) : ConnMap Str := emplace ∅ tunId.chars tunId

theorem onlyTunnel_eq (tunId : RandStr) :
    onlyTunnel tunId = (∅ : ConnMap Str).insert tunId.chars tunId :=
  emplace_of_notMem (AList.notMem_empty _) tunId

theorem mem_onlyTunnel {name : Str} {tunId : RandStr} :
    name ∈ onlyTunnel tunId ↔ name = tunId.chars := by
  rw [onlyTunnel_eq, AList.mem_insert]
  constructor
  · rintro (hname | hnone)
    · exact hname
    · exact absurd hnone (AList.notMem_empty name)
  · exact Or.inl

@[simp] theorem lookup_onlyTunnel_self (tunId : RandStr) :
    (onlyTunnel tunId).lookup tunId.chars = some tunId := by
  rw [onlyTunnel_eq, AList.lookup_insert]

/-- The connection of a client that has a tunnel, with the messages about it. The client
may still have to read the answer. -/
structure Serving (ctlId tunId : RandStr) (conn : ControlConn) (up down : List CtlMsg) :
    Prop where
  tunnelMap : conn.tunnelMap = onlyTunnel tunId
  clientId : conn.clientId = some ctlId
  toServer : conn.toServer = up.map (.about tunId)
  toClient : (conn.clientTunnelMap = ∅ ∧
      conn.toClient = .newTunnelRsp tunId :: down.map (.about tunId)) ∨
    (conn.clientTunnelMap = onlyTunnel tunId ∧ conn.toClient = down.map (.about tunId))

/-- How far a control connection is. -/
inductive Stage (ctlId : RandStr) (conn : ControlConn) : Prop
  | asking (hconn : conn = { toServer := [.newCtlReq] })
  | named (hconn : conn = { toClient := [.newCtlRsp ctlId] })
  | requesting (hconn : conn = { clientId := some ctlId, toServer := [.newTunnelReq] })
  | serving (tunId : RandStr) (up down : List CtlMsg)
      (hserving : Serving ctlId tunId conn up down)

/-- Both ends know the tunnel. -/
def ControlConn.Open (conn : ControlConn) (tunId : RandStr) : Prop :=
  tunId.chars ∈ conn.clientTunnelMap

instance (conn : ControlConn) (tunId : RandStr) : Decidable (conn.Open tunId) :=
  inferInstanceAs (Decidable (tunId.chars ∈ conn.clientTunnelMap))

variable {ctlId tunId : RandStr} {conn : ControlConn} {up down : List CtlMsg}

/-- The messages of a tunnel go to the end. -/
theorem Serving.send (hserving : Serving ctlId tunId conn up down) (moreUp moreDown : List CtlMsg) :
    Serving ctlId tunId { conn with
      toServer := conn.toServer ++ moreUp.map (ConnMsg.about tunId)
      toClient := conn.toClient ++ moreDown.map (ConnMsg.about tunId) }
      (up ++ moreUp) (down ++ moreDown) where
  tunnelMap := hserving.tunnelMap
  clientId := hserving.clientId
  toServer := by rw [hserving.toServer, List.map_append]
  toClient := by
    rcases hserving.toClient with ⟨hmap, hmsgs⟩ | ⟨hmap, hmsgs⟩
    · exact Or.inl ⟨hmap, by rw [hmsgs, List.map_append, List.cons_append]⟩
    · exact Or.inr ⟨hmap, by rw [hmsgs, List.map_append]⟩

/-! ## What a tunnel has of the connection -/

def ConnMsg.forTunnel (tunId : RandStr) : ConnMsg → Option CtlMsg
  | .about named msg => if named = tunId then some msg else none
  | _ => none

/-- The messages about one tunnel. -/
def aboutOf (tunId : RandStr) (msgs : List ConnMsg) : List CtlMsg :=
  msgs.filterMap (ConnMsg.forTunnel tunId)

@[simp] theorem aboutOf_append (tunId : RandStr) (first second : List ConnMsg) :
    aboutOf tunId (first ++ second) = aboutOf tunId first ++ aboutOf tunId second :=
  List.filterMap_append

@[simp] theorem aboutOf_newCtlReq (tunId : RandStr) (rest : List ConnMsg) :
    aboutOf tunId (.newCtlReq :: rest) = aboutOf tunId rest := rfl

@[simp] theorem aboutOf_newTunnelRsp (tunId named : RandStr) (rest : List ConnMsg) :
    aboutOf tunId (.newTunnelRsp named :: rest) = aboutOf tunId rest := rfl

@[simp] theorem aboutOf_map_self (tunId : RandStr) (msgs : List CtlMsg) :
    aboutOf tunId (msgs.map (.about tunId)) = msgs := by
  induction msgs with
  | nil => rfl
  | cons msg rest ih =>
      have hmsg : ConnMsg.forTunnel tunId (.about tunId msg) = some msg := if_pos rfl
      rw [List.map_cons, aboutOf, List.filterMap_cons_some hmsg]
      exact congrArg (msg :: ·) ih

theorem aboutOf_map_other {other : RandStr} (hother : other ≠ tunId) (msgs : List CtlMsg) :
    aboutOf tunId (msgs.map (.about other)) = [] := by
  induction msgs with
  | nil => rfl
  | cons msg rest ih =>
      have hmsg : ConnMsg.forTunnel tunId (.about other msg) = none := if_neg hother
      rw [List.map_cons, aboutOf, List.filterMap_cons_none hmsg]
      exact ih

namespace Serving

theorem aboutOf_toServer (hserving : Serving ctlId tunId conn up down) :
    aboutOf tunId conn.toServer = up := by
  rw [hserving.toServer, aboutOf_map_self]

theorem aboutOf_toClient (hserving : Serving ctlId tunId conn up down) :
    aboutOf tunId conn.toClient = down := by
  rcases hserving.toClient with ⟨-, hmsgs⟩ | ⟨-, hmsgs⟩
  · rw [hmsgs, aboutOf_newTunnelRsp, aboutOf_map_self]
  · rw [hmsgs, aboutOf_map_self]

end Serving

/-- Nothing is under way about a tunnel that is not there. -/
theorem Stage.aboutOf_of_notMem (hstage : Stage ctlId conn) (hnone : tunId.chars ∉ conn.tunnelMap) :
    aboutOf tunId conn.toServer = [] ∧ aboutOf tunId conn.toClient = [] := by
  cases hstage with
  | asking hconn => rw [hconn]; exact ⟨rfl, rfl⟩
  | named hconn => rw [hconn]; exact ⟨rfl, rfl⟩
  | requesting hconn => rw [hconn]; exact ⟨rfl, rfl⟩
  | serving found up down hserving =>
      have hother : found ≠ tunId := by
        rintro rfl
        rw [hserving.tunnelMap] at hnone
        exact hnone (mem_onlyTunnel.mpr rfl)
      constructor
      · rw [hserving.toServer, aboutOf_map_other hother]
      · rcases hserving.toClient with ⟨-, hmsgs⟩ | ⟨-, hmsgs⟩
        · rw [hmsgs, aboutOf_newTunnelRsp, aboutOf_map_other hother]
        · rw [hmsgs, aboutOf_map_other hother]

/-- A connection with a tunnel is at its last stage. -/
theorem Stage.serving_of_mem (hstage : Stage ctlId conn) (hmem : tunId.chars ∈ conn.tunnelMap) :
    ∃ up down, Serving ctlId tunId conn up down := by
  cases hstage with
  | asking hconn => rw [hconn] at hmem; exact absurd hmem (AList.notMem_empty _)
  | named hconn => rw [hconn] at hmem; exact absurd hmem (AList.notMem_empty _)
  | requesting hconn => rw [hconn] at hmem; exact absurd hmem (AList.notMem_empty _)
  | serving found up down hserving =>
      rw [hserving.tunnelMap] at hmem
      obtain rfl := RandStr.chars_injective (mem_onlyTunnel.mp hmem)
      exact ⟨up, down, hserving⟩

namespace Deployment

variable {d d' : Deployment} {cfg other : Config}

/-- The state of a tunnel, with the messages that are under way about it. -/
def view (d : Deployment) (cfg : Config) : System :=
  (d.tunnel cfg).behind (aboutOf cfg.tunId (d.control cfg.ctlId).toServer)
    (aboutOf cfg.tunId (d.control cfg.ctlId).toClient)

@[simp] theorem mapControl_tunnel (ctlId : RandStr) (update : ControlConn → ControlConn) :
    (d.mapControl ctlId update).tunnel = d.tunnel := rfl

@[simp] theorem mapControl_self (ctlId : RandStr) (update : ControlConn → ControlConn) :
    (d.mapControl ctlId update).control ctlId = update (d.control ctlId) :=
  Function.update_self ctlId _ _

theorem mapControl_other {ctlId found : RandStr} (hfound : found ≠ ctlId)
    (update : ControlConn → ControlConn) :
    (d.mapControl ctlId update).control found = d.control found :=
  Function.update_of_ne hfound _ _

@[simp] theorem put_control_self (s : System) :
    (d.put cfg s).control cfg.ctlId = { d.control cfg.ctlId with
      toServer := (d.control cfg.ctlId).toServer ++ s.ctlToServer.map (ConnMsg.about cfg.tunId)
      toClient := (d.control cfg.ctlId).toClient ++ s.ctlToClient.map (ConnMsg.about cfg.tunId) } :=
  mapControl_self _ _

@[simp] theorem put_tunnel_self (s : System) : (d.put cfg s).tunnel cfg = s.quiet :=
  Function.update_self cfg _ _

theorem put_tunnel_other (hother : other ≠ cfg) (s : System) :
    (d.put cfg s).tunnel other = d.tunnel other :=
  Function.update_of_ne hother _ _

/-- The messages that a handler sends are behind those under way. -/
theorem view_put (s : System) :
    (d.put cfg s).view cfg =
      s.behind (aboutOf cfg.tunId (d.control cfg.ctlId).toServer)
        (aboutOf cfg.tunId (d.control cfg.ctlId).toClient) := by
  rw [view, put_control_self, put_tunnel_self]
  simp [System.behind, System.quiet]

/-- Another tunnel does not notice. -/
theorem view_put_other (hother : other ≠ cfg) (s : System) :
    (d.put cfg s).view other = d.view other := by
  rw [view, put_tunnel_other hother]
  by_cases hctl : other.ctlId = cfg.ctlId
  · have htun : cfg.tunId ≠ other.tunId := by
      intro hsame
      apply hother
      cases other
      cases cfg
      cases hctl
      cases hsame
      rfl
    rw [hctl, put_control_self]
    dsimp only
    rw [aboutOf_append, aboutOf_append, aboutOf_map_other htun, aboutOf_map_other htun,
      List.append_nil, List.append_nil, view, hctl]
  · have hsame : (d.put cfg s).control other.ctlId = d.control other.ctlId :=
      mapControl_other hctl _
    rw [hsame, view]

/-- A change of a connection that keeps the messages about a tunnel. -/
theorem view_mapControl {ctlId : RandStr} {update : ControlConn → ControlConn}
    (hserver : cfg.ctlId = ctlId →
      aboutOf cfg.tunId (update (d.control ctlId)).toServer =
        aboutOf cfg.tunId (d.control ctlId).toServer)
    (hclient : cfg.ctlId = ctlId →
      aboutOf cfg.tunId (update (d.control ctlId)).toClient =
        aboutOf cfg.tunId (d.control ctlId).toClient) :
    (d.mapControl ctlId update).view cfg = d.view cfg := by
  by_cases hctl : cfg.ctlId = ctlId
  · rw [view, mapControl_tunnel, hctl, mapControl_self, hserver hctl, hclient hctl, view, hctl]
  · rw [view, mapControl_tunnel, mapControl_other hctl, view]

end Deployment

end CProxy
