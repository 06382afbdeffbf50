import CProxy.Tunnel.ClientEnds
import CProxy.Tunnel.Reachable

/-! # The client's answer to a request in two steps

`Tunnel::handleStartProxyConnReq` sends its answer on a worker thread and starts
the proxy connection afterwards; the control connection is served in between. A
state in which every outstanding start has been made is a state of the tunnel
with whole handlers, and its steps are steps there.
-/

namespace CProxy

open Foundation Wire

/-- `starting` holds the local descriptor of each connection whose start is outstanding. -/
structure SplitSystem where
  base : System := {}
  starting : RandStr → Option Fd := fun _ => none

def Link.send (link : Link) (msg : ProxyCtlMsg) : Link :=
  { link with
    toServer := link.toServer ++ msg.wire
    sent := link.sent ++ [.frame msg] }

namespace Client

/-- `Tunnel::handleStartProxyConnReq` up to its `send_msg_dirct`. -/
def sendStartProxyConnRsp (s : SplitSystem) (publicFd : Nat) (proxyId : Str) (localFd : Fd) :
    SplitSystem :=
  match s.base.clientProxyConnMap.lookup proxyId with
  | none => s
  | some id =>
      if (s.base.link id).client.proxy.isStart then s
      else
        { base := s.base.mapLink id fun link => link.send (.startProxyConnRsp publicFd proxyId)
          starting := Function.update s.starting id (some localFd) }

/-- The rest of `Tunnel::handleStartProxyConnReq`. -/
def startLocalConn (s : SplitSystem) (id : RandStr) : Option SplitSystem :=
  match s.starting id with
  | none => none
  | some localFd =>
      some {
        base := s.base.mapLink id fun link => { link with
          client := link.client.start { fd := localFd, proxyId := link.client.proxy.proxyId } }
        starting := Function.update s.starting id none }

/-- `messageRead`, with the start left outstanding. -/
def splitMessageRead (s : SplitSystem) (id : RandStr) (localFd : Fd) : Option SplitSystem :=
  match readMsg (s.base.link id).toClient with
  | .waiting => none
  | .dropped rest =>
      some { s with base := s.base.mapLink id fun link => { link with toClient := rest } }
  | .unset _ => none
  | .message type body rest =>
      match ProxyCtlMsg.decode type body with
      | none => none
      | some msg =>
          let s := { s with base := s.base.mapLink id fun link => { link with toClient := rest } }
          match msg with
          | some (.startProxyConnReq publicFd proxyId) =>
              some (sendStartProxyConnRsp s publicFd proxyId localFd)
          | _ => some s

def splitProxyRead (s : SplitSystem) (id : RandStr) (count : Nat) (localFd : Fd) :
    Option SplitSystem :=
  if id.chars ∉ s.base.clientProxyConnMap then none
  else if (s.base.link id).client.proxy.isStart then
    (forwardRead s.base id count).map fun base => { s with base := base }
  else splitMessageRead s id localFd

end Client

inductive SplitEvent where
  | handler (event : Event)
  | start (id : RandStr)

/-- A worker thread whose handler is at the outstanding start serves neither the
connection nor its local side. -/
def splitStep (cfg : Config) (s : SplitSystem) : SplitEvent → Option SplitSystem
  | .start id => Client.startLocalConn s id
  | .handler (.clientProxyRead id count localFd) =>
      if 0 < localFd ∧ s.starting id = none then Client.splitProxyRead s id count localFd else none
  | .handler (.localRead id bytes) =>
      if s.starting id = none then
        (Client.localRead s.base id bytes).map fun base => { s with base := base }
      else none
  | .handler event => (step cfg s.base event).map fun base => { s with base := base }

/-! ## Making the outstanding starts -/

def End.finish (starting : Option Fd) (side : End) : End :=
  match starting with
  | none => side
  | some localFd => side.start { fd := localFd, proxyId := side.proxy.proxyId }

/-- The tunnel in which every outstanding start has been made. -/
def SplitSystem.whole (s : SplitSystem) : System :=
  s.base.mapClients fun id => End.finish (s.starting id)

variable {cfg : Config} {s s' : SplitSystem} {id : RandStr} {event : Event}

@[simp] theorem whole_link (s : SplitSystem) (id : RandStr) :
    s.whole.link id = (s.base.link id).mapClientEnd (End.finish (s.starting id)) := rfl

theorem whole_link_of_none (hid : s.starting id = none) :
    s.whole.link id = s.base.link id := by
  rw [whole_link, hid]
  exact Link.mapClientEnd_eq (fun _ => rfl) _

@[simp] theorem whole_init : SplitSystem.whole {} = System.init := rfl

/-- Only idle ends of known connections have an outstanding start. -/
structure SplitInv (cfg : Config) (s : SplitSystem) : Prop where
  reachable : Reachable cfg s.whole
  idle : ∀ id, s.starting id ≠ none → (s.base.link id).client.proxy.isStart = false

theorem splitInv_init (cfg : Config) : SplitInv cfg {} where
  reachable := ⟨[], rfl⟩
  idle := fun _ hsome => absurd rfl hsome

theorem SplitInv.mem_of_starting (hinv : SplitInv cfg s) (hid : s.starting id ≠ none) :
    id.chars ∈ s.base.clientProxyConnMap := by
  have hwf := hinv.reachable.wellFormed
  obtain ⟨localFd, hsome⟩ := Option.ne_none_iff_exists'.mp hid
  have hstart : (s.whole.view id).link.client.proxy.isStart = true := by
    simp [Link.mapClientEnd, End.finish, hsome, End.start]
  cases hunknown : (s.whole.view id).created with
  | true => exact AList.lookup_isSome.mp hunknown
  | false =>
      rw [(hwf.inv id).eq_unused hunknown] at hstart
      cases hstart

/-- A start that is made leaves the whole tunnel as it is. -/
theorem whole_startLocalConn (hstart : Client.startLocalConn s id = some s') :
    s'.whole = s.whole := by
  unfold Client.startLocalConn at hstart
  cases hid : s.starting id with
  | none => simp [hid] at hstart
  | some localFd =>
      simp only [hid, Option.some.injEq] at hstart
      subst hstart
      simp only [SplitSystem.whole, System.mapClients, System.mapLink, System.mk.injEq, true_and]
      funext other
      by_cases hother : other = id
      · subst hother
        simp [Link.mapClientEnd, End.finish, hid]
      · simp [hother]

/-- The answer is sent: in the whole tunnel the connection is also started. -/
theorem whole_send (hid : s.starting id = none) {publicFd localFd : Fd} :
    SplitSystem.whole {
        base := s.base.mapLink id fun link =>
          { link with toClient := [] }.send (.startProxyConnRsp publicFd id.chars)
        starting := Function.update s.starting id (some localFd) } =
      s.whole.mapLink id fun link => { link with toClient := [] }.sendAndStart
        (.startProxyConnRsp publicFd id.chars) localFd := by
  simp only [SplitSystem.whole, System.mapClients, System.mapLink, System.mk.injEq, true_and]
  funext other
  by_cases hother : other = id
  · subst hother
    simp [Link.mapClientEnd, End.finish, hid, Link.send, Link.sendAndStart]
  · simp [hother]

/-- An idle end whose worker is free reads a request and sends its answer. -/
theorem SplitInv.messageRead (hinv : SplitInv cfg s) (hid : s.starting id = none)
    (hcreated : id.chars ∈ s.base.clientProxyConnMap)
    (hstart : (s.base.link id).client.proxy.isStart = false) {localFd : Fd}
    (hlocal : 0 < localFd) (hread : Client.splitMessageRead s id localFd = some s') :
    SplitInv cfg s' := by
  have hlink := whole_link_of_none hid
  have hview : (s.whole.view id).link = s.base.link id := hlink
  have hclient : s.base.clientProxyConnMap.lookup id.chars = some id :=
    hinv.reachable.wellFormed.keyed.lookup_client (AList.lookup_isSome.mpr hcreated)
  cases hinv.reachable.wellFormed.inv id with
  | unused hunused =>
      have hunknown : (s.whole.view id).created = false := by rw [hunused]
      exact absurd hcreated (AList.lookup_eq_none.mp
        (Option.isNone_iff_eq_none.mp (Option.isSome_eq_false_iff.mp hunknown)))
  | ahead loc msg hahead =>
      have hstarted := (hahead.down 0).isStart
      rw [hview, hstart] at hstarted
      cases hstarted
  | level pub loc trailing hlevel =>
      have hdown := hlevel.down
      rw [hview] at hdown
      have hflight := (hdown.resting_of_not_isStart hstart).flight
      rcases hlevel.requested with ⟨_, hnone⟩ | ⟨_, publicFd, hfd, _, hframe⟩
      · simp only [Client.splitMessageRead, hflight, hnone, readMsg_nil] at hread
        cases hread
      · have hsent : ProxyCtlMsg.Sent (.startProxyConnReq publicFd id.chars) :=
          .startProxyConnReq publicFd hfd id
        have hwhole := ProxyCtlMsg.readMsg_wire hsent []
        rw [List.append_nil, ← hframe, ← hflight] at hwhole
        have hdecode := ProxyCtlMsg.decode_body hsent
        have hfree : ((s.base.mapLink id fun link => { link with toClient := [] }).link
            id).client.proxy.isStart = false := by
          simpa [System.mapLink] using hstart
        have hkept : (s.base.mapLink id fun link => { link with toClient := [] }).clientProxyConnMap =
            s.base.clientProxyConnMap := rfl
        simp only [Client.splitMessageRead, hwhole, hdecode, Client.sendStartProxyConnRsp, hkept,
          hclient, hfree, Bool.false_eq_true, if_false, Option.some.injEq] at hread
        have hmerge : (s.base.mapLink id fun link => { link with toClient := [] }).mapLink id
            (fun link => link.send (.startProxyConnRsp publicFd id.chars)) =
              s.base.mapLink id fun link =>
                { link with toClient := [] }.send (.startProxyConnRsp publicFd id.chars) := by
          simp [System.mapLink]
        rw [hmerge] at hread
        subst hread
        constructor
        · have hnext : step cfg s.whole (.clientProxyRead id 0 localFd) =
              some (s.whole.mapLink id fun link => { link with toClient := [] }.sendAndStart
                (.startProxyConnRsp publicFd id.chars) localFd) := by
            have hmem : id.chars ∈ s.whole.clientProxyConnMap := hcreated
            have hsame : s.whole.clientProxyConnMap = s.base.clientProxyConnMap := rfl
            have hafter : ((s.whole.mapLink id fun link => { link with toClient := [] }).link
                id).client.proxy.isStart = false := by
              simp only [System.mapLink, Function.update_self, hlink, hstart]
            have hmap : (s.whole.mapLink id fun link =>
                { link with toClient := [] }).clientProxyConnMap = s.base.clientProxyConnMap := rfl
            simp only [step, hlocal, if_true, Client.proxyRead, hmem, not_true, if_false,
              hlink, hstart, Bool.false_eq_true, Client.messageRead, hwhole, hdecode,
              Client.handleStartProxyConnReq, hmap, hclient, hafter]
            simp [System.mapLink]
          rw [whole_send hid]
          exact hinv.reachable.step hnext
        · intro other hsome
          by_cases hother : other = id
          · subst hother
            simpa [System.mapLink, Link.send] using hstart
          · simp only [System.mapLink, Function.update_of_ne hother] at hsome ⊢
            exact hinv.idle other hsome

/-- A handler that spares the connections with an outstanding start does in the
whole tunnel what it does here. -/
theorem SplitInv.handler (hinv : SplitInv cfg s) {base : System}
    (hstep : step cfg s.base event = some base)
    (hspares : ∀ id, Touches s.base id event → s.starting id = none)
    (hmode : ∀ id count localFd, event = .clientProxyRead id count localFd →
      (s.base.link id).client.proxy.isStart = true) :
    SplitInv cfg { s with base := base } where
  reachable := by
    have hkept (id : RandStr) (htouch : Touches s.base id event) (side : End) :
        End.finish (s.starting id) side = side := by
      rw [hspares id htouch]
      rfl
    apply hinv.reachable.step
    rw [SplitSystem.whole, step_mapClients _ hkept hmode, hstep]
    rfl
  idle := by
    intro id hsome
    have hother : ¬ Touches s.base id event := fun htouch => hsome (hspares id htouch)
    rw [client_of_step hstep hother hmode]
    exact hinv.idle id hsome

/-- The client reads no notification of a connection whose start is outstanding. -/
def SparesStarting (s : SplitSystem) : SplitEvent → Prop
  | .handler (.clientCtlRead ..) => ∀ id tranCount,
      s.base.ctlToClient.head? = some (.notifyProxyShutdownPeerConn id.chars tranCount) →
        s.starting id = none
  | _ => True

theorem SplitInv.clientCtlRead (hinv : SplitInv cfg s) {proxyFd localFd : Fd}
    (hspares : SparesStarting s (.handler (.clientCtlRead id proxyFd localFd)))
    {found : RandStr} (htouch : Touches s.base found (.clientCtlRead id proxyFd localFd)) :
    s.starting found = none := by
  rcases htouch with ⟨rfl, hfresh⟩ | ⟨proxyId, tranCount, rest, hctl, hlookup⟩
  · by_contra hsome
    exact hfresh (hinv.mem_of_starting hsome)
  · have hname : proxyId = found.chars :=
      hinv.reachable.wellFormed.keyed.client proxyId found hlookup
    apply hspares found tranCount
    rw [hctl, hname]
    rfl

theorem SplitInv.localRead (hinv : SplitInv cfg s) (hid : s.starting id = none)
    {bytes : List UInt8} {found : RandStr} (htouch : Touches s.base found (.localRead id bytes)) :
    s.starting found = none := by
  rcases htouch with rfl | ⟨conn, hpeer, hlookup⟩
  · exact hid
  · have hwf := hinv.reachable.wellFormed
    have hwhole : (s.whole.view id).link.client.peer = some conn := by
      rw [view_link, whole_link_of_none hid]
      exact hpeer
    obtain ⟨_, hname⟩ := (hwf.inv id).created_of_peer hwhole
    have hfound : conn.proxyId = found.chars := hwf.keyed.client conn.proxyId found hlookup
    have hsame : found = id := RandStr.chars_injective (hfound.symm.trans hname)
    rw [hsame]
    exact hid

theorem SplitInv.startLocalConn (hinv : SplitInv cfg s)
    (hstart : Client.startLocalConn s id = some s') : SplitInv cfg s' where
  reachable := by
    rw [whole_startLocalConn hstart]
    exact hinv.reachable
  idle := by
    intro other hsome
    unfold Client.startLocalConn at hstart
    cases hid : s.starting id with
    | none => simp [hid] at hstart
    | some localFd =>
        simp only [hid, Option.some.injEq] at hstart
        subst hstart
        by_cases hother : other = id
        · simp [hother] at hsome
        · simp only [System.mapLink, Function.update_of_ne hother] at hsome ⊢
          exact hinv.idle other hsome

theorem SplitInv.clientProxyRead (hinv : SplitInv cfg s) (hid : s.starting id = none)
    {count : Nat} {localFd : Fd} (hlocal : 0 < localFd)
    (hread : Client.splitProxyRead s id count localFd = some s') : SplitInv cfg s' := by
  unfold Client.splitProxyRead at hread
  by_cases hcreated : id.chars ∈ s.base.clientProxyConnMap
  · rw [if_neg (not_not.mpr hcreated)] at hread
    cases hstart : (s.base.link id).client.proxy.isStart with
    | false =>
        rw [hstart] at hread
        exact hinv.messageRead hid hcreated hstart hlocal hread
    | true =>
        rw [if_pos hstart] at hread
        obtain ⟨base, hbase, rfl⟩ := Option.map_eq_some_iff.mp hread
        have hnext : CProxy.step cfg s.base (.clientProxyRead id count localFd) = some base := by
          simp [CProxy.step, hlocal, Client.proxyRead, hcreated, hstart, hbase]
        apply hinv.handler hnext
        · rintro found rfl
          exact hid
        · rintro other _ _ heq
          cases heq
          exact hstart
  · rw [if_pos hcreated] at hread
    cases hread

theorem SplitInv.step {event : SplitEvent} (hinv : SplitInv cfg s)
    (hspares : SparesStarting s event) (hstep : splitStep cfg s event = some s') :
    SplitInv cfg s' := by
  cases event with
  | start id => exact hinv.startLocalConn hstep
  | handler event =>
      cases event with
      | clientProxyRead id count localFd =>
          simp only [splitStep, Option.ite_none_right_eq_some] at hstep
          obtain ⟨⟨hlocal, hid⟩, hread⟩ := hstep
          exact hinv.clientProxyRead hid hlocal hread
      | localRead id bytes =>
          simp only [splitStep, Option.ite_none_right_eq_some] at hstep
          obtain ⟨hid, hread⟩ := hstep
          obtain ⟨base, hbase, rfl⟩ := Option.map_eq_some_iff.mp hread
          exact @SplitInv.handler cfg s (.localRead id bytes) hinv base hbase
            (fun found htouch => hinv.localRead hid htouch) nofun
      | clientCtlRead id proxyFd localFd =>
          obtain ⟨base, hbase, rfl⟩ := Option.map_eq_some_iff.mp hstep
          exact hinv.handler hbase (fun found htouch => hinv.clientCtlRead hspares htouch) nofun
      | strayFreeReq proxyId =>
          obtain rfl := Option.some.inj hstep
          exact @SplitInv.handler cfg s (.strayFreeReq proxyId) hinv _ rfl
            (fun found htouch => htouch.elim) nofun
      | newPublicConn | newProxyConn | serverProxyRead | publicRead | serverCtlRead =>
          obtain ⟨base, hbase, rfl⟩ := Option.map_eq_some_iff.mp hstep
          exact hinv.handler hbase (fun found htouch => htouch.elim) nofun

end CProxy
