import CProxy.Foundation.Drain
import CProxy.Tunnel.Matching
import CProxy.Tunnel.Queues

/-! # The work a tunnel has left

What is under way is used up by the handlers that deal with it: a message that the
client reads makes a proxy connection and sends a message on it, one byte spliced to a
local connection may end a session, which the server is told. Counted with weights, each
of these handlers leaves less than it found.
-/

namespace CProxy

open Foundation Wire

/-- The events that deal with what is under way. In the others something comes in. -/
def Event.internal : Event → Bool
  | newProxyConn .. | serverProxyRead .. | serverCtlRead | clientCtlRead ..
  | clientProxyRead .. => true
  | newPublicConn .. | publicRead .. | localRead .. | strayFreeReq .. => false

/-- What an event may add to the work that is left. -/
def Event.cost : Event → Nat
  | newPublicConn .. => 64
  | publicRead _ bytes => if bytes = [] then 64 else 2 * bytes.length
  | localRead _ bytes => if bytes = [] then 1 else bytes.length
  | _ => 0

/-- The bytes under way, and whether the connection is still to be accepted. -/
def Link.load (link : Link) : Nat :=
  link.toServer.length + 2 * link.toClient.length + (!link.accepted).toNat

def System.load (s : System) : Nat :=
  s.ctlToServer.length + 64 * s.ctlToClient.length + (s.created.map fun id => (s.link id).load).sum

/-! ## One connection -/

variable {cfg : Config} {id : RandStr} {v v' : View} {event : LinkEvent}

@[simp] theorem Link.load_mapServer (link : Link) (update : ProxyConn → ProxyConn) :
    (link.mapServer update).load = link.load := rfl

@[simp] theorem Link.load_mapClient (link : Link) (update : ProxyConn → ProxyConn) :
    (link.mapClient update).load = link.load := rfl

theorem View.load_shutdownPublicConn (v : View) :
    v.shutdownPublicConn.link.load = v.link.load := by
  rw [View.shutdownPublicConn_link]
  rfl

theorem View.load_shutdonwLocalConn (v : View) :
    v.shutdonwLocalConn.link.load = v.link.load := by
  rw [View.shutdonwLocalConn_link]
  rfl

theorem wire_length_pos (msg : ProxyCtlMsg) : 0 < msg.wire.length :=
  List.length_pos_iff.mpr msg.wire_ne_nil

/-- The server uses up what it reads. -/
theorem LinkStep.load_serverRead {count : Nat}
    (hstep : LinkStep cfg id v (.serverRead count) v') : v'.link.load < v.link.load := by
  cases hstep with
  | claim _ publicFd rest haccepted hclaimed hstart hframe =>
      have hwire := wire_length_pos
        (.proxyMetaSet cfg.ctlId.chars cfg.tunId.chars id.chars)
      simp only [View.startServer, Link.parseAtServer, Link.load, hframe, List.length_append]
      omega
  | bind _ publicFd rest hwaiting hclaimed hstart hreq hframe =>
      have hwire := wire_length_pos (.startProxyConnRsp publicFd id.chars)
      simp only [View.startServer, Link.parseAtServer, Link.load, hframe, List.length_append]
      omega
  | forwardAtServer _ hstart hsplice hcount hfits =>
      rw [View.load_shutdownPublicConn]
      have hpositive := hsplice.1
      simp only [View.mapLink_link, Link.forwardAtServer, Link.load, List.length_drop]
      omega

theorem sent_wire_length {msg : ProxyCtlMsg} (hsent : ProxyCtlMsg.Sent msg) :
    msg.wire.length = if msg.type = 0 then 38 else 24 := by
  rw [ProxyCtlMsg.wire, makeMsg_wire_length, ProxyCtlMsg.body_length hsent]
  split
  · rfl
  · rfl

/-- So does the client, also where it answers. -/
theorem LinkStep.load_clientRead {count : Nat} {localFd : Fd}
    (hstep : LinkStep cfg id v (.clientRead count localFd) v') :
    v'.link.load + 2 ≤ v.link.load := by
  cases hstep with
  | startAtClient _ _ publicFd hlocal hcreated hstart hreq hfd hframe =>
      have hrequest : (ProxyCtlMsg.startProxyConnReq publicFd id.chars).wire.length = 24 :=
        sent_wire_length (.startProxyConnReq publicFd hfd id)
      have hanswer : (ProxyCtlMsg.startProxyConnRsp publicFd id.chars).wire.length = 24 :=
        sent_wire_length (.startProxyConnRsp publicFd hfd id)
      simp only [View.mapLink_link, Link.sendAndStart, Link.load, hframe, List.length_append,
        List.length_nil, hrequest, hanswer]
      omega
  | forwardAtClient _ _ hstart hsplice hcount hfits =>
      rw [View.load_shutdonwLocalConn]
      have hpositive := hsplice.1
      simp only [View.mapLink_link, Link.forwardAtClient, Link.load, List.length_drop]
      omega

/-- What comes in at a connection is under way on it. -/
theorem LinkStep.load_publicRead {bytes : List UInt8}
    (hstep : LinkStep cfg id v (.publicRead bytes) v') :
    v'.link.load = v.link.load + 2 * bytes.length := by
  cases hstep with
  | relayAtServer conn =>
      simp only [View.mapLink_link, Link.relayAtServer, Link.load, List.length_append]
      omega
  | closeAtServer conn =>
      unfold View.shutdownFromPublic
      split
      · rfl
      · rfl
  | reclosedAtServer conn => rfl

theorem LinkStep.load_localRead {bytes : List UInt8}
    (hstep : LinkStep cfg id v (.localRead bytes) v') :
    v'.link.load = v.link.load + bytes.length := by
  cases hstep with
  | relayAtClient conn =>
      simp only [View.mapLink_link, Link.relayAtClient, Link.load, List.length_append]
      omega
  | closeAtClient conn => rfl
  | reclosedAtClient conn => rfl

theorem LinkStep.load_request {publicFd : Fd} (hinv : LinkInv cfg id v)
    (hstep : LinkStep cfg id v (.request publicFd) v') : v'.link.load = v.link.load + 48 := by
  cases hstep with
  | request _ hfree hfd =>
      obtain ⟨pub, loc, trailing, hlevel⟩ := hinv.level_of_home (by omega)
      have hrequest : (ProxyCtlMsg.startProxyConnReq publicFd id.chars).wire.length = 24 :=
        sent_wire_length (.startProxyConnReq publicFd hfd id)
      simp only [View.mapLink_link, Link.request, Link.load, List.length_append,
        hlevel.serverName, hrequest]
      omega

theorem LinkStep.load_strayFreeReq (hstep : LinkStep cfg id v .strayFreeReq v') :
    v'.link.load = v.link.load := by
  cases hstep with
  | strayFreeReq => rw [View.freeProxyConn_link]

theorem LinkStep.load_accept {acceptFd : Fd} (hstep : LinkStep cfg id v (.accept acceptFd) v') :
    v'.link.load + 1 = v.link.load := by
  cases hstep with
  | accept _ hcreated haccepted => simp [View.accept, Link.load, haccepted]

theorem LinkStep.load_connect {proxyFd localFd : Fd} (hinv : LinkInv cfg id v)
    (hstep : LinkStep cfg id v (.connect proxyFd localFd) v') : v'.link.load = 39 := by
  cases hstep with
  | connect _ _ hcreated hlocal =>
      obtain rfl := hinv.eq_unused hcreated
      have hmessage : (ProxyCtlMsg.proxyMetaSet cfg.ctlId.chars cfg.tunId.chars
          id.chars).wire.length = 38 := sent_wire_length (.proxyMetaSet cfg.ctlId cfg.tunId id)
      simp [View.connect, Link.sendAndStart, Link.load, hmessage]

/-- A message on the control connection moves no byte of a proxy connection. -/
theorem LinkStep.load_notice {notice : Notice}
    (hstep : LinkStep cfg id v (.serverNotice notice) v') : v'.link.load = v.link.load := by
  cases hstep with
  | hearAtServer tranCount rest =>
      unfold View.handleShutdownPublicConn
      split
      · rfl
      · rw [View.load_shutdownPublicConn]
        rfl
  | freeAtServer rest => rw [View.freeProxyConn_link]

theorem LinkStep.load_total {tranCount : Nat}
    (hstep : LinkStep cfg id v (.clientNotice tranCount) v') : v'.link.load = v.link.load := by
  cases hstep with
  | hearAtClient _ rest =>
      unfold View.handleShutdownLocalConn
      rw [View.load_shutdonwLocalConn]
      rfl

theorem LinkStep.eq_of_stay (hstep : LinkStep cfg id v .stay v') : v' = v := by
  cases hstep with
  | stay => rfl

/-! ## The control connection -/

variable {s s' : System}

theorem shutdonwLocalConn_queues (s : System) (id : RandStr) :
    (Client.shutdonwLocalConn s id).ctlToServer.length ≤ s.ctlToServer.length + 1 ∧
      (Client.shutdonwLocalConn s id).ctlToClient = s.ctlToClient := by
  unfold Client.shutdonwLocalConn
  dsimp only
  split
  · exact ⟨by simp [System.mapLink], rfl⟩
  · exact ⟨Nat.le_succ _, rfl⟩

theorem clientProxyRead_queues {count : Nat} {localFd : Fd}
    (hread : Client.proxyRead s id count localFd = some s') :
    s'.ctlToServer.length ≤ s.ctlToServer.length + 1 ∧ s'.ctlToClient = s.ctlToClient := by
  unfold Client.proxyRead at hread
  split at hread
  · cases hread
  · split at hread
    · unfold Client.forwardRead at hread
      split at hread
      · cases hread
      · split at hread
        · cases hread
        · dsimp only at hread
          split at hread
          · rw [← Option.some.inj hread]
            exact shutdonwLocalConn_queues _ id
          · rw [← Option.some.inj hread]
            exact ⟨Nat.le_succ _, rfl⟩
    · obtain ⟨hserver, hclient⟩ := Client.messageRead_silent hread
      exact ⟨by rw [hserver]; exact Nat.le_succ _, hclient⟩

theorem clientCtlRead_queues {proxyFd localFd : Fd}
    (hread : Client.ctlRead cfg s id proxyFd localFd = some s') :
    s'.ctlToServer.length ≤ s.ctlToServer.length + 1 ∧
      s'.ctlToClient.length + 1 = s.ctlToClient.length := by
  unfold Client.ctlRead at hread
  split at hread
  · cases hread
  · next msg rest hctl =>
      rw [hctl, List.length_cons]
      dsimp only at hread
      split at hread
      · split at hread
        · cases hread
        · rw [← Option.some.inj hread]
          exact ⟨Nat.le_succ _, rfl⟩
      · rw [← Option.some.inj hread]
        unfold Client.handleShutdownLocalConn
        split
        · exact ⟨Nat.le_succ _, rfl⟩
        · next target hlookup =>
            obtain ⟨hserver, hclient⟩ := shutdonwLocalConn_queues
              (({ s with ctlToClient := rest } : System).mapLink target fun link =>
                link.mapClient fun conn => conn.incrTheoreticalTotalRecvCount _) target
            exact ⟨hserver, congrArg (fun queue => queue.length + 1) hclient⟩
      · rw [← Option.some.inj hread]
        exact ⟨Nat.le_succ _, rfl⟩

theorem serverCtlRead_queues (hread : Server.ctlRead s = some s') :
    s'.ctlToServer.length + 1 = s.ctlToServer.length ∧ s'.ctlToClient = s.ctlToClient := by
  unfold Server.ctlRead at hread
  split at hread
  · cases hread
  · next msg rest hctl =>
      rw [hctl, List.length_cons]
      have hpopped (final : System) (hsilent : Silent { s with ctlToServer := rest } final) :
          final.ctlToServer.length + 1 = rest.length + 1 ∧
            final.ctlToClient = s.ctlToClient :=
        ⟨congrArg (fun queue => queue.length + 1) hsilent.1, hsilent.2⟩
      dsimp only at hread
      split at hread
      · rw [← Option.some.inj hread]
        exact ⟨rfl, rfl⟩
      · rw [← Option.some.inj hread]
        exact hpopped _ (Server.handleShutdownPublicConn_silent _ _ _)
      · rw [← Option.some.inj hread]
        exact hpopped _ (Server.freeProxyConn_silent _ _)

/-! ## The whole tunnel -/

/-- Only one member of the list changes its weight. -/
theorem sum_map_of_one {α : Type} {items : List α} {weight weight' : α → Nat} {item : α}
    (hnodup : items.Nodup) (hmem : item ∈ items)
    (hothers : ∀ other, other ≠ item → weight' other = weight other) :
    (items.map weight').sum + weight item = (items.map weight).sum + weight' item := by
  obtain ⟨first, last, rfl⟩ := List.append_of_mem hmem
  rw [List.nodup_append, List.nodup_cons] at hnodup
  obtain ⟨_, ⟨hlast, _⟩, hfirst⟩ := hnodup
  have hsame (part : List α) (hpart : item ∉ part) : part.map weight' = part.map weight := by
    apply List.map_congr_left
    intro other hother
    exact hothers other fun heq => hpart (heq ▸ hother)
  have hnot : item ∉ first := fun hin => hfirst item hin item (by simp) rfl
  simp only [List.map_append, List.map_cons, List.sum_append, List.sum_cons, hsame first hnot,
    hsame last hlast]
  omega

def System.linkLoad (s : System) : Nat := (s.created.map fun id => (s.link id).load).sum

theorem System.load_eq (s : System) :
    s.load = s.ctlToServer.length + 64 * s.ctlToClient.length + s.linkLoad := rfl

theorem linkLoad_of_one (hwf : WellFormed cfg s) (hcreated : s'.created = s.created)
    (hmem : id ∈ s.created) (hothers : ∀ other, other ≠ id → s'.view other = s.view other) :
    s'.linkLoad + (s.link id).load = s.linkLoad + (s'.link id).load := by
  rw [System.linkLoad, hcreated]
  apply sum_map_of_one hwf.keyed.created_nodup hmem
  intro other hother
  have hsame : s'.link other = s.link other := congrArg View.link (hothers other hother)
  rw [hsame]

theorem linkLoad_of_all (hcreated : s'.created = s.created)
    (hall : ∀ other, (s'.link other).load = (s.link other).load) : s'.linkLoad = s.linkLoad := by
  rw [System.linkLoad, hcreated]
  exact congrArg List.sum (List.map_congr_left fun other _ => hall other)

theorem created_of_accepted (hwf : WellFormed cfg s) (haccepted : (s.link id).accepted = true) :
    id ∈ s.created := by
  rw [mem_created_iff hwf.keyed]
  cases hunknown : (s.view id).created with
  | true => rfl
  | false => simp [← view_link, (hwf.inv id).eq_unused hunknown] at haccepted

theorem created_eq_of_client (hclient : s'.clientProxyConnMap = s.clientProxyConnMap) :
    s'.created = s.created := by
  rw [System.created, hclient]
  rfl

/-- An event that is about one connection leaves the others as they are. -/
theorem linkLoad_of_about {event : Event} (hwf : WellFormed cfg s)
    (hsim : Simulated cfg s event s') (hclient : s'.clientProxyConnMap = s.clientProxyConnMap)
    (hmem : id ∈ s.created) (hothers : ∀ other, other ≠ id → event.about s other = .stay) :
    s'.linkLoad + (s.link id).load = s.linkLoad + (s'.link id).load := by
  apply linkLoad_of_one hwf (created_eq_of_client hclient) hmem
  intro other hother
  have hlink := hsim.links other
  rw [hothers other hother] at hlink
  exact hlink.eq_of_stay

theorem load_newProxyConn {acceptFd : Fd} (hwf : WellFormed cfg s)
    (hstep : step cfg s (.newProxyConn id acceptFd) = some s') : s'.load < s.load := by
  have hsim := step_simulated hwf hstep
  obtain ⟨⟨_, hknown, _⟩, hsome⟩ := Option.ite_none_right_eq_some.mp hstep
  have hmem : id ∈ s.created := (mem_created_iff hwf.keyed).mpr (AList.lookup_isSome.mpr hknown)
  have hself := hsim.links id
  simp only [Event.about, if_true] at hself
  have hless := hself.load_accept
  rw [view_link, view_link] at hless
  have hsum := linkLoad_of_about hwf hsim (by rw [← Option.some.inj hsome]; rfl) hmem
    fun other hother => by simp [Event.about, Ne.symm hother]
  have hserver : s'.ctlToServer = s.ctlToServer := by rw [← Option.some.inj hsome]; rfl
  have hclient : s'.ctlToClient = s.ctlToClient := by rw [← Option.some.inj hsome]; rfl
  rw [System.load_eq, System.load_eq, hserver, hclient]
  omega

theorem load_serverProxyRead {count : Nat} (hwf : WellFormed cfg s)
    (hstep : step cfg s (.serverProxyRead id count) = some s') : s'.load < s.load := by
  have hsim := step_simulated hwf hstep
  have haccepted : (s.link id).accepted = true := by
    cases hopen : (s.link id).accepted with
    | true => rfl
    | false => simp [step, Server.proxyRead, hopen] at hstep
  have hclient : s'.clientProxyConnMap = s.clientProxyConnMap := by
    cases step_dealt hwf hstep with
    | kept _ _ _ hclient => exact hclient
    | asked _ _ _ _ _ hclient => exact hclient
    | offered _ _ _ _ _ _ hclient hevent => cases hevent
    | heard other _ hneeds =>
        rw [System.needs, System.needs, (Server.proxyRead_silent hstep).2] at hneeds
        omega
    | taken _ _ _ _ _ hclient => exact hclient
  have hself := hsim.links id
  simp only [Event.about, if_true] at hself
  have hless := hself.load_serverRead
  rw [view_link, view_link] at hless
  have hsum := linkLoad_of_about hwf hsim hclient (created_of_accepted hwf haccepted)
    fun other hother => by simp [Event.about, Ne.symm hother]
  obtain ⟨hserver, hsilent⟩ := Server.proxyRead_silent hstep
  rw [System.load_eq, System.load_eq, hserver, hsilent]
  omega

theorem load_clientProxyRead {count : Nat} {localFd : Fd} (hwf : WellFormed cfg s)
    (hstep : step cfg s (.clientProxyRead id count localFd) = some s') : s'.load < s.load := by
  have hsim := step_simulated hwf hstep
  have hread := (Option.ite_none_right_eq_some.mp hstep).2
  have hmem : id ∈ s.created := by
    have hknown : id.chars ∈ s.clientProxyConnMap := by
      unfold Client.proxyRead at hread
      split at hread
      · cases hread
      · next hknown => exact not_not.mp hknown
    exact (mem_created_iff hwf.keyed).mpr (AList.lookup_isSome.mpr hknown)
  have hself := hsim.links id
  simp only [Event.about, if_true] at hself
  have hless := hself.load_clientRead
  rw [view_link, view_link] at hless
  have hsum := linkLoad_of_about hwf hsim (Keeps.clientProxyRead hread).client hmem
    fun other hother => by simp [Event.about, Ne.symm hother]
  obtain ⟨hserver, hclient⟩ := clientProxyRead_queues hread
  rw [System.load_eq, System.load_eq, hclient]
  omega

theorem load_serverCtlRead (hwf : WellFormed cfg s)
    (hstep : step cfg s .serverCtlRead = some s') : s'.load < s.load := by
  have hsim := step_simulated hwf hstep
  have hsum : s'.linkLoad = s.linkLoad := by
    apply linkLoad_of_all (created_eq_of_client (Keeps.serverCtlRead hstep).client)
    intro other
    have hlink := hsim.links other
    rw [← view_link, ← view_link]
    unfold Event.about at hlink
    dsimp only at hlink
    split at hlink
    · exact hlink.load_notice
    · rw [hlink.eq_of_stay]
  obtain ⟨hserver, hclient⟩ := serverCtlRead_queues hstep
  rw [System.load_eq, System.load_eq, hsum, hclient]
  omega

/-- A request that the client reads makes a connection with one message on it. -/
theorem linkLoad_notify {proxyFd localFd : Fd} {rest : List CtlMsg} (hwf : WellFormed cfg s)
    (hctl : s.ctlToClient = .notifyClientNeedProxy :: rest)
    (hstep : step cfg s (.clientCtlRead id proxyFd localFd) = some s') :
    s'.linkLoad = s.linkLoad + 39 := by
  have hlinks := (step_simulated hwf hstep).links
  have hread := (Option.ite_none_right_eq_some.mp hstep).2
  simp only [Client.ctlRead, hctl] at hread
  split at hread
  · cases hread
  · next hfresh =>
      have hcreated : s'.created = id :: s.created := by
        have hinsert : s'.clientProxyConnMap = emplace s.clientProxyConnMap id.chars id := by
          rw [← Option.some.inj hread]
          rfl
        rw [System.created, hinsert, emplace_of_notMem hfresh,
          AList.entries_insert_of_notMem hfresh]
        rfl
      have hself := hlinks id
      simp only [Event.about, hctl, List.head?_cons, if_true] at hself
      have hmade := hself.load_connect (hwf.inv id)
      rw [view_link] at hmade
      have hothers (other : RandStr) (hother : other ∈ s.created) :
          (s'.link other).load = (s.link other).load := by
        have hne : id ≠ other := by
          rintro rfl
          rw [mem_created_iff hwf.keyed] at hother
          exact hfresh (AList.lookup_isSome.mp hother)
        have hlink := hlinks other
        simp only [Event.about, hctl, List.head?_cons, if_neg hne] at hlink
        rw [← view_link, hlink.eq_of_stay, view_link]
      rw [System.linkLoad, hcreated, List.map_cons, List.sum_cons, hmade,
        List.map_congr_left hothers, Nat.add_comm]
      rfl

theorem linkLoad_total {proxyFd localFd : Fd} {msg : CtlMsg} {rest : List CtlMsg}
    (hwf : WellFormed cfg s) (hctl : s.ctlToClient = msg :: rest)
    (hmsg : msg ≠ .notifyClientNeedProxy)
    (hstep : step cfg s (.clientCtlRead id proxyFd localFd) = some s') :
    s'.linkLoad = s.linkLoad := by
  have hlinks := (step_simulated hwf hstep).links
  have hread := (Option.ite_none_right_eq_some.mp hstep).2
  have hclient : s'.clientProxyConnMap = s.clientProxyConnMap := by
    simp only [Client.ctlRead, hctl] at hread
    split at hread
    · exact absurd rfl hmsg
    · rw [← Option.some.inj hread]
      exact (Keeps.handleShutdownLocalConn _ _ _).client
    · rw [← Option.some.inj hread]
  apply linkLoad_of_all (created_eq_of_client hclient)
  intro other
  have hlink := hlinks other
  rw [← view_link, ← view_link]
  simp only [Event.about, hctl, List.head?_cons] at hlink
  split at hlink
  · exact hlink.load_total
  · rw [hlink.eq_of_stay]

theorem load_clientCtlRead {proxyFd localFd : Fd} (hwf : WellFormed cfg s)
    (hstep : step cfg s (.clientCtlRead id proxyFd localFd) = some s') : s'.load < s.load := by
  obtain ⟨hserver, hclient⟩ := clientCtlRead_queues (Option.ite_none_right_eq_some.mp hstep).2
  have hsum : s'.linkLoad ≤ s.linkLoad + 39 := by
    cases hctl : s.ctlToClient with
    | nil => simp [hctl] at hclient
    | cons msg rest =>
        by_cases hmsg : msg = .notifyClientNeedProxy
        · exact Nat.le_of_eq (linkLoad_notify hwf (hmsg ▸ hctl) hstep)
        · rw [linkLoad_total hwf hctl hmsg hstep]
          exact Nat.le_add_right _ _
  rw [System.load_eq, System.load_eq]
  omega

/-! ## What comes in -/

theorem publicRead_queues {bytes : List UInt8} (hread : Server.publicRead s id bytes = some s') :
    s'.ctlToServer = s.ctlToServer ∧
      s'.ctlToClient.length ≤ s.ctlToClient.length + if bytes = [] then 1 else 0 := by
  unfold Server.publicRead at hread
  split at hread
  · cases hread
  · split at hread
    · split at hread
      · rw [← Option.some.inj hread]
        exact ⟨rfl, Nat.le_add_right _ _⟩
      · next hbytes _ =>
          rw [← Option.some.inj hread, if_pos hbytes]
          unfold Server.shutdownFromPublic
          split
          · exact ⟨rfl, Nat.le_succ _⟩
          · exact ⟨rfl, by simp [System.mapLink]⟩
    · split at hread
      · cases hread
      · rw [← Option.some.inj hread]
        exact ⟨rfl, Nat.le_add_right _ _⟩

theorem localRead_queues {bytes : List UInt8} (hread : Client.localRead s id bytes = some s') :
    s'.ctlToServer.length ≤ s.ctlToServer.length + (if bytes = [] then 1 else 0) ∧
      s'.ctlToClient = s.ctlToClient := by
  unfold Client.localRead at hread
  split at hread
  · cases hread
  · split at hread
    · split at hread
      · rw [← Option.some.inj hread]
        exact ⟨Nat.le_add_right _ _, rfl⟩
      · next hbytes _ =>
          rw [← Option.some.inj hread, if_pos hbytes]
          unfold Client.shutdownFromLocal
          split
          · exact ⟨Nat.le_succ _, rfl⟩
          · exact ⟨by simp [System.mapLink], rfl⟩
    · split at hread
      · cases hread
      · rw [← Option.some.inj hread]
        exact ⟨Nat.le_add_right _ _, rfl⟩

theorem created_of_peer {conn : EdgeConn} (hwf : WellFormed cfg s)
    (hpeer : (s.link id).server.peer = some conn ∨ (s.link id).client.peer = some conn) :
    id ∈ s.created := by
  rw [mem_created_iff hwf.keyed]
  cases hunknown : (s.view id).created with
  | true => rfl
  | false => simp [← view_link, (hwf.inv id).eq_unused hunknown] at hpeer

theorem load_publicRead {bytes : List UInt8} (hwf : WellFormed cfg s)
    (hstep : step cfg s (.publicRead id bytes) = some s') :
    s'.load ≤ s.load + (Event.publicRead id bytes).cost := by
  have hsim := step_simulated hwf hstep
  have hmem : id ∈ s.created := by
    cases hpeer : (s.link id).server.peer with
    | none => simp [step, Server.publicRead, hpeer] at hstep
    | some conn => exact created_of_peer hwf (Or.inl hpeer)
  have hself := hsim.links id
  simp only [Event.about, if_true] at hself
  have hmore := hself.load_publicRead
  rw [view_link, view_link] at hmore
  have hsum := linkLoad_of_about hwf hsim (Keeps.publicRead hstep).client hmem
    fun other hother => by simp [Event.about, Ne.symm hother]
  obtain ⟨hserver, hclient⟩ := publicRead_queues hstep
  rw [System.load_eq, System.load_eq, hserver, Event.cost]
  by_cases hbytes : bytes = []
  · simp only [hbytes, if_true, List.length_nil] at hclient hmore ⊢
    omega
  · simp only [hbytes, if_false] at hclient ⊢
    omega

theorem load_localRead {bytes : List UInt8} (hwf : WellFormed cfg s)
    (hstep : step cfg s (.localRead id bytes) = some s') :
    s'.load ≤ s.load + (Event.localRead id bytes).cost := by
  have hsim := step_simulated hwf hstep
  have hmem : id ∈ s.created := by
    cases hpeer : (s.link id).client.peer with
    | none => simp [step, Client.localRead, hpeer] at hstep
    | some conn => exact created_of_peer hwf (Or.inr hpeer)
  have hself := hsim.links id
  simp only [Event.about, if_true] at hself
  have hmore := hself.load_localRead
  rw [view_link, view_link] at hmore
  have hsum := linkLoad_of_about hwf hsim (Keeps.localRead hstep).client hmem
    fun other hother => by simp [Event.about, Ne.symm hother]
  obtain ⟨hserver, hclient⟩ := localRead_queues hstep
  rw [System.load_eq, System.load_eq, hclient, Event.cost]
  by_cases hbytes : bytes = []
  · simp only [hbytes, if_true, List.length_nil] at hserver hmore ⊢
    omega
  · simp only [hbytes, if_false] at hserver ⊢
    omega

theorem load_newPublicConn {acceptFd : Fd} (hwf : WellFormed cfg s)
    (hstep : step cfg s (.newPublicConn acceptFd) = some s') : s'.load ≤ s.load + 64 := by
  have hsim := step_simulated hwf hstep
  obtain ⟨_, hsome⟩ := Option.ite_none_right_eq_some.mp hstep
  cases hlast : s.freeProxyConns.getLast? with
  | none =>
      rw [Server.newPublicConnHandler] at hsome
      simp only [hlast] at hsome
      rw [← Option.some.inj hsome]
      simp only [System.load, List.length_append, List.length_singleton]
      change _ + (s.created.map fun id => (s.link id).load).sum ≤ _
      omega
  | some id =>
      have hfree : 0 < (s.view id).free :=
        List.count_pos_iff.mpr (List.mem_of_getLast? hlast)
      obtain ⟨pub, loc, trailing, hlevel⟩ := (hwf.inv id).level_of_home (by omega)
      have hself := hsim.links id
      simp only [Event.about, hlast, if_true] at hself
      have hmore := hself.load_request (hwf.inv id)
      rw [view_link, view_link] at hmore
      rw [Server.newPublicConnHandler] at hsome
      simp only [hlast] at hsome
      have hclient : s'.clientProxyConnMap = s.clientProxyConnMap := by
        rw [← Option.some.inj hsome]
        rfl
      have hsum := linkLoad_of_about hwf hsim hclient
        ((mem_created_iff hwf.keyed).mpr hlevel.created)
        fun other hother => by simp [Event.about, hlast, Ne.symm hother]
      have hqueues : s'.ctlToServer = s.ctlToServer ∧ s'.ctlToClient = s.ctlToClient := by
        rw [← Option.some.inj hsome]
        exact ⟨rfl, rfl⟩
      rw [System.load_eq, System.load_eq, hqueues.1, hqueues.2]
      omega

theorem load_strayFreeReq {proxyId : Str} (hwf : WellFormed cfg s)
    (hstep : step cfg s (.strayFreeReq proxyId) = some s') : s'.load = s.load := by
  have hlinks := (step_simulated hwf hstep).links
  have hsome := Option.some.inj hstep
  have hkeeps : Keeps s s' := hsome ▸ Keeps.freeProxyConn s proxyId
  have hsilent : Silent s s' := hsome ▸ Server.freeProxyConn_silent s proxyId
  have hsum : s'.linkLoad = s.linkLoad := by
    apply linkLoad_of_all (created_eq_of_client hkeeps.client)
    intro other
    have hlink := hlinks other
    rw [← view_link, ← view_link]
    simp only [Event.about] at hlink
    split at hlink
    · exact hlink.load_strayFreeReq
    · rw [hlink.eq_of_stay]
  rw [System.load_eq, System.load_eq, hsum, hsilent.1, hsilent.2]

/-! ## Runs -/

/-- A handler that deals with what is under way leaves less, and another one adds no more
than its cost. -/
theorem load_step {event : Event} (hwf : WellFormed cfg s)
    (hstep : step cfg s event = some s') :
    (if event.internal then 1 else 0) + s'.load ≤ s.load + event.cost := by
  cases event with
  | newProxyConn =>
      have hless := load_newProxyConn hwf hstep
      simp only [Event.internal, Event.cost, if_true]
      omega
  | serverProxyRead =>
      have hless := load_serverProxyRead hwf hstep
      simp only [Event.internal, Event.cost, if_true]
      omega
  | serverCtlRead =>
      have hless := load_serverCtlRead hwf hstep
      simp only [Event.internal, Event.cost, if_true]
      omega
  | clientCtlRead =>
      have hless := load_clientCtlRead hwf hstep
      simp only [Event.internal, Event.cost, if_true]
      omega
  | clientProxyRead =>
      have hless := load_clientProxyRead hwf hstep
      simp only [Event.internal, Event.cost, if_true]
      omega
  | newPublicConn =>
      have hmore := load_newPublicConn hwf hstep
      simp only [Event.internal, Event.cost, Bool.false_eq_true, if_false, Nat.zero_add]
      exact hmore
  | publicRead =>
      have hmore := load_publicRead hwf hstep
      simp only [Event.internal, Bool.false_eq_true, if_false, Nat.zero_add]
      exact hmore
  | localRead =>
      have hmore := load_localRead hwf hstep
      simp only [Event.internal, Bool.false_eq_true, if_false, Nat.zero_add]
      exact hmore
  | strayFreeReq =>
      have hsame := load_strayFreeReq hwf hstep
      simp only [Event.internal, Event.cost, Bool.false_eq_true, if_false, Nat.zero_add]
      omega

theorem load_run {events : List Event} (hwf : WellFormed cfg s)
    (hrun : run (step cfg) s events = some s') :
    events.countP Event.internal + s'.load ≤ s.load + (events.map Event.cost).sum := by
  induction events generalizing s with
  | nil =>
      obtain rfl := Option.some.inj hrun
      simp
  | cons event rest ih =>
      obtain ⟨next, hnext, hrest⟩ := run_cons_eq_some.mp hrun
      have hone := load_step hwf hnext
      have hmore := ih (hwf.step hnext) hrest
      rw [List.countP_cons, List.map_cons, List.sum_cons]
      omega

/-- The handlers that deal with what is under way never keep each other busy: whatever
their order, in a whole run they are no more than what has come in pays for. -/
theorem handlers_paid_for {events : List Event} {final : System}
    (hrun : run (step cfg) System.init events = some final) :
    events.countP Event.internal + final.load ≤ (events.map Event.cost).sum := by
  have hbound := load_run (wellFormed_init cfg) hrun
  have hinit : System.init.load = 0 := rfl
  omega

theorem handlers_paid_for_sample :
    (sampleStart ++ sampleFinish).countP Event.internal +
        (sampleAfter (sampleStart ++ sampleFinish)).load ≤
      ((sampleStart ++ sampleFinish).map Event.cost).sum :=
  handlers_paid_for (sampleAfter_run [] (sampleStart ++ sampleFinish) (by decide))

end CProxy
