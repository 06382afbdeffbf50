import CProxy.Foundation.Run
import CProxy.Tunnel.System
import Mathlib.Data.Finset.Insert

/-! # The reply to a NewTunnelReq and the first notification

`Control::handleNewTunnelReq` runs on the main thread in three steps, and the
acceptor of the new tunnel is live from the first. The listen thread puts its
notifications on the control connection that the reply is sent on, which is first
in, first out. Tunnels are named by their place in the order of construction,
since nothing keeps `rand_str` from drawing a `tun_id` twice.
-/

namespace CProxy

open Foundation Wire

/-- A server `Tunnel`; its constructor registers its acceptor. -/
structure ServerTunnel where
  tunId : Str
  undealPublicFds : List Fd := []
  freeProxyConns : List RandStr := []

/-- The messages on the control connection that name a tunnel as a whole. -/
inductive TunnelMsg where
  | newTunnelRsp (tunId : Str)
  | notifyClientNeedProxy (tunId : Str)
  deriving DecidableEq

/-- How far the main thread is in `handleNewTunnelReq`. -/
inductive MainThread where
  | idle
  | constructed (tunId : Str) (index : Nat)
  | added (tunId : Str) (index : Nat)

/-- One `Control` and its client. `clientTunnelMap` holds the keys of the client's
`tunnel_map_`, `connecting` the `tun_id` of each proxy connection whose ProxyMetaSet
is on its way. `announced` is history: the replies that have been sent. -/
structure TunnelSetup where
  tunnels : List ServerTunnel := []
  mainThread : MainThread := .idle
  tunnelMap : AList (fun _ : Str => Nat) := ∅
  ctlToClient : List TunnelMsg := []
  clientTunnelMap : Finset Str := ∅
  connecting : List Str := []
  announced : Finset Str := ∅

inductive SetupEvent where
  | construct (tunId : Str)
  | upsertTunnel
  | sendNewTunnelRsp
  | newPublicConn (index : Nat) (acceptFd : Fd)
  | freeProxyConn (index : Nat) (id : RandStr)
  | clientCtlRead
  | claimProxyConn (tunId : Str)

namespace TunnelSetup

def mapTunnel (s : TunnelSetup) (index : Nat) (update : ServerTunnel → ServerTunnel) :
    TunnelSetup :=
  { s with tunnels := s.tunnels.modify index update }

/-- `handleNewTunnelReq` up to the constructor. -/
def construct (s : TunnelSetup) (tunId : Str) : Option TunnelSetup :=
  match s.mainThread with
  | .idle => some { s with
      tunnels := s.tunnels ++ [{ tunId := tunId }]
      mainThread := .constructed tunId s.tunnels.length }
  | _ => none

def upsertTunnel (s : TunnelSetup) : Option TunnelSetup :=
  match s.mainThread with
  | .constructed tunId index => some { s with
      tunnelMap := emplace s.tunnelMap tunId index
      mainThread := .added tunId index }
  | _ => none

/-- The rest of `handleNewTunnelReq`. -/
def sendNewTunnelRsp (s : TunnelSetup) : Option TunnelSetup :=
  match s.mainThread with
  | .added tunId _ => some { s with
      ctlToClient := s.ctlToClient ++ [.newTunnelRsp tunId]
      announced := insert tunId s.announced
      mainThread := .idle }
  | _ => none

/-- One round of the accept loop of `Tunnel::newPublicConnHandler`. A free connection
takes the descriptor over. -/
def newPublicConnHandler (s : TunnelSetup) (index : Nat) (acceptFd : Fd) : Option TunnelSetup :=
  match s.tunnels[index]? with
  | none => none
  | some tun =>
      match tun.freeProxyConns.getLast? with
      | some _ => some (s.mapTunnel index fun tun =>
          { tun with freeProxyConns := tun.freeProxyConns.dropLast })
      | none => some { s.mapTunnel index fun tun =>
            { tun with undealPublicFds := tun.undealPublicFds ++ [acceptFd] } with
          ctlToClient := s.ctlToClient ++ [.notifyClientNeedProxy tun.tunId] }

/-- The client's handlers of the two messages. -/
def clientCtlRead (s : TunnelSetup) : Option TunnelSetup :=
  match s.ctlToClient with
  | [] => none
  | .newTunnelRsp tunId :: rest => some { s with
      ctlToClient := rest
      clientTunnelMap := insert tunId s.clientTunnelMap }
  | .notifyClientNeedProxy tunId :: rest =>
      let s := { s with ctlToClient := rest }
      if tunId ∈ s.clientTunnelMap then some { s with connecting := s.connecting ++ [tunId] }
      else some s

/-- `Server::claimProxyConn` and `Tunnel::getAndPopUndealPublicFd`. The back of an
empty vector has no value. -/
def claimProxyConn (s : TunnelSetup) (tunId : Str) : Option TunnelSetup :=
  if tunId ∈ s.connecting then
    let s := { s with connecting := s.connecting.erase tunId }
    match s.tunnelMap.lookup tunId with
    | none => some s
    | some index =>
        match s.tunnels[index]?.bind fun tun => tun.undealPublicFds.getLast? with
        | none => none
        | some _ => some (s.mapTunnel index fun tun =>
            { tun with undealPublicFds := tun.undealPublicFds.dropLast })
  else none

def step (s : TunnelSetup) : SetupEvent → Option TunnelSetup
  | .construct tunId => s.construct tunId
  | .upsertTunnel => s.upsertTunnel
  | .sendNewTunnelRsp => s.sendNewTunnelRsp
  | .newPublicConn index acceptFd => s.newPublicConnHandler index acceptFd
  | .freeProxyConn index id => some (s.mapTunnel index fun tun =>
      { tun with freeProxyConns := tun.freeProxyConns ++ [id] })
  | .clientCtlRead => s.clientCtlRead
  | .claimProxyConn tunId => s.claimProxyConn tunId

/-- The public connections that wait at the tunnels with one `tun_id`. -/
def undealt (s : TunnelSetup) (tunId : Str) : Nat :=
  (s.tunnels.map fun tun => if tun.tunId = tunId then tun.undealPublicFds.length else 0).sum

/-- A client that reads these messages in turn finds the tunnel of each notification. -/
def Finds (known : Finset Str) : List TunnelMsg → Prop
  | [] => True
  | .newTunnelRsp tunId :: rest => Finds (insert tunId known) rest
  | .notifyClientNeedProxy tunId :: rest => tunId ∈ known ∧ Finds known rest

/-- No notification is discarded, and every public connection that waits has a
notification or a proxy connection on its way. -/
structure Notified (s : TunnelSetup) : Prop where
  finds : Finds s.clientTunnelMap s.ctlToClient
  served : ∀ tunId, s.undealt tunId =
    s.ctlToClient.count (.notifyClientNeedProxy tunId) + s.connecting.count tunId

/-- A public connection that no free connection takes over is accepted once a
NewTunnelRsp with the `tun_id` has been sent. -/
def AcceptsAnnounced (s : TunnelSetup) : SetupEvent → Prop
  | .newPublicConn index _ => ∀ tun, s.tunnels[index]? = some tun →
      tun.freeProxyConns = [] → tun.tunId ∈ s.announced
  | _ => True

end TunnelSetup

/-! ## Counting over the tunnels -/

theorem sum_map_modify {α : Type} {items : List α} {index : Nat} {item : α} (weight : α → Nat)
    (update : α → α) (hitem : items[index]? = some item) :
    ((items.modify index update).map weight).sum + weight item =
      (items.map weight).sum + weight (update item) := by
  induction items generalizing index with
  | nil => simp at hitem
  | cons head rest ih =>
      cases index with
      | zero =>
          rw [List.getElem?_cons_zero, Option.some.injEq] at hitem
          subst hitem
          simp only [List.modify_zero_cons, List.map_cons, List.sum_cons]
          omega
      | succ index =>
          rw [List.getElem?_cons_succ] at hitem
          have hrest := ih hitem
          simp only [List.modify_succ_cons, List.map_cons, List.sum_cons]
          omega

namespace TunnelSetup

variable {s s' : TunnelSetup} {known : Finset Str} {queue : List TunnelMsg} {tunId : Str}

theorem finds_append_newTunnelRsp (hfinds : Finds known queue) (tunId : Str) :
    Finds known (queue ++ [.newTunnelRsp tunId]) := by
  induction queue generalizing known with
  | nil => exact trivial
  | cons msg rest ih =>
      cases msg with
      | newTunnelRsp other => exact ih hfinds
      | notifyClientNeedProxy other => exact ⟨hfinds.1, ih hfinds.2⟩

/-- A notification that is sent last is found when a reply is on its way or has been read. -/
theorem finds_append_notify :
    Finds known (queue ++ [.notifyClientNeedProxy tunId]) ↔
      Finds known queue ∧ (tunId ∈ known ∨ .newTunnelRsp tunId ∈ queue) := by
  induction queue generalizing known with
  | nil => simp [Finds]
  | cons msg rest ih =>
      cases msg with
      | newTunnelRsp other =>
          rw [List.cons_append, Finds, ih, Finds, Finset.mem_insert, List.mem_cons,
            TunnelMsg.newTunnelRsp.injEq]
          apply and_congr_right
          intro _
          rw [or_comm (a := tunId = other), or_assoc]
      | notifyClientNeedProxy other =>
          rw [List.cons_append, Finds, ih, Finds, List.mem_cons, and_assoc]
          simp

/-! ## What the main thread has listed -/

/-- The `tun_id` of each tunnel, oldest first. -/
def names (s : TunnelSetup) : List Str := s.tunnels.map ServerTunnel.tunId

/-- `tunnel_map_` leads to tunnels of the right name, and knows every `tun_id` whose
reply has been sent. -/
structure Listed (s : TunnelSetup) : Prop where
  keyed : ∀ tunId index, s.tunnelMap.lookup tunId = some index → s.names[index]? = some tunId
  announced : ∀ tunId ∈ s.announced, tunId ∈ s.tunnelMap
  constructed : ∀ tunId index, s.mainThread = .constructed tunId index →
    s.names[index]? = some tunId
  added : ∀ tunId index, s.mainThread = .added tunId index → tunId ∈ s.tunnelMap

/-- The replies that have been sent have been read or are on their way, no
notification will be discarded, and each proxy connection is for a known tunnel. -/
structure Told (s : TunnelSetup) : Prop where
  announced : ∀ tunId, tunId ∈ s.announced ↔
    tunId ∈ s.clientTunnelMap ∨ .newTunnelRsp tunId ∈ s.ctlToClient
  finds : Finds s.clientTunnelMap s.ctlToClient
  connecting : ∀ tunId ∈ s.connecting, tunId ∈ s.clientTunnelMap

structure SetupInv (s : TunnelSetup) : Prop where
  listed : Listed s
  told : Told s
  served : ∀ tunId, s.undealt tunId =
    s.ctlToClient.count (.notifyClientNeedProxy tunId) + s.connecting.count tunId

theorem SetupInv.notified (hinv : SetupInv s) : Notified s := ⟨hinv.told.finds, hinv.served⟩

/-! ## The steps of the main thread -/

theorem SetupInv.construct (hinv : SetupInv s) (hstep : s.construct tunId = some s') :
    SetupInv s' := by
  unfold TunnelSetup.construct at hstep
  cases hthread : s.mainThread with
  | constructed other index => simp [hthread] at hstep
  | added other index => simp [hthread] at hstep
  | idle =>
      simp only [hthread, Option.some.injEq] at hstep
      subst hstep
      have hnames : (s.tunnels ++ [ServerTunnel.mk tunId [] []]).map ServerTunnel.tunId =
          s.names ++ [tunId] := by
        rw [List.map_append]
        rfl
      refine ⟨⟨?_, hinv.listed.announced, ?_, nofun⟩,
        ⟨hinv.told.announced, hinv.told.finds, hinv.told.connecting⟩, ?_⟩
      · intro other index hlookup
        have hold := hinv.listed.keyed other index hlookup
        rw [names, hnames, List.getElem?_append_left (List.getElem?_eq_some_iff.mp hold).1]
        exact hold
      · intro other index hnew
        obtain ⟨rfl, rfl⟩ := MainThread.constructed.inj hnew
        rw [names, hnames, ← List.length_map ServerTunnel.tunId, ← names, List.getElem?_concat_length]
      · intro other
        rw [← hinv.served other]
        simp [undealt]

theorem SetupInv.upsertTunnel (hinv : SetupInv s) (hstep : s.upsertTunnel = some s') :
    SetupInv s' := by
  unfold TunnelSetup.upsertTunnel at hstep
  cases hthread : s.mainThread with
  | idle => simp [hthread] at hstep
  | added other index => simp [hthread] at hstep
  | constructed tunId index =>
      simp only [hthread, Option.some.injEq] at hstep
      subst hstep
      refine ⟨⟨?_, ?_, nofun, ?_⟩,
        ⟨hinv.told.announced, hinv.told.finds, hinv.told.connecting⟩, hinv.served⟩
      · intro other found hlookup
        rcases lookup_of_emplace hlookup with hbefore | ⟨rfl, rfl⟩
        · exact hinv.listed.keyed other found hbefore
        · exact hinv.listed.constructed other found hthread
      · intro other hother
        exact mem_emplace.mpr (Or.inr (hinv.listed.announced other hother))
      · intro other found hadded
        obtain ⟨rfl, rfl⟩ := MainThread.added.inj hadded
        exact mem_emplace.mpr (Or.inl rfl)

theorem SetupInv.sendNewTunnelRsp (hinv : SetupInv s) (hstep : s.sendNewTunnelRsp = some s') :
    SetupInv s' := by
  unfold TunnelSetup.sendNewTunnelRsp at hstep
  cases hthread : s.mainThread with
  | idle => simp [hthread] at hstep
  | constructed other index => simp [hthread] at hstep
  | added tunId index =>
      simp only [hthread, Option.some.injEq] at hstep
      subst hstep
      refine ⟨⟨hinv.listed.keyed, ?_, nofun, nofun⟩,
        ⟨?_, finds_append_newTunnelRsp hinv.told.finds tunId, hinv.told.connecting⟩, ?_⟩
      · intro other hother
        rcases Finset.mem_insert.mp hother with rfl | hbefore
        · exact hinv.listed.added other index hthread
        · exact hinv.listed.announced other hbefore
      · intro other
        simp only [Finset.mem_insert, hinv.told.announced other, List.mem_append,
          List.mem_singleton, TunnelMsg.newTunnelRsp.injEq]
        tauto
      · intro other
        rw [List.count_append]
        simp only [List.count_singleton, beq_iff_eq, reduceCtorEq, if_false]
        exact hinv.served other

/-! ## The steps of the listen thread, the workers and the client -/

variable {index : Nat} {tun : ServerTunnel} {update : ServerTunnel → ServerTunnel}

theorem names_mapTunnel (hkeeps : ∀ tun, (update tun).tunId = tun.tunId) (index : Nat) :
    (s.mapTunnel index update).names = s.names := by
  apply List.ext_getElem?
  intro place
  simp only [names, mapTunnel, List.getElem?_map, List.getElem?_modify]
  cases s.tunnels[place]? with
  | none => rfl
  | some tun =>
      by_cases hplace : index = place
      · simp [hplace, hkeeps]
      · simp [hplace]

theorem Listed.mapTunnel (hlisted : Listed s) (hkeeps : ∀ tun, (update tun).tunId = tun.tunId)
    (index : Nat) : Listed (s.mapTunnel index update) where
  keyed := by
    rw [names_mapTunnel hkeeps]
    exact hlisted.keyed
  announced := hlisted.announced
  constructed := by
    rw [names_mapTunnel hkeeps]
    exact hlisted.constructed
  added := hlisted.added

theorem undealt_mapTunnel (htun : s.tunnels[index]? = some tun) (tunId : Str)
    (hkeeps : ∀ tun, (update tun).tunId = tun.tunId) :
    (s.mapTunnel index update).undealt tunId +
        (if tun.tunId = tunId then tun.undealPublicFds.length else 0) =
      s.undealt tunId +
        if tun.tunId = tunId then (update tun).undealPublicFds.length else 0 := by
  have hsum := sum_map_modify
    (fun tun => if tun.tunId = tunId then tun.undealPublicFds.length else 0) update htun
  simp only [hkeeps] at hsum
  exact hsum

/-- A change of the free connections leaves the public connections that wait. -/
theorem undealt_mapTunnel_of_kept (hkeeps : ∀ tun, (update tun).tunId = tun.tunId)
    (hundealt : ∀ tun, (update tun).undealPublicFds = tun.undealPublicFds) (index : Nat)
    (tunId : Str) : (s.mapTunnel index update).undealt tunId = s.undealt tunId := by
  cases htun : s.tunnels[index]? with
  | none =>
      have hsame : s.tunnels.modify index update = s.tunnels :=
        List.modify_eq_self (List.getElem?_eq_none_iff.mp htun)
      simp only [undealt, mapTunnel, hsame]
  | some tun =>
      have hsum := undealt_mapTunnel htun tunId hkeeps
      rw [hundealt] at hsum
      omega

theorem SetupInv.mapFree (hinv : SetupInv s) (hkeeps : ∀ tun, (update tun).tunId = tun.tunId)
    (hundealt : ∀ tun, (update tun).undealPublicFds = tun.undealPublicFds) (index : Nat) :
    SetupInv (s.mapTunnel index update) where
  listed := hinv.listed.mapTunnel hkeeps index
  told := ⟨hinv.told.announced, hinv.told.finds, hinv.told.connecting⟩
  served := by
    intro tunId
    rw [undealt_mapTunnel_of_kept hkeeps hundealt]
    exact hinv.served tunId

theorem SetupInv.newPublicConn (hinv : SetupInv s) {acceptFd : Fd}
    (hlaw : AcceptsAnnounced s (.newPublicConn index acceptFd))
    (hstep : s.newPublicConnHandler index acceptFd = some s') : SetupInv s' := by
  unfold TunnelSetup.newPublicConnHandler at hstep
  cases htun : s.tunnels[index]? with
  | none => simp [htun] at hstep
  | some tun =>
      cases hfree : tun.freeProxyConns.getLast? with
      | some id =>
          simp only [htun, hfree, Option.some.injEq] at hstep
          subst hstep
          apply hinv.mapFree
          · intro tun
            rfl
          · intro tun
            rfl
      | none =>
          simp only [htun, hfree, Option.some.injEq] at hstep
          subst hstep
          have hknown := hlaw tun htun (List.getLast?_eq_none_iff.mp hfree)
          refine ⟨?_, ⟨?_, ?_, hinv.told.connecting⟩, ?_⟩
          · have hlisted := hinv.listed.mapTunnel (fun tun : ServerTunnel => (rfl :
              { tun with undealPublicFds := tun.undealPublicFds ++ [acceptFd] }.tunId =
                tun.tunId)) index
            exact { hlisted with }
          · intro tunId
            rw [List.mem_append, List.mem_singleton]
            simp only [reduceCtorEq, or_false]
            exact hinv.told.announced tunId
          · exact finds_append_notify.mpr
              ⟨hinv.told.finds, (hinv.told.announced tun.tunId).mp hknown⟩
          · -- one more public connection waits, and one more notification is on its way
            intro tunId
            have hsum := @undealt_mapTunnel s index tun
              (fun tun => { tun with undealPublicFds := tun.undealPublicFds ++ [acceptFd] }) htun
              tunId fun _ => rfl
            have hserved := hinv.served tunId
            rw [List.length_append, List.length_singleton] at hsum
            rw [List.count_append, List.count_singleton]
            simp only [beq_iff_eq, TunnelMsg.notifyClientNeedProxy.injEq]
            simp only [undealt, mapTunnel] at hsum hserved ⊢
            by_cases hname : tun.tunId = tunId
            · simp only [hname, if_true] at hsum ⊢
              omega
            · simp only [hname, if_false] at hsum ⊢
              omega

theorem SetupInv.clientCtlRead (hinv : SetupInv s) (hstep : s.clientCtlRead = some s') :
    SetupInv s' := by
  unfold TunnelSetup.clientCtlRead at hstep
  have hfinds := hinv.told.finds
  have hserved := hinv.served
  have hannounced := hinv.told.announced
  cases hctl : s.ctlToClient with
  | nil => simp [hctl] at hstep
  | cons msg rest =>
      rw [hctl] at hfinds
      simp only [hctl] at hserved hannounced
      cases msg with
      | newTunnelRsp tunId =>
          simp only [hctl, Option.some.injEq] at hstep
          subst hstep
          refine ⟨{ hinv.listed with }, ⟨?_, hfinds, ?_⟩, ?_⟩
          · intro other
            rw [hannounced other, Finset.mem_insert, List.mem_cons, TunnelMsg.newTunnelRsp.injEq]
            tauto
          · intro other hother
            exact Finset.mem_insert_of_mem (hinv.told.connecting other hother)
          · intro other
            have hcount := hserved other
            rw [List.count_cons_of_ne (by simp)] at hcount
            exact hcount
      | notifyClientNeedProxy tunId =>
          simp only [hctl, hfinds.1, if_true, Option.some.injEq] at hstep
          subst hstep
          refine ⟨{ hinv.listed with }, ⟨?_, hfinds.2, ?_⟩, ?_⟩
          · intro other
            rw [hannounced other, List.mem_cons]
            simp
          · intro other hother
            rcases List.mem_append.mp hother with hbefore | hnew
            · exact hinv.told.connecting other hbefore
            · rw [List.mem_singleton.mp hnew]
              exact hfinds.1
          · intro other
            have hcount := hserved other
            rw [List.count_cons] at hcount
            rw [List.count_append, List.count_singleton]
            simp only [beq_iff_eq, TunnelMsg.notifyClientNeedProxy.injEq] at hcount ⊢
            simp only [undealt] at hcount ⊢
            omega

theorem SetupInv.claimProxyConn (hinv : SetupInv s) (hstep : s.claimProxyConn tunId = some s') :
    SetupInv s' := by
  unfold TunnelSetup.claimProxyConn at hstep
  by_cases hconnecting : tunId ∈ s.connecting
  · rw [if_pos hconnecting] at hstep
    -- a `tun_id` the client knows was announced, so `tunnel_map_` has it
    have hknown := hinv.told.connecting tunId hconnecting
    have hmem := hinv.listed.announced tunId ((hinv.told.announced tunId).mpr (Or.inl hknown))
    obtain ⟨index, hlookup⟩ := Option.isSome_iff_exists.mp (AList.lookup_isSome.mpr hmem)
    have hname := hinv.listed.keyed tunId index hlookup
    rw [names, List.getElem?_map, Option.map_eq_some_iff] at hname
    obtain ⟨tun, htun, hname⟩ := hname
    cases hlast : tun.undealPublicFds.getLast? with
    | none => simp [hlookup, htun, hlast] at hstep
    | some fd =>
        simp only [hlookup, htun, Option.bind_some, hlast, Option.some.injEq] at hstep
        subst hstep
        refine ⟨?_, ⟨hinv.told.announced, hinv.told.finds, ?_⟩, ?_⟩
        · have hlisted := hinv.listed.mapTunnel (fun tun : ServerTunnel => (rfl :
            { tun with undealPublicFds := tun.undealPublicFds.dropLast }.tunId = tun.tunId)) index
          exact { hlisted with }
        · intro other hother
          exact hinv.told.connecting other (List.mem_of_mem_erase hother)
        · intro other
          have hsum := @undealt_mapTunnel s index tun
            (fun tun => { tun with undealPublicFds := tun.undealPublicFds.dropLast }) htun
            other fun _ => rfl
          have hserved := hinv.served other
          have hlength : tun.undealPublicFds.dropLast.length + 1 = tun.undealPublicFds.length := by
            obtain ⟨others, hsplit⟩ := List.getLast?_eq_some_iff.mp hlast
            rw [hsplit, List.dropLast_concat, List.length_append, List.length_singleton]
          have hpositive : 0 < s.connecting.count tunId := List.count_pos_iff.mpr hconnecting
          simp only [undealt, hname] at hsum hserved ⊢
          simp only [mapTunnel] at hsum ⊢
          by_cases hother : tunId = other
          · subst hother
            rw [if_pos rfl, if_pos rfl] at hsum
            rw [List.count_erase_self]
            omega
          · rw [if_neg hother, if_neg hother] at hsum
            rw [List.count_erase_of_ne (Ne.symm hother)]
            omega
  · rw [if_neg hconnecting] at hstep
    cases hstep

theorem SetupInv.step {event : SetupEvent} (hinv : SetupInv s) (hlaw : AcceptsAnnounced s event)
    (hstep : TunnelSetup.step s event = some s') : SetupInv s' := by
  cases event with
  | construct tunId => exact hinv.construct hstep
  | upsertTunnel => exact hinv.upsertTunnel hstep
  | sendNewTunnelRsp => exact hinv.sendNewTunnelRsp hstep
  | newPublicConn index acceptFd => exact hinv.newPublicConn hlaw hstep
  | freeProxyConn index id =>
      obtain rfl := Option.some.inj hstep
      apply hinv.mapFree
      · intro tun
        rfl
      · intro tun
        rfl
  | clientCtlRead => exact hinv.clientCtlRead hstep
  | claimProxyConn tunId => exact hinv.claimProxyConn hstep

end TunnelSetup

end CProxy
