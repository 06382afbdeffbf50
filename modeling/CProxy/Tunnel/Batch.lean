import CProxy.Foundation.Snapshot
import CProxy.Tunnel.Pool

/-! # The batch of ready channels

`EventLoop::Loop` on one thread of the server. `getReadyChannels` fixes a batch, and the
handlers of its channels run in turn; a handler may destroy a connection, whose `~Conn`
takes its channel out of the poller. The other threads' events on the tunnel come in
between.
-/

namespace CProxy

open Foundation Wire

/-- The channel of a proxy connection or of a `PublicConn`. -/
inductive Chan where
  | proxy (id : RandStr)
  | publicConn (fd : Fd)
  deriving DecidableEq

/-- `current` is the channel whose handlers run, or the last one of the batch. -/
structure LoopSystem where
  pool : Pool := {}
  channels : Snapshot Chan := {}
  current : Option Chan := none

inductive LoopEvent where
  /-- The main thread adds an accepted connection to the loop. -/
  | newProxyConn (id : RandStr)
  | wait (ready : List Chan)
  | dispatch
  | tunnel (event : PoolEvent)

namespace LoopSystem

/-- The connection in whose handlers the tunnel's function is called. -/
def handler : PoolEvent → Option RandStr
  | .claimProxyConn id => some id
  | .startProxyConnRsp id => some id
  | .proxyConnClose id => some id
  | .newPublicConn _ | .resetConn _ | .freeProxyConn _ => none

/-- A connection of this loop is handled by its thread, in its turn. -/
def InTurn (mine : RandStr → Bool) (s : LoopSystem) (event : PoolEvent) : Prop :=
  ∀ id ∈ handler event, mine id = true → s.current = some (.proxy id)

instance (mine : RandStr → Bool) (s : LoopSystem) (event : PoolEvent) :
    Decidable (s.InTurn mine event) := by
  unfold InTurn
  infer_instance

/-- `~Conn`. -/
def removeFromPoller (s : LoopSystem) (chan : Chan) : LoopSystem :=
  { s with channels := s.channels.remove chan }

/-- The last reference to a `peerConn_` goes. -/
def dropPeer (s : LoopSystem) : Option PublicConn → LoopSystem
  | none => s
  | some conn => s.removeFromPoller (.publicConn conn.fd)

/-- `ProxyConn::start` with a new `PublicConn`. -/
def start (s : LoopSystem) (id : RandStr) (publicFd : Fd) : LoopSystem :=
  let s := s.dropPeer (s.pool.peerConn id)
  { s with channels := s.channels.add (.publicConn publicFd) }

/-- What the tunnel's function does to the poller of its thread. -/
def pollerStep (s : LoopSystem) : PoolEvent → LoopSystem
  | .claimProxyConn id =>
      match s.pool.undealPublicFds.getLast? with
      | none => s
      | some publicFd => s.start id publicFd
  | .startProxyConnRsp id =>
      match s.pool.requested id with
      | none => s
      | some publicFd => if id ∈ s.pool.waitForStartProxyConnMap then s.start id publicFd else s
  | .proxyConnClose id =>
      if (s.pool.handlePeerProxyConnClose id).Owned id then s
      else (s.removeFromPoller (.proxy id)).dropPeer (s.pool.peerConn id)
  | .newPublicConn _ | .resetConn _ | .freeProxyConn _ => s

/-- The poller of this loop after a tunnel's function that may belong to another. -/
def polled (mine : RandStr → Bool) (s : LoopSystem) (event : PoolEvent) : LoopSystem :=
  if (handler event).any mine then s.pollerStep event else s

/-- `epoll_wait` names each ready descriptor once, and a batch is made of the channels
that `fd2chan_` has for them. -/
def step (mine : RandStr → Bool) (s : LoopSystem) : LoopEvent → Option LoopSystem
  | .newProxyConn id =>
      if mine id = true ∧ s.pool.claimed id = false ∧ .proxy id ∉ s.channels.live then
        some { s with channels := s.channels.add (.proxy id) }
      else none
  | .wait ready =>
      if s.channels.pending = [] ∧ ready ≠ [] ∧ ready.Nodup ∧ ∀ chan ∈ ready, chan ∈ s.channels.live
      then some { s with channels := s.channels.fix ready, current := none }
      else none
  | .dispatch =>
      s.channels.take.map fun (chan, channels) =>
        { s with channels := channels, current := some chan }
  | .tunnel event =>
      if s.InTurn mine event then
        (s.pool.step event).map fun pool => { s.polled mine event with pool := pool }
      else none

/-! ## What is claimed, and when it holds -/

/-- `HandleEvents` is not called on a channel that was removed since the batch was fixed. -/
def DispatchesLive (s : LoopSystem) : LoopEvent → Prop
  | .dispatch => ∀ chan channels, s.channels.take = some (chan, channels) →
      chan ∉ s.channels.removed
  | _ => True

/-- The connection's `PublicConn`, when it has one, is not in the rest of the batch. -/
def PeerDone (s : LoopSystem) (id : RandStr) : Prop :=
  ∀ conn ∈ s.pool.peerConn id, .publicConn conn.fd ∉ s.channels.pending

/-- Something keeps a connection that closes: the map of those that wait, or the vector
of free ones, in which `std::remove` leaves it. -/
def Kept (s : LoopSystem) (id : RandStr) : Prop :=
  id ∈ s.pool.waitForStartProxyConnMap ∨ some id ∈ remove (some id) s.pool.freeProxyConns

/-- No connection of this loop is destroyed or started again while its `PublicConn` is
still in the batch. -/
def SparesBatch (mine : RandStr → Bool) (s : LoopSystem) : LoopEvent → Prop
  | .tunnel (.claimProxyConn id) => mine id = true → s.PeerDone id
  | .tunnel (.startProxyConnRsp id) =>
      mine id = true → id ∈ s.pool.waitForStartProxyConnMap → s.PeerDone id
  | .tunnel (.proxyConnClose id) => mine id = true → ¬ s.Kept id → s.PeerDone id
  | _ => True

/-- The channel whose handlers run is not in the rest of the batch, and nothing is in it
twice. -/
structure Ordered (s : LoopSystem) : Prop where
  nodup : s.channels.pending.Nodup
  current : ∀ chan ∈ s.current, chan ∉ s.channels.pending

variable {mine : RandStr → Bool} {s s' : LoopSystem} {event : PoolEvent} {id : RandStr}

/-! ## What leaves the poller -/

/-- The batch and the place in it are the same. -/
structure SameBatch (s s' : LoopSystem) : Prop where
  pending : s'.channels.pending = s.channels.pending
  current : s'.current = s.current

theorem SameBatch.refl (s : LoopSystem) : SameBatch s s := ⟨rfl, rfl⟩

theorem dropPeer_sameBatch (s : LoopSystem) (peer : Option PublicConn) :
    SameBatch s (s.dropPeer peer) := by
  cases peer with
  | none => exact .refl s
  | some conn => exact ⟨rfl, rfl⟩

theorem start_sameBatch (s : LoopSystem) (id : RandStr) (publicFd : Fd) :
    SameBatch s (s.start id publicFd) :=
  ⟨(s.dropPeer_sameBatch (s.pool.peerConn id)).pending,
    (s.dropPeer_sameBatch (s.pool.peerConn id)).current⟩

theorem dropPeer_clean (s : LoopSystem) (peer : Option PublicConn) :
    (s.dropPeer peer).channels.Clean ↔
      s.channels.Clean ∧ ∀ conn ∈ peer, .publicConn conn.fd ∉ s.channels.pending := by
  cases peer with
  | none => simp [dropPeer]
  | some conn => simp [dropPeer, removeFromPoller]

/-- A start takes the last session's `PublicConn` out, when there is one. -/
theorem start_clean (s : LoopSystem) (id : RandStr) (publicFd : Fd) :
    (s.start id publicFd).channels.Clean ↔ s.channels.Clean ∧ s.PeerDone id := by
  unfold start
  exact (Snapshot.clean_add _ _).trans (dropPeer_clean s (s.pool.peerConn id))

theorem owned_iff_kept (s : LoopSystem) (id : RandStr) :
    (s.pool.handlePeerProxyConnClose id).Owned id ↔ s.Kept id := by
  have hgone : id ∉ s.pool.proxyConnMap.erase id.chars :=
    fun hmem => (Pool.mem_erase.mp hmem).1 rfl
  constructor
  · rintro (hmapped | hwaiting | hfree)
    · exact absurd hmapped hgone
    · exact Or.inl hwaiting
    · exact Or.inr hfree
  · rintro (hwaiting | hfree)
    · exact Or.inr (Or.inl hwaiting)
    · exact Or.inr (Or.inr hfree)

theorem pollerStep_sameBatch (s : LoopSystem) (event : PoolEvent) :
    SameBatch s (s.pollerStep event) := by
  cases event with
  | newPublicConn acceptFd => exact .refl s
  | resetConn id => exact .refl s
  | freeProxyConn proxyId => exact .refl s
  | claimProxyConn id =>
      simp only [pollerStep]
      cases s.pool.undealPublicFds.getLast? with
      | none => exact .refl s
      | some publicFd => exact s.start_sameBatch id publicFd
  | startProxyConnRsp id =>
      simp only [pollerStep]
      cases s.pool.requested id with
      | none => exact .refl s
      | some publicFd =>
          by_cases hwaiting : id ∈ s.pool.waitForStartProxyConnMap
          · simp only [if_pos hwaiting]
            exact s.start_sameBatch id publicFd
          · simp only [if_neg hwaiting]
            exact .refl s
  | proxyConnClose id =>
      simp only [pollerStep]
      split
      · exact .refl s
      · have hdrop := (s.removeFromPoller (.proxy id)).dropPeer_sameBatch (s.pool.peerConn id)
        exact ⟨hdrop.pending, hdrop.current⟩

theorem polled_sameBatch (mine : RandStr → Bool) (s : LoopSystem) (event : PoolEvent) :
    SameBatch s (s.polled mine event) := by
  unfold polled
  split
  · exact s.pollerStep_sameBatch event
  · exact .refl s

/-- A tunnel's function leaves nothing removed in the batch exactly when it spares it. -/
theorem polled_clean (hordered : s.Ordered) (hturn : s.InTurn mine event)
    (hpool : (s.pool.step event).isSome) :
    (s.polled mine event).channels.Clean ↔
      s.channels.Clean ∧ s.SparesBatch mine (.tunnel event) := by
  cases event with
  | newPublicConn acceptFd => simp [polled, handler, SparesBatch]
  | resetConn id => simp [polled, handler, SparesBatch]
  | freeProxyConn proxyId => simp [polled, handler, SparesBatch]
  | claimProxyConn id =>
      by_cases hmine : mine id = true
      · cases hlast : s.pool.undealPublicFds.getLast? with
        | none => simp [Pool.step, Pool.claimProxyConn, hlast] at hpool
        | some publicFd =>
            simp [polled, handler, pollerStep, SparesBatch, hmine, hlast, start_clean]
      · simp [polled, handler, SparesBatch, hmine]
  | startProxyConnRsp id =>
      by_cases hmine : mine id = true
      · cases hreq : s.pool.requested id with
        | none => simp [Pool.step, Pool.handleStartProxyConnRsp, hreq] at hpool
        | some publicFd =>
            by_cases hwaiting : id ∈ s.pool.waitForStartProxyConnMap
            · simp [polled, handler, pollerStep, SparesBatch, hmine, hreq, hwaiting, start_clean]
            · simp [polled, handler, pollerStep, SparesBatch, hmine, hreq, hwaiting]
      · simp [polled, handler, SparesBatch, hmine]
  | proxyConnClose id =>
      by_cases hmine : mine id = true
      · -- the connection's own channel is the one that is being handled
        have hown : Chan.proxy id ∉ s.channels.pending :=
          hordered.current _ (hturn id rfl hmine)
        by_cases hkept : s.Kept id
        · simp [polled, handler, pollerStep, SparesBatch, hmine, owned_iff_kept, hkept]
        · simp [polled, handler, pollerStep, SparesBatch, hmine, owned_iff_kept, hkept,
            dropPeer_clean, removeFromPoller, hown, PeerDone]
      · simp [polled, handler, SparesBatch, hmine]

/-! ## Any run of the loop -/

theorem Ordered.step (hordered : s.Ordered) {event : LoopEvent}
    (hstep : step mine s event = some s') : s'.Ordered := by
  cases event with
  | newProxyConn id =>
      simp only [LoopSystem.step, Option.ite_none_right_eq_some, Option.some.injEq] at hstep
      obtain ⟨-, rfl⟩ := hstep
      exact ⟨hordered.nodup, hordered.current⟩
  | wait ready =>
      simp only [LoopSystem.step, Option.ite_none_right_eq_some, Option.some.injEq] at hstep
      obtain ⟨⟨-, -, hnodup, -⟩, rfl⟩ := hstep
      exact ⟨hnodup, fun chan hchan => by cases hchan⟩
  | dispatch =>
      obtain ⟨⟨chan, channels⟩, htake, rfl⟩ := Option.map_eq_some_iff.mp hstep
      obtain ⟨rest, hpending, rfl⟩ := Snapshot.take_eq_some.mp htake
      have hnodup := hordered.nodup
      rw [hpending] at hnodup
      obtain ⟨hfirst, hrest⟩ := List.nodup_cons.mp hnodup
      refine ⟨hrest, ?_⟩
      rintro other hother
      obtain rfl := Option.some.inj hother
      exact hfirst
  | tunnel event =>
      simp only [LoopSystem.step, Option.ite_none_right_eq_some, Option.map_eq_some_iff] at hstep
      obtain ⟨-, pool, -, rfl⟩ := hstep
      have hsame := polled_sameBatch mine s event
      constructor
      · exact hsame.pending ▸ hordered.nodup
      · intro chan hchan
        rw [hsame.current] at hchan
        exact hsame.pending ▸ hordered.current chan hchan

theorem clean_step (hordered : s.Ordered) {event : LoopEvent}
    (hstep : step mine s event = some s') (hlive : s.DispatchesLive event) :
    s'.channels.Clean ↔ s.channels.Clean ∧ s.SparesBatch mine event := by
  cases event with
  | newProxyConn id =>
      simp only [LoopSystem.step, Option.ite_none_right_eq_some, Option.some.injEq] at hstep
      obtain ⟨-, rfl⟩ := hstep
      exact (and_iff_left trivial).symm
  | wait ready =>
      simp only [LoopSystem.step, Option.ite_none_right_eq_some, Option.some.injEq] at hstep
      obtain ⟨⟨hdone, -⟩, rfl⟩ := hstep
      exact iff_of_true (Snapshot.clean_fix _ _) ⟨Snapshot.clean_of_pending_nil hdone, trivial⟩
  | dispatch =>
      obtain ⟨⟨chan, channels⟩, htake, rfl⟩ := Option.map_eq_some_iff.mp hstep
      exact (Snapshot.clean_take htake (hlive chan channels htake)).trans
        (and_iff_left trivial).symm
  | tunnel event =>
      simp only [LoopSystem.step, Option.ite_none_right_eq_some, Option.map_eq_some_iff] at hstep
      obtain ⟨hturn, pool, hpool, rfl⟩ := hstep
      exact polled_clean hordered hturn (Option.isSome_of_mem hpool)

theorem dispatchesLive_of_clean (hclean : s.channels.Clean) (event : LoopEvent) :
    s.DispatchesLive event := by
  cases event with
  | dispatch => exact fun chan channels htake => hclean.notMem_removed htake
  | newProxyConn id => trivial
  | wait ready => trivial
  | tunnel event => trivial

theorem ordered_init : Ordered {} := ⟨List.nodup_nil, fun chan hchan => by cases hchan⟩

/-- In a run in which no handler destroys a connection, or starts it again, while its
`PublicConn` is in the batch, no event is dispatched to a removed channel. In a run whose
last batch is through, the second holds only if the first does. -/
theorem dispatches_live_iff (mine : RandStr → Bool) (events : List LoopEvent) :
    (Takes (step mine) (SparesBatch mine) {} events → Takes (step mine) DispatchesLive {} events) ∧
      ∀ final, run (step mine) {} events = some final → final.channels.pending = [] →
        (Takes (step mine) DispatchesLive {} events ↔
          Takes (step mine) (SparesBatch mine) {} events) := by
  have hspares : Takes (step mine) (SparesBatch mine) {} events →
      Takes (step mine) DispatchesLive {} events := by
    intro htakes before event middle next hinit hrun hnext
    have hstep (s : LoopSystem) (event : LoopEvent) (s' : LoopSystem)
        (hinv : s.Ordered ∧ s.channels.Clean) (hlaw : s.SparesBatch mine event)
        (hstep : step mine s event = some s') : s'.Ordered ∧ s'.channels.Clean := by
      refine ⟨hinv.1.step hstep, ?_⟩
      exact (clean_step hinv.1 hstep (dispatchesLive_of_clean hinv.2 event)).mpr ⟨hinv.2, hlaw⟩
    have hbefore : before <+: events := (List.prefix_append before [event]).trans hinit
    have hmiddle := run_invariant_of_takes hstep ⟨ordered_init, Snapshot.clean_of_pending_nil rfl⟩
      (htakes.of_initial hbefore) hrun
    exact dispatchesLive_of_clean hmiddle.2 event
  refine ⟨hspares, ?_⟩
  intro final hrun hdone
  refine ⟨?_, hspares⟩
  intro hlive
  exact (takes_of_clean_end (fun _ _ _ hordered hstep => Ordered.step hordered hstep)
    (fun _ _ _ hordered hstep hgood hclean => (clean_step hordered hstep hgood).mp hclean)
    ordered_init hlive hrun (Snapshot.clean_of_pending_nil hdone)).2

/-- A proxy connection and its `PublicConn` are ready together, and the first closes. -/
def sampleBatch : List LoopEvent :=
  [.newProxyConn Pool.firstId, .tunnel (.newPublicConn 5), .wait [.proxy Pool.firstId], .dispatch,
    .tunnel (.claimProxyConn Pool.firstId), .wait [.proxy Pool.firstId, .publicConn 5], .dispatch,
    .tunnel (.proxyConnClose Pool.firstId)]

theorem not_dispatches_live :
    ¬ ∀ (mine : RandStr → Bool) (events : List LoopEvent),
      Takes (step mine) DispatchesLive {} events := by
  intro hall
  have hreached : (run (step fun _ => true) {} sampleBatch).map
      (fun s => (s.channels.pending, decide (.publicConn 5 ∈ s.channels.removed))) =
        some ([.publicConn 5], true) := by
    decide
  obtain ⟨s, hrun, hs⟩ := Option.map_eq_some_iff.mp hreached
  obtain ⟨hpending, hremoved⟩ := Prod.mk.inj hs
  have htake : s.channels.take = some (.publicConn 5, { s.channels with pending := [] }) :=
    Snapshot.take_eq_some.mpr ⟨[], hpending, rfl⟩
  have hlive := hall (fun _ => true) (sampleBatch ++ [.dispatch]) sampleBatch .dispatch s _
    List.prefix_rfl hrun (Option.map_eq_some_iff.mpr ⟨_, htake, rfl⟩)
  exact hlive _ _ htake (of_decide_eq_true hremoved)

end LoopSystem

end CProxy
