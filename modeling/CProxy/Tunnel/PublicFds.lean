import CProxy.Foundation.Placement
import CProxy.Tunnel.Pool

/-! # Where the accepted descriptors are

A descriptor that `newPublicConnHandler` accepts goes from `undeal_public_fds_` or from
a message to the `PublicConn` of a proxy connection. Nothing closes the descriptor of a
`PublicConn` that is dropped, and nothing takes one back from a connection that closes.
-/

namespace CProxy

open Foundation Wire

inductive FdPlace where
  | undeal
  /-- The request that was sent to a connection, or its answer. -/
  | message (id : RandStr)
  | peer (id : RandStr)

namespace Pool

def HeldAt (s : Pool) (fd : Fd) : FdPlace → Prop
  | .undeal => fd ∈ s.undealPublicFds
  | .message id =>
      id ∈ s.waitForStartProxyConnMap ∧ s.closed id = false ∧ s.requested id = some fd
  | .peer id => s.Owned id ∧ (s.peerConn id).map PublicConn.fd = some fd

def AllHeld (s : Pool) : Prop :=
  ∀ fd ∈ s.accepted, fd ∈ s.closedFds ∨ ∃ place, s.HeldAt fd place

/-- The descriptor of a `PublicConn` that `start` replaces, or that goes with its
connection, is closed. -/
def ClosesDropped (s : Pool) (event : PoolEvent) : Prop :=
  ∀ s', Pool.step s event = some s' → ∀ id conn, s.peerConn id = some conn →
    s'.peerConn id = some conn ∨ conn.fd ∈ s'.closedFds

/-- No connection that is closed is popped, none that has a `PublicConn` is started, and
none closes in a container, unless it is the one at the back of the free ones. -/
def SparesFds (s : Pool) : PoolEvent → Prop
  | .newPublicConn _ => ∀ id, s.freeProxyConns.getLast? = some (some id) → s.closed id = false
  | .startProxyConnRsp id => s.peerConn id = none
  | .proxyConnClose id =>
      id ∉ s.proxyConnMap ∧ id ∉ s.waitForStartProxyConnMap ∧
        (some id ∈ s.freeProxyConns → s.freeProxyConns.getLast? = some (some id))
  | _ => True

/-- Every connection in one container at most, and once. -/
structure ListInv (s : Pool) : Prop where
  nonNull : none ∉ s.freeProxyConns
  nodup : s.freeProxyConns.Nodup
  mappedWaiting : ∀ id, id ∈ s.proxyConnMap → id ∉ s.waitForStartProxyConnMap
  mappedFree : ∀ id, id ∈ s.proxyConnMap → some id ∉ s.freeProxyConns
  waitingFree : ∀ id, id ∈ s.waitForStartProxyConnMap → some id ∉ s.freeProxyConns
  claimed : ∀ id, s.Owned id → s.claimed id = true

structure FdInv (s : Pool) : Prop extends ListInv s where
  bound : ∀ id, s.Owned id ↔ s.peerConn id ≠ none
  kept : ∀ id conn, s.peerConn id = some conn → conn.needCloseWhenDelete = false
  closedFds : s.closedFds = []
  waiting : ∀ id, id ∈ s.waitForStartProxyConnMap → s.closed id = false
  requested : ∀ id, id ∈ s.waitForStartProxyConnMap ↔ s.requested id ≠ none
  undeal : s.undealPublicFds.Nodup
  unique : Relator.RightUnique s.HeldAt
  accepted : ∀ fd, fd ∈ s.accepted ↔ ∃ place, s.HeldAt fd place

variable {s s' : Pool} {id : RandStr} {fd : Fd}

theorem fdInv_init : FdInv {} := by
  have hmap (id : RandStr) : id ∉ ({} : Pool).proxyConnMap := KeyedMap.notMem_empty id
  have hwait (id : RandStr) : id ∉ ({} : Pool).waitForStartProxyConnMap := KeyedMap.notMem_empty id
  have howned (id : RandStr) : ¬ ({} : Pool).Owned id := by simp [Owned, hmap]
  have hheld (fd : Fd) (place : FdPlace) : ¬ ({} : Pool).HeldAt fd place := by
    cases place with
    | undeal => simp [HeldAt]
    | message id => simp [HeldAt]
    | peer id => simp [HeldAt]
  exact {
    nonNull := by simp
    nodup := List.nodup_nil
    mappedWaiting := fun id hmem => absurd hmem (hmap id)
    mappedFree := fun id hmem => absurd hmem (hmap id)
    waitingFree := fun id hmem => absurd hmem (hwait id)
    claimed := fun id hid => absurd hid (howned id)
    bound := fun id => by simp [howned]
    kept := by simp
    closedFds := rfl
    waiting := fun id hmem => absurd hmem (hwait id)
    requested := fun id => by simp [hwait]
    undeal := List.nodup_nil
    unique := fun fd place _ hfd => absurd hfd (hheld fd place)
    accepted := fun fd => by simp [hheld] }

theorem FdInv.allHeld (hinv : FdInv s) : AllHeld s :=
  fun fd hfd => Or.inr ((hinv.accepted fd).mp hfd)

theorem FdInv.message (hinv : FdInv s) (hrequested : s.requested id = some fd) :
    s.HeldAt fd (.message id) := by
  have hwait : id ∈ s.waitForStartProxyConnMap := by simp [hinv.requested, hrequested]
  exact ⟨hwait, hinv.waiting id hwait, hrequested⟩

theorem FdInv.peer (hinv : FdInv s) (hpeer : (s.peerConn id).map PublicConn.fd = some fd) :
    s.HeldAt fd (.peer id) := by
  refine ⟨(hinv.bound id).mpr ?_, hpeer⟩
  intro hnone
  simp [hnone] at hpeer

theorem FdInv.destroyed_eq_nil (hinv : FdInv s) (id : RandStr) : destroyed (s.peerConn id) = [] := by
  cases hpeer : s.peerConn id with
  | none => rfl
  | some conn => simp [destroyed, hinv.kept id conn hpeer]

theorem not_allHeld (haccepted : fd ∈ s.accepted) (hclosed : s.closedFds = [])
    (hnone : ∀ place, ¬ s.HeldAt fd place) : ¬ AllHeld s := by
  intro hall
  rcases hall fd haccepted with hfd | ⟨place, hplace⟩
  · simp [hclosed] at hfd
  · exact hnone place hplace

theorem FdInv.notHeld (hinv : FdInv s) (hfresh : fd ∉ s.accepted) (place : FdPlace) :
    ¬ s.HeldAt fd place :=
  fun hheld => hfresh ((hinv.accepted fd).mpr ⟨place, hheld⟩)

/-! ## What the lawful steps keep -/

theorem FdInv.enqueue (hinv : FdInv s) (hfresh : fd ∉ s.accepted)
    (hs' : { s with
      accepted := s.accepted ++ [fd]
      undealPublicFds := s.undealPublicFds ++ [fd] } = s') : FdInv s' := by
  have hnone := hinv.notHeld hfresh
  have hplaced : Placed s.HeldAt s'.HeldAt fd .undeal := by
    subst hs'
    apply placed_of
    · intro found
      cases found with
      | undeal => simp [HeldAt]
      | message id => simpa [HeldAt] using hnone (.message id)
      | peer id => simpa [HeldAt, Owned] using hnone (.peer id)
    · intro other found hother
      cases found with
      | undeal => simp [HeldAt, hother]
      | message id => exact Iff.rfl
      | peer id => exact Iff.rfl
  subst hs'
  exact { hinv with
    undeal := by
      rw [← List.concat_eq_append]
      exact hinv.undeal.concat (hnone .undeal)
    unique := hplaced.rightUnique hinv.unique
    accepted := fun other => by
      rw [hplaced.exists_iff, ← hinv.accepted, List.mem_append, List.mem_singleton, or_comm] }

/-- The state after a connection that was free has been sent a request. -/
def asked (s : Pool) (acceptFd : Fd) (id : RandStr) : Pool :=
  { s with
    accepted := s.accepted ++ [acceptFd]
    freeProxyConns := s.freeProxyConns.dropLast
    requested := Function.update s.requested id (some acceptFd)
    waitForStartProxyConnMap := s.waitForStartProxyConnMap.add id }

section Asked

variable (hlast : s.freeProxyConns.getLast? = some (some id))

include hlast

theorem mem_free_iff {item : Option RandStr} :
    item ∈ s.freeProxyConns ↔ item ∈ s.freeProxyConns.dropLast ∨ item = some id := by
  obtain ⟨rest, hfree⟩ := List.getLast?_eq_some_iff.mp hlast
  rw [hfree, List.dropLast_concat, List.mem_append, List.mem_singleton]

theorem owned_asked (fd : Fd) (other : RandStr) : (s.asked fd id).Owned other ↔ s.Owned other := by
  simp only [Owned, asked, mem_add, mem_free_iff hlast, Option.some.injEq]
  tauto

theorem ListInv.asked (hinv : ListInv s) (fd : Fd) : ListInv (s.asked fd id) := by
  have hmem {item : Option RandStr} := @mem_free_iff s id hlast item
  have hid : some id ∈ s.freeProxyConns := hmem.mpr (Or.inr rfl)
  have hgone : some id ∉ s.freeProxyConns.dropLast := by
    obtain ⟨rest, hfree⟩ := List.getLast?_eq_some_iff.mp hlast
    have hnodup := hinv.nodup
    rw [hfree, List.nodup_append] at hnodup
    rw [hfree, List.dropLast_concat]
    exact fun hin => hnodup.2.2 _ hin _ List.mem_cons_self rfl
  refine ⟨?_, ?_, ?_, ?_, ?_, ?_⟩
  · exact fun hnull => hinv.nonNull (hmem.mpr (Or.inl hnull))
  · exact List.Nodup.sublist (List.dropLast_sublist _) hinv.nodup
  · intro other hmapped hwaiting
    rcases mem_add.mp hwaiting with rfl | hbefore
    · exact hinv.mappedFree other hmapped hid
    · exact hinv.mappedWaiting other hmapped hbefore
  · intro other hmapped hin
    exact hinv.mappedFree other hmapped (hmem.mpr (Or.inl hin))
  · intro other hwaiting hin
    rcases mem_add.mp hwaiting with rfl | hbefore
    · exact hgone hin
    · exact hinv.waitingFree other hbefore (hmem.mpr (Or.inl hin))
  · intro other hother
    exact hinv.claimed other ((owned_asked hlast fd other).mp hother)

theorem FdInv.placed_asked (hinv : FdInv s) (hfresh : fd ∉ s.accepted)
    (hopen : s.closed id = false) : Placed s.HeldAt (s.asked fd id).HeldAt fd (.message id) := by
  have hnone := hinv.notHeld hfresh
  have hidle : s.requested id = none := by
    by_contra hsome
    exact hinv.waitingFree id ((hinv.requested id).mpr hsome) (List.mem_of_getLast? hlast)
  apply placed_of
  · intro found
    cases found with
    | undeal => simpa [HeldAt, Pool.asked] using hnone .undeal
    | message other =>
        by_cases hother : other = id
        · subst hother
          simp [HeldAt, Pool.asked, mem_add, hopen]
        · simpa [HeldAt, Pool.asked, mem_add, hother] using hnone (.message other)
    | peer other =>
        have hold := hnone (.peer other)
        simp only [HeldAt, owned_asked hlast] at hold ⊢
        simpa [Pool.asked] using hold
  · intro other found hne
    cases found with
    | undeal => exact Iff.rfl
    | message waiting =>
        by_cases hwaiting : waiting = id
        · subst hwaiting
          simp [HeldAt, Pool.asked, hidle, Ne.symm hne]
        · simp [HeldAt, Pool.asked, mem_add, hwaiting]
    | peer owner =>
        simp only [HeldAt, owned_asked hlast]
        exact Iff.rfl

theorem FdInv.asked (hinv : FdInv s) (hfresh : fd ∉ s.accepted) (hopen : s.closed id = false) :
    FdInv (s.asked fd id) := by
  have hplaced := hinv.placed_asked hlast hfresh hopen
  exact { hinv.toListInv.asked hlast fd with
    bound := fun other => (owned_asked hlast fd other).trans (hinv.bound other)
    kept := hinv.kept
    closedFds := hinv.closedFds
    waiting := by
      intro other hwaiting
      rcases mem_add.mp hwaiting with rfl | hbefore
      · exact hopen
      · exact hinv.waiting other hbefore
    requested := by
      intro other
      by_cases hother : other = id
      · subst hother
        simp [Pool.asked, mem_add]
      · simp [Pool.asked, mem_add, hother, hinv.requested]
    undeal := hinv.undeal
    unique := hplaced.rightUnique hinv.unique
    accepted := fun other => by
      rw [hplaced.exists_iff, ← hinv.accepted, or_comm]
      simp [Pool.asked] }

end Asked

theorem FdInv.newPublicConn (hinv : FdInv s) (hfresh : fd ∉ s.accepted)
    (hlaw : SparesFds s (.newPublicConn fd)) (hstep : s.newPublicConnHandler fd = some s') :
    FdInv s' := by
  unfold newPublicConnHandler at hstep
  cases hlast : s.freeProxyConns.getLast? with
  | none =>
      simp only [hlast, Option.some.injEq] at hstep
      exact hinv.enqueue hfresh hstep
  | some item =>
      cases item with
      | none => simp [hlast] at hstep
      | some id =>
          simp only [hlast, Option.some.injEq] at hstep
          subst hstep
          exact hinv.asked hlast hfresh (hlaw id hlast)

/-- The state after a connection that is new has been bound to a descriptor. -/
def bound (s : Pool) (publicFd : Fd) (id : RandStr) : Pool :=
  { s with
    claimed := Function.update s.claimed id true
    undealPublicFds := s.undealPublicFds.dropLast
    isStart := Function.update s.isStart id true
    peerConn := Function.update s.peerConn id (some { fd := publicFd })
    proxyConnMap := s.proxyConnMap.add id }

theorem owned_bound (s : Pool) (publicFd : Fd) (id other : RandStr) :
    (s.bound publicFd id).Owned other ↔ other = id ∨ s.Owned other := by
  simp only [Owned, bound, mem_add, or_assoc]

theorem FdInv.notOwned (hinv : FdInv s) (hnew : s.claimed id = false) : ¬ s.Owned id :=
  fun howned => by simp [hinv.claimed id howned] at hnew

theorem FdInv.peerConn_eq_none (hinv : FdInv s) (hnotOwned : ¬ s.Owned id) :
    s.peerConn id = none :=
  not_not.mp (mt (hinv.bound id).mpr hnotOwned)

theorem ListInv.bound (hinv : ListInv s) (hnotOwned : ¬ s.Owned id) (publicFd : Fd) :
    ListInv (s.bound publicFd id) := by
  refine ⟨hinv.nonNull, hinv.nodup, ?_, ?_, hinv.waitingFree, ?_⟩
  · intro other hmapped hwaiting
    rcases mem_add.mp hmapped with rfl | hbefore
    · exact hnotOwned (Or.inr (Or.inl hwaiting))
    · exact hinv.mappedWaiting other hbefore hwaiting
  · intro other hmapped hin
    rcases mem_add.mp hmapped with rfl | hbefore
    · exact hnotOwned (Or.inr (Or.inr hin))
    · exact hinv.mappedFree other hbefore hin
  · intro other hother
    by_cases hsame : other = id
    · simp [Pool.bound, hsame]
    · have hbefore := ((owned_bound s publicFd id other).mp hother).resolve_left hsame
      simpa [Pool.bound, hsame] using hinv.claimed other hbefore

section Bound

variable {publicFd : Fd} (hlast : s.undealPublicFds.getLast? = some publicFd)
  (hnotOwned : ¬ s.Owned id)

include hlast

theorem FdInv.mem_undeal_dropLast (hinv : FdInv s) {other : Fd} :
    other ∈ s.undealPublicFds.dropLast ↔ other ≠ publicFd ∧ other ∈ s.undealPublicFds := by
  obtain ⟨rest, hundeal⟩ := List.getLast?_eq_some_iff.mp hlast
  have hnodup := hinv.undeal
  rw [hundeal, List.nodup_append] at hnodup
  rw [hundeal, List.dropLast_concat, List.mem_append, List.mem_singleton]
  constructor
  · intro hin
    exact ⟨hnodup.2.2 other hin publicFd List.mem_cons_self, Or.inl hin⟩
  · rintro ⟨hne, hin⟩
    exact hin.resolve_right hne

include hnotOwned

theorem FdInv.placed_bound (hinv : FdInv s) :
    Placed s.HeldAt (s.bound publicFd id).HeldAt publicFd (.peer id) := by
  have hsource : s.HeldAt publicFd .undeal := List.mem_of_getLast? hlast
  have hmem {other : Fd} := @FdInv.mem_undeal_dropLast s publicFd hlast hinv other
  apply placed_of
  · intro found
    cases found with
    | undeal => simp [HeldAt, Pool.bound, hmem]
    | message other =>
        -- a descriptor that waits is in no message
        have hnot : ¬ (s.bound publicFd id).HeldAt publicFd (.message other) := by
          intro hheld
          cases hinv.unique hsource (hinv.message hheld.2.2)
        simpa using hnot
    | peer other =>
        simp only [HeldAt, owned_bound]
        by_cases hother : other = id
        · subst hother
          simp [Pool.bound]
        · have hnot : ¬ s.HeldAt publicFd (.peer other) := by
            intro hheld
            cases hinv.unique hsource hheld
          simpa [HeldAt, Pool.bound, hother] using hnot
  · intro other found hne
    cases found with
    | undeal => simp [HeldAt, Pool.bound, hmem, hne]
    | message waiting => exact Iff.rfl
    | peer owner =>
        simp only [HeldAt, owned_bound]
        by_cases howner : owner = id
        · subst howner
          simp [Pool.bound, hinv.peerConn_eq_none hnotOwned, Ne.symm hne]
        · simp [Pool.bound, howner]

theorem FdInv.bound_step (hinv : FdInv s) : FdInv (s.bound publicFd id) := by
  have hplaced := hinv.placed_bound hlast hnotOwned
  have hsource : s.HeldAt publicFd .undeal := List.mem_of_getLast? hlast
  exact { hinv.toListInv.bound hnotOwned publicFd with
    bound := by
      intro other
      rw [owned_bound]
      by_cases hsame : other = id
      · simp [Pool.bound, hsame]
      · simp [Pool.bound, hsame, hinv.bound]
    kept := by
      intro other conn hconn
      by_cases hsame : other = id
      · simp only [Pool.bound, hsame, Function.update_self, Option.some.injEq] at hconn
        rw [← hconn]
      · exact hinv.kept other conn (by simpa [Pool.bound, hsame] using hconn)
    closedFds := hinv.closedFds
    waiting := hinv.waiting
    requested := hinv.requested
    undeal := List.Nodup.sublist (List.dropLast_sublist _) hinv.undeal
    unique := hplaced.rightUnique hinv.unique
    accepted := by
      intro other
      rw [hplaced.exists_iff, ← hinv.accepted]
      constructor
      · exact Or.inr
      · rintro (rfl | hbefore)
        · exact (hinv.accepted other).mpr ⟨_, hsource⟩
        · exact hbefore }

end Bound

theorem FdInv.claim (hinv : FdInv s) (hnew : s.claimed id = false)
    (hstep : s.claimProxyConn id = some s') : FdInv s' := by
  unfold claimProxyConn at hstep
  cases hlast : s.undealPublicFds.getLast? with
  | none => simp [hlast] at hstep
  | some publicFd =>
      have hnotOwned := hinv.notOwned hnew
      simp only [hlast, Option.some.injEq, bindPublicFdToProxyConn] at hstep
      rw [hinv.peerConn_eq_none hnotOwned, destroyed, List.append_nil] at hstep
      subst hstep
      exact hinv.bound_step hlast hnotOwned

/-- Nothing is lost when connections that stay owned change their container. -/
theorem FdInv.relist (hinv : FdInv s) {map : KeyedMap RandStr.chars} {free : List (Option RandStr)}
    {closed : RandStr → Bool}
    (hs' : { s with proxyConnMap := map, freeProxyConns := free, closed := closed } = s')
    (hlists : ListInv s') (howned : ∀ id, s'.Owned id ↔ s.Owned id)
    (hwaiting : ∀ id, id ∈ s.waitForStartProxyConnMap → closed id = false) : FdInv s' := by
  have hheld (fd : Fd) (place : FdPlace) : s'.HeldAt fd place ↔ s.HeldAt fd place := by
    cases place with
    | undeal =>
        subst hs'
        exact Iff.rfl
    | message id =>
        subst hs'
        apply and_congr_right
        intro hwait
        simp [hwaiting id hwait, hinv.waiting id hwait]
    | peer id =>
        simp only [HeldAt, howned]
        subst hs'
        exact Iff.rfl
  have hunique : Relator.RightUnique s'.HeldAt := by
    intro fd first second hfirst hsecond
    exact hinv.unique ((hheld fd first).mp hfirst) ((hheld fd second).mp hsecond)
  subst hs'
  exact { hlists with
    bound := fun id => (howned id).trans (hinv.bound id)
    kept := hinv.kept
    closedFds := hinv.closedFds
    waiting := hwaiting
    requested := hinv.requested
    undeal := hinv.undeal
    unique := hunique
    accepted := fun fd => by simp only [hheld, hinv.accepted] }

theorem FdInv.free_step (hinv : FdInv s) (proxyId : Str) : FdInv (s.freeProxyConn proxyId) := by
  unfold freeProxyConn
  cases hget : s.proxyConnMap.get proxyId with
  | none => exact hinv
  | some id =>
      obtain ⟨hmem, rfl⟩ := KeyedMap.mem_of_get hget
      dsimp only
      by_cases hstart : s.isStart id = true
      · rw [if_pos hstart]
        exact hinv
      · rw [if_neg hstart]
        have hfree {item : Option RandStr} :
            item ∈ s.freeProxyConns ++ [some id] ↔ item ∈ s.freeProxyConns ∨ item = some id := by
          simp
        have howned (other : RandStr) : Owned { s with
            proxyConnMap := s.proxyConnMap.erase id.chars
            freeProxyConns := s.freeProxyConns ++ [some id] } other ↔ s.Owned other := by
          simp only [Owned, mem_erase, hfree, Option.some.injEq]
          by_cases hother : other = id
          · simp [hother, hmem]
          · simp [hother]
        apply hinv.relist rfl _ howned hinv.waiting
        exact {
          nonNull := by simpa using hinv.nonNull
          nodup := by
            rw [← List.concat_eq_append]
            exact hinv.nodup.concat (hinv.mappedFree id hmem)
          mappedWaiting := fun other hother => hinv.mappedWaiting other (mem_erase.mp hother).2
          mappedFree := fun other hother hin => by
            obtain ⟨hne, hbefore⟩ := mem_erase.mp hother
            rcases hfree.mp hin with hin | hsame
            · exact hinv.mappedFree other hbefore hin
            · exact hne (Option.some.inj hsame)
          waitingFree := fun other hother hin => by
            rcases hfree.mp hin with hin | hsame
            · exact hinv.waitingFree other hother hin
            · obtain rfl := Option.some.inj hsame
              exact hinv.mappedWaiting other hmem hother
          claimed := fun other hother => hinv.claimed other ((howned other).mp hother) }

theorem FdInv.settle_eq (hinv : FdInv s) (id : RandStr) : s.settle id = s := by
  unfold settle
  by_cases howned : s.Owned id
  · rw [if_pos howned]
  · have hpeer : s.peerConn id = none := not_not.mp (mt (hinv.bound id).mpr howned)
    rw [if_neg howned, hinv.destroyed_eq_nil, List.append_nil, ← hpeer, Function.update_eq_self]

theorem FdInv.close (hinv : FdInv s) (hlaw : SparesFds s (.proxyConnClose id)) :
    FdInv (s.handlePeerProxyConnClose id) := by
  obtain ⟨hmapped, hwaiting, hback⟩ := hlaw
  have hremove : remove (some id) s.freeProxyConns = s.freeProxyConns :=
    remove_of_getLast? hinv.nodup hback
  have herase {other : RandStr} :
      other ∈ s.proxyConnMap.erase id.chars ↔ other ∈ s.proxyConnMap := by
    rw [mem_erase, and_iff_right_iff_imp]
    rintro hother rfl
    exact hmapped hother
  have howned (other : RandStr) : (s.handlePeerProxyConnClose id).Owned other ↔ s.Owned other := by
    simp [Owned, handlePeerProxyConnClose, herase, hremove]
  apply hinv.relist rfl _ howned
  · intro other hother
    have hne : other ≠ id := fun heq => hwaiting (heq ▸ hother)
    rw [Function.update_of_ne hne]
    exact hinv.waiting other hother
  · rw [hremove]
    exact {
      nonNull := hinv.nonNull
      nodup := hinv.nodup
      mappedWaiting := fun other hother => hinv.mappedWaiting other (herase.mp hother)
      mappedFree := fun other hother => hinv.mappedFree other (herase.mp hother)
      waitingFree := hinv.waitingFree
      claimed := fun other hother => hinv.claimed other ((howned other).mp (by
        simpa [Owned, handlePeerProxyConnClose, hremove] using hother)) }

/-- What waits for an answer has been bound before. -/
theorem FdInv.not_startRsp (hinv : FdInv s) (hlaw : SparesFds s (.startProxyConnRsp id)) :
    s.handleStartProxyConnRsp id = none := by
  have hidle : s.requested id = none := by
    by_contra hsome
    have hwait := (hinv.requested id).mpr hsome
    exact (hinv.bound id).mp (Or.inr (Or.inl hwait)) hlaw
  simp [handleStartProxyConnRsp, hidle]

theorem FdInv.step {event : PoolEvent} (hinv : FdInv s) (hlaw : SparesFds s event)
    (hstep : Pool.step s event = some s') : FdInv s' := by
  cases event with
  | newPublicConn acceptFd =>
      simp only [Pool.step, Option.ite_none_right_eq_some] at hstep
      exact hinv.newPublicConn hstep.1.2 hlaw hstep.2
  | claimProxyConn id =>
      simp only [Pool.step, Option.ite_none_right_eq_some] at hstep
      exact hinv.claim hstep.1.1 hstep.2
  | startProxyConnRsp id =>
      simp [Pool.step, hinv.not_startRsp hlaw] at hstep
  | resetConn id =>
      simp only [Pool.step, Option.ite_none_right_eq_some, Option.some.injEq] at hstep
      obtain ⟨_, rfl⟩ := hstep
      exact { hinv with }
  | freeProxyConn proxyId =>
      obtain rfl := Option.some.inj hstep
      exact hinv.free_step proxyId
  | proxyConnClose id =>
      simp only [Pool.step, Option.ite_none_right_eq_some, Option.some.injEq] at hstep
      obtain ⟨_, rfl⟩ := hstep
      have hclosed := hinv.close hlaw
      rw [hclosed.settle_eq]
      exact hclosed

/-- No lawful step takes a `PublicConn` from its connection. -/
theorem FdInv.closesDropped {event : PoolEvent} (hinv : FdInv s) (hlaw : SparesFds s event) :
    ClosesDropped s event := by
  intro s' hstep other conn hpeer
  left
  cases event with
  | newPublicConn acceptFd =>
      simp only [Pool.step, Option.ite_none_right_eq_some, newPublicConnHandler] at hstep
      obtain ⟨_, hstep⟩ := hstep
      split at hstep
      · obtain rfl := Option.some.inj hstep
        exact hpeer
      · cases hstep
      · obtain rfl := Option.some.inj hstep
        exact hpeer
  | claimProxyConn id =>
      simp only [Pool.step, Option.ite_none_right_eq_some, claimProxyConn] at hstep
      obtain ⟨⟨hnew, _⟩, hstep⟩ := hstep
      have hother : other ≠ id := by
        rintro rfl
        simp [hinv.peerConn_eq_none (hinv.notOwned hnew)] at hpeer
      split at hstep
      · cases hstep
      · obtain rfl := Option.some.inj hstep
        simpa [bindPublicFdToProxyConn, hother] using hpeer
  | startProxyConnRsp id =>
      simp [Pool.step, hinv.not_startRsp hlaw] at hstep
  | resetConn id =>
      simp only [Pool.step, Option.ite_none_right_eq_some, Option.some.injEq] at hstep
      obtain ⟨_, rfl⟩ := hstep
      exact hpeer
  | freeProxyConn proxyId =>
      obtain rfl := Option.some.inj hstep
      unfold freeProxyConn
      split
      · exact hpeer
      · split
        · exact hpeer
        · exact hpeer
  | proxyConnClose id =>
      simp only [Pool.step, Option.ite_none_right_eq_some, Option.some.injEq] at hstep
      obtain ⟨_, rfl⟩ := hstep
      rw [(hinv.close hlaw).settle_eq]
      exact hpeer

/-! ## What the others lose -/

theorem heldAt_of_close {place : FdPlace} (hheld : (s.handlePeerProxyConnClose id).HeldAt fd place) :
    s.HeldAt fd place := by
  cases place with
  | undeal => exact hheld
  | message other =>
      obtain ⟨hwait, hopen, hrequested⟩ := hheld
      have hother : other ≠ id := by
        rintro rfl
        simp [handlePeerProxyConnClose] at hopen
      exact ⟨hwait, by simpa [handlePeerProxyConnClose, hother] using hopen, hrequested⟩
  | peer other =>
      obtain ⟨howned, hpeer⟩ := hheld
      refine ⟨?_, hpeer⟩
      rcases howned with hmapped | hwait | hfree
      · exact Or.inl (mem_erase.mp hmapped).2
      · exact Or.inr (Or.inl hwait)
      · exact Or.inr (Or.inr (mem_of_mem_remove hfree (Option.some_ne_none other)))

theorem heldAt_of_settle {place : FdPlace} (hheld : (s.settle id).HeldAt fd place) :
    s.HeldAt fd place ∧ (place = .peer id → s.Owned id) := by
  unfold settle at hheld
  split at hheld
  · next howned => exact ⟨hheld, fun _ => howned⟩
  · cases place with
    | undeal => exact ⟨hheld, nofun⟩
    | message other => exact ⟨hheld, nofun⟩
    | peer other =>
        obtain ⟨howned, hpeer⟩ := hheld
        have hother : other ≠ id := by
          rintro rfl
          simp at hpeer
        refine ⟨⟨howned, by simpa [hother] using hpeer⟩, ?_⟩
        intro hsame
        cases hsame
        exact absurd rfl hother

theorem FdInv.settle_closedFds (hinv : FdInv s) (id : RandStr) :
    ((s.handlePeerProxyConnClose id).settle id).closedFds = [] := by
  have hpeer : destroyed ((s.handlePeerProxyConnClose id).peerConn id) = [] :=
    hinv.destroyed_eq_nil id
  unfold settle
  split
  · exact hinv.closedFds
  · rw [hpeer, List.append_nil]
    exact hinv.closedFds

theorem settle_accepted (s : Pool) (id : RandStr) : (s.settle id).accepted = s.accepted := by
  unfold settle
  split <;> rfl

theorem settle_closed (s : Pool) (id : RandStr) : (s.settle id).closed = s.closed := by
  unfold settle
  split <;> rfl

/-- A connection that closes and waits loses its request, and one that no container
owns afterwards loses its `PublicConn`. -/
theorem FdInv.close_lost (hinv : FdInv s) (hlaw : ¬ SparesFds s (.proxyConnClose id)) :
    ¬ AllHeld ((s.handlePeerProxyConnClose id).settle id) := by
  have hlost {fd : Fd} {place : FdPlace} (hheld : s.HeldAt fd place)
      (hgone : ¬ ((s.handlePeerProxyConnClose id).settle id).HeldAt fd place) :
      ¬ AllHeld ((s.handlePeerProxyConnClose id).settle id) := by
    have haccepted : fd ∈ ((s.handlePeerProxyConnClose id).settle id).accepted := by
      rw [settle_accepted]
      exact (hinv.accepted fd).mpr ⟨place, hheld⟩
    apply not_allHeld haccepted (hinv.settle_closedFds id)
    intro found hfound
    have hbefore := heldAt_of_close (heldAt_of_settle hfound).1
    obtain rfl := hinv.unique hheld hbefore
    exact hgone hfound
  -- which descriptor is lost depends on where the connection is
  by_cases hwait : id ∈ s.waitForStartProxyConnMap
  · obtain ⟨fd, hrequested⟩ := Option.ne_none_iff_exists'.mp ((hinv.requested id).mp hwait)
    apply hlost (hinv.message hrequested)
    rintro ⟨_, hopen, _⟩
    simp [settle_closed, handlePeerProxyConnClose] at hopen
  · have hplace : s.Owned id ∧ s.freeProxyConns.getLast? ≠ some (some id) := by
      by_cases hmapped : id ∈ s.proxyConnMap
      · refine ⟨Or.inl hmapped, ?_⟩
        intro hback
        exact hinv.mappedFree id hmapped (List.mem_of_getLast? hback)
      · simp only [SparesFds, hmapped, hwait, not_false_eq_true, true_and] at hlaw
        push Not at hlaw
        exact ⟨Or.inr (Or.inr hlaw.1), hlaw.2⟩
    obtain ⟨howned, hback⟩ := hplace
    obtain ⟨conn, hpeer⟩ := Option.ne_none_iff_exists'.mp ((hinv.bound id).mp howned)
    have hheld : s.HeldAt conn.fd (.peer id) := hinv.peer (by simp [hpeer])
    apply hlost hheld
    intro hfound
    rcases (heldAt_of_settle hfound).2 rfl with hmapped | hwaiting | hfree
    · exact (mem_erase.mp hmapped).1 rfl
    · exact hwait hwaiting
    · exact hback ((mem_remove_iff hinv.nodup (Option.some_ne_none id)).mp hfree)

/-- A connection that is closed never answers. -/
theorem FdInv.pop_lost (hinv : FdInv s) (hfresh : fd ∉ s.accepted)
    (hlast : s.freeProxyConns.getLast? = some (some id)) (hclosed : s.closed id = true)
    (hstep : s.newPublicConnHandler fd = some s') : ¬ AllHeld s' := by
  have hnone := hinv.notHeld hfresh
  simp only [newPublicConnHandler, hlast, Option.some.injEq] at hstep
  have haccepted : fd ∈ s'.accepted := by simp [← hstep]
  have hclosedFds : s'.closedFds = [] := by simp [← hstep, hinv.closedFds]
  apply not_allHeld haccepted hclosedFds
  intro place hheld
  subst hstep
  cases place with
  | undeal => exact hnone .undeal hheld
  | message other =>
      obtain ⟨_, hopen, hrequested⟩ := hheld
      have hother : other ≠ id := by
        rintro rfl
        simp [hclosed] at hopen
      dsimp only at hrequested
      rw [Function.update_of_ne hother] at hrequested
      exact hnone _ (hinv.message hrequested)
  | peer other => exact hnone _ (hinv.peer hheld.2)

/-- The `PublicConn` of the last session goes, and its descriptor stays open. -/
theorem FdInv.startRsp_lost (hinv : FdInv s) (hpeer : s.peerConn id ≠ none)
    (hstep : s.handleStartProxyConnRsp id = some s') : ¬ AllHeld s' := by
  obtain ⟨conn, hconn⟩ := Option.ne_none_iff_exists'.mp hpeer
  have hheld : s.HeldAt conn.fd (.peer id) := hinv.peer (by simp [hconn])
  unfold handleStartProxyConnRsp at hstep
  cases hrequested : s.requested id with
  | none => simp [hrequested] at hstep
  | some publicFd =>
      have hmessage := hinv.message hrequested
      have hwait := hmessage.1
      simp only [hrequested, hwait, not_true_eq_false, if_false, Option.some.injEq] at hstep
      have haccepted : conn.fd ∈ s'.accepted := by
        rw [← hstep]
        exact (hinv.accepted conn.fd).mpr ⟨_, hheld⟩
      have hclosedFds : s'.closedFds = [] := by
        simp [← hstep, bindPublicFdToProxyConn, hinv.closedFds, hinv.destroyed_eq_nil]
      apply not_allHeld haccepted hclosedFds
      intro place hfound
      subst hstep
      cases place with
      | undeal =>
          have hbefore : s.HeldAt conn.fd .undeal := hfound
          cases hinv.unique hheld hbefore
      | message other =>
          have hafter : Function.update s.requested id none other = some conn.fd := hfound.2.2
          have hother : other ≠ id := by
            rintro rfl
            simp at hafter
          rw [Function.update_of_ne hother] at hafter
          cases hinv.unique hheld (hinv.message hafter)
      | peer other =>
          have hafter : (Function.update s.peerConn id (some { fd := publicFd }) other).map
              PublicConn.fd = some conn.fd := hfound.2
          by_cases hother : other = id
          · -- the new `PublicConn` has the descriptor of the request
            subst hother
            have hsame : publicFd = conn.fd := by simpa using hafter
            rw [hsame] at hmessage
            cases hinv.unique hheld hmessage
          · rw [Function.update_of_ne hother] at hafter
            cases hinv.unique hheld (hinv.peer hafter)
            exact hother rfl

theorem FdInv.step_lost {event : PoolEvent} (hinv : FdInv s)
    (hstep : Pool.step s event = some s') (hlaw : ¬ SparesFds s event) : ¬ AllHeld s' := by
  cases event with
  | newPublicConn acceptFd =>
      simp only [Pool.step, Option.ite_none_right_eq_some] at hstep
      simp only [SparesFds] at hlaw
      push Not at hlaw
      obtain ⟨id, hlast, hclosed⟩ := hlaw
      exact hinv.pop_lost hstep.1.2 hlast (by simpa using hclosed) hstep.2
  | startProxyConnRsp id =>
      simp only [Pool.step, Option.ite_none_right_eq_some] at hstep
      exact hinv.startRsp_lost hlaw hstep.2
  | proxyConnClose id =>
      simp only [Pool.step, Option.ite_none_right_eq_some, Option.some.injEq] at hstep
      obtain ⟨_, rfl⟩ := hstep
      exact hinv.close_lost hlaw
  | claimProxyConn | resetConn | freeProxyConn => exact absurd trivial hlaw

theorem allHeld_iff (events : List PoolEvent) :
    Visits Pool.step AllHeld {} events ↔ Takes Pool.step SparesFds {} events :=
  visits_iff_takes (fun _ _ _ hinv hlaw hstep => hinv.step hlaw hstep) (fun _ hinv => hinv.allHeld)
    (fun _ _ _ hinv hstep hlaw => hinv.step_lost hstep hlaw) fdInv_init events

/-- In every run each accepted descriptor is held or closed in every state visited, and
every step closes what it drops, exactly when no step is one of those that lose a
descriptor. -/
theorem public_fds_held_iff (events : List PoolEvent) :
    (Visits Pool.step AllHeld {} events ∧ Takes Pool.step ClosesDropped {} events) ↔
      Takes Pool.step SparesFds {} events := by
  rw [allHeld_iff]
  apply and_iff_left_of_imp
  intro htakes before event middle next hinit hrun hnext
  have hbefore : before <+: events := (List.prefix_append before [event]).trans hinit
  have hinv : FdInv middle := run_invariant_of_takes
    (fun _ _ _ hmiddle hlaw hstep => hmiddle.step hlaw hstep) fdInv_init
    (htakes.of_initial hbefore) hrun
  exact hinv.closesDropped (htakes before event middle next hinit hrun hnext)

/-- A connection serves a session, is free and has been asked to start with the next. -/
def sampleReuse : List PoolEvent :=
  [.newPublicConn 5, .claimProxyConn firstId, .resetConn firstId, .freeProxyConn firstId.chars,
    .newPublicConn 7]

/-- With the answer descriptor 5 is lost. -/
theorem not_public_fds_held :
    ¬ (∀ events, Visits Pool.step AllHeld {} events) ∧
      ¬ (∀ events, Takes Pool.step ClosesDropped {} events) ∧
      (run Pool.step {} (sampleReuse ++ [.startProxyConnRsp firstId])).map
        (fun s => (s.accepted, s.closedFds, s.undealPublicFds, s.requested firstId,
          (s.peerConn firstId).map PublicConn.fd)) = some ([5, 7], [], [], none, some 7) := by
  have hbefore : (run Pool.step {} sampleReuse).map
      (fun s => (s.peerConn firstId).map PublicConn.fd) = some (some 5) := by
    decide
  obtain ⟨middle, hrun, hpeer⟩ := Option.map_eq_some_iff.mp hbefore
  have hafter : (run Pool.step {} (sampleReuse ++ [.startProxyConnRsp firstId])).map
      (fun s => ((s.peerConn firstId).map PublicConn.fd, s.closedFds)) = some (some 7, []) := by
    decide
  rw [run_concat hrun] at hafter
  obtain ⟨final, hstep, hfinal⟩ := Option.map_eq_some_iff.mp hafter
  obtain ⟨hnewPeer, hclosed⟩ := Prod.mk.inj hfinal
  refine ⟨?_, ?_, by decide⟩
  · intro hvisits
    have htakes := (allHeld_iff (sampleReuse ++ [.startProxyConnRsp firstId])).mp (hvisits _)
    have hnone : middle.peerConn firstId = none :=
      htakes sampleReuse _ middle final List.prefix_rfl hrun hstep
    simp [hnone] at hpeer
  · intro htakes
    obtain ⟨conn, hconn, hfd⟩ := Option.map_eq_some_iff.mp hpeer
    rcases htakes _ sampleReuse _ middle final List.prefix_rfl hrun hstep final hstep firstId conn
      hconn with hkept | hin
    · simp [hkept, hfd] at hnewPeer
    · simp [hclosed] at hin

end Pool

end CProxy
