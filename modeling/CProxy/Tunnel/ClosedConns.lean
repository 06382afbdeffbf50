import CProxy.Tunnel.Pool

/-! # Whether a closed connection is handed out again

`handlePeerProxyConnClose` calls `std::remove` without `erase`, and does not look at
`wait_for_start_proxy_conn_map_`. It does what it is for exactly when the connection
is in neither.
-/

namespace CProxy

open Foundation Wire

namespace Pool

/-- `popFreeProxyConn` finds the vector empty or returns a connection that is open. -/
def PopsOpen (s : Pool) : Prop :=
  ∀ item, s.freeProxyConns.getLast? = some item → ∃ id, item = some id ∧ s.closed id = false

/-- The vector has lost every occurrence of `id` and nothing else, and no map has it. -/
structure Dropped (s s' : Pool) (id : RandStr) : Prop where
  freeProxyConns : s'.freeProxyConns = s.freeProxyConns.filter (· ≠ some id)
  proxyConnMap : id ∉ s'.proxyConnMap
  waitForStartProxyConnMap : id ∉ s'.waitForStartProxyConnMap

/-- Neither free nor waiting for its start. -/
def Unlisted (s : Pool) (id : RandStr) : Prop :=
  some id ∉ s.freeProxyConns ∧ id ∉ s.waitForStartProxyConnMap

def DropsClosed (s : Pool) : PoolEvent → Prop
  | .proxyConnClose id => Dropped s (s.handlePeerProxyConnClose id) id
  | _ => True

def ClosesUnlisted (s : Pool) : PoolEvent → Prop
  | .proxyConnClose id => s.Unlisted id
  | _ => True

/-- Nothing in the containers is null or closed. -/
structure OpenInv (s : Pool) : Prop where
  nonNull : none ∉ s.freeProxyConns
  free : ∀ id, some id ∈ s.freeProxyConns → s.closed id = false
  mapped : ∀ id, id ∈ s.proxyConnMap → s.closed id = false
  waiting : ∀ id, id ∈ s.waitForStartProxyConnMap → s.closed id = false

variable {s s' : Pool} {id : RandStr}

theorem openInv_init : OpenInv {} where
  nonNull := by simp
  free := by simp
  mapped := fun id hmem => absurd hmem (KeyedMap.notMem_empty id)
  waiting := fun id hmem => absurd hmem (KeyedMap.notMem_empty id)

theorem OpenInv.popsOpen (hinv : OpenInv s) : PopsOpen s := by
  intro item hlast
  have hmem := List.mem_of_getLast? hlast
  cases item with
  | none => exact absurd hmem hinv.nonNull
  | some id => exact ⟨id, rfl, hinv.free id hmem⟩

/-- Whatever the vector holds and in whatever order. -/
theorem dropped_iff (s : Pool) (id : RandStr) :
    Dropped s (s.handlePeerProxyConnClose id) id ↔ s.Unlisted id := by
  constructor
  · intro hdropped
    exact ⟨remove_eq_filter_iff.mp hdropped.freeProxyConns, hdropped.waitForStartProxyConnMap⟩
  · rintro ⟨hfree, hwaiting⟩
    exact {
      freeProxyConns := remove_eq_filter_iff.mpr hfree
      proxyConnMap := fun hmem => (mem_erase.mp hmem).1 rfl
      waitForStartProxyConnMap := hwaiting }

theorem dropsClosed_iff (s : Pool) (event : PoolEvent) :
    DropsClosed s event ↔ ClosesUnlisted s event := by
  cases event with
  | proxyConnClose id => exact dropped_iff s id
  | newPublicConn | claimProxyConn | startProxyConnRsp | resetConn | freeProxyConn => exact Iff.rfl

/-! ## What the steps keep -/

theorem OpenInv.bind (hinv : OpenInv s) (hopen : s.closed id = false) (publicFd : Fd) :
    OpenInv (s.bindPublicFdToProxyConn publicFd id) := by
  refine ⟨hinv.nonNull, hinv.free, ?_, hinv.waiting⟩
  intro other hother
  rcases mem_add.mp hother with rfl | hbefore
  · exact hopen
  · exact hinv.mapped other hbefore

theorem OpenInv.newPublicConn (hinv : OpenInv s) {acceptFd : Fd}
    (hstep : s.newPublicConnHandler acceptFd = some s') : OpenInv s' := by
  unfold newPublicConnHandler at hstep
  cases hlast : s.freeProxyConns.getLast? with
  | none =>
      simp only [hlast, Option.some.injEq] at hstep
      subst hstep
      exact { hinv with }
  | some item =>
      cases item with
      | none => simp [hlast] at hstep
      | some id =>
          simp only [hlast, Option.some.injEq] at hstep
          subst hstep
          -- the connection goes from the vector to the map that waits
          have hopen := hinv.free id (List.mem_of_getLast? hlast)
          refine ⟨?_, ?_, hinv.mapped, ?_⟩
          · exact fun hnull => hinv.nonNull (List.dropLast_subset _ hnull)
          · exact fun other hother => hinv.free other (List.dropLast_subset _ hother)
          · intro other hother
            rcases mem_add.mp hother with rfl | hbefore
            · exact hopen
            · exact hinv.waiting other hbefore

theorem OpenInv.claim (hinv : OpenInv s) (hopen : s.closed id = false)
    (hstep : s.claimProxyConn id = some s') : OpenInv s' := by
  unfold claimProxyConn at hstep
  cases hlast : s.undealPublicFds.getLast? with
  | none => simp [hlast] at hstep
  | some publicFd =>
      simp only [hlast, Option.some.injEq] at hstep
      subst hstep
      have hpopped : OpenInv { s with
          claimed := Function.update s.claimed id true
          undealPublicFds := s.undealPublicFds.dropLast } := { hinv with }
      exact hpopped.bind hopen publicFd

theorem OpenInv.startRsp (hinv : OpenInv s) (hopen : s.closed id = false)
    (hstep : s.handleStartProxyConnRsp id = some s') : OpenInv s' := by
  unfold handleStartProxyConnRsp at hstep
  cases hrequested : s.requested id with
  | none => simp [hrequested] at hstep
  | some publicFd =>
      simp only [hrequested] at hstep
      have hread : OpenInv { s with requested := Function.update s.requested id none } :=
        { hinv with }
      by_cases hwaiting : id ∈ s.waitForStartProxyConnMap
      · rw [if_neg (not_not.mpr hwaiting), Option.some.injEq] at hstep
        subst hstep
        have hbound := hread.bind hopen publicFd
        refine { hbound with waiting := ?_ }
        intro other hother
        exact hbound.waiting other (mem_erase.mp hother).2
      · rw [if_pos hwaiting, Option.some.injEq] at hstep
        subst hstep
        exact hread

theorem OpenInv.free_step (hinv : OpenInv s) (proxyId : Str) : OpenInv (s.freeProxyConn proxyId) := by
  unfold freeProxyConn
  cases hget : s.proxyConnMap.get proxyId with
  | none => exact hinv
  | some id =>
      obtain ⟨hmem, rfl⟩ := KeyedMap.mem_of_get hget
      dsimp only
      by_cases hstart : s.isStart id = true
      · rw [if_pos hstart]
        exact hinv
      · rw [if_neg hstart]
        refine ⟨?_, ?_, ?_, hinv.waiting⟩
        · simpa using hinv.nonNull
        · intro other hother
          rcases List.mem_append.mp hother with hbefore | hnew
          · exact hinv.free other hbefore
          · obtain rfl := Option.some.inj (List.mem_singleton.mp hnew)
            exact hinv.mapped other hmem
        · intro other hother
          exact hinv.mapped other (mem_erase.mp hother).2

theorem OpenInv.settle (hinv : OpenInv s) (id : RandStr) : OpenInv (s.settle id) := by
  unfold Pool.settle
  split
  · exact hinv
  · exact { hinv with }

theorem OpenInv.close (hinv : OpenInv s) (hunlisted : s.Unlisted id) :
    OpenInv (s.handlePeerProxyConnClose id) := by
  have hdropped := (dropped_iff s id).mpr hunlisted
  have hkept {other : RandStr} (hother : other ≠ id) (hopen : s.closed other = false) :
      (s.handlePeerProxyConnClose id).closed other = false := by
    simpa [handlePeerProxyConnClose, hother] using hopen
  refine ⟨?_, ?_, ?_, ?_⟩
  · rw [hdropped.freeProxyConns]
    exact fun hnull => hinv.nonNull (List.mem_of_mem_filter hnull)
  · intro other hother
    rw [hdropped.freeProxyConns, List.mem_filter] at hother
    apply hkept _ (hinv.free other hother.1)
    rintro rfl
    simp at hother
  · intro other hother
    obtain ⟨hne, hbefore⟩ := mem_erase.mp hother
    exact hkept hne (hinv.mapped other hbefore)
  · intro other hother
    apply hkept _ (hinv.waiting other hother)
    rintro rfl
    exact hunlisted.2 hother

theorem OpenInv.step {event : PoolEvent} (hinv : OpenInv s) (hlaw : ClosesUnlisted s event)
    (hstep : Pool.step s event = some s') : OpenInv s' := by
  cases event with
  | newPublicConn acceptFd =>
      simp only [Pool.step, Option.ite_none_right_eq_some] at hstep
      exact hinv.newPublicConn hstep.2
  | claimProxyConn id =>
      simp only [Pool.step, Option.ite_none_right_eq_some] at hstep
      exact hinv.claim hstep.1.2 hstep.2
  | startProxyConnRsp id =>
      simp only [Pool.step, Option.ite_none_right_eq_some] at hstep
      exact hinv.startRsp hstep.1 hstep.2
  | resetConn id =>
      simp only [Pool.step, Option.ite_none_right_eq_some, Option.some.injEq] at hstep
      obtain ⟨_, rfl⟩ := hstep
      exact { hinv with }
  | freeProxyConn proxyId =>
      obtain rfl := Option.some.inj hstep
      exact hinv.free_step proxyId
  | proxyConnClose id =>
      simp only [Pool.step, Option.ite_none_right_eq_some, Option.some.injEq] at hstep
      obtain ⟨_, rfl⟩ := hstep
      exact (hinv.close hlaw).settle id

/-- In any state a close drops the connection exactly when it is neither free nor
waiting. In a run every close does, and a vector that is not empty never yields a null
or a closed connection, exactly when every connection that closes is in neither. -/
theorem closed_conns_dropped_iff (s : Pool) (id : RandStr) (events : List PoolEvent) :
    (Dropped s (s.handlePeerProxyConnClose id) id ↔ s.Unlisted id) ∧
      ((Takes Pool.step DropsClosed {} events ∧ Visits Pool.step PopsOpen {} events) ↔
        Takes Pool.step ClosesUnlisted {} events) := by
  refine ⟨dropped_iff s id, ?_⟩
  have hstep (s : Pool) (event : PoolEvent) (s' : Pool) (hinv : OpenInv s)
      (hlaw : ClosesUnlisted s event) (hnext : Pool.step s event = some s') : OpenInv s' :=
    hinv.step hlaw hnext
  have hdrops := takes_iff_takes hstep (fun s event _ _ _ => dropsClosed_iff s event)
    openInv_init events
  rw [hdrops]
  apply and_iff_left_of_imp
  intro htakes before middle hinit hrun
  exact (run_invariant_of_takes hstep openInv_init (htakes.of_initial hinit) hrun).popsOpen

/-- Two connections serve a session each and are free, then one closes. -/
def sampleFree (id : RandStr) : List PoolEvent :=
  [.newPublicConn 5, .newPublicConn 6, .claimProxyConn firstId, .claimProxyConn secondId,
    .resetConn firstId, .freeProxyConn firstId.chars, .resetConn secondId,
    .freeProxyConn secondId.chars, .proxyConnClose id]

/-- Of the two the first leaves a null pointer at the back, and the second stays there. -/
theorem not_closed_conns_dropped :
    ¬ (∀ s id, Dropped s (s.handlePeerProxyConnClose id) id) ∧
      ¬ (∀ events, Visits Pool.step PopsOpen {} events) ∧
      (run Pool.step {} (sampleFree firstId)).map freeProxyConns = some [some secondId, none] ∧
      run Pool.step {} (sampleFree firstId ++ [.newPublicConn 7]) = none ∧
      (run Pool.step {} (sampleFree secondId ++ [.newPublicConn 7])).map
        (fun s => (s.requested secondId, s.closed secondId)) = some (some 7, true) := by
  refine ⟨?_, ?_, by decide, rfl, by decide⟩
  · intro hdropped
    have hunlisted := (dropped_iff { freeProxyConns := [some firstId] } firstId).mp (hdropped _ _)
    exact hunlisted.1 (by simp)
  · intro hvisits
    have hreached : (run Pool.step {} (sampleFree secondId)).map
        (fun s => (s.freeProxyConns.getLast?, s.closed secondId)) =
          some (some (some secondId), true) := by
      decide
    obtain ⟨s, hrun, hs⟩ := Option.map_eq_some_iff.mp hreached
    obtain ⟨hlast, hclosed⟩ := Prod.mk.inj hs
    obtain ⟨id, hid, hopen⟩ := hvisits _ _ s List.prefix_rfl hrun _ hlast
    obtain rfl := Option.some.inj hid
    exact absurd hclosed (by simp [hopen])

end Pool

end CProxy
