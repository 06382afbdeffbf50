import CProxy.Tunnel.Reachable

/-! # Where the server keeps its proxy connections

An accepted connection sits in one container of the server, once: the bucket of
unclaimed connections for its descriptor, the map of running ones, the map of
those waiting for an answer, or the free list.
-/

namespace CProxy

open Foundation Wire

variable {cfg : Config} {s : System} {id : RandStr}

/-- How often the containers that may hold a connection do. -/
def homes (s : System) (id : RandStr) : Nat :=
  occurrences (s.unclaimed (unclaimedIndex (s.link id).server.proxy.fd)) id +
    occurrences s.proxyConnMap id + occurrences s.waitForStartProxyConnMap id +
    s.freeProxyConns.count id

theorem LinkInv.one_home {v : View} (hinv : LinkInv cfg id v) (haccepted : v.link.accepted = true) :
    v.unclaimed + v.mapped + v.waiting + v.free = 1 := by
  cases hinv with
  | unused hunused => simp [hunused] at haccepted
  | ahead loc msg hahead =>
      have hmapped := hahead.mapped
      have hfree := hahead.free
      cases hahead.origin with
      | fresh hclaimed hstarts hwaiting hunclaimed =>
          rw [if_pos haccepted] at hunclaimed
          omega
      | reused publicFd hfd _ hclaimed hwaiting hunclaimed => omega
  | level pub loc trailing hlevel =>
      have hhome := hlevel.home
      have hunclaimed := hlevel.unclaimed
      omega

/-- A connection that waits or is free has been reset. -/
theorem LinkInv.idle_of_parked {v : View} (hinv : LinkInv cfg id v)
    (hparked : 0 < v.waiting + v.free) : v.link.server.proxy.Idle := by
  cases hinv with
  | unused hunused => simp [hunused] at hparked
  | ahead loc msg hahead => exact hahead.server
  | level pub loc trailing hlevel =>
      have hhome := hlevel.home
      cases hstart : v.link.server.proxy.isStart with
      | false => exact (hlevel.up.resting_of_not_isStart hstart).idle
      | true =>
          have hmapped := hlevel.mapped hstart
          omega

theorem UnclaimedKeyed.occurrences_eq_zero (hunclaimed : UnclaimedKeyed s)
    {idx : Fin unclaimedProxyMapLen} (hidx : idx ≠ unclaimedIndex (s.link id).server.proxy.fd) :
    occurrences (s.unclaimed idx) id = 0 := by
  by_contra hne
  obtain ⟨key, hlookup⟩ := occurrences_pos_iff.mp (Nat.pos_of_ne_zero hne)
  obtain ⟨hbucket, hkey, _⟩ := hunclaimed idx key id hlookup
  exact hidx (hkey ▸ hbucket)

theorem WellFormed.homes_eq (hwf : WellFormed cfg s) (id : RandStr) :
    homes s id = (s.view id).unclaimed + (s.view id).mapped + (s.view id).waiting +
      (s.view id).free := by
  have hown : (s.view id).unclaimed =
      occurrences (s.unclaimed (unclaimedIndex (s.link id).server.proxy.fd)) id := by
    change ∑ idx, occurrences (s.unclaimed idx) id = _
    refine Finset.sum_eq_single (unclaimedIndex (s.link id).server.proxy.fd) ?_ ?_
    · exact fun idx _ hidx => hwf.unclaimed.occurrences_eq_zero hidx
    · exact fun hmem => absurd (Finset.mem_univ _) hmem
  rw [hown]
  rfl

/-- Whatever the order of the handlers, and with late or repeated requests to
free a connection, each accepted connection has exactly one home, and those on
the free list or waiting for an answer are idle. -/
theorem proxyConn_has_one_home (hreach : Reachable cfg s) :
    (∀ id, (s.link id).accepted = true → homes s id = 1 ∧
      ∀ idx, idx ≠ unclaimedIndex (s.link id).server.proxy.fd →
        occurrences (s.unclaimed idx) id = 0) ∧
    ∀ id, id ∈ s.freeProxyConns ∨ 0 < occurrences s.waitForStartProxyConnMap id →
      (s.link id).server.proxy.Idle := by
  have hwf := hreach.wellFormed
  constructor
  · intro id haccepted
    refine ⟨?_, fun idx hidx => hwf.unclaimed.occurrences_eq_zero hidx⟩
    rw [hwf.homes_eq id]
    exact (hwf.inv id).one_home haccepted
  · intro id hparked
    apply (hwf.inv id).idle_of_parked
    rcases hparked with hfree | hwaiting
    · exact Nat.add_pos_right _ (List.count_pos_iff.mpr hfree)
    · exact Nat.add_pos_left hwaiting _

set_option maxRecDepth 10000 in
/-- After the sample session the connection is on the free list. -/
theorem proxyConn_has_one_home_sample :
    homes (sampleAfter (sampleStart ++ sampleFinish)) sampleId = 1 ∧
      ((sampleAfter (sampleStart ++ sampleFinish)).link sampleId).server.proxy.Idle := by
  obtain ⟨hhomes, hidle⟩ := proxyConn_has_one_home
    (sampleAfter_reachable (sampleStart ++ sampleFinish) (by decide))
  exact ⟨(hhomes sampleId (by decide)).1, hidle sampleId (Or.inl (by decide))⟩

end CProxy
