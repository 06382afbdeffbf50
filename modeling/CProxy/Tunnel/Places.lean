import CProxy.Tunnel.Matching

/-! # Where a public connection goes

A public connection that has been accepted waits for a new proxy connection, or is what
a free one has been asked for, or is bound to a session. It comes to a session from
either of the other two places, and stays there.
-/

namespace CProxy

open Foundation Wire

/-- The ways between the places of a public descriptor. -/
inductive Place.Leads : Place → Place → Prop
  | stay (place : Place) : Leads place place
  | claim (index : Nat) (id : RandStr) (session : Nat) : Leads (.undeal index) (.bound id session)
  | answer (id : RandStr) (session : Nat) : Leads (.requested id) (.bound id session)

theorem Place.Leads.trans {first second third : Place} (hfirst : first.Leads second)
    (hsecond : second.Leads third) : first.Leads third := by
  cases hfirst with
  | stay => exact hsecond
  | claim index id session =>
      cases hsecond with
      | stay => exact .claim index id session
  | answer id session =>
      cases hsecond with
      | stay => exact .answer id session

variable {cfg : Config} {s s' : System} {id : RandStr} {event : Event} {place : Place} {fd : Fd}

/-! ## One step -/

/-- A session that has been bound keeps its descriptor. -/
theorem Holds.of_starts {session : Nat} (hplace : Holds s (.bound id session) fd)
    {more : List Fd} (hstarts : (s'.link id).server.starts = (s.link id).server.starts ++ more) :
    Holds s' (.bound id session) fd := by
  have hsome : (s.link id).server.starts[session]? = some fd := hplace
  have hlength := (List.getElem?_eq_some_iff.mp hsome).1
  rw [Holds, hstarts, List.getElem?_append_left hlength]
  exact hsome

/-- What was asked for stays so until it is bound. -/
theorem Holds.requested_step (hplace : Holds s (.requested id) fd)
    (hcases : ((s'.view id).link.server.starts = (s.view id).link.server.starts ∧
        (s'.view id).link.reqFd = (s.view id).link.reqFd ∧
        (s'.view id).waiting = (s.view id).waiting) ∨
      ∃ found, (s.view id).waiting = 1 ∧ (s.view id).link.reqFd = some found ∧
        (s'.view id).link.server.starts = (s.view id).link.server.starts ++ [found] ∧
        (s'.view id).waiting = 0) :
    ∃ next, Holds s' next fd ∧ (Place.requested id).Leads next := by
  obtain ⟨hwaiting, hreq⟩ := hplace
  rcases hcases with ⟨_, hsame, hkept⟩ | ⟨found, _, hfound, hstarts, _⟩
  · exact ⟨.requested id, ⟨hkept.trans hwaiting, hsame.trans hreq⟩, .stay _⟩
  · obtain rfl : found = fd := Option.some.inj (hfound.symm.trans hreq)
    refine ⟨.bound id (s.link id).server.starts.length, ?_, .answer id _⟩
    rw [Holds, ← view_link s', hstarts, view_link, List.getElem?_concat_length]

theorem Holds.bound_step {session : Nat} (hplace : Holds s (.bound id session) fd)
    (hcases : ((s'.view id).link.server.starts = (s.view id).link.server.starts ∧
        (s'.view id).link.reqFd = (s.view id).link.reqFd ∧
        (s'.view id).waiting = (s.view id).waiting) ∨
      ∃ found, (s.view id).waiting = 1 ∧ (s.view id).link.reqFd = some found ∧
        (s'.view id).link.server.starts = (s.view id).link.server.starts ++ [found] ∧
        (s'.view id).waiting = 0) : Holds s' (.bound id session) fd := by
  rcases hcases with ⟨hstarts, _⟩ | ⟨found, _, _, hstarts, _⟩
  · exact @Holds.of_starts _ _ _ _ _ hplace [] (by rw [List.append_nil]; exact hstarts)
  · exact hplace.of_starts hstarts

/-- The waiting connections lose only their last one, and that to a session. -/
theorem Holds.undeal_step {index : Nat} (hplace : Holds s (.undeal index) fd) {taken : Fd}
    (hundeal : s.undealPublicFds = s'.undealPublicFds ++ [taken])
    (hstarts : (s'.link id).server.starts = (s.link id).server.starts ++ [taken]) :
    ∃ next, Holds s' next fd ∧ (Place.undeal index).Leads next := by
  have hsome : s.undealPublicFds[index]? = some fd := hplace
  by_cases hlast : index < s'.undealPublicFds.length
  · rw [hundeal, List.getElem?_append_left hlast] at hsome
    exact ⟨.undeal index, hsome, .stay _⟩
  · rw [hundeal, List.getElem?_append_right (by omega)] at hsome
    obtain rfl := List.mem_singleton.mp (List.mem_of_getElem? hsome)
    refine ⟨.bound id (s.link id).server.starts.length, ?_, .claim index id _⟩
    rw [Holds, hstarts, List.getElem?_concat_length]

theorem Holds.step (hplace : Holds s place fd) (hwf : WellFormed cfg s)
    (hstep : CProxy.step cfg s event = some s') :
    ∃ next, Holds s' next fd ∧ place.Leads next := by
  have hlinks := (step_simulated hwf hstep).links
  cases step_dealt hwf hstep with
  | kept hundeal hneeds haccepted hclient hclaimed hrequest =>
      cases place with
      | undeal index => exact ⟨.undeal index, by rw [Holds, hundeal]; exact hplace, .stay _⟩
      | requested id =>
          exact hplace.requested_step ((hlinks id).starts_cases (hclaimed id) (hrequest id))
      | bound id session =>
          exact ⟨.bound id session, hplace.bound_step
            ((hlinks id).starts_cases (hclaimed id) (hrequest id)), .stay _⟩
  | heard other hundeal hneeds haccepted hfresh hclient hclaimed hrequest =>
      cases place with
      | undeal index => exact ⟨.undeal index, by rw [Holds, hundeal]; exact hplace, .stay _⟩
      | requested id =>
          exact hplace.requested_step ((hlinks id).starts_cases (hclaimed id) (hrequest id))
      | bound id session =>
          exact ⟨.bound id session, hplace.bound_step
            ((hlinks id).starts_cases (hclaimed id) (hrequest id)), .stay _⟩
  | asked fresh hfresh hundeal hneeds haccepted hclient hviews =>
      refine ⟨place, ?_, .stay place⟩
      cases place with
      | undeal index =>
          have hsome : s.undealPublicFds[index]? = some fd := hplace
          have hlength := (List.getElem?_eq_some_iff.mp hsome).1
          rw [Holds, hundeal, List.getElem?_append_left hlength]
          exact hsome
      | requested id =>
          rw [Holds, ← view_link, hviews]
          exact hplace
      | bound id session =>
          rw [Holds, ← view_link, hviews]
          exact hplace
  | offered chosen fresh hfresh hundeal hneeds haccepted hclient hevent hlast hclaimed =>
      subst hevent
      have hmoved := hlinks
      simp only [Event.about, hlast, Option.some.injEq] at hmoved
      refine ⟨place, ?_, .stay place⟩
      cases place with
      | undeal index =>
          rw [Holds, hundeal]
          exact hplace
      | requested id =>
          by_cases hid : chosen = id
          · -- a free connection has not been asked for
            subst hid
            have hfree : 0 < (s.view chosen).free :=
              List.count_pos_iff.mpr (List.mem_of_getLast? hlast)
            obtain ⟨pub, loc, trailing, hlevel⟩ := (hwf.inv chosen).level_of_home (by omega)
            have hhome := hlevel.home
            have hwaiting : (s.view chosen).waiting = 1 := hplace.1
            omega
          · have hlink := hmoved id
            rw [if_neg hid] at hlink
            have hsame : s'.view id = s.view id := by
              generalize s'.view id = after, s.view id = before at hlink
              cases hlink with
              | stay => rfl
            rw [Holds, ← view_link, hsame]
            exact hplace
      | bound id session =>
          have hlink := hmoved id
          have hstarts : (s'.view id).link.server.starts = (s.view id).link.server.starts := by
            generalize s'.view id = after, s.view id = before at hlink
            split at hlink
            · cases hlink with
              | request => rfl
            · cases hlink with
              | stay => rfl
          rw [Holds, ← view_link, hstarts]
          exact hplace
  | taken chosen found hundeal hneeds haccepted hclient hopen hbefore hafter hstarts hothers
      hrequest =>
      cases place with
      | undeal index => exact hplace.undeal_step hundeal hstarts
      | requested id =>
          by_cases hid : id = chosen
          · subst hid
            have hwaiting : (s.view id).waiting = 1 := hplace.1
            have hnone := (hwf.inv id).waiting_of_unclaimed hbefore
            omega
          · exact hplace.requested_step ((hlinks id).starts_cases (hothers id hid) (hrequest id))
      | bound id session =>
          refine ⟨.bound id session, ?_, .stay _⟩
          by_cases hid : id = chosen
          · exact hplace.of_starts (hid ▸ hstarts)
          · exact hplace.bound_step ((hlinks id).starts_cases (hothers id hid) (hrequest id))

/-- A public connection that is accepted has a place at once. -/
theorem holds_newPublicConn (hwf : WellFormed cfg s)
    (hstep : CProxy.step cfg s (.newPublicConn fd) = some s') : ∃ place, Holds s' place fd := by
  have hlinks := (step_simulated hwf hstep).links
  obtain ⟨_, hsome⟩ := Option.ite_none_right_eq_some.mp hstep
  cases hlast : s.freeProxyConns.getLast? with
  | none =>
      refine ⟨.undeal s.undealPublicFds.length, ?_⟩
      rw [Server.newPublicConnHandler] at hsome
      simp only [hlast] at hsome
      rw [← Option.some.inj hsome, Holds, List.getElem?_concat_length]
  | some id =>
      have hlink := hlinks id
      simp only [Event.about, hlast, if_true] at hlink
      refine ⟨.requested id, ?_⟩
      rw [Holds, ← view_link]
      generalize s'.view id = after at hlink ⊢
      cases hlink with
      | request => exact ⟨rfl, rfl⟩

/-! ## Runs -/

theorem Holds.run {events : List Event} {final : System} (hplace : Holds s place fd)
    (hwf : WellFormed cfg s) (hrun : Foundation.run (CProxy.step cfg) s events = some final) :
    ∃ next, Holds final next fd ∧ place.Leads next := by
  induction events generalizing s place with
  | nil =>
      obtain rfl := Option.some.inj hrun
      exact ⟨place, hplace, .stay place⟩
  | cons event rest ih =>
      obtain ⟨next, hnext, hrest⟩ := run_cons_eq_some.mp hrun
      obtain ⟨middle, hmiddle, hleads⟩ := hplace.step hwf hnext
      obtain ⟨last, hlast, hlater⟩ := ih hmiddle (hwf.step hnext) hrest
      exact ⟨last, hlast, hleads.trans hlater⟩

/-- A public connection accepted in a run has a place at its end. -/
theorem holds_of_accepted {events : List Event} {final : System} (hwf : WellFormed cfg s)
    (hrun : run (step cfg) s events = some final) (hmem : .newPublicConn fd ∈ events) :
    ∃ place, Holds final place fd := by
  induction events generalizing s with
  | nil => cases hmem
  | cons event rest ih =>
      obtain ⟨next, hnext, hrest⟩ := run_cons_eq_some.mp hrun
      rcases List.mem_cons.mp hmem with rfl | hlater
      · obtain ⟨place, hplace⟩ := holds_newPublicConn hwf hnext
        obtain ⟨last, hlast, -⟩ := hplace.run (hwf.step hnext) hrest
        exact ⟨last, hlast⟩
      · exact ih (hwf.step hnext) hrest hlater

end CProxy
