import CProxy.Tunnel.Dealing
import CProxy.Tunnel.Stream

/-! # Public connections and proxy connections are matched one to one

Every listed public connection is owed a proxy connection that is on its way, and
a public descriptor is in one place at a time: listed, in a request, or bound.
-/

namespace CProxy

open Foundation Wire

/-! ## How a step changes what one connection is bound to -/

section Link

variable {cfg : Config} {id : RandStr} {v v' : View} {event : LinkEvent}

/-- Apart from a first claim, a connection is bound to what was requested for it. -/
theorem LinkStep.starts_cases (hstep : LinkStep cfg id v event v')
    (hclaimed : v'.link.claimed = v.link.claimed) (hrequest : ∀ fd, event ≠ .request fd) :
    (v'.link.server.starts = v.link.server.starts ∧ v'.link.reqFd = v.link.reqFd ∧
      v'.waiting = v.waiting) ∨
    ∃ fd, v.waiting = 1 ∧ v.link.reqFd = some fd ∧
      v'.link.server.starts = v.link.server.starts ++ [fd] ∧ v'.waiting = 0 := by
  have hfree (w : View) : w.freeProxyConn.waiting = w.waiting := by
    unfold View.freeProxyConn
    split <;> rfl
  have hshut (w : View) : w.shutdownPublicConn.waiting = w.waiting := by
    unfold View.shutdownPublicConn
    dsimp only
    split
    · rw [hfree]
      rfl
    · rfl
  have hlocal (w : View) : w.shutdonwLocalConn.waiting = w.waiting := by
    unfold View.shutdonwLocalConn
    dsimp only
    split <;> rfl
  cases hstep with
  | stay | reclosedAtServer | reclosedAtClient | connect | accept | relayAtServer
  | startAtClient | relayAtClient | closeAtClient =>
      exact Or.inl ⟨rfl, rfl, rfl⟩
  | request publicFd => exact absurd rfl (hrequest publicFd)
  | claim count publicFd rest haccepted hnot =>
      simp [View.startServer, hnot] at hclaimed
  | bind count publicFd rest hwaiting _ _ hreq =>
      exact Or.inr ⟨publicFd, hwaiting, hreq, rfl, rfl⟩
  | forwardAtServer count =>
      refine Or.inl ⟨?_, ?_, hshut _⟩
      · simp [Link.forwardAtServer, End.forward]
      · simp [Link.forwardAtServer]
  | closeAtServer conn =>
      unfold View.shutdownFromPublic
      split <;> exact Or.inl ⟨rfl, rfl, rfl⟩
  | hearAtServer tranCount rest =>
      unfold View.handleShutdownPublicConn
      split
      · exact Or.inl ⟨rfl, rfl, rfl⟩
      · refine Or.inl ⟨?_, ?_, hshut _⟩
        · simp [Link.mapServer, End.mapProxy]
        · simp [Link.mapServer]
  | freeAtServer rest => exact Or.inl ⟨by simp, by simp, hfree _⟩
  | strayFreeReq => exact Or.inl ⟨by simp, by simp, hfree _⟩
  | hearAtClient tranCount rest =>
      unfold View.handleShutdownLocalConn
      refine Or.inl ⟨?_, ?_, hlocal _⟩
      · simp [Link.mapClient]
      · simp [Link.mapClient]
  | forwardAtClient count localFd =>
      refine Or.inl ⟨?_, ?_, hlocal _⟩
      · simp [Link.forwardAtClient]
      · simp [Link.forwardAtClient]

/-- Either end is started only while it is idle. -/
theorem LinkStep.idle_of_start (hstep : LinkStep cfg id v event v') (hinv : LinkInv cfg id v) :
    (v'.link.server.starts ≠ v.link.server.starts → v.link.server.proxy.isStart = false) ∧
      (v'.link.client.starts ≠ v.link.client.starts → v.link.client.proxy.isStart = false) := by
  cases hstep with
  | connect proxyFd localFd hcreated =>
      have hunused := hinv.eq_unused hcreated
      subst hunused
      exact ⟨fun _ => rfl, fun _ => rfl⟩
  | claim count publicFd rest haccepted hnot hstart =>
      exact ⟨fun _ => hstart, fun hchange => absurd rfl hchange⟩
  | bind count publicFd rest hwaiting hclaimed hstart =>
      exact ⟨fun _ => hstart, fun hchange => absurd rfl hchange⟩
  | startAtClient count localFd publicFd hlocal hcreated hstart =>
      exact ⟨fun hchange => absurd rfl hchange, fun _ => hstart⟩
  | stay | reclosedAtServer | reclosedAtClient | accept | request | relayAtServer
  | relayAtClient | closeAtClient =>
      exact ⟨fun hchange => absurd rfl hchange, fun hchange => absurd rfl hchange⟩
  | forwardAtServer count => simp [Link.forwardAtServer, End.forward]
  | closeAtServer conn =>
      unfold View.shutdownFromPublic
      split <;> exact ⟨fun hchange => absurd rfl hchange, fun hchange => absurd rfl hchange⟩
  | hearAtServer tranCount rest =>
      unfold View.handleShutdownPublicConn
      split
      · exact ⟨fun hchange => absurd rfl hchange, fun hchange => absurd rfl hchange⟩
      · simp [Link.mapServer, End.mapProxy]
  | freeAtServer rest => simp
  | strayFreeReq => simp
  | hearAtClient tranCount rest =>
      simp [View.handleShutdownLocalConn, Link.mapClient, End.mapProxy]
  | forwardAtClient count localFd => simp [Link.forwardAtClient, End.forward]

end Link

/-! ## Proxy connections on their way -/

/-- What the client has sent on a connection and the server has not handled. -/
def inFlight (link : Link) : List StreamItem := link.sent.drop link.handled.length

def isMetaSet : StreamItem → Bool
  | .frame (.proxyMetaSet ..) => true
  | _ => false

/-- The ProxyMetaSet messages on their way on one connection. -/
def metaSets (link : Link) : Nat := (inFlight link).countP isMetaSet

/-- The connections the client has made. -/
def System.created (s : System) : List RandStr := s.clientProxyConnMap.entries.map Sigma.snd

/-- The ProxyMetaSet messages on their way. -/
def System.metaSets (s : System) : Nat := (s.created.map fun id => CProxy.metaSets (s.link id)).sum

theorem Streamed.inFlight_eq {link : Link} {done pending : List StreamItem}
    (hstreamed : Streamed link done pending) : inFlight link = pending := by
  rw [inFlight, hstreamed.handled, List.length_map, hstreamed.sent, List.drop_left]

theorem countP_isMetaSet_data (session : Nat) (bytes : List UInt8) :
    (bytes.map (StreamItem.data session)).countP isMetaSet = 0 := by
  rw [List.countP_eq_zero]
  simp [isMetaSet]

variable {cfg : Config} {s s' : System} {id : RandStr} {event : Event}

/-- Exactly the connections that are not claimed yet have a ProxyMetaSet under way. -/
theorem metaSets_eq (hinv : LinkInv cfg id (s.view id)) (hstream : StreamInv (s.link id))
    (hcreated : (s.view id).created = true) :
    metaSets (s.link id) = if (s.link id).claimed then 0 else 1 := by
  obtain ⟨done, pending, hstreamed, hpending⟩ := hstream
  rw [metaSets, hstreamed.inFlight_eq]
  cases hinv with
  | unused hunused => simp [hunused] at hcreated
  | ahead loc msg hahead =>
      have hstarts : (s.link id).client.starts.length = (s.link id).server.starts.length + 1 :=
        hahead.starts
      have hstream : (s.link id).toServer = msg.wire ++ loc.received := hahead.stream
      cases hpending with
      | level hlevel => omega
      | ahead first rest hfirst _ hbytes =>
          obtain ⟨rfl, rfl⟩ := ProxyCtlMsg.wire_append_inj hfirst hahead.origin.sent
            (hbytes.symm.trans hstream)
          rw [List.countP_cons, countP_isMetaSet_data]
          cases hahead.origin with
          | fresh hclaimed =>
              have hnot : (s.link id).claimed = false := hclaimed
              simp [isMetaSet, hnot]
          | reused publicFd hfd _ hclaimed =>
              have hyes : (s.link id).claimed = true := hclaimed
              simp [isMetaSet, hyes]
  | level pub loc trailing hlevel =>
      have hstarts : (s.link id).client.starts.length = (s.link id).server.starts.length :=
        hlevel.starts
      have hclaimed : (s.link id).claimed = true := hlevel.claimed
      cases hpending with
      | level => rw [countP_isMetaSet_data, if_pos hclaimed]
      | ahead first rest _ hbehind => omega

/-- The list of waiting public connections is as long as there are proxy
connections requested or made for them. -/
def Owed (s : System) : Prop :=
  s.undealPublicFds.length =
    s.needs + s.created.countP fun id => !(s.link id).claimed

theorem Keyed.created_nodup (hkeyed : Keyed s) : s.created.Nodup := by
  rw [List.nodup_iff_count_le_one]
  intro id
  have hcount := hkeyed.client.occurrences_eq id
  unfold occurrences at hcount
  rw [System.created, hcount]
  split <;> omega

theorem mem_created_iff (hkeyed : Keyed s) :
    id ∈ s.created ↔ (s.view id).created = true := by
  have hpos := hkeyed.client.occurrences_pos id
  rw [← hkeyed.client.mem_iff RandStr.chars_injective, ← AList.lookup_isSome] at hpos
  rw [System.created, ← List.count_pos_iff]
  exact hpos

/-- One member of the list stops satisfying the property. -/
theorem countP_update {α : Type} {p q : α → Bool} {items : List α} (hnodup : items.Nodup) {item : α}
    (hmem : item ∈ items) (hbefore : p item = true) (hafter : q item = false)
    (hothers : ∀ other, other ≠ item → q other = p other) :
    items.countP p = items.countP q + 1 := by
  obtain ⟨first, last, rfl⟩ := List.append_of_mem hmem
  rw [List.nodup_append, List.nodup_cons] at hnodup
  obtain ⟨_, ⟨hlast, _⟩, hfirst⟩ := hnodup
  have hsame (part : List α) (hpart : item ∉ part) : part.countP p = part.countP q := by
    apply List.countP_congr
    intro other hother
    rw [hothers other fun heq => hpart (heq ▸ hother)]
  have hnot : item ∉ first := fun hin => hfirst item hin item (by simp) rfl
  rw [List.countP_append, List.countP_append, List.countP_cons, List.countP_cons, hsame first hnot,
    hsame last hlast, hbefore, hafter]
  simp
  omega

theorem Owed.step (howed : Owed s) (hwf : WellFormed cfg s)
    (hstep : step cfg s event = some s') : Owed s' := by
  have hcount (hsame : s'.created = s.created)
      (hclaimed : ∀ id, (s'.link id).claimed = (s.link id).claimed) :
      s'.created.countP (fun id => !(s'.link id).claimed) =
        s.created.countP fun id => !(s.link id).claimed := by
    rw [hsame]
    simp only [hclaimed]
  unfold Owed at howed ⊢
  cases step_dealt hwf hstep with
  | kept hundeal hneeds haccepted hclient hclaimed =>
      rw [hundeal, hneeds, hcount (by rw [System.created, hclient]; rfl) hclaimed, howed]
  | asked fd hfresh hundeal hneeds haccepted hclient hviews =>
      have hclaimed (id : RandStr) : (s'.link id).claimed = (s.link id).claimed := by
        rw [← view_link, hviews id, view_link]
      rw [hundeal, hneeds, hcount (by rw [System.created, hclient]; rfl) hclaimed,
        List.length_append, howed, List.length_singleton]
      omega
  | offered id fd hfresh hundeal hneeds haccepted hclient hevent hlast hclaimed =>
      rw [hundeal, hneeds, hcount (by rw [System.created, hclient]; rfl) hclaimed, howed]
  | heard id hundeal hneeds haccepted hfresh hclient hclaimed =>
      have hunused : s.view id = {} := by
        apply (hwf.inv id).eq_unused
        simpa [System.view, AList.lookup_eq_none] using hfresh
      have hnot : (s.link id).claimed = false := by rw [← view_link, hunused]
      have hcreated : s'.created = id :: s.created := by
        rw [System.created, hclient, AList.entries_insert_of_notMem hfresh]
        rfl
      rw [hundeal, hcreated]
      simp only [hclaimed, List.countP_cons, hnot, Bool.not_false, if_true]
      omega
  | taken id fd hundeal hneeds haccepted hclient hopen hbefore hafter hstarts hothers =>
      have hcreated : s'.created = s.created := by rw [System.created, hclient]; rfl
      have hmem : id ∈ s.created := by
        rw [mem_created_iff hwf.keyed]
        cases hunknown : (s.view id).created with
        | true => rfl
        | false => simp [← view_link, (hwf.inv id).eq_unused hunknown] at hopen
      have hone := @countP_update _ (fun id => !(s.link id).claimed)
        (fun id => !(s'.link id).claimed) _ hwf.keyed.created_nodup id hmem
        (by simp [hbefore]) (by simp [hafter]) fun other hother => by rw [hothers other hother]
      rw [hundeal, List.length_append, List.length_singleton] at howed
      rw [hcreated]
      omega

theorem owed_init : Owed System.init := rfl

/-! ## One place for each public descriptor -/

/-- Where a public descriptor can be; a session is counted from zero. -/
inductive Place where
  | undeal (index : Nat)
  | requested (id : RandStr)
  | bound (id : RandStr) (session : Nat)
  deriving DecidableEq

def Holds (s : System) : Place → Fd → Prop
  | .undeal index, fd => s.undealPublicFds[index]? = some fd
  | .requested id, fd => (s.view id).waiting = 1 ∧ (s.link id).reqFd = some fd
  | .bound id session, fd => (s.link id).server.starts[session]? = some fd

structure Unshared (s : System) : Prop where
  one : ∀ first second fd, Holds s first fd → Holds s second fd → first = second
  accepted : ∀ place fd, Holds s place fd → fd ∈ s.accepted

theorem unshared_init : Unshared System.init where
  one := by
    intro first second fd hfirst
    cases first with
    | undeal index => simp [Holds, System.init] at hfirst
    | requested id => simp [Holds, view_init] at hfirst
    | bound id session => simp [Holds, System.init] at hfirst
  accepted := by
    intro place fd hplace
    cases place with
    | undeal index => simp [Holds, System.init] at hplace
    | requested id => simp [Holds, view_init] at hplace
    | bound id session => simp [Holds, System.init] at hplace

/-- Every place of the new state goes back to one of the old state. -/
theorem Unshared.of_back (hunshared : Unshared s) (back : Place → Place)
    (haccepted : ∀ fd, fd ∈ s.accepted → fd ∈ s'.accepted)
    (hback : ∀ place fd, Holds s' place fd → Holds s (back place) fd)
    (hinj : ∀ first second fd, Holds s' first fd → Holds s' second fd →
      back first = back second → first = second) : Unshared s' where
  one := fun first second fd hfirst hsecond => hinj first second fd hfirst hsecond
    (hunshared.one _ _ fd (hback first fd hfirst) (hback second fd hsecond))
  accepted := fun place fd hplace => haccepted fd (hunshared.accepted _ fd (hback place fd hplace))

/-- A descriptor that has just been accepted is in one place, the others have not moved. -/
theorem Unshared.of_fresh (hunshared : Unshared s) (target : Place) {fresh : Fd}
    (hfresh : fresh ∉ s.accepted) (haccepted : s'.accepted = s.accepted ++ [fresh])
    (hplaces : ∀ place fd, Holds s' place fd → Holds s place fd ∨ (place = target ∧ fd = fresh)) :
    Unshared s' where
  one := by
    intro first second fd hfirst hsecond
    rcases hplaces first fd hfirst with hold | ⟨rfl, rfl⟩
    · rcases hplaces second fd hsecond with hold' | ⟨rfl, rfl⟩
      · exact hunshared.one first second fd hold hold'
      · exact absurd (hunshared.accepted first fd hold) hfresh
    · rcases hplaces second fd hsecond with hold' | ⟨rfl, _⟩
      · exact absurd (hunshared.accepted second fd hold') hfresh
      · rfl
  accepted := by
    intro place fd hplace
    rw [haccepted]
    rcases hplaces place fd hplace with hold | ⟨_, rfl⟩
    · exact List.mem_append_left _ (hunshared.accepted place fd hold)
    · simp

/-- Where a descriptor was before a step that binds no other connection than `taken`. -/
def before (s s' : System) (taken : Option RandStr) : Place → Place
  | .bound id session =>
      if session = (s.link id).server.starts.length then
        if taken = some id then .undeal s'.undealPublicFds.length else .requested id
      else .bound id session
  | place => place

theorem before_bound_inj {taken : Option RandStr} {id other : RandStr} {session last : Nat}
    (heq : before s s' taken (.bound id session) = before s s' taken (.bound other last)) :
    Place.bound id session = .bound other last := by
  simp only [before] at heq
  by_cases hnow : session = (s.link id).server.starts.length
  · rw [if_pos hnow] at heq
    by_cases hnow' : last = (s.link other).server.starts.length
    · rw [if_pos hnow'] at heq
      -- both have just been bound, by a claim or by an answer
      have hsame : id = other := by
        by_cases htook : taken = some id
        · rw [if_pos htook] at heq
          by_cases htook' : taken = some other
          · exact Option.some.inj (htook.symm.trans htook')
          · rw [if_neg htook'] at heq
            cases heq
        · rw [if_neg htook] at heq
          by_cases htook' : taken = some other
          · rw [if_pos htook'] at heq
            cases heq
          · rw [if_neg htook'] at heq
            exact Place.requested.inj heq
      subst hsame
      rw [hnow, hnow']
    · rw [if_neg hnow'] at heq
      split at heq <;> cases heq
  · rw [if_neg hnow] at heq
    by_cases hnow' : last = (s.link other).server.starts.length
    · rw [if_pos hnow'] at heq
      split at heq <;> cases heq
    · rw [if_neg hnow'] at heq
      exact heq

/-- Steps that accept no public connection. -/
theorem Unshared.of_links (hunshared : Unshared s) (taken : Option RandStr)
    (haccepted : ∀ fd, fd ∈ s.accepted → fd ∈ s'.accepted)
    (hundeal : ∀ (index : Nat) (fd : Fd), s'.undealPublicFds[index]? = some fd →
      s.undealPublicFds[index]? = some fd)
    (htaken : ∀ id, taken = some id → ∃ fd, s.undealPublicFds = s'.undealPublicFds ++ [fd] ∧
      (s'.link id).server.starts = (s.link id).server.starts ++ [fd] ∧ (s'.view id).waiting ≠ 1)
    (hothers : ∀ id, taken ≠ some id →
      ((s'.view id).link.server.starts = (s.view id).link.server.starts ∧
        (s'.view id).link.reqFd = (s.view id).link.reqFd ∧
        (s'.view id).waiting = (s.view id).waiting) ∨
      ∃ fd, (s.view id).waiting = 1 ∧ (s.view id).link.reqFd = some fd ∧
        (s'.view id).link.server.starts = (s.view id).link.server.starts ++ [fd] ∧
        (s'.view id).waiting = 0) : Unshared s' := by
  simp only [view_link] at hothers
  have hgrown (id : RandStr) : (s'.link id).server.starts = (s.link id).server.starts ∨
      ∃ fd, (s'.link id).server.starts = (s.link id).server.starts ++ [fd] ∧
        (s'.view id).waiting ≠ 1 ∧ Holds s (before s s' taken
          (.bound id (s.link id).server.starts.length)) fd := by
    by_cases hid : taken = some id
    · obtain ⟨fd, hlist, hstarts, hwaiting⟩ := htaken id hid
      refine Or.inr ⟨fd, hstarts, hwaiting, ?_⟩
      simp [before, hid, Holds, hlist]
    · rcases hothers id hid with ⟨hstarts, _⟩ | ⟨fd, hwaiting, hreq, hstarts, hdone⟩
      · exact Or.inl hstarts
      · refine Or.inr ⟨fd, hstarts, by omega, ?_⟩
        simp only [before, if_true, if_neg hid]
        exact ⟨hwaiting, hreq⟩
  have hnew (id : RandStr) (session : Nat) (fd : Fd) (hbound : Holds s' (.bound id session) fd)
      (hlast : session = (s.link id).server.starts.length) :
      (s'.view id).waiting ≠ 1 ∧ Holds s (before s s' taken (.bound id session)) fd := by
    subst hlast
    rcases hgrown id with hsame | ⟨found, hstarts, hwaiting, hplace⟩
    · simp [Holds, hsame] at hbound
    · simp only [Holds, hstarts, List.getElem?_concat_length, Option.some.injEq] at hbound
      exact ⟨hwaiting, hbound ▸ hplace⟩
  have hkept (id : RandStr) (hwaiting : (s'.view id).waiting = 1) :
      (s.view id).waiting = 1 ∧ (s'.link id).reqFd = (s.link id).reqFd := by
    by_cases hid : taken = some id
    · obtain ⟨_, _, _, hnot⟩ := htaken id hid
      exact absurd hwaiting hnot
    · rcases hothers id hid with ⟨_, hreq, hsame⟩ | ⟨_, _, _, _, hdone⟩
      · exact ⟨hsame ▸ hwaiting, hreq⟩
      · omega
  refine hunshared.of_back (before s s' taken) haccepted ?_ ?_
  · intro place fd hplace
    cases place with
    | undeal index => exact hundeal index fd hplace
    | requested id =>
        obtain ⟨hwaiting, hreq⟩ := hplace
        obtain ⟨hbefore, hsame⟩ := hkept id hwaiting
        exact ⟨hbefore, hsame ▸ hreq⟩
    | bound id session =>
        by_cases hlast : session = (s.link id).server.starts.length
        · exact (hnew id session fd hplace hlast).2
        · simp only [before, if_neg hlast]
          rcases hgrown id with hsame | ⟨found, hstarts, _⟩
          · simpa [Holds, hsame] using hplace
          · have hlength : session < (s.link id).server.starts.length := by
              have hbound := (List.getElem?_eq_some_iff.mp hplace).1
              rw [hstarts, List.length_append, List.length_singleton] at hbound
              omega
            simpa [Holds, hstarts, List.getElem?_append_left hlength] using hplace
  · -- the place a descriptor has just left is empty in the new state
    have hfree (id : RandStr) (session : Nat) (fd : Fd)
        (hbound : Holds s' (.bound id session) fd) (place : Place) (hplace : Holds s' place fd)
        (hold : ∀ other last, place ≠ .bound other last)
        (heq : before s s' taken (.bound id session) = place) : False := by
      by_cases hlast : session = (s.link id).server.starts.length
      · simp only [before, if_pos hlast] at heq
        split at heq
        · subst heq
          simp [Holds] at hplace
        · subst heq
          exact (hnew id session fd hbound hlast).1 hplace.1
      · simp only [before, if_neg hlast] at heq
        exact hold id session heq.symm
    intro first second fd hfirst hsecond heq
    cases first with
    | undeal index =>
        cases second with
        | undeal other => exact heq
        | requested id => exact heq
        | bound id session => exact (hfree id session fd hsecond _ hfirst nofun heq.symm).elim
    | requested id =>
        cases second with
        | undeal index => exact heq
        | requested other => exact heq
        | bound other session =>
            exact (hfree other session fd hsecond _ hfirst nofun heq.symm).elim
    | bound id session =>
        cases second with
        | undeal index => exact (hfree id session fd hfirst _ hsecond nofun heq).elim
        | requested other => exact (hfree id session fd hfirst _ hsecond nofun heq).elim
        | bound other last =>
            exact before_bound_inj heq

/-- A claim does not touch the map of connections that wait for an answer. -/
theorem LinkStep.waiting_of_claim {v v' : View} {about : LinkEvent}
    (hstep : LinkStep cfg id v about v') (hclaimed : v'.link.claimed ≠ v.link.claimed) :
    v'.waiting = v.waiting := by
  cases hstep with
  | claim count publicFd rest => rfl
  | bind count publicFd rest _ hbound => exact absurd hbound.symm hclaimed
  | stay | reclosedAtServer | reclosedAtClient | connect | accept | request | relayAtServer
  | startAtClient | relayAtClient | closeAtClient =>
      exact absurd rfl hclaimed
  | forwardAtServer count => simp [Link.forwardAtServer] at hclaimed
  | closeAtServer conn =>
      unfold View.shutdownFromPublic at hclaimed
      split at hclaimed <;> exact absurd rfl hclaimed
  | hearAtServer tranCount rest =>
      unfold View.handleShutdownPublicConn at hclaimed
      split at hclaimed
      · exact absurd rfl hclaimed
      · simp [Link.mapServer] at hclaimed
  | freeAtServer rest => simp at hclaimed
  | strayFreeReq => simp at hclaimed
  | hearAtClient tranCount rest => simp [View.handleShutdownLocalConn, Link.mapClient] at hclaimed
  | forwardAtClient count localFd => simp [Link.forwardAtClient] at hclaimed

theorem Unshared.step (hunshared : Unshared s) (hwf : WellFormed cfg s)
    (hstep : CProxy.step cfg s event = some s') : Unshared s' := by
  have hlinks := (step_simulated hwf hstep).links
  cases step_dealt hwf hstep with
  | kept hundeal hneeds haccepted hclient hclaimed hrequest =>
      refine hunshared.of_links none haccepted (fun index fd hfd => hundeal ▸ hfd) nofun ?_
      exact fun id _ => (hlinks id).starts_cases (hclaimed id) (hrequest id)
  | heard id hundeal hneeds haccepted hfresh hclient hclaimed hrequest =>
      refine hunshared.of_links none (fun fd hfd => haccepted ▸ hfd)
        (fun index fd hfd => hundeal ▸ hfd) nofun ?_
      exact fun id _ => (hlinks id).starts_cases (hclaimed id) (hrequest id)
  | asked fresh hfresh hundeal hneeds haccepted hclient hviews =>
      have hsame (id : RandStr) : s'.link id = s.link id := congrArg View.link (hviews id)
      apply hunshared.of_fresh (.undeal s.undealPublicFds.length) hfresh haccepted
      intro place fd hplace
      cases place with
      | undeal index =>
          by_cases hlast : index < s.undealPublicFds.length
          · rw [Holds, hundeal, List.getElem?_append_left hlast] at hplace
            exact Or.inl hplace
          · rw [Holds, hundeal, List.getElem?_append_right (by omega)] at hplace
            obtain ⟨hindex, hfd⟩ := List.getElem?_eq_some_iff.mp hplace
            simp only [List.length_singleton] at hindex
            have hindex : index = s.undealPublicFds.length := by omega
            subst hindex
            simp only [Nat.sub_self, List.getElem_cons_zero] at hfd
            exact Or.inr ⟨rfl, hfd.symm⟩
      | requested id => exact Or.inl (by simpa [Holds, hviews id, hsame id] using hplace)
      | bound id session => exact Or.inl (by simpa [Holds, hsame id] using hplace)
  | offered id fresh hfresh hundeal hneeds haccepted hclient hevent hlast hclaimed =>
      subst hevent
      apply hunshared.of_fresh (.requested id) hfresh haccepted
      have hother (other : RandStr) (hother : other ≠ id) : s'.view other = s.view other := by
        have hmoved := hlinks other
        simp only [Event.about, hlast, Option.some.injEq, Ne.symm hother, if_false] at hmoved
        generalize s'.view other = v', s.view other = v at hmoved ⊢
        cases hmoved
        rfl
      have hself : (s'.link id).server.starts = (s.link id).server.starts ∧
          (s'.link id).reqFd = some fresh := by
        have hmoved := hlinks id
        simp only [Event.about, hlast, if_true] at hmoved
        rw [← view_link s', ← view_link s]
        generalize s'.view id = v' at hmoved ⊢
        cases hmoved with
        | request => exact ⟨rfl, rfl⟩
      intro place fd hplace
      cases place with
      | undeal index => exact Or.inl (by simpa [Holds, hundeal] using hplace)
      | requested other =>
          by_cases hid : other = id
          · subst hid
            obtain ⟨_, hreq⟩ := hplace
            exact Or.inr ⟨rfl, Option.some.inj (hreq.symm.trans hself.2)⟩
          · refine Or.inl ⟨?_, ?_⟩
            · rw [← hother other hid]
              exact hplace.1
            · rw [← view_link, ← hother other hid]
              exact hplace.2
      | bound other session =>
          by_cases hid : other = id
          · subst hid
            exact Or.inl (by simpa [Holds, hself.1] using hplace)
          · refine Or.inl ?_
            rw [Holds, ← view_link, ← hother other hid]
            exact hplace
  | taken id fd hundeal hneeds haccepted hclient hopen hbefore hafter hstarts hothers hrequest =>
      refine hunshared.of_links (some id) (fun fd hfd => haccepted ▸ hfd) ?_ ?_ ?_
      · intro index found hfound
        have hindex := (List.getElem?_eq_some_iff.mp hfound).1
        rw [hundeal, List.getElem?_append_left hindex]
        exact hfound
      · intro other hother
        obtain rfl := Option.some.inj hother
        refine ⟨fd, hundeal, hstarts, ?_⟩
        rw [(hlinks id).waiting_of_claim (by simp [hbefore, hafter]),
          (hwf.inv id).waiting_of_unclaimed hbefore]
        exact Nat.zero_ne_one
      · intro other hother
        have hne : other ≠ id := fun heq => hother (congrArg some heq.symm)
        exact (hlinks other).starts_cases (hothers other hne) (hrequest other)

/-! ## Every reachable state -/

/-- `accept` has returned no descriptor that stands for none. -/
def Positive (s : System) : Prop := ∀ fd ∈ s.accepted, 0 < fd

theorem Positive.step (hpositive : Positive s) (hwf : WellFormed cfg s)
    (hstep : CProxy.step cfg s event = some s') : Positive s' := by
  intro fd hfd
  cases step_dealt hwf hstep with
  | kept hundeal hneeds haccepted hclient hclaimed hrequest hnew =>
      rcases hnew fd hfd with hold | hfresh
      · exact hpositive fd hold
      · exact hfresh
  | asked fresh hfresh hundeal hneeds haccepted hclient hviews hnew =>
      rw [haccepted] at hfd
      rcases List.mem_append.mp hfd with hold | hlast
      · exact hpositive fd hold
      · exact List.mem_singleton.mp hlast ▸ hnew
  | offered id fresh hfresh hundeal hneeds haccepted hclient hevent hlast hclaimed hnew =>
      rw [haccepted] at hfd
      rcases List.mem_append.mp hfd with hold | hlast
      · exact hpositive fd hold
      · exact List.mem_singleton.mp hlast ▸ hnew
  | heard id hundeal hneeds haccepted => exact hpositive fd (haccepted ▸ hfd)
  | taken id fresh hundeal hneeds haccepted => exact hpositive fd (haccepted ▸ hfd)

structure Matching (cfg : Config) (s : System) : Prop where
  wellFormed : WellFormed cfg s
  streams : ∀ id, StreamInv (s.link id)
  owed : Owed s
  unshared : Unshared s
  positive : Positive s

theorem Matching.step (hmatching : Matching cfg s) (hstep : CProxy.step cfg s event = some s') :
    Matching cfg s' where
  wellFormed := hmatching.wellFormed.step hstep
  streams := fun id => (hmatching.streams id).step (hmatching.wellFormed.inv id)
    ((step_simulated hmatching.wellFormed hstep).links id)
  owed := hmatching.owed.step hmatching.wellFormed hstep
  unshared := hmatching.unshared.step hmatching.wellFormed hstep
  positive := hmatching.positive.step hmatching.wellFormed hstep

theorem Reachable.matching (hreach : Reachable cfg s) : Matching cfg s := by
  obtain ⟨events, hrun⟩ := hreach
  have hinit : Matching cfg System.init :=
    ⟨wellFormed_init cfg, fun _ => streamInv_new, owed_init, unshared_init, nofun⟩
  exact run_invariant (fun _ _ _ hmatching hstep => hmatching.step hstep) hinit hrun

/-- The messages on their way, counted over the connections that are not claimed. -/
theorem Matching.metaSets_eq (hmatching : Matching cfg s) :
    s.metaSets = s.created.countP fun id => !(s.link id).claimed := by
  have hpoint : ∀ id ∈ s.created,
      CProxy.metaSets (s.link id) = if (s.link id).claimed then 0 else 1 := fun id hid =>
    CProxy.metaSets_eq (hmatching.wellFormed.inv id) (hmatching.streams id)
      ((mem_created_iff hmatching.wellFormed.keyed).mp hid)
  rw [System.metaSets, List.map_congr_left hpoint]
  generalize s.created = ids
  induction ids with
  | nil => rfl
  | cons id rest ih =>
      rw [List.map_cons, List.sum_cons, ih, List.countP_cons]
      cases (s.link id).claimed with
      | true => simp
      | false => simp [Nat.add_comm]

/-- A ProxyMetaSet the server is about to read finds a public connection. -/
theorem Matching.undeal_ne_nil (hmatching : Matching cfg s) {type : Nat} {body rest : List UInt8}
    {ctlId tunId proxyId : Str} (haccepted : (s.link id).accepted = true)
    (hidle : (s.link id).server.proxy.isStart = false)
    (hread : readMsg (s.link id).toServer = .message type body rest)
    (hmsg : ProxyCtlMsg.decode type body = some (some (.proxyMetaSet ctlId tunId proxyId))) :
    s.undealPublicFds ≠ [] := by
  intro hempty
  have hwf := hmatching.wellFormed
  have howed := hmatching.owed
  rw [Owed, hempty, List.length_nil] at howed
  cases hwf.inv id with
  | unused hunused =>
      rw [← view_link, hunused] at haccepted
      cases haccepted
  | ahead loc msg hahead =>
      have hstream : (s.link id).toServer = msg.wire ++ loc.received := hahead.stream
      rw [hstream, ProxyCtlMsg.readMsg_wire hahead.origin.sent] at hread
      cases hread
      rw [ProxyCtlMsg.decode_body hahead.origin.sent] at hmsg
      cases hahead.origin with
      | fresh hclaimed =>
          have hnot : (s.link id).claimed = false := hclaimed
          have hmem : id ∈ s.created := (mem_created_iff hwf.keyed).mpr hahead.created
          have hpos : 0 < s.created.countP fun id => !(s.link id).claimed :=
            List.countP_pos_iff.mpr ⟨id, hmem, by simp [hnot]⟩
          omega
      | reused publicFd => cases hmsg
  | level pub loc trailing hlevel =>
      have hnone : (s.link id).toServer = [] := (hlevel.up.resting_of_not_isStart hidle).flight
      rw [hnone, readMsg_nil] at hread
      cases hread

/-- In every order of the handlers there are enough waiting public connections
for the proxy connections under way, a public descriptor is bound once, to one
proxy connection, and an end is started only while it is idle. -/
theorem publicConns_matched_one_to_one (hreach : Reachable cfg s) :
    s.needs + s.metaSets ≤ s.undealPublicFds.length ∧
    (∀ id type body rest ctlId tunId proxyId, (s.link id).accepted = true →
      (s.link id).server.proxy.isStart = false →
      readMsg (s.link id).toServer = .message type body rest →
      ProxyCtlMsg.decode type body = some (some (.proxyMetaSet ctlId tunId proxyId)) →
      s.undealPublicFds ≠ []) ∧
    (∀ (first second : RandStr) (session session' : Nat) (fd : Fd),
      (s.link first).server.starts[session]? = some fd →
      (s.link second).server.starts[session']? = some fd → first = second ∧ session = session') ∧
    ∀ event s', step cfg s event = some s' → ∀ id,
      ((s'.link id).server.starts ≠ (s.link id).server.starts →
        (s.link id).server.proxy.isStart = false) ∧
      ((s'.link id).client.starts ≠ (s.link id).client.starts →
        (s.link id).client.proxy.isStart = false) := by
  have hmatching := hreach.matching
  refine ⟨?_, ?_, ?_, ?_⟩
  · rw [hmatching.metaSets_eq]
    exact hmatching.owed.ge
  · intro id type body rest ctlId tunId proxyId haccepted hidle hread hmsg
    exact hmatching.undeal_ne_nil haccepted hidle hread hmsg
  · intro first second session session' fd hfirst hsecond
    have hsame := hmatching.unshared.one (.bound first session) (.bound second session') fd hfirst
      hsecond
    exact Place.bound.inj hsame
  · intro event s' hstep id
    exact ((step_simulated hmatching.wellFormed hstep).links id).idle_of_start
      (hmatching.wellFormed.inv id)

set_option maxRecDepth 10000 in
/-- One request is under way for a second public connection while the first is served. -/
theorem publicConns_matched_one_to_one_sample :
    (sampleAfter (sampleStart ++ [.newPublicConn 7])).needs +
        (sampleAfter (sampleStart ++ [.newPublicConn 7])).metaSets ≤
      (sampleAfter (sampleStart ++ [.newPublicConn 7])).undealPublicFds.length ∧
    (sampleAfter (sampleStart ++ [.newPublicConn 7])).needs = 1 := by
  have hmatched := publicConns_matched_one_to_one
    (sampleAfter_reachable (sampleStart ++ [.newPublicConn 7]) (by decide))
  exact ⟨hmatched.1, by decide⟩

end CProxy
