import CProxy.Control.Ownership

/-! # The thread that all tunnels share

The loop of `publicListenThread_` waits in epoll for the acceptors of all tunnels of all
controls. `newPublicConnHandler` is taken apart into its calls of `accept`; connections
may arrive, and tunnels be made, between them.
-/

namespace CProxy

open Foundation Wire

/-- A listening socket. `readable` tells that epoll has an edge to report for it. -/
structure ListenSocket where
  nonBlock : Bool
  backlog : List Fd := []
  readable : Bool := false
  deriving DecidableEq

/-- The system calls succeed. -/
def socketBindListen (port : Int) : Option ListenSocket :=
  if port < 0 ∨ port > 65535 then none else some { nonBlock := false }

def setfdNonBlock (sock : ListenSocket) : ListenSocket := { sock with nonBlock := true }

inductive AcceptReturn where
  | conn (acceptFd : Fd)
  | failed

/-- `accept(2)`, which may have no return. -/
def ListenSocket.accept (sock : ListenSocket) : Option (AcceptReturn × ListenSocket) :=
  match sock.backlog with
  | acceptFd :: rest => some (.conn acceptFd, { sock with backlog := rest })
  | [] => if sock.nonBlock then some (.failed, sock) else none

/-- Where the thread is: in `EventLoop::Loop`, or at the `accept` of a tunnel's
`newPublicConnHandler`. -/
inductive ListenThread where
  | loop
  | handler (index : Nat)
  deriving DecidableEq

/-- `sockets` are the `listen_fd_`s of the tunnels. `handled` is history: what each
handler has accepted. -/
structure ListenSystem where
  owners : Owners := {}
  sockets : List ListenSocket := []
  thread : ListenThread := .loop
  handled : List (Nat × Fd) := []

inductive ListenEvent where
  /-- What other threads do; public connections come by `accept`. -/
  | owner (event : OwnerEvent)
  | arrive (index : Nat) (acceptFd : Fd)
  /-- The acceptor's `HandleEvents` calls the handler. -/
  | wake (index : Nat)
  | accept

namespace ListenSystem

def setSocket (s : ListenSystem) (index : Nat) (sock : ListenSocket) : ListenSystem :=
  { s with sockets := s.sockets.set index sock }

/-- The constructor of `Tunnel` makes the socket of a new tunnel. -/
def ownerStep (s : ListenSystem) (event : OwnerEvent) : Option ListenSystem :=
  match event with
  | .newPublicConn _ _ => none
  | .newTunnelReq index tunId => do
      let sock ← socketBindListen 0
      let owners ← s.owners.handleNewTunnelReq index tunId
      some { s with owners := owners, sockets := s.sockets ++ [sock] }
  | event => (s.owners.step event).map fun owners => { s with owners := owners }

/-- One round of the `while` loop. A handler whose tunnel has been destroyed is not
defined. -/
def acceptStep (s : ListenSystem) (index : Nat) : Option ListenSystem :=
  if .tunnel index ∉ s.owners.alive then none
  else do
    let sock ← s.sockets[index]?
    let accepted ← sock.accept
    let s := s.setSocket index accepted.2
    match accepted.1 with
    | .failed => some { s with thread := .loop }
    | .conn acceptFd =>
        (s.owners.newPublicConnHandler index acceptFd).map fun owners =>
          { s with owners := owners, handled := s.handled ++ [(index, acceptFd)] }

def step (s : ListenSystem) : ListenEvent → Option ListenSystem
  | .owner event => s.ownerStep event
  | .arrive index acceptFd =>
      s.sockets[index]?.bind fun sock =>
        if 0 < acceptFd then
          some (s.setSocket index
            { sock with backlog := sock.backlog ++ [acceptFd], readable := true })
        else none
  | .wake index =>
      s.sockets[index]?.bind fun sock =>
        if s.thread = .loop ∧ index ∈ s.owners.polled ∧ sock.readable then
          some { s.setSocket index { sock with readable := false } with thread := .handler index }
        else none
  | .accept =>
      match s.thread with
      | .loop => none
      | .handler index => s.acceptStep index

/-! ## What is claimed, and when it holds -/

/-- The connections that wait at a tunnel. -/
def pending (s : ListenSystem) (index : Nat) : List Fd :=
  (s.sockets[index]?.map ListenSocket.backlog).getD []

/-- The handler handles exactly the pending connections and returns to the event loop. -/
def Returns (s : ListenSystem) (index : Nat) : Prop :=
  ∃ s', run step s (List.replicate ((s.pending index).length + 1) .accept) = some s' ∧
    s'.thread = .loop ∧ s'.handled = s.handled ++ (s.pending index).map (Prod.mk index)

/-- The thread waits nowhere but in epoll, and there it can be woken for each tunnel that
has a pending connection. -/
structure ServesAll (s : ListenSystem) : Prop where
  returns : ∀ index, s.thread = .handler index → s.Returns index
  next : s.thread = .loop → ∀ index, s.pending index ≠ [] → (s.step (.wake index)).isSome

/-- The event dispatches no acceptor. -/
def NoWake (_ : ListenSystem) : ListenEvent → Prop
  | .wake _ => False
  | _ => True

/-- All sockets are as `socketBindListen` leaves them, and no arrival goes unreported. -/
structure SocketsInv (s : ListenSystem) : Prop where
  blocking : ∀ sock ∈ s.sockets, sock.nonBlock = false
  readable : ∀ sock ∈ s.sockets, sock.backlog ≠ [] → sock.readable = true
  polled : ∀ index < s.sockets.length, index ∈ s.owners.polled
  length : s.sockets.length = s.owners.tunnels.length

variable {s s' : ListenSystem} {index : Nat} {sock : ListenSocket}

theorem pending_of_getElem? (hsock : s.sockets[index]? = some sock) :
    s.pending index = sock.backlog := by
  rw [pending, hsock]
  rfl

/-! ## The accept loop -/

theorem accept_of_nil (hnil : sock.backlog = []) :
    sock.accept = if sock.nonBlock then some (.failed, sock) else none := by
  rw [ListenSocket.accept, hnil]

theorem accept_of_cons {acceptFd : Fd} {rest : List Fd} (hcons : sock.backlog = acceptFd :: rest) :
    sock.accept = some (.conn acceptFd, { sock with backlog := rest }) := by
  rw [ListenSocket.accept, hcons]

/-- On a blocking socket a call that returns has a connection. -/
theorem accept_blocking {accepted : AcceptReturn × ListenSocket} (hblocking : sock.nonBlock = false)
    (haccept : sock.accept = some accepted) :
    (∃ acceptFd, accepted.1 = .conn acceptFd) ∧ accepted.2.nonBlock = false := by
  cases hbacklog : sock.backlog with
  | nil => simp [accept_of_nil hbacklog, hblocking] at haccept
  | cons acceptFd rest =>
      rw [accept_of_cons hbacklog, Option.some.injEq] at haccept
      rw [← haccept]
      exact ⟨⟨acceptFd, rfl⟩, hblocking⟩

/-- A round on a blocking socket never leads back to the event loop. -/
theorem acceptStep_blocking (hblocking : ∀ sock ∈ s.sockets, sock.nonBlock = false)
    (hstep : s.acceptStep index = some s') :
    s'.thread = s.thread ∧ ∀ sock ∈ s'.sockets, sock.nonBlock = false := by
  simp only [acceptStep, Option.ite_none_left_eq_some, Option.bind_eq_bind,
    Option.bind_eq_some_iff] at hstep
  obtain ⟨-, sock, hsock, ⟨result, after⟩, haccept, hstep⟩ := hstep
  obtain ⟨⟨acceptFd, rfl⟩, hafter⟩ :=
    accept_blocking (hblocking sock (List.mem_of_getElem? hsock)) haccept
  obtain ⟨owners, -, rfl⟩ := Option.map_eq_some_iff.mp hstep
  refine ⟨rfl, ?_⟩
  intro other hother
  rcases List.mem_or_eq_of_mem_set hother with hbefore | rfl
  · exact hblocking other hbefore
  · exact hafter

theorem accepts_blocking {count : Nat} (hthread : s.thread = .handler index)
    (hblocking : ∀ sock ∈ s.sockets, sock.nonBlock = false)
    (hrun : run step s (List.replicate count .accept) = some s') : s'.thread = .handler index := by
  induction count generalizing s with
  | zero =>
      obtain rfl := Option.some.inj hrun
      exact hthread
  | succ count ih =>
      rw [List.replicate_succ] at hrun
      obtain ⟨middle, hmiddle, hrest⟩ := run_cons_eq_some.mp hrun
      simp only [step, hthread] at hmiddle
      obtain ⟨hsame, hkept⟩ := acceptStep_blocking hblocking hmiddle
      exact ih (hsame.trans hthread) hkept hrest

theorem not_returns_of_blocking (hthread : s.thread = .handler index)
    (hblocking : ∀ sock ∈ s.sockets, sock.nonBlock = false) : ¬ s.Returns index := by
  rintro ⟨s', hrun, hloop, -⟩
  rw [accepts_blocking hthread hblocking hrun] at hloop
  cases hloop

/-- The body of the loop is defined for a tunnel that is alive, and keeps it so. -/
theorem newPublicConnHandler_defined {owners : Owners} (hplace : index < owners.tunnels.length)
    (hpolled : index ∈ owners.polled) (halive : .tunnel index ∈ owners.alive) (acceptFd : Fd) :
    ∃ next, owners.newPublicConnHandler index acceptFd = some next ∧
      next.tunnels.length = owners.tunnels.length ∧ next.polled = owners.polled ∧
      next.alive = owners.alive := by
  have htun : owners.tunnels[index]? = some owners.tunnels[index] :=
    List.getElem?_eq_getElem hplace
  have hlive : ¬ (index ∉ owners.polled ∨ .tunnel index ∉ owners.alive) := by
    rintro (hnot | hnot)
    · exact hnot hpolled
    · exact hnot halive
  unfold Owners.newPublicConnHandler
  simp only [htun, if_neg hlive]
  cases owners.tunnels[index].freeProxyConns.getLast? with
  | none => exact ⟨_, rfl, List.length_modify .., rfl, rfl⟩
  | some id => exact ⟨_, rfl, List.length_modify .., rfl, rfl⟩

/-- With `setfdNonBlock`, as `Server::Server` calls it for the other two listeners, the
handler would handle what is pending and return. -/
theorem returns_of_setfdNonBlock (hthread : s.thread = .handler index)
    (hsock : s.sockets[index]? = some (setfdNonBlock sock))
    (hplace : index < s.owners.tunnels.length) (hpolled : index ∈ s.owners.polled)
    (halive : .tunnel index ∈ s.owners.alive) : s.Returns index := by
  have hinside : index < s.sockets.length := (List.getElem?_eq_some_iff.mp hsock).1
  have hlive : ¬ Obj.tunnel index ∉ s.owners.alive := not_not.mpr halive
  unfold Returns
  rw [pending_of_getElem? hsock]
  change ∃ s', run step s (List.replicate (sock.backlog.length + 1) .accept) = some s' ∧
    s'.thread = .loop ∧ s'.handled = s.handled ++ sock.backlog.map (Prod.mk index)
  induction hbacklog : sock.backlog generalizing s sock with
  | nil =>
      have haccept : (setfdNonBlock sock).accept = some (.failed, setfdNonBlock sock) :=
        accept_of_nil hbacklog
      refine ⟨{ s.setSocket index (setfdNonBlock sock) with thread := .loop }, ?_, rfl, ?_⟩
      · simp [run, step, hthread, acceptStep, hlive, hsock, haccept]
      · exact (List.append_nil s.handled).symm
  | cons acceptFd rest ih =>
      have haccept : (setfdNonBlock sock).accept =
          some (.conn acceptFd, setfdNonBlock { sock with backlog := rest }) :=
        accept_of_cons hbacklog
      obtain ⟨owners, howners, hlength, hsame, hkept⟩ :=
        newPublicConnHandler_defined hplace hpolled halive acceptFd
      have hnext : s.step .accept = some {
          s.setSocket index (setfdNonBlock { sock with backlog := rest }) with
          owners := owners
          handled := s.handled ++ [(index, acceptFd)] } := by
        simp [step, hthread, acceptStep, hlive, hsock, haccept, howners, setSocket]
      obtain ⟨s', hrun, hloop, hhandled⟩ := @ih {
          s.setSocket index (setfdNonBlock { sock with backlog := rest }) with
          owners := owners
          handled := s.handled ++ [(index, acceptFd)] }
        { sock with backlog := rest } hthread (List.getElem?_set_self hinside)
        (by rw [hlength]; exact hplace) (by rw [hsame]; exact hpolled)
        (by rw [hkept]; exact halive) (by rw [setSocket, List.length_set]; exact hinside)
        (not_not.mpr (by rw [hkept]; exact halive)) rfl
      refine ⟨s', ?_, hloop, ?_⟩
      · rw [List.length_cons, List.replicate_succ, run_cons hnext]
        exact hrun
      · rw [hhandled, List.map_cons, List.append_assoc]
        rfl

/-! ## Before the thread is woken -/

/-- Only a new tunnel changes the number of tunnels or the acceptors in the poller. -/
theorem ownerStep_cases {event : OwnerEvent} (hstep : s.ownerStep event = some s') :
    (s'.sockets = s.sockets ∧ s'.owners.tunnels.length = s.owners.tunnels.length ∧
        s'.owners.polled = s.owners.polled ∨
      s'.sockets = s.sockets ++ [{ nonBlock := false }] ∧
        s'.owners.tunnels.length = s.owners.tunnels.length + 1 ∧
        s'.owners.polled = s.owners.polled ++ [s.owners.tunnels.length]) ∧
      s'.thread = s.thread := by
  cases event with
  | newPublicConn place acceptFd => cases hstep
  | newTunnelReq place tunId =>
      simp only [ownerStep, Option.bind_eq_bind, Option.bind_eq_some_iff, Option.some.injEq] at hstep
      obtain ⟨sock, hsock, owners, howners, rfl⟩ := hstep
      obtain rfl : { nonBlock := false } = sock := Option.some.inj hsock
      obtain ⟨-, -, -, rfl⟩ := Owners.handleNewTunnelReq_cases howners
      exact ⟨Or.inr ⟨rfl, List.length_append, rfl⟩, rfl⟩
  | newCtlConn ctlId =>
      obtain ⟨owners, howners, rfl⟩ := Option.map_eq_some_iff.mp hstep
      obtain ⟨-, rfl⟩ := Owners.newCtlConnHandler_cases howners
      exact ⟨Or.inl ⟨rfl, rfl, rfl⟩, rfl⟩
  | ctlConnClose place =>
      obtain ⟨owners, howners, rfl⟩ := Option.map_eq_some_iff.mp hstep
      obtain ⟨-, -, -, rfl⟩ := Owners.handleCtlConnClose_cases howners
      exact ⟨Or.inl ⟨rfl, rfl, rfl⟩, rfl⟩
  | freeProxyConn place id =>
      simp only [ownerStep, Owners.step, Option.map_some, Option.some.injEq] at hstep
      subst hstep
      exact ⟨Or.inl ⟨rfl, List.length_modify .., rfl⟩, rfl⟩

theorem socketsInv_init : SocketsInv {} where
  blocking := by simp
  readable := by simp
  polled := by simp
  length := rfl

theorem SocketsInv.owner (hinv : SocketsInv s) {event : OwnerEvent}
    (hstep : s.ownerStep event = some s') : SocketsInv s' := by
  rcases (ownerStep_cases hstep).1 with ⟨hsockets, hlength, hpolled⟩ | ⟨hsockets, hlength, hpolled⟩
  · constructor
    · rw [hsockets]
      exact hinv.blocking
    · rw [hsockets]
      exact hinv.readable
    · rw [hsockets, hpolled]
      exact hinv.polled
    · rw [hsockets, hlength]
      exact hinv.length
  · constructor
    · rw [hsockets]
      intro sock hsock
      rcases List.mem_append.mp hsock with hbefore | hnew
      · exact hinv.blocking sock hbefore
      · rw [List.mem_singleton.mp hnew]
    · rw [hsockets]
      intro sock hsock hpending
      rcases List.mem_append.mp hsock with hbefore | hnew
      · exact hinv.readable sock hbefore hpending
      · rw [List.mem_singleton.mp hnew] at hpending
        exact absurd rfl hpending
    · rw [hsockets, hpolled]
      intro place hplace
      rw [List.length_append, List.length_singleton, hinv.length] at hplace
      rcases Nat.lt_succ_iff_lt_or_eq.mp hplace with hbefore | rfl
      · exact List.mem_append_left _ (hinv.polled place (by rw [hinv.length]; exact hbefore))
      · exact List.mem_append_right _ (List.mem_singleton_self _)
    · rw [hsockets, hlength, List.length_append, hinv.length]
      rfl

/-- What arrives is reported. -/
theorem SocketsInv.arrive (hinv : SocketsInv s) {acceptFd : Fd}
    (hstep : s.step (.arrive index acceptFd) = some s') : SocketsInv s' := by
  simp only [step, Option.bind_eq_some_iff, Option.ite_none_right_eq_some, Option.some.injEq]
    at hstep
  obtain ⟨sock, hsock, -, rfl⟩ := hstep
  constructor
  · intro other hother
    rcases List.mem_or_eq_of_mem_set hother with hbefore | rfl
    · exact hinv.blocking other hbefore
    · exact hinv.blocking sock (List.mem_of_getElem? hsock)
  · intro other hother hpending
    rcases List.mem_or_eq_of_mem_set hother with hbefore | rfl
    · exact hinv.readable other hbefore hpending
    · rfl
  · intro place hplace
    rw [setSocket, List.length_set] at hplace
    exact hinv.polled place hplace
  · exact List.length_set.trans hinv.length

/-- The thread is in its loop and has not been woken. -/
def Waiting (s : ListenSystem) : Prop := SocketsInv s ∧ s.thread = .loop

theorem Waiting.step {event : ListenEvent} (hwaiting : s.Waiting) (hlaw : s.NoWake event)
    (hstep : s.step event = some s') : s'.Waiting := by
  obtain ⟨hinv, hthread⟩ := hwaiting
  cases event with
  | owner event =>
      exact ⟨hinv.owner hstep, (ownerStep_cases hstep).2.trans hthread⟩
  | arrive index acceptFd =>
      refine ⟨hinv.arrive hstep, ?_⟩
      simp only [ListenSystem.step, Option.bind_eq_some_iff, Option.ite_none_right_eq_some,
        Option.some.injEq] at hstep
      obtain ⟨sock, -, -, rfl⟩ := hstep
      exact hthread
  | wake index => exact absurd hlaw id
  | accept => simp [ListenSystem.step, hthread] at hstep

theorem Waiting.servesAll (hwaiting : s.Waiting) : s.ServesAll := by
  obtain ⟨hinv, hthread⟩ := hwaiting
  constructor
  · intro index hhandler
    rw [hthread] at hhandler
    cases hhandler
  · intro _ index hpending
    cases hsock : s.sockets[index]? with
    | none => simp [pending, hsock] at hpending
    | some sock =>
        rw [pending_of_getElem? hsock] at hpending
        have hreadable := hinv.readable sock (List.mem_of_getElem? hsock) hpending
        have hpolled := hinv.polled index (List.getElem?_eq_some_iff.mp hsock).1
        simp [ListenSystem.step, hsock, hthread, hpolled, hreadable]

/-- Once woken the thread stays at the tunnel's `accept`. -/
theorem Waiting.not_servesAll {event : ListenEvent} (hwaiting : s.Waiting)
    (hstep : s.step event = some s') (hnot : ¬ s.NoWake event) : ¬ s'.ServesAll := by
  cases event with
  | wake index =>
      simp only [ListenSystem.step, Option.bind_eq_some_iff, Option.ite_none_right_eq_some,
        Option.some.injEq] at hstep
      obtain ⟨sock, hsock, -, rfl⟩ := hstep
      intro hserves
      refine not_returns_of_blocking rfl ?_ (hserves.returns index rfl)
      intro other hother
      rcases List.mem_or_eq_of_mem_set hother with hbefore | rfl
      · exact hwaiting.1.blocking other hbefore
      · exact hwaiting.1.blocking sock (List.mem_of_getElem? hsock)
  | owner event => exact absurd trivial hnot
  | arrive index acceptFd => exact absurd trivial hnot
  | accept => exact absurd trivial hnot

/-- The thread serves all tunnels exactly in the runs in which no acceptor is ever
dispatched: the first handler that is called does not return. -/
theorem serves_all_iff (events : List ListenEvent) :
    Visits step ServesAll {} events ↔ Takes step NoWake {} events :=
  visits_iff_takes (fun _ _ _ hwaiting hlaw hstep => Waiting.step hwaiting hlaw hstep)
    (fun _ hwaiting => hwaiting.servesAll)
    (fun _ _ _ hwaiting hstep hnot => hwaiting.not_servesAll hstep hnot)
    ⟨socketsInv_init, rfl⟩ events

/-- Two tunnels, and a connection at each. -/
def sampleStarved : List ListenEvent :=
  [.owner (.newCtlConn [65]), .owner (.newTunnelReq 0 [66]), .owner (.newTunnelReq 0 [67]),
    .arrive 0 5, .arrive 1 6, .wake 0]

/-- The second connection waits for another one at the first tunnel. -/
theorem not_serves_all :
    ¬ (∀ events, Visits step ServesAll {} events) ∧
      (run step {} (sampleStarved ++ [.accept])).map
        (fun s => (s.thread, s.pending 1, (s.step .accept).isSome, (s.step (.wake 1)).isSome)) =
          some (.handler 0, [6], false, false) := by
  refine ⟨?_, by decide⟩
  intro hall
  have hreached : (run step {} sampleStarved).map (fun s => (s.thread, (s.pending 0).length,
      (run step s [.accept, .accept]).isSome)) = some (.handler 0, 1, false) := by
    decide
  obtain ⟨s, hrun, hs⟩ := Option.map_eq_some_iff.mp hreached
  obtain ⟨hthread, hs⟩ := Prod.mk.inj hs
  obtain ⟨hlength, hstuck⟩ := Prod.mk.inj hs
  obtain ⟨s', haccepts, -⟩ :=
    (hall sampleStarved sampleStarved s List.prefix_rfl hrun).returns 0 hthread
  rw [hlength] at haccepts
  change run step s [.accept, .accept] = some s' at haccepts
  rw [haccepts] at hstuck
  cases hstuck

end ListenSystem

end CProxy
