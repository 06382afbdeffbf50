import CProxy.Foundation.Refine
import CProxy.Tunnel.Queues
import CProxy.Tunnel.Sessions

/-! # The tunnel on its control connection

A handler puts its messages in structs, `SendMsg` copies them into the buffer of the
sender, the kernel moves bytes in pieces of any size, and `CtlConn::handleRead` calls a
handler of the other program with what it has read. As long as no message is refused
this is the tunnel in which the messages themselves are queued.
-/

namespace CProxy

open Foundation Wire

/-- The tunnel with nothing on the control connection. -/
def System.quiet (s : System) : System := { s with ctlToServer := [], ctlToClient := [] }

/-- The two programs and the two directions of the control connection. The queues of
`core` are empty between two handlers. `dropped` is history: the messages that `SendMsg`
has refused. -/
structure Wired where
  core : System
  toServer : CtlStream
  toClient : CtlStream
  dropped : List CtlMsg := []

/-- A handler is called by the loop, or by `handleRead`; it finds `stale` on its stack.
The last three arguments of `toClient` are for a message that makes a proxy connection. -/
inductive WiredEvent where
  | handler (event : Event) (stale : Stale)
  | toServer (event : SocketEvent) (stale : Stale)
  | toClient (event : SocketEvent) (stale : Stale) (id : RandStr) (proxyFd localFd : Fd)

/-- The handlers that a direction has called on its way from one state to the next. -/
def CtlStream.calls (s s' : CtlStream) : List HandlerCall := s'.handled.drop s.handled.length

/-- `SendMsg` for each message of a handler, with those that it has refused. -/
def post (tunId : RandStr) (proxyPort : Nat) (stale : Stale) (stream : CtlStream) :
    List CtlMsg → Option (CtlStream × List CtlMsg)
  | [] => some (stream, [])
  | msg :: rest => do
      let sent ← msg.toSent tunId proxyPort stale
      let next ← stream.sendMsg sent
      let (final, refused) ← post tunId proxyPort stale next rest
      if next.accepted.length = stream.accepted.length then some (final, msg :: refused)
      else some (final, refused)

namespace Wired

variable (cfg : Config) (proxyPort : Nat)

/-- A handler has left the tunnel in the state `core`, with its messages in the queues. -/
def send (w : Wired) (stale : Stale) (core : System) : Option Wired := do
  let (toServer, refusedUp) ← post cfg.tunId proxyPort stale w.toServer core.ctlToServer
  let (toClient, refusedDown) ← post cfg.tunId proxyPort stale w.toClient core.ctlToClient
  some {
    core := core.quiet
    toServer := toServer
    toClient := toClient
    dropped := w.dropped ++ refusedUp ++ refusedDown }

/-- `Control::handleShutdownPublicConn` or `Control::handleFreeProxyConnReq`, with the
struct it gets. -/
def serverHandler (core : System) (call : HandlerCall) : Option System := do
  let (tunId, msg) ← CtlMsg.read call
  -- the server sets no handler for this type: none is to come
  if msg = .notifyClientNeedProxy then none
  -- "tun {} not exist"
  else if tunId ≠ cfg.tunId.chars then some core
  else Server.ctlRead { core with ctlToServer := [msg] }

/-- `Client::handleProxyNotify` or `Client::handleShutdownLocalConn`, with the struct it
gets. -/
def clientHandler (core : System) (call : HandlerCall) (id : RandStr) (proxyFd localFd : Fd) :
    Option System := do
  let (tunId, msg) ← CtlMsg.read call
  -- the client sets no handler for this type: none is to come
  if msg.type = 6 then none
  -- "tun_id {} not exist"
  else if tunId ≠ cfg.tunId.chars then some core
  -- nobody listens on another port
  else if msg = .notifyClientNeedProxy ∧ CtlMsg.serverProxyPort call ≠ some proxyPort then none
  else CProxy.step cfg { core with ctlToClient := [msg] } (.clientCtlRead id proxyFd localFd)

def step (w : Wired) : WiredEvent → Option Wired
  | .handler event stale => do
      let core ← CProxy.step cfg w.core event
      w.send cfg proxyPort stale core
  | .toServer event stale => do
      let stream ← w.toServer.step event.ctl
      match w.toServer.calls stream with
      | [] => some { w with toServer := stream }
      | call :: _ =>
          let core ← serverHandler cfg w.core call
          { w with toServer := stream }.send cfg proxyPort stale core
  | .toClient event stale id proxyFd localFd => do
      let stream ← w.toClient.step event.ctl
      match w.toClient.calls stream with
      | [] => some { w with toClient := stream }
      | call :: _ =>
          let core ← clientHandler cfg proxyPort w.core call id proxyFd localFd
          { w with toClient := stream }.send cfg proxyPort stale core

/-- The control connection moves no bytes of a session. -/
def splices (w : Wired) : WiredEvent → List Splice
  | .handler event _ => w.core.splices event
  | _ => []

end Wired

/-! ## One direction -/

/-- A struct that its reader takes for the message. -/
structure Encodes (tunId : RandStr) (proxyPort : Nat) (sent : SentMsg) (msg : CtlMsg) : Prop where
  read : CtlMsg.read sent.call = some (tunId.chars, msg)
  port : msg = .notifyClientNeedProxy → CtlMsg.serverProxyPort sent.call = some proxyPort

/-- The bytes under way on a direction are those of a queue of messages. -/
def Carries (tunId : RandStr) (proxyPort : Nat) (stream : CtlStream) (msgs : List CtlMsg) : Prop :=
  ∃ queue pending, stream.Streamed queue pending ∧
    List.Forall₂ (Encodes tunId proxyPort) pending msgs

theorem SentMsg.call_injective {first second : SentMsg} (hcall : first.call = second.call) :
    first = second := by
  obtain ⟨type, body, hsized⟩ := first
  obtain ⟨type', body', hsized'⟩ := second
  obtain ⟨htype, harg⟩ := HandlerCall.mk.inj hcall
  obtain rfl : type = type' := htype
  obtain rfl : body = body' := List.map_injective_iff.mpr (Option.some_injective _) harg
  rfl

namespace CtlStream

variable {s s' : CtlStream} {queue queue' : BoundedQueue UInt8} {pending pending' : List SentMsg}

/-- What is under way is determined by what has been sent and handled. -/
theorem Streamed.calls_append (hbefore : Streamed s queue pending)
    (hafter : Streamed s' queue' pending') {more : List SentMsg} {calls : List HandlerCall}
    (haccepted : s'.accepted = s.accepted ++ more) (hhandled : s'.handled = s.handled ++ calls) :
    pending.map SentMsg.call ++ more.map SentMsg.call = calls ++ pending'.map SentMsg.call := by
  have hall := hafter.handled
  rw [haccepted, hhandled, List.map_append, hbefore.handled, List.append_assoc,
    List.append_assoc] at hall
  exact List.append_cancel_left hall

/-- A message is accepted or refused, and no handler is called. -/
theorem sendMsg_accepted {sent : SentMsg} (hsend : s.sendMsg sent = some s') :
    s'.handled = s.handled ∧
      (s'.accepted = s.accepted ∨ s'.accepted = s.accepted ++ [sent]) := by
  rw [sendMsg, Option.bind_eq_bind, Option.bind_eq_some_iff] at hsend
  obtain ⟨⟨writeNum, buffer⟩, -, hsome⟩ := hsend
  dsimp only at hsome
  split at hsome
  · rw [← Option.some.inj hsome]
    exact ⟨rfl, Or.inl rfl⟩
  · rw [← Option.some.inj hsome]
    exact ⟨rfl, Or.inr rfl⟩

end CtlStream

variable {cfg : Config} {tunId : RandStr} {proxyPort : Nat} {stale : Stale}
variable {stream next : CtlStream} {msgs : List CtlMsg}

namespace Carries

/-- What happens at a socket leaves the queue, or the oldest message is taken for what
it is. -/
theorem socket (hcarries : Carries tunId proxyPort stream msgs) {event : SocketEvent}
    (hstep : stream.step event.ctl = some next) :
    (stream.calls next = [] ∧ Carries tunId proxyPort next msgs) ∨
      ∃ sent msg rest, stream.calls next = [sent.call] ∧ Encodes tunId proxyPort sent msg ∧
        msgs = msg :: rest ∧ Carries tunId proxyPort next rest := by
  obtain ⟨queue, pending, hstreamed, hencodes⟩ := hcarries
  obtain ⟨next', queue', pending', hnext, hafter⟩ := hstreamed.step event.ctl
  obtain rfl := Option.some.inj (hnext.symm.trans hstep)
  obtain ⟨haccepted, calls, hhandled, hone⟩ := CtlStream.socket_handled hstep
  have hcalls : stream.calls next' = calls := by
    rw [CtlStream.calls, hhandled, List.drop_left]
  have hsplit := hstreamed.calls_append hafter (haccepted.trans (List.append_nil _).symm) hhandled
  rw [List.map_nil, List.append_nil] at hsplit
  rw [hcalls]
  cases calls with
  | nil =>
      obtain rfl : pending = pending' :=
        List.map_injective_iff.mpr (fun _ _ => SentMsg.call_injective) hsplit
      exact Or.inl ⟨rfl, queue', pending, hafter, hencodes⟩
  | cons call others =>
      obtain rfl : others = [] := List.eq_nil_of_length_eq_zero (by simpa using hone)
      cases hencodes with
      | nil => cases hsplit
      | @cons sent msg later rest hmsg hrest =>
          obtain ⟨rfl, hlater⟩ := List.cons.inj hsplit
          obtain rfl : later = pending' :=
            List.map_injective_iff.mpr (fun _ _ => SentMsg.call_injective) hlater
          exact Or.inr ⟨sent, msg, rest, rfl, hmsg, rfl, queue', later, hafter, hrest⟩

/-- A message of the programs goes to the end of the queue, unless it is refused. -/
theorem sendMsg (hcarries : Carries tunId proxyPort stream msgs) {sent : SentMsg} {msg : CtlMsg}
    (hmsg : Encodes tunId proxyPort sent msg) :
    ∃ next, stream.sendMsg sent = some next ∧
      ((next.accepted.length = stream.accepted.length ∧ Carries tunId proxyPort next msgs) ∨
        (next.accepted.length ≠ stream.accepted.length ∧
          Carries tunId proxyPort next (msgs ++ [msg]))) := by
  obtain ⟨queue, pending, hstreamed, hencodes⟩ := hcarries
  obtain ⟨next, queue', pending', hnext, hafter⟩ := hstreamed.sendMsg sent
  refine ⟨next, hnext, ?_⟩
  obtain ⟨hhandled, haccepted⟩ := CtlStream.sendMsg_accepted hnext
  have hnone : next.handled = stream.handled ++ [] := by rw [hhandled, List.append_nil]
  rcases haccepted with hrefused | haccepted
  · have hsplit :=
      hstreamed.calls_append hafter (hrefused.trans (List.append_nil _).symm) hnone
    rw [List.map_nil, List.append_nil, List.nil_append] at hsplit
    obtain rfl : pending = pending' :=
      List.map_injective_iff.mpr (fun _ _ => SentMsg.call_injective) hsplit
    exact Or.inl ⟨by rw [hrefused], queue', pending, hafter, hencodes⟩
  · have hsplit := hstreamed.calls_append hafter haccepted hnone
    rw [← List.map_append, List.nil_append] at hsplit
    obtain rfl : pending ++ [sent] = pending' :=
      List.map_injective_iff.mpr (fun _ _ => SentMsg.call_injective) hsplit
    refine Or.inr ⟨by simp [haccepted], queue', _, hafter, ?_⟩
    exact List.rel_append hencodes (.cons hmsg .nil)

/-- The messages of a handler can be sent; if none is refused they follow the queue. -/
theorem post (hcarries : Carries tunId proxyPort stream msgs) (stale : Stale)
    (hport : proxyPort < 4294967296) {more : List CtlMsg} (hnamed : ∀ msg ∈ more, msg.Named) :
    ∃ next refused, CProxy.post tunId proxyPort stale stream more = some (next, refused) ∧
      (refused = [] → Carries tunId proxyPort next (msgs ++ more)) := by
  induction more generalizing stream msgs with
  | nil =>
      refine ⟨stream, [], rfl, fun _ => ?_⟩
      rw [List.append_nil]
      exact hcarries
  | cons msg rest ih =>
      have hrest (other : CtlMsg) (hmem : other ∈ rest) : other.Named :=
        hnamed other (List.mem_cons_of_mem msg hmem)
      obtain ⟨sent, hsent, hread, hnotify⟩ :=
        (hnamed msg List.mem_cons_self).exists_toSent tunId proxyPort stale
      have hmsg : Encodes tunId proxyPort sent msg := ⟨hread, fun hsame => hnotify hsame hport⟩
      obtain ⟨middle, hmiddle, houtcome⟩ := hcarries.sendMsg hmsg
      rcases houtcome with ⟨hsame, hrefused⟩ | ⟨hdiffers, haccepted⟩
      · obtain ⟨next, refused, hpost, -⟩ := ih hrefused hrest
        refine ⟨next, msg :: refused, ?_, fun hnone => by cases hnone⟩
        simp only [CProxy.post, hsent, hmiddle, hpost, Option.bind_eq_bind, Option.bind_some,
          if_pos hsame]
      · obtain ⟨next, refused, hpost, hnext⟩ := ih haccepted hrest
        refine ⟨next, refused, ?_, fun hnone => ?_⟩
        · simp only [CProxy.post, hsent, hmiddle, hpost, Option.bind_eq_bind, Option.bind_some,
            if_neg hdiffers]
        · have hlater := hnext hnone
          rwa [List.append_assoc, List.singleton_append] at hlater

end Carries

/-! ## The two levels -/

/-- The wired tunnel is in the state of the tunnel `s`, with the queues of `s` under way
as bytes. -/
structure Wires (cfg : Config) (proxyPort : Nat) (w : Wired) (s : System) : Prop where
  reachable : Reachable cfg s
  core : w.core = s.quiet
  toServer : Carries cfg.tunId proxyPort w.toServer s.ctlToServer
  toClient : Carries cfg.tunId proxyPort w.toClient s.ctlToClient

variable {w w' : Wired} {s core : System}

theorem quiet_behind (s : System) : s.quiet.behind s.ctlToServer s.ctlToClient = s := by
  simp [System.quiet, System.behind]

theorem quiet_splices (s : System) (event : Event) : s.quiet.splices event = s.splices event := by
  cases event with
  | newPublicConn | newProxyConn | serverProxyRead | publicRead | serverCtlRead | clientCtlRead
  | clientProxyRead | localRead | strayFreeReq => rfl

/-- A handler that the loop calls does the same with messages on the control connection. -/
theorem step_of_quiet {event : Event} (hstep : step cfg s.quiet event = some core) :
    step cfg s event = some (core.behind s.ctlToServer s.ctlToClient) := by
  have hserver : event ≠ .serverCtlRead := by
    rintro rfl
    cases hstep
  have hclient (id : RandStr) (proxyFd localFd : Fd) :
      event ≠ .clientCtlRead id proxyFd localFd := by
    rintro rfl
    obtain ⟨-, hread⟩ := Option.ite_none_right_eq_some.mp hstep
    cases hread
  have hbehind := @step_behind cfg s.quiet event s.ctlToServer s.ctlToClient hserver hclient
  rwa [quiet_behind, hstep, Option.map_some] at hbehind

/-- The server's handler of a message does what it does with the message in the queue. -/
theorem step_of_serverCtlRead {msg : CtlMsg} {rest : List CtlMsg}
    (hctl : s.ctlToServer = msg :: rest)
    (hread : Server.ctlRead { s.quiet with ctlToServer := [msg] } = some core) :
    step cfg s .serverCtlRead = some (core.behind rest s.ctlToClient) := by
  have hbehind := @Server.ctlRead_behind { s.quiet with ctlToServer := [msg] } rest s.ctlToClient
    msg rfl
  rw [hread, Option.map_some] at hbehind
  rw [← hbehind, step, ← hctl]
  simp [System.quiet]

theorem step_of_clientCtlRead {msg : CtlMsg} {rest : List CtlMsg}
    (hctl : s.ctlToClient = msg :: rest) {id : RandStr} {proxyFd localFd : Fd}
    (hread : step cfg { s.quiet with ctlToClient := [msg] } (.clientCtlRead id proxyFd localFd) =
      some core) :
    step cfg s (.clientCtlRead id proxyFd localFd) =
      some (core.behind s.ctlToServer rest) := by
  obtain ⟨hfds, hclient⟩ := Option.ite_none_right_eq_some.mp hread
  have hbehind := @Client.ctlRead_behind cfg { s.quiet with ctlToClient := [msg] }
    s.ctlToServer rest msg rfl id proxyFd localFd
  rw [hclient, Option.map_some] at hbehind
  rw [← hbehind, step, if_pos hfds, ← hctl]
  simp [System.quiet]

/-! ### Steps -/

namespace Wired

/-- What has been refused stays refused. -/
theorem dropped_of_send (hsend : w.send cfg proxyPort stale core = some w') :
    w.dropped <+: w'.dropped := by
  obtain ⟨⟨toServer, refusedUp⟩, -, hdown⟩ := Option.bind_eq_some_iff.mp hsend
  obtain ⟨⟨toClient, refusedDown⟩, -, hsome⟩ := Option.bind_eq_some_iff.mp hdown
  rw [← Option.some.inj hsome, List.append_assoc]
  exact List.prefix_append _ _

theorem dropped_of_step {event : WiredEvent} (hstep : w.step cfg proxyPort event = some w') :
    w.dropped <+: w'.dropped := by
  cases event with
  | handler event stale =>
      obtain ⟨core, -, hsend⟩ := Option.bind_eq_some_iff.mp hstep
      exact dropped_of_send hsend
  | toServer event stale =>
      obtain ⟨stream, -, hrest⟩ := Option.bind_eq_some_iff.mp hstep
      split at hrest
      · rw [← Option.some.inj hrest]
      · obtain ⟨core, -, hsend⟩ := Option.bind_eq_some_iff.mp hrest
        have hprefix := dropped_of_send hsend
        exact hprefix
  | toClient event stale id proxyFd localFd =>
      obtain ⟨stream, -, hrest⟩ := Option.bind_eq_some_iff.mp hstep
      split at hrest
      · rw [← Option.some.inj hrest]
      · obtain ⟨core, -, hsend⟩ := Option.bind_eq_some_iff.mp hrest
        have hprefix := dropped_of_send hsend
        exact hprefix

end Wired

/-- The messages of a handler can be sent; if none is refused they are under way behind
those that were. -/
theorem exists_send {toServer toClient : List CtlMsg}
    (hserver : Carries cfg.tunId proxyPort w.toServer toServer)
    (hclient : Carries cfg.tunId proxyPort w.toClient toClient) (stale : Stale)
    (hport : proxyPort < 4294967296) (hreach : Reachable cfg (core.behind toServer toClient)) :
    ∃ w', w.send cfg proxyPort stale core = some w' ∧
      (w'.dropped = [] → Wires cfg proxyPort w' (core.behind toServer toClient)) := by
  have hnamed := hreach.namedQueues
  obtain ⟨streamUp, refusedUp, hup, hcarriesUp⟩ := hserver.post stale hport
    fun msg hmem => (hnamed.toServer msg (List.mem_append_right toServer hmem)).named
  obtain ⟨streamDown, refusedDown, hdown, hcarriesDown⟩ := hclient.post stale hport
    fun msg hmem => (hnamed.toClient msg (List.mem_append_right toClient hmem)).named
  refine ⟨_, by rw [Wired.send, hup, Option.bind_eq_bind, Option.bind_some, hdown]; rfl, ?_⟩
  intro hnone
  obtain ⟨hnone, hnoneDown⟩ := List.append_eq_nil_iff.mp hnone
  obtain ⟨-, hnoneUp⟩ := List.append_eq_nil_iff.mp hnone
  exact {
    reachable := hreach
    core := rfl
    toServer := hcarriesUp hnoneUp
    toClient := hcarriesDown hnoneDown }

/-- The server's handler of the oldest message is a step of the tunnel. -/
theorem exists_serverHandler (hwires : Wires cfg proxyPort w s) {sent : SentMsg} {msg : CtlMsg}
    {rest : List CtlMsg} (hctl : s.ctlToServer = msg :: rest)
    (hmsg : Encodes cfg.tunId proxyPort sent msg) :
    ∃ core, Wired.serverHandler cfg w.core sent.call = some core ∧
      step cfg s .serverCtlRead = some (core.behind rest s.ctlToClient) := by
  have hfrom := hwires.reachable.namedQueues.toServer msg (by simp [hctl])
  have hhandler : Wired.serverHandler cfg w.core sent.call =
      Server.ctlRead { s.quiet with ctlToServer := [msg] } := by
    rw [Wired.serverHandler, hmsg.read, hwires.core]
    cases hfrom with
    | notifyProxyShutdownPeerConn => simp
    | freeProxyConnReq => simp
  obtain ⟨core, hcore⟩ : ∃ core, Server.ctlRead { s.quiet with ctlToServer := [msg] } =
      some core := by
    cases hfrom with
    | notifyProxyShutdownPeerConn => exact ⟨_, rfl⟩
    | freeProxyConnReq => exact ⟨_, rfl⟩
  exact ⟨core, hhandler.trans hcore, step_of_serverCtlRead hctl hcore⟩

/-- So is the client's, with the same port to connect to. -/
theorem clientHandler_eq (hwires : Wires cfg proxyPort w s) {sent : SentMsg} {msg : CtlMsg}
    {rest : List CtlMsg} (hctl : s.ctlToClient = msg :: rest)
    (hmsg : Encodes cfg.tunId proxyPort sent msg) (id : RandStr) (proxyFd localFd : Fd) :
    Wired.clientHandler cfg proxyPort w.core sent.call id proxyFd localFd =
      step cfg { s.quiet with ctlToClient := [msg] } (.clientCtlRead id proxyFd localFd) := by
  have hfrom := hwires.reachable.namedQueues.toClient msg (by simp [hctl])
  rw [Wired.clientHandler, hmsg.read, hwires.core]
  cases hfrom with
  | notifyClientNeedProxy => simp [CtlMsg.type, hmsg.port rfl]
  | notifyProxyShutdownPeerConn => simp [CtlMsg.type]

/-- Every step of the wired tunnel is one of the tunnel, or none of its business. -/
theorem wires_step (hwires : Wires cfg proxyPort w s) (hport : proxyPort < 4294967296)
    {event : WiredEvent} (hstep : w.step cfg proxyPort event = some w')
    (hclean : w'.dropped = []) :
    ∃ s', Matches (step cfg) System.splices s (w.splices event) s' ∧
      Wires cfg proxyPort w' s' := by
  cases event with
  | handler event stale =>
      obtain ⟨core, hcore, hsend⟩ := Option.bind_eq_some_iff.mp hstep
      rw [hwires.core] at hcore
      have hnext := step_of_quiet hcore
      obtain ⟨sent, hsent, hafter⟩ :=
        exists_send hwires.toServer hwires.toClient stale hport (hwires.reachable.step hnext)
      obtain rfl := Option.some.inj (hsent.symm.trans hsend)
      refine ⟨_, ?_, hafter hclean⟩
      have hshows : w.splices (.handler event stale) = s.splices event := by
        rw [Wired.splices, hwires.core, quiet_splices]
      rw [hshows]
      exact matches_of_step hnext
  | toServer event stale =>
      obtain ⟨stream, hstream, hrest⟩ := Option.bind_eq_some_iff.mp hstep
      rcases hwires.toServer.socket hstream with
        ⟨hcalls, hcarries⟩ | ⟨sent, msg, rest, hcalls, hmsg, hctl, hcarries⟩
      · rw [hcalls] at hrest
        rw [← Option.some.inj hrest]
        exact ⟨s, matches_refl s, { hwires with toServer := hcarries }⟩
      · obtain ⟨core, hcore, hnext⟩ := exists_serverHandler hwires hctl hmsg
        rw [hcalls] at hrest
        obtain ⟨core', hcore', hsend⟩ := Option.bind_eq_some_iff.mp hrest
        obtain rfl := Option.some.inj (hcore.symm.trans hcore')
        obtain ⟨sent, hsent, hafter⟩ :=
          @exists_send cfg proxyPort { w with toServer := stream } core _ _ hcarries
            hwires.toClient stale hport (hwires.reachable.step hnext)
        obtain rfl := Option.some.inj (hsent.symm.trans hsend)
        exact ⟨_, matches_of_step hnext, hafter hclean⟩
  | toClient event stale id proxyFd localFd =>
      obtain ⟨stream, hstream, hrest⟩ := Option.bind_eq_some_iff.mp hstep
      rcases hwires.toClient.socket hstream with
        ⟨hcalls, hcarries⟩ | ⟨sent, msg, rest, hcalls, hmsg, hctl, hcarries⟩
      · rw [hcalls] at hrest
        rw [← Option.some.inj hrest]
        exact ⟨s, matches_refl s, { hwires with toClient := hcarries }⟩
      · rw [hcalls] at hrest
        obtain ⟨core, hcore, hsend⟩ := Option.bind_eq_some_iff.mp hrest
        rw [clientHandler_eq hwires hctl hmsg] at hcore
        have hnext := step_of_clientCtlRead hctl hcore
        obtain ⟨sent, hsent, hafter⟩ :=
          @exists_send cfg proxyPort { w with toClient := stream } core _ _ hwires.toServer
            hcarries stale hport (hwires.reachable.step hnext)
        obtain rfl := Option.some.inj (hsent.symm.trans hsend)
        exact ⟨_, matches_of_step hnext, hafter hclean⟩

/-! ### Runs -/

/-- A direction of the control connection once the programs have registered: whatever
has been sent on it has been read. -/
def CtlStream.Quiet (stream : CtlStream) : Prop :=
  ∃ inBufferEmpty first events, CtlStream.init inBufferEmpty = some first ∧
    run CtlStream.step first events = some stream ∧ stream.Drained

/-- The tunnel before its first public connection. -/
structure Wired.Start (w : Wired) : Prop where
  core : w.core = System.init
  toServer : w.toServer.Quiet
  toClient : w.toClient.Quiet
  dropped : w.dropped = []

theorem CtlStream.Quiet.carries (hquiet : stream.Quiet) : Carries tunId proxyPort stream [] := by
  obtain ⟨inBufferEmpty, first, events, hinit, hrun, hdrained⟩ := hquiet
  obtain ⟨queue, hfirst⟩ := CtlStream.streamed_init hinit
  obtain ⟨final, queue', pending, hfinal, hstreamed⟩ := hfirst.run events
  obtain rfl := Option.some.inj (hfinal.symm.trans hrun)
  have hall := hstreamed.handled
  rw [hstreamed.handled_eq hdrained, List.self_eq_append_right, List.map_eq_nil_iff] at hall
  subst hall
  exact ⟨queue', [], hstreamed, .nil⟩

theorem Wired.Start.wires (hstart : w.Start) : Wires cfg proxyPort w System.init where
  reachable := ⟨[], rfl⟩
  core := hstart.core
  toServer := hstart.toServer.carries
  toClient := hstart.toClient.carries

/-- A run in which nothing is refused is a run of the tunnel. -/
theorem wires_run (hport : proxyPort < 4294967296) (hstart : w.Start) {events : List WiredEvent}
    {final : Wired} (hrun : run (Wired.step cfg proxyPort) w events = some final)
    (hclean : final.dropped = []) :
    ∃ s, Matches (step cfg) System.splices System.init
        (observed (Wired.step cfg proxyPort) Wired.splices w events) s ∧
      Wires cfg proxyPort final s := by
  have hkept (w : Wired) (event : WiredEvent) (w' : Wired)
      (hstep : w.step cfg proxyPort event = some w') (hclean : w'.dropped = []) :
      w.dropped = [] :=
    List.prefix_nil.mp (hclean ▸ Wired.dropped_of_step hstep)
  have hmatch (w : Wired) (event : WiredEvent) (w' : Wired) (s : System)
      (hwires : Wires cfg proxyPort w s) (hstep : w.step cfg proxyPort event = some w')
      (hclean : w'.dropped = []) := wires_step hwires hport hstep hclean
  exact run_refines hkept hmatch hstart.wires hrun hclean

/-! ### A sample -/

/-- Both directions are those of a connection that has carried nothing. -/
def sampleWired : Wired := ⟨System.init, sampleStream, sampleStream, []⟩

theorem sampleWired_start : sampleWired.Start where
  core := rfl
  toServer := ⟨true, sampleStream, [], (Option.some_get _).symm, rfl, by decide +kernel, rfl⟩
  toClient := ⟨true, sampleStream, [], (Option.some_get _).symm, rfl, by decide +kernel, rfl⟩
  dropped := rfl

def sampleStale : Stale := fun offset => UInt8.ofNat (37 * offset + 5)

/-- The request for a proxy connection arrives in two pieces. -/
def sampleWiredEvents : List WiredEvent :=
  [.handler (.newPublicConn 5) sampleStale,
    .toClient (.write 11) sampleStale sampleId 10 11,
    .toClient .ready sampleStale sampleId 10 11,
    .toClient (.read 4) sampleStale sampleId 10 11,
    .toClient (.read 100) sampleStale sampleId 10 11,
    .toClient (.write 1000) sampleStale sampleId 10 11,
    .toClient (.read 100) sampleStale sampleId 10 11]

def sampleWiredAfter : Wired :=
  (run (Wired.step sampleConfig 8080) sampleWired sampleWiredEvents).getD sampleWired

theorem sampleWired_run :
    run (Wired.step sampleConfig 8080) sampleWired sampleWiredEvents = some sampleWiredAfter := by
  have hrun : (run (Wired.step sampleConfig 8080) sampleWired sampleWiredEvents).isSome = true := by
    decide +kernel
  obtain ⟨final, hfinal⟩ := Option.isSome_iff_exists.mp hrun
  rw [sampleWiredAfter, hfinal, Option.getD_some]

theorem sampleWired_dropped : sampleWiredAfter.dropped = [] := by
  decide +kernel

/-- As long as `SendMsg` refuses nothing, the tunnel whose control messages are bytes,
cut as the kernel likes, does what the tunnel with queues of messages can do: it shows
the same splices, and what is under way is the queues. So its sessions are relayed. -/
theorem control_connection_refines (hport : proxyPort < 4294967296) (hstart : w.Start)
    {events : List WiredEvent} {final : Wired}
    (hrun : run (Wired.step cfg proxyPort) w events = some final) (hclean : final.dropped = []) :
    ∃ messages s, run (step cfg) System.init messages = some s ∧
      tape cfg messages = observed (Wired.step cfg proxyPort) Wired.splices w events ∧
      Wires cfg proxyPort final s ∧
      ∀ id session, Relayed (final.core.link id)
        (observed (Wired.step cfg proxyPort) Wired.splices w events) id session := by
  obtain ⟨s, ⟨messages, hmessages, hshown⟩, hwires⟩ := wires_run hport hstart hrun hclean
  refine ⟨messages, s, hmessages, hshown, hwires, fun id session => ?_⟩
  have htaped := taped_run hmessages
  have hrelayed := (htaped.taped id).relayed (htaped.wellFormed.inv id) session
  rw [tape, hshown] at hrelayed
  rw [hwires.core]
  exact hrelayed

theorem control_connection_refines_sample :
    sampleId.chars ∈ sampleWiredAfter.core.clientProxyConnMap ∧
    ∃ messages s, run (step sampleConfig) System.init messages = some s ∧
      Wires sampleConfig 8080 sampleWiredAfter s := by
  obtain ⟨messages, s, hmessages, -, hwires, -⟩ := control_connection_refines (by decide)
    sampleWired_start sampleWired_run sampleWired_dropped
  exact ⟨by decide +kernel, messages, s, hmessages, hwires⟩

end CProxy
