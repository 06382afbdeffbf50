import CProxy.Tunnel.IdleWhenFree
import CProxy.Tunnel.Teardown

/-! # The life of a proxy connection

When every session ends in order, and the server hears of an end only after it has
bound the session, a proxy connection goes round: its client binds a session, the
session runs to its end, the connection is free and is asked for again.
-/

namespace CProxy

open Foundation Wire

/-- The end of a session reaches a server that has bound it. -/
def View.Heeds (v : View) : LinkEvent → Prop
  | .serverNotice (.shutdownPeer _) =>
      v.link.client.starts.length = v.link.server.starts.length
  | _ => True

/-- The client has started a session and announced its end only behind the message
that binds it. -/
structure Binding (cfg : Config) (id : RandStr) (v : View) (loc : EdgeConn) (msg : ProxyCtlMsg)
    (before : List (Option Fd)) : Prop where
  ahead : Ahead cfg id v loc msg
  tranCount : v.link.server.proxy.tranCount = 0
  announced : loc.closing = true → totals v.ctlToServer ≠ []
  client : ∀ fd, Recorded before v.link.client loc { fd := fd, proxyId := id.chars } []

/-- The server has asked an idle client for another session. -/
structure Asked (id : RandStr) (v : View) (pub loc : EdgeConn) (trailing : List UInt8) :
    Prop where
  level : Level id v pub loc trailing
  waiting : v.waiting = 1
  client : v.link.client.proxy.isStart = false
  serverTranCount : v.link.server.proxy.tranCount = 0
  clientTranCount : v.link.client.proxy.tranCount = 0

inductive Phase (cfg : Config) (id : RandStr) (v : View) : Prop
  | unused (hunused : v = {})
  | binding (loc : EdgeConn) (msg : ProxyCtlMsg) (before : List (Option Fd))
      (hbinding : Binding cfg id v loc msg before)
  | running (session : Session) (pub loc : EdgeConn) (hrunning : Running session id v pub loc)
  | asked (pub loc : EdgeConn) (trailing : List UInt8) (hasked : Asked id v pub loc trailing)

variable {cfg : Config} {id : RandStr} {v v' : View} {event : LinkEvent} {pub loc : EdgeConn}
variable {msg : ProxyCtlMsg} {before : List (Option Fd)} {trailing : List UInt8}

/-! ## The start of a session -/

/-- An idle end that is started has shut nothing down. -/
theorem ProxyConn.Idle.recorded {side : End} (hidle : side.proxy.Idle)
    (htran : side.proxy.tranCount = 0) {other : EdgeConn} {notices : List Nat}
    (hannounced : other.closing = true → notices ≠ []) (fd : Fd) (proxyId : Str) :
    Recorded side.proxy.shutWr (side.start { fd := fd, proxyId := proxyId })
      { fd := fd, proxyId := proxyId } other notices where
  tranCount := htran
  announced := fun hclosing _ => Or.inl (hannounced hclosing)
  shutWr := by
    refine Or.inl ⟨rfl, rfl, ?_⟩
    have hrecv : side.proxy.recvCount = 0 := hidle.recvCount
    have htheo : side.proxy.theoreticalTotalRecvCount = -1 := hidle.theoreticalTotalRecvCount
    simp [End.start, hrecv, htheo]

theorem binding_of_connect (proxyFd localFd : Fd) :
    Binding cfg id (View.connect {} cfg id proxyFd localFd) { fd := localFd, proxyId := id.chars }
      (.proxyMetaSet cfg.ctlId.chars cfg.tunId.chars id.chars) [] where
  ahead := ahead_of_connect proxyFd localFd
  tranCount := rfl
  announced := by simp
  client := fun _ => @ProxyConn.Idle.recorded { proxy := { fd := proxyFd, proxyId := id.chars } }
    (ProxyConn.idle_new proxyFd id.chars) rfl _ _ (by simp) localFd id.chars

namespace Binding

/-- The server binds the session. -/
theorem running (hbinding : Binding cfg id v loc msg before) {publicFd : Fd}
    (hlevel : Level id v' { fd := publicFd, proxyId := id.chars } loc [])
    (hwaiting : v'.waiting = 0)
    (hserver : v'.link.server = ({ v.link.server with
      proxy := { v.link.server.proxy with proxyId := id.chars } } : End).start
        { fd := publicFd, proxyId := id.chars })
    (hclient : v'.link.client = v.link.client) (hctl : v'.ctlToServer = v.ctlToServer)
    (hdown : v'.ctlToClient = v.ctlToClient) :
    Running ⟨publicFd, loc.fd, v.link.server.proxy.shutWr, before⟩ id v'
      { fd := publicFd, proxyId := id.chars } loc where
  level := hlevel
  waiting := hwaiting
  pubFd := rfl
  locFd := rfl
  server := by
    have hidle : ({ v.link.server.proxy with proxyId := id.chars } : ProxyConn).Idle :=
      { hbinding.ahead.server with }
    rw [hserver, hctl]
    exact @ProxyConn.Idle.recorded { v.link.server with
      proxy := { v.link.server.proxy with proxyId := id.chars } } hidle hbinding.tranCount _ _
        hbinding.announced publicFd id.chars
  client := by
    rw [hclient, hdown, hbinding.ahead.ctlToClient_eq_nil]
    exact hbinding.client publicFd
  owed := by
    intro hoff
    rw [hserver] at hoff
    cases hoff

theorem accept (hbinding : Binding cfg id v loc msg before)
    (haccepted : v.link.accepted = false) (acceptFd : Fd) :
    Binding cfg id (v.accept acceptFd) loc msg before where
  ahead := hbinding.ahead.accept haccepted acceptFd
  tranCount := rfl
  announced := hbinding.announced
  client := hbinding.client

theorem relayAtClient (hbinding : Binding cfg id v loc msg before) (hopen : loc.closing = false)
    {bytes : List UInt8} (hfits : loc.tranCount + bytes.length ≤ intMax) :
    Binding cfg id (v.mapLink fun link => link.relayAtClient bytes) (loc.relay bytes) msg
      before where
  ahead := hbinding.ahead.relayAtClient hopen hfits
  tranCount := hbinding.tranCount
  announced := hbinding.announced
  client := fun fd => (hbinding.client fd).relayOwn bytes

theorem closeAtClient (hbinding : Binding cfg id v loc msg before)
    (hopen : loc.closing = false) :
    Binding cfg id ((v.shutdownFromLocal (uint32 loc.tranCount)).mapLink fun link =>
      { link with client := link.client.close }) { loc with closing := true } msg before where
  ahead := hbinding.ahead.closeAtClient hopen
  tranCount := hbinding.tranCount
  announced := by simp [View.shutdownFromLocal, View.mapLink]
  client := by
    intro fd
    have hdown := hbinding.ahead.down fd
    rw [hbinding.ahead.ctlToClient_eq_nil] at hdown
    exact (hbinding.client fd).closeOwn hdown hopen

theorem dropFreeReq (hbinding : Binding cfg id v loc msg before) {rest : List Notice}
    (hctl : v.ctlToServer = .freeReq :: rest) :
    Binding cfg id { v with ctlToServer := rest } loc msg before where
  ahead := hbinding.ahead.dropFreeReq hctl
  tranCount := hbinding.tranCount
  announced := by
    intro hclosing
    have hnotices := hbinding.announced hclosing
    rwa [hctl, totals_freeReq] at hnotices
  client := hbinding.client

theorem step (hbinding : Binding cfg id v loc msg before) (hstep : LinkStep cfg id v event v')
    (hheeds : v.Heeds event) : Phase cfg id v' := by
  have hahead := hbinding.ahead
  have hlocal := (hahead.down 0).peer
  have hunmapped := hahead.mapped
  cases hstep with
  | stay | reclosedAtServer | reclosedAtClient => exact .binding loc msg before hbinding
  | connect proxyFd localFd hcreated => simp [hahead.created] at hcreated
  | accept acceptFd hcreated haccepted =>
      exact .binding _ _ _ (hbinding.accept haccepted acceptFd)
  | request publicFd hfree => simp [hahead.free] at hfree
  | claim count publicFd rest haccepted hclaimed hstart hframe =>
      refine .running _ _ _ (hbinding.running (hahead.claim haccepted hclaimed hframe publicFd)
        ?_ rfl rfl rfl rfl)
      exact (LinkInv.ahead loc msg hahead).waiting_of_unclaimed hclaimed
  | bind count publicFd rest hwaiting hclaimed hstart hreq hframe =>
      exact .running _ _ _ (hbinding.running (hahead.bind hclaimed hreq hframe) rfl rfl rfl rfl rfl)
  | forwardAtServer count hstart => simp [hahead.server.isStart] at hstart
  | relayAtServer conn bytes hpeer hopen => simp [hahead.publicClosed conn hpeer] at hopen
  | closeAtServer conn hpeer hopen => simp [hahead.publicClosed conn hpeer] at hopen
  | hearAtServer tranCount rest hctl =>
      have hbehind := hahead.starts
      have hlevel : v.link.client.starts.length = v.link.server.starts.length := hheeds
      omega
  | freeAtServer rest hctl =>
      have hmiss : View.freeProxyConn { v with ctlToServer := rest } =
          { v with ctlToServer := rest } := if_pos (Or.inl hunmapped)
      rw [hmiss]
      exact .binding _ _ _ (hbinding.dropFreeReq hctl)
  | strayFreeReq =>
      have hmiss : v.freeProxyConn = v := if_pos (Or.inl hunmapped)
      rw [hmiss]
      exact .binding _ _ _ hbinding
  | hearAtClient tranCount rest hcreated hctl => simp [hahead.ctlToClient_eq_nil] at hctl
  | startAtClient count localFd publicFd hpositive hcreated hstart =>
      simp [(hahead.down 0).isStart] at hstart
  | forwardAtClient count localFd hstart hsplice hcount =>
      have hpositive := hsplice.1
      simp only [hahead.toClient_eq_nil, List.length_nil] at hcount
      omega
  | relayAtClient conn bytes hpeer hopen hbytes hfits =>
      obtain rfl : loc = conn := Option.some.inj (hlocal.symm.trans hpeer)
      exact .binding _ _ _ (hbinding.relayAtClient hopen hfits)
  | closeAtClient conn hpeer hopen =>
      obtain rfl : loc = conn := Option.some.inj (hlocal.symm.trans hpeer)
      exact .binding _ _ _ (hbinding.closeAtClient hopen)

end Binding

/-! ## A connection that is asked for again -/

/-- A free connection whose client is idle is asked for. -/
theorem Running.asked {session : Session} (hrunning : Running session id v pub loc)
    (hparked : Parked v) (hfree : 0 < v.free) {publicFd : Fd} (hfd : publicFd ≤ 2147483647) :
    Asked id { v.mapLink fun link => link.request publicFd with waiting := 1, free := v.free - 1 }
      pub loc (ProxyCtlMsg.startProxyConnReq publicFd id.chars).wire where
  level := hrunning.level.request hfree hfd
  waiting := rfl
  client := by
    cases hstart : v.link.client.proxy.isStart with
    | false => exact hstart
    | true =>
        have hnone := (hparked hstart).free
        omega
  serverTranCount := hrunning.server.tranCount
  clientTranCount := hrunning.client.tranCount

namespace Asked

theorem mapped_eq (hasked : Asked id v pub loc trailing) : v.mapped = 0 := by
  have hhome := hasked.level.home
  have hwaiting := hasked.waiting
  omega

/-- The client answers and binds the next session. -/
theorem binding (hasked : Asked id v pub loc trailing) {publicFd : Fd}
    (hreq : v.link.reqFd = some publicFd) (hfd : publicFd ≤ 2147483647)
    (hframe : v.link.toClient = (ProxyCtlMsg.startProxyConnReq publicFd id.chars).wire)
    (localFd : Fd) :
    Binding cfg id (v.mapLink fun link => { link with toClient := [] }.sendAndStart
        (.startProxyConnRsp publicFd id.chars) localFd)
      { fd := localFd, proxyId := id.chars } (.startProxyConnRsp publicFd id.chars)
      v.link.client.proxy.shutWr where
  ahead := hasked.level.startAtClient hasked.client hreq hfd hframe localFd
  tranCount := hasked.serverTranCount
  announced := by simp
  client := by
    intro fd
    have hname : v.link.client.proxy.proxyId = id.chars := hasked.level.clientName
    have hidle := (hasked.level.down.resting_of_not_isStart hasked.client).idle
    simp only [View.mapLink_link, Link.sendAndStart, hname]
    exact hidle.recorded hasked.clientTranCount (by simp) localFd id.chars

theorem withCtlToServer (hasked : Asked id v pub loc trailing) {notices : List Notice}
    (htotals : totals notices = totals v.ctlToServer) :
    Asked id { v with ctlToServer := notices } pub loc trailing where
  level := hasked.level.withCtlToServer htotals
  waiting := hasked.waiting
  client := hasked.client
  serverTranCount := hasked.serverTranCount
  clientTranCount := hasked.clientTranCount

/-- Both ends are idle, so nothing but the answer goes on. -/
theorem step (hasked : Asked id v pub loc trailing) (hstep : LinkStep cfg id v event v') :
    Phase cfg id v' := by
  have hlevel := hasked.level
  have hunmapped := hasked.mapped_eq
  have hserver := hlevel.resting_of_waiting hasked.waiting
  have hclient := hlevel.down.resting_of_not_isStart hasked.client
  have hhome := hlevel.home
  have hwaiting := hasked.waiting
  cases hstep with
  | stay | reclosedAtServer | reclosedAtClient => exact .asked pub loc trailing hasked
  | connect proxyFd localFd hcreated => simp [hlevel.created] at hcreated
  | accept acceptFd hcreated haccepted => simp [hlevel.accepted] at haccepted
  | request publicFd hfree => omega
  | claim count publicFd rest haccepted hclaimed => simp [hlevel.claimed] at hclaimed
  | bind count publicFd rest _ hclaimed hstart hreq hframe =>
      rw [hserver.flight] at hframe
      exact absurd (List.append_eq_nil_iff.mp hframe.symm).1 (ProxyCtlMsg.wire_ne_nil _)
  | forwardAtServer count hstart => simp [hserver.idle.isStart] at hstart
  | relayAtServer conn bytes hpeer hopen | closeAtServer conn hpeer hopen =>
      obtain rfl : pub = conn := Option.some.inj (hserver.peer.symm.trans hpeer)
      simp [hserver.closing] at hopen
  | hearAtServer tranCount rest hctl =>
      have hnone := hserver.notices
      simp [hctl] at hnone
  | freeAtServer rest hctl =>
      have hmiss : View.freeProxyConn { v with ctlToServer := rest } =
          { v with ctlToServer := rest } := if_pos (Or.inl hunmapped)
      rw [hmiss]
      exact .asked _ _ _ (hasked.withCtlToServer (by rw [hctl, totals_freeReq]))
  | strayFreeReq =>
      have hmiss : v.freeProxyConn = v := if_pos (Or.inl hunmapped)
      rw [hmiss]
      exact .asked _ _ _ hasked
  | hearAtClient tranCount rest hcreated hctl => simp [hclient.notices] at hctl
  | startAtClient count localFd publicFd hpositive hcreated hstart hreq hfd hframe =>
      exact .binding _ _ _ (hasked.binding hreq hfd hframe localFd)
  | forwardAtClient count localFd hstart => simp [hasked.client] at hstart
  | relayAtClient conn bytes hpeer hopen | closeAtClient conn hpeer hopen =>
      obtain rfl : loc = conn := Option.some.inj (hclient.peer.symm.trans hpeer)
      simp [hclient.closing] at hopen

end Asked

/-! ## The round -/

theorem Phase.of_unused (hstep : LinkStep cfg id {} event v') : Phase cfg id v' := by
  cases hstep with
  | connect proxyFd localFd => exact .binding _ _ _ (binding_of_connect proxyFd localFd)
  | stay | strayFreeReq => exact .unused rfl
  | accept acceptFd hcreated => simp at hcreated
  | request publicFd hfree => simp at hfree
  | claim count publicFd rest haccepted => simp at haccepted
  | bind count publicFd rest hwaiting => simp at hwaiting
  | forwardAtServer count hstart => simp at hstart
  | relayAtServer conn bytes hpeer | closeAtServer conn hpeer | reclosedAtServer conn hpeer
  | relayAtClient conn bytes hpeer | closeAtClient conn hpeer | reclosedAtClient conn hpeer =>
      simp at hpeer
  | hearAtServer tranCount rest hctl | freeAtServer rest hctl => simp at hctl
  | hearAtClient tranCount rest hcreated => simp at hcreated
  | startAtClient count localFd publicFd hlocal hcreated => simp at hcreated
  | forwardAtClient count localFd hstart => simp at hstart

theorem Phase.step (hphase : Phase cfg id v) (hparked : Parked v)
    (hstep : LinkStep cfg id v event v') (hheeds : v.Heeds event) : Phase cfg id v' := by
  cases hphase with
  | unused hunused =>
      subst hunused
      exact Phase.of_unused hstep
  | binding loc msg before hbinding => exact hbinding.step hstep hheeds
  | asked pub loc trailing hasked => exact hasked.step hstep
  | running session pub loc hrunning =>
      by_cases hrequest : ∀ fd, event ≠ .request fd
      · obtain ⟨pub', loc', hafter⟩ := hrunning.step hstep hrequest
        exact .running session pub' loc' hafter
      · push Not at hrequest
        obtain ⟨fd, rfl⟩ := hrequest
        cases hstep with
        | request publicFd hfree hfd =>
            exact .asked _ _ _ (hrunning.asked hparked hfree hfd)

end CProxy
