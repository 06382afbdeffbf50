import CProxy.Conn.Session
import CProxy.Tunnel.Step

/-! # A new proxy connection and two threads of the client

`Client::handleProxyNotify` gives a new proxy connection to a worker thread, sends
ProxyMetaSet and starts the connection, in this order, on the main thread. The
worker reads whatever arrives meanwhile. Nothing but the server's public
connection writes to the proxy connection here.
-/

namespace CProxy

open Foundation Wire

/-- How far the main thread has come. -/
inductive MainPoint where
  | connected
  | registered
  | sent
  | started
  deriving DecidableEq

/-- What the client's worker has made of a byte. -/
inductive ClientRead where
  | parsed (byte : UInt8)
  | forwarded (peerConnFd : Option Fd) (byte : UInt8)
  deriving DecidableEq

/-- `held` are the bytes of a message that `readn` waits for the rest of. `lost` is
set by a message that the language gives no meaning to. `reads` is history. -/
structure FreshProxy where
  main : MainPoint := .connected
  link : Link := {}
  held : List UInt8 := []
  lost : Bool := false
  reads : List ClientRead := []
  deriving DecidableEq

inductive FreshEvent where
  /-- The main thread takes its next step. -/
  | main
  | serverRead
  | publicRead (bytes : List UInt8)
  /-- The worker runs `ProxyConn::handleRead`; `newFd` is the descriptor of a local
  connection that a message asks for. -/
  | clientRead (count : Nat) (newFd : Fd)
  deriving DecidableEq

namespace FreshProxy

variable (cfg : Config) (id : RandStr) (publicFd proxyFd localFd : Fd)

def mainStep (s : FreshProxy) : Option FreshProxy :=
  match s.main with
  | .connected => some { s with
      main := .registered
      link := { s.link with
        client := { s.link.client with proxy := { fd := proxyFd, proxyId := id.chars } } } }
  | .registered =>
      let msg := ProxyCtlMsg.proxyMetaSet cfg.ctlId.chars cfg.tunId.chars id.chars
      some { s with
        main := .sent
        link := { s.link with
          toServer := s.link.toServer ++ msg.wire
          sent := s.link.sent ++ [.frame msg] } }
  | .sent => some { s with
      main := .started
      link := { s.link with
        client := s.link.client.start { fd := localFd, proxyId := id.chars } } }
  | .started => none

/-- The server reads ProxyMetaSet and binds the public connection. -/
def serverRead (s : FreshProxy) : Option FreshProxy :=
  if s.link.server.proxy.isStart then none
  else
    match readMsg s.link.toServer with
    | .message type body rest =>
        match ProxyCtlMsg.decode type body with
        | some (some (.proxyMetaSet ctlId tunId proxyId)) =>
            let link := s.link.parseAtServer (.parsed (.proxyMetaSet ctlId tunId proxyId)) rest
            if ctlId = cfg.ctlId.chars ∧ tunId = cfg.tunId.chars then
              some { s with
                link := { link with
                  claimed := true
                  server := ({ link.server with
                    proxy := { link.server.proxy with proxyId := proxyId } } : End).start
                      { fd := publicFd, proxyId := proxyId } } }
            else some { s with link := link }
        | _ => none
    | _ => none

def publicRead (s : FreshProxy) (bytes : List UInt8) : Option FreshProxy :=
  match s.link.server.peer with
  | none => none
  | some conn =>
      if ¬ SpliceLen bytes.length ∨ conn.tranCount + bytes.length > intMax then none
      else some { s with link := s.link.relayAtServer bytes }

/-- The half of `ProxyConn::handleRead` that forwards. -/
def forwardRead (s : FreshProxy) (count : Nat) : Option FreshProxy :=
  if ¬ SpliceLen count ∨ s.link.toClient.length < count then none
  -- a sum beyond `int` is undefined
  else if s.link.client.proxy.recvCount + count > intMax then none
  else
    let link := s.link.forwardAtClient count
    some { s with
      link := { link with
        client := if link.client.proxy.recvCount = link.client.proxy.theoreticalTotalRecvCount
          then link.client.settle else link.client }
      reads := s.reads ++ (s.link.toClient.take count).map
        (.forwarded s.link.client.proxy.peerConnFd) }

/-- The bytes up to `rest` have been read as a message. -/
def parse (s : FreshProxy) (rest : List UInt8) : FreshProxy :=
  { s with
    link := { s.link with toClient := rest }
    held := []
    reads := s.reads ++ (s.link.toClient.take (s.link.toClient.length - rest.length)).map .parsed }

/-- The half of `ProxyConn::handleRead` that reads messages. -/
def messageRead (s : FreshProxy) (newFd : Fd) : FreshProxy :=
  let stream := s.held ++ s.link.toClient
  let parsed := s.parse (readMsg stream).rest
  match readMsg stream with
  | .waiting => { parsed with held := stream }
  | .dropped _ => parsed
  | .unset _ => { parsed with lost := true }
  | .message type body _ =>
      match ProxyCtlMsg.decode type body with
      | none => { parsed with lost := true }
      | some (some (.startProxyConnReq publicFd proxyId)) =>
          -- else "not exist", or "is starting, cannot start again"
          if proxyId = id.chars ∧ parsed.link.client.proxy.isStart = false then
            { parsed with
              link := parsed.link.sendAndStart (.startProxyConnRsp publicFd proxyId) newFd }
          else parsed
      | some _ => parsed

def step (s : FreshProxy) : FreshEvent → Option FreshProxy
  | .main => mainStep cfg id proxyFd localFd s
  | .serverRead => serverRead cfg publicFd s
  | .publicRead bytes => publicRead s bytes
  | .clientRead count newFd =>
      -- the worker polls a registered connection, and is woken by bytes
      if s.main = .connected ∨ s.lost ∨ s.link.toClient = [] then none
      -- a worker that waits for the rest of a message does not look at `is_start_` again
      else if s.held = [] ∧ s.link.client.proxy.isStart then forwardRead s count
      else some (messageRead id s newFd)

variable {cfg : Config} {id : RandStr} {proxyFd localFd : Fd} {s : FreshProxy}

/-- Taken in a row, the steps of the main thread are the handler of the atomic model. -/
theorem run_main_eq_handleProxyNotify (hmain : s.main = .connected) {system : System}
    (hlink : s.link = system.link id) :
    ∃ s', run (step cfg id publicFd proxyFd localFd) s [.main, .main, .main] = some s' ∧
      s'.main = .started ∧
      s'.link = (Client.handleProxyNotify cfg system id proxyFd localFd).link id := by
  cases s with
  | mk main link held lost reads =>
      subst hmain hlink
      refine ⟨_, rfl, rfl, ?_⟩
      simp [Client.handleProxyNotify, System.mapLink, Link.sendAndStart]

end FreshProxy

/-! ## What is claimed, and when it holds -/

namespace FreshProxy

/-- The bytes the server has spliced from its public connection. -/
def relayed (s : FreshProxy) : List UInt8 :=
  match s.link.server.peer with
  | none => []
  | some conn => conn.received

/-- Every byte the client has read has been forwarded to the local connection. -/
def AllForwarded (localFd : Fd) (s : FreshProxy) : Prop :=
  ∃ bytes, s.reads = bytes.map (.forwarded (some localFd)) ∧
    s.relayed = bytes ++ s.link.toClient

/-- The worker reads bytes only after the main thread has started the connection. -/
def ReadsAfterStart (s : FreshProxy) : FreshEvent → Prop
  | .clientRead .. => s.main = .started
  | _ => True

/-- The main thread and the client's end keep step. -/
structure InStep (localFd : Fd) (s : FreshProxy) : Prop where
  started : s.main = .started → s.link.client.proxy.isStart = true ∧
    s.link.client.proxy.peerConnFd = some localFd
  unstarted : s.main ≠ .started → s.link.client.proxy.isStart = false
  unbound : s.link.server.proxy.isStart = false → s.link.server.peer = none
  theoretical : s.link.client.proxy.theoreticalTotalRecvCount = -1
  counted : 0 ≤ s.link.client.proxy.recvCount
  held : s.held = []
  forwarded : AllForwarded localFd s

variable {cfg : Config} {id : RandStr} {publicFd proxyFd localFd newFd : Fd} {count : Nat}
  {s s' : FreshProxy}

theorem inStep_init : InStep localFd {} where
  started := nofun
  unstarted := fun _ => rfl
  unbound := fun _ => rfl
  theoretical := rfl
  counted := le_refl 0
  held := rfl
  forwarded := ⟨[], rfl, rfl⟩

theorem InStep.main (hinv : InStep localFd s) (hstep : mainStep cfg id proxyFd localFd s = some s') :
    InStep localFd s' := by
  unfold mainStep at hstep
  cases hmain : s.main with
  | connected =>
      simp only [hmain, Option.some.injEq] at hstep
      subst hstep
      exact { hinv with
        started := nofun
        unstarted := fun _ => rfl
        theoretical := rfl
        counted := le_refl 0
        forwarded := hinv.forwarded }
  | registered =>
      simp only [hmain, Option.some.injEq] at hstep
      subst hstep
      exact { hinv with
        started := nofun
        unstarted := fun _ => hinv.unstarted (by simp [hmain])
        forwarded := hinv.forwarded }
  | sent =>
      simp only [hmain, Option.some.injEq] at hstep
      subst hstep
      exact { hinv with
        started := fun _ => ⟨rfl, rfl⟩
        unstarted := fun hnot => absurd rfl hnot
        forwarded := hinv.forwarded }
  | started => simp [hmain] at hstep

/-- What the server's read does: the client's end and what is under way to it stay
as they are, and a public connection it binds is new. -/
theorem serverRead_cases (hstep : serverRead cfg publicFd s = some s') :
    s.link.server.proxy.isStart = false ∧ s'.main = s.main ∧ s'.held = s.held ∧
      s'.reads = s.reads ∧ s'.link.client = s.link.client ∧
      s'.link.toClient = s.link.toClient ∧
      (s'.link.server = s.link.server ∨ s'.link.server.proxy.isStart = true ∧ s'.relayed = []) := by
  unfold serverRead at hstep
  by_cases hstart : s.link.server.proxy.isStart = true
  · simp [hstart] at hstep
  · have hidle : s.link.server.proxy.isStart = false := by simpa using hstart
    rw [if_neg hstart] at hstep
    split at hstep
    · split at hstep
      · next ctlId tunId proxyId _ =>
          by_cases hmatch : ctlId = cfg.ctlId.chars ∧ tunId = cfg.tunId.chars
          · simp only [if_pos hmatch, Option.some.injEq] at hstep
            subst hstep
            exact ⟨hidle, rfl, rfl, rfl, rfl, rfl, Or.inr ⟨rfl, rfl⟩⟩
          · simp only [if_neg hmatch, Option.some.injEq] at hstep
            subst hstep
            exact ⟨hidle, rfl, rfl, rfl, rfl, rfl, Or.inl rfl⟩
      · cases hstep
    · cases hstep

theorem InStep.serverRead (hinv : InStep localFd s)
    (hstep : FreshProxy.serverRead cfg publicFd s = some s') : InStep localFd s' := by
  obtain ⟨hidle, hmain, hheld, hreads, hclient, htoClient, hserver⟩ := serverRead_cases hstep
  have hrelayed : s'.relayed = s.relayed := by
    rcases hserver with hserver | ⟨-, hnothing⟩
    · simp only [relayed, hserver]
    · -- nothing was relayed before, and nothing has been read from the new connection
      rw [hnothing, relayed, hinv.unbound hidle]
  constructor
  · rw [hmain, hclient]
    exact hinv.started
  · rw [hmain, hclient]
    exact hinv.unstarted
  · intro hunbound
    rcases hserver with hserver | ⟨hstart, -⟩
    · rw [hserver] at hunbound ⊢
      exact hinv.unbound hunbound
    · rw [hstart] at hunbound
      cases hunbound
  · rw [hclient]
    exact hinv.theoretical
  · rw [hclient]
    exact hinv.counted
  · rw [hheld]
    exact hinv.held
  · obtain ⟨read, hread, hsplit⟩ := hinv.forwarded
    exact ⟨read, hreads.trans hread, by rw [hrelayed, htoClient, hsplit]⟩

theorem InStep.publicRead (hinv : InStep localFd s) {bytes : List UInt8}
    (hstep : FreshProxy.publicRead s bytes = some s') : InStep localFd s' := by
  unfold FreshProxy.publicRead at hstep
  cases hpeer : s.link.server.peer with
  | none => simp [hpeer] at hstep
  | some conn =>
      simp only [hpeer, Option.ite_none_left_eq_some] at hstep
      obtain rfl := Option.some.inj hstep.2
      obtain ⟨read, hreads, hrelayed⟩ := hinv.forwarded
      simp only [relayed, hpeer] at hrelayed
      have hbound (hunbound : s.link.server.proxy.isStart = false) := hinv.unbound hunbound
      exact { hinv with
        unbound := fun hunbound => by
          rw [hbound hunbound] at hpeer
          cases hpeer
        forwarded := by
          refine ⟨read, hreads, ?_⟩
          simp [relayed, Link.relayAtServer, End.relay, hpeer, hrelayed] }

/-- A started connection forwards what it reads, and no total has been announced. -/
theorem InStep.forwardRead (hinv : InStep localFd s) (hmain : s.main = .started)
    (hstep : FreshProxy.forwardRead s count = some s') : InStep localFd s' := by
  unfold FreshProxy.forwardRead at hstep
  simp only [Option.ite_none_left_eq_some] at hstep
  obtain ⟨hcount, hfits, heq⟩ := hstep
  obtain ⟨hstart, hpeerFd⟩ := hinv.started hmain
  have hcounted := hinv.counted
  have hrecv : int32 (s.link.client.proxy.recvCount + (s.link.toClient.take count).length) =
      s.link.client.proxy.recvCount + count := by
    rw [List.length_take_of_le (by omega)]
    apply int32_of_range
    · omega
    · omega
  have hincomplete : (s.link.forwardAtClient count).client.proxy.recvCount ≠
      (s.link.forwardAtClient count).client.proxy.theoreticalTotalRecvCount := by
    change int32 _ ≠ s.link.client.proxy.theoreticalTotalRecvCount
    rw [hrecv, hinv.theoretical]
    omega
  simp only [if_neg hincomplete, Option.some.injEq] at heq
  subst heq
  obtain ⟨read, hreads, hrelayed⟩ := hinv.forwarded
  constructor
  · exact fun _ => ⟨hstart, hpeerFd⟩
  · exact fun hnot => absurd hmain hnot
  · exact hinv.unbound
  · exact hinv.theoretical
  · change 0 ≤ int32 _
    rw [hrecv]
    omega
  · exact hinv.held
  · refine ⟨read ++ s.link.toClient.take count, ?_, ?_⟩
    · rw [hpeerFd, hreads, List.map_append]
    · change s.relayed = _
      rw [hrelayed]
      change _ = _ ++ s.link.toClient.drop count
      rw [List.append_assoc, List.take_append_drop]

/-! ## A read before the start -/

theorem messageRead_reads : (messageRead id s newFd).reads =
    (s.parse (readMsg (s.held ++ s.link.toClient)).rest).reads := by
  unfold messageRead
  dsimp only
  split
  · rfl
  · rfl
  · rfl
  · split
    · rfl
    · split <;> rfl
    · rfl

/-- A reader that finds bytes reads them as a message, whatever they are. -/
theorem messageRead_not_allForwarded (hheld : s.held = []) (hbytes : s.link.toClient ≠ []) :
    ¬ AllForwarded localFd (messageRead id s newFd) := by
  rintro ⟨read, hreads, -⟩
  rw [messageRead_reads, hheld, List.nil_append] at hreads
  -- one byte at least leaves the stream as part of a message
  have hshorter := readMsg_rest_length_lt hbytes
  obtain ⟨byte, hbyte⟩ : ∃ byte, byte ∈ s.link.toClient.take
      (s.link.toClient.length - (readMsg s.link.toClient).rest.length) := by
    apply List.exists_mem_of_ne_nil
    simp only [ne_eq, List.take_eq_nil_iff, not_or]
    exact ⟨by omega, hbytes⟩
  have hparsed : ClientRead.parsed byte ∈ read.map (ClientRead.forwarded (some localFd)) := by
    rw [← hreads]
    exact List.mem_append_right _ (List.mem_map_of_mem hbyte)
  simp at hparsed

theorem InStep.step (hinv : InStep localFd s) {event : FreshEvent}
    (hlaw : ReadsAfterStart s event)
    (hstep : FreshProxy.step cfg id publicFd proxyFd localFd s event = some s') : InStep localFd s' := by
  cases event with
  | main => exact hinv.main hstep
  | serverRead => exact hinv.serverRead hstep
  | publicRead bytes => exact hinv.publicRead hstep
  | clientRead count newFd =>
      have hstart := (hinv.started hlaw).1
      simp only [FreshProxy.step, Option.ite_none_left_eq_some] at hstep
      rw [if_pos ⟨hinv.held, hstart⟩] at hstep
      exact hinv.forwardRead hlaw hstep.2

theorem not_allForwarded_of_early (hinv : InStep localFd s) {event : FreshEvent}
    (hstep : FreshProxy.step cfg id publicFd proxyFd localFd s event = some s')
    (hearly : ¬ ReadsAfterStart s event) : ¬ AllForwarded localFd s' := by
  cases event with
  | main | serverRead | publicRead => exact absurd trivial hearly
  | clientRead count newFd =>
      have hidle := hinv.unstarted hearly
      simp only [FreshProxy.step, Option.ite_none_left_eq_some, not_or] at hstep
      obtain ⟨⟨-, -, hbytes⟩, hread⟩ := hstep
      rw [if_neg (by simp [hidle])] at hread
      obtain rfl := Option.some.inj hread
      exact messageRead_not_allForwarded hinv.held hbytes

/-- Every public byte is forwarded, in every state of a run, exactly when the worker
finds none before the main thread has started the connection. -/
theorem fresh_proxy_forwards_iff (cfg : Config) (id : RandStr) (publicFd proxyFd localFd : Fd)
    (events : List FreshEvent) :
    Visits (FreshProxy.step cfg id publicFd proxyFd localFd) (AllForwarded localFd) {} events ↔
      Takes (FreshProxy.step cfg id publicFd proxyFd localFd) ReadsAfterStart {} events := by
  have hkept (s : FreshProxy) (event : FreshEvent) (s' : FreshProxy) (hinv : InStep localFd s)
      (hlaw : ReadsAfterStart s event)
      (hstep : FreshProxy.step cfg id publicFd proxyFd localFd s event = some s') : InStep localFd s' :=
    hinv.step hlaw hstep
  apply visits_iff_takes hkept
  · exact fun s hinv => hinv.forwarded
  · exact fun s event s' hinv hstep hearly => not_allForwarded_of_early hinv hstep hearly
  · exact inStep_init

/-- The worker reads between ProxyMetaSet and the start. -/
def sampleEarlyRead : List FreshEvent :=
  [.main, .main, .serverRead, .publicRead [72, 84, 84, 80], .clientRead 1 12]

def sampleEarlyState : FreshProxy :=
  (run (FreshProxy.step sampleConfig sampleId 5 10 11) {} sampleEarlyRead).getD {}

set_option maxRecDepth 10000 in
theorem run_sampleEarlyRead :
    run (FreshProxy.step sampleConfig sampleId 5 10 11) {} sampleEarlyRead =
      some sampleEarlyState := by decide

set_option maxRecDepth 10000 in
theorem sampleEarlyState_reads : sampleEarlyState.reads =
    [.parsed 72, .parsed 84, .parsed 84, .parsed 80] := by decide

/-- The four bytes `HTTP` are taken for the length of a message. -/
theorem not_fresh_proxy_forwards :
    ¬ ∀ (cfg : Config) (id : RandStr) (publicFd proxyFd localFd : Fd) (events : List FreshEvent),
      Visits (FreshProxy.step cfg id publicFd proxyFd localFd) (AllForwarded localFd) {} events := by
  intro hall
  obtain ⟨read, hreads, -⟩ := hall sampleConfig sampleId 5 10 11 sampleEarlyRead sampleEarlyRead
    sampleEarlyState (List.prefix_refl _) run_sampleEarlyRead
  rw [sampleEarlyState_reads] at hreads
  cases read with
  | nil => cases hreads
  | cons byte rest => simp at hreads

end FreshProxy

end CProxy
