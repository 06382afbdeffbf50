import CProxy.Tunnel.Reachable
import CProxy.Tunnel.WaitMap

/-! # A request in two steps

`Tunnel::newPublicConnHandler` sends its request on the listen thread and adds the
connection to `wait_for_start_proxy_conn_map_` afterwards; the client and the
server's worker threads step in between. The listen thread is one thread, so one
insertion is outstanding at a time. A state in which it has been made is a state
of the tunnel with whole handlers.
-/

namespace CProxy

open Foundation Wire

/-- `inserting` is the connection whose insertion is outstanding. `answered` is
history: no request has been sent since the server read a StartProxyConnRsp. -/
structure RequestSystem where
  base : System := {}
  inserting : Option RandStr := none
  answered : RandStr → Bool := fun _ => false

namespace Server

/-- One round of the accept loop of `newPublicConnHandler`, up to the insertion. -/
def sendStartProxyConnReq (s : RequestSystem) (acceptFd : Fd) : RequestSystem :=
  let base := { s.base with accepted := s.base.accepted ++ [acceptFd] }
  match base.freeProxyConns.getLast? with
  | some id =>
      { base := { base with freeProxyConns := base.freeProxyConns.dropLast }.mapLink id
          fun link => link.request acceptFd
        inserting := some id
        answered := Function.update s.answered id false }
  | none =>
      { s with base := { base with
        undealPublicFds := base.undealPublicFds ++ [acceptFd]
        ctlToClient := base.ctlToClient ++ [.notifyClientNeedProxy] } }

/-- The rest of the round. -/
def addWaiting (s : RequestSystem) : Option RequestSystem :=
  match s.inserting with
  | none => none
  | some id =>
      let proxyId := (s.base.link id).server.proxy.proxyId
      some { s with
        base := s.base.mapWaiting fun map => emplace map proxyId id
        inserting := none }

/-- The connections that are answered after a handler. -/
def noteAnswer (s : RequestSystem) : Event → RandStr → Bool
  | .serverProxyRead id _ =>
      if (s.base.link id).server.proxy.isStart = false ∧
          (frontAnswer (s.base.link id).toServer).isSome then
        Function.update s.answered id true
      else s.answered
  | _ => s.answered

end Server

inductive RequestEvent where
  | handler (event : Event)
  | insert

def requestStep (cfg : Config) (s : RequestSystem) : RequestEvent → Option RequestSystem
  | .insert => Server.addWaiting s
  | .handler (.newPublicConn acceptFd) =>
      if s.inserting = none ∧ Fresh s.base acceptFd then
        some (Server.sendStartProxyConnReq s acceptFd)
      else none
  | .handler event => (step cfg s.base event).map fun base =>
      { s with base := base, answered := Server.noteAnswer s event }

/-! ## What the server does with an answer -/

/-- `id` is bound to the public connection of `publicFd`. -/
structure BoundTo (s : System) (id : RandStr) (publicFd : Fd) : Prop where
  peer : (s.link id).server.peer =
    some { fd := publicFd, proxyId := (s.link id).server.proxy.proxyId }
  isStart : (s.link id).server.proxy.isStart = true
  mapped : (s.link id).server.proxy.proxyId ∈ s.proxyConnMap

/-- A StartProxyConnRsp finds its request; its descriptor is bound and the entry erased. -/
def AnswerMatched (cfg : Config) (s : RequestSystem) : RequestEvent → Prop
  | .insert => True
  | .handler event => ∀ id publicFd, Answers s.base id publicFd event →
      (s.base.link id).server.proxy.proxyId ∈ s.base.waitForStartProxyConnMap ∧
        ∀ s', requestStep cfg s (.handler event) = some s' →
          BoundTo s'.base id publicFd ∧ id.chars ∉ s'.base.waitForStartProxyConnMap

/-- An answered connection has no entry. -/
def NoLeftover (s : RequestSystem) : Prop :=
  ∀ id, s.answered id = true → id.chars ∉ s.base.waitForStartProxyConnMap

/-- The server reads a StartProxyConnRsp once the connection has been added to the map. -/
def ReadAfterInsertion (s : RequestSystem) : RequestEvent → Prop
  | .insert => True
  | .handler event => ∀ id publicFd, Answers s.base id publicFd event → s.inserting ≠ some id

variable {cfg : Config} {id : RandStr}

theorem frontAnswer_nil : frontAnswer [] = none := rfl

/-- An answer is on its way only to a connection that waits for it. -/
theorem LinkInv.of_answersAt {w : System} (hinv : LinkInv cfg id (w.view id)) {publicFd : Nat}
    (hanswer : AnswersAt w id publicFd) :
    (w.view id).waiting = 1 ∧ (w.link id).claimed = true ∧
      (w.link id).server.proxy.proxyId = id.chars := by
  obtain ⟨hidle, hfront⟩ := hanswer
  cases hinv with
  | unused hunused =>
      have hempty : (w.view id).link.toServer = [] := by rw [hunused]
      rw [view_link] at hempty
      rw [hempty, frontAnswer_nil] at hfront
      cases hfront
  | ahead loc msg hahead =>
      have hstream : (w.link id).toServer = msg.wire ++ loc.received := hahead.stream
      cases horigin : hahead.origin with
      | fresh =>
          simp only [hstream, frontAnswer, ProxyCtlMsg.readMsg_wire hahead.origin.sent,
            ProxyCtlMsg.decode_body hahead.origin.sent] at hfront
          cases hfront
      | reused found hfd haccepted hclaimed hwaiting hunclaimed hname hreq =>
          exact ⟨hwaiting, hclaimed, hname⟩
  | level pub loc trailing hlevel =>
      have hempty : (w.link id).toServer = [] := (hlevel.up.resting_of_not_isStart hidle).flight
      rw [hempty, frontAnswer_nil] at hfront
      cases hfront

theorem LinkInv.name_of_waiting {v : View} (hinv : LinkInv cfg id v) (hwaiting : v.waiting ≠ 0) :
    v.link.server.proxy.proxyId = id.chars := by
  cases hinv with
  | unused hunused => simp [hunused] at hwaiting
  | ahead loc msg hahead =>
      cases hahead.origin with
      | fresh _ _ hnone => exact absurd hnone hwaiting
      | reused _ _ _ _ _ _ hname => exact hname
  | level pub loc trailing hlevel => exact hlevel.serverName

theorem Keyed.waiting_iff {w : System} (hkeyed : Keyed w) :
    (w.view id).waiting ≠ 0 ↔ id.chars ∈ w.waitForStartProxyConnMap := by
  rw [hkeyed.waiting.mem_iff RandStr.chars_injective, ← hkeyed.waiting.occurrences_pos,
    Nat.pos_iff_ne_zero]
  rfl

/-- What a claimed connection does with an answer whose entry is there. -/
theorem bound_of_answer {s s' : System} {publicFd count : Nat}
    (hanswer : AnswersAt s id publicFd) (hclaimed : (s.link id).claimed = true)
    (hmem : (s.link id).server.proxy.proxyId ∈ s.waitForStartProxyConnMap)
    (hstep : step cfg s (.serverProxyRead id count) = some s') :
    BoundTo s' id publicFd ∧ s'.waitForStartProxyConnMap =
      s.waitForStartProxyConnMap.erase (s.link id).server.proxy.proxyId := by
  obtain ⟨hidle, hfront⟩ := hanswer
  obtain ⟨type, body, rest, proxyId, hread, hmsg⟩ := frontAnswer_eq_some hfront
  have haccepted : (s.link id).accepted ≠ false := by
    intro hopen
    simp [step, Server.proxyRead, hopen] at hstep
  simp only [step, Server.proxyRead, if_neg haccepted, hidle, Bool.false_eq_true, if_false,
    Server.messageRead, hread, hmsg, System.mapLink, Link.parseAtServer, Function.update_self,
    hclaimed, if_true, Server.handleStartProxyConnRsp, hmem, not_true, Option.some.injEq] at hstep
  subst hstep
  refine ⟨⟨?_, ?_, ?_⟩, ?_⟩
  · simp [Server.bindPublicFdToProxyConn, System.mapLink, End.start]
  · simp [Server.bindPublicFdToProxyConn, System.mapLink, End.start]
  · simp [Server.bindPublicFdToProxyConn, System.mapLink, End.start, mem_emplace]
  · simp [Server.bindPublicFdToProxyConn, System.mapLink]

/-! ## Making the outstanding insertion -/

/-- What the outstanding insertion does to the map. -/
def insertion (inserting : Option RandStr) (map : ConnMap Str) : ConnMap Str :=
  match inserting with
  | none => map
  | some id => emplace map id.chars id

def RequestSystem.whole (s : RequestSystem) : System := s.base.mapWaiting (insertion s.inserting)

theorem sparesKey_insertion {inserting : Option RandStr} (hother : inserting ≠ some id) :
    SparesKey (insertion inserting) id.chars := by
  cases inserting with
  | none => exact ⟨fun _ => Iff.rfl, fun _ => rfl⟩
  | some found =>
      apply sparesKey_emplace
      intro hname
      exact hother (congrArg some (RandStr.chars_injective hname).symm)

theorem mem_insertion_of_mem {inserting : Option RandStr} {map : ConnMap Str} {key : Str}
    (hmem : key ∈ map) : key ∈ insertion inserting map := by
  cases inserting with
  | none => exact hmem
  | some found => exact mem_emplace.mpr (Or.inr hmem)

variable {s s' : RequestSystem}

theorem whole_of_none (hnone : s.inserting = none) : s.whole = s.base := by
  rw [RequestSystem.whole, hnone]
  rfl

@[simp] theorem RequestSystem.whole_link (s : RequestSystem) (id : RandStr) :
    s.whole.link id = s.base.link id := rfl

/-- A connection whose insertion is outstanding has no entry, and none waits in the
whole tunnel once its answer has been read. -/
structure RequestInv (cfg : Config) (s : RequestSystem) : Prop where
  reachable : Reachable cfg s.whole
  unlisted : ∀ id, s.inserting = some id → id.chars ∉ s.base.waitForStartProxyConnMap
  answered : ∀ id, s.answered id = true → id.chars ∉ s.whole.waitForStartProxyConnMap

theorem requestInv_init (cfg : Config) : RequestInv cfg {} where
  reachable := ⟨[], rfl⟩
  unlisted := nofun
  answered := nofun

namespace RequestInv

theorem noLeftover (hinv : RequestInv cfg s) : NoLeftover s :=
  fun id hanswered hmem => hinv.answered id hanswered (mem_insertion_of_mem hmem)

theorem insert (hinv : RequestInv cfg s) (hstep : requestStep cfg s .insert = some s') :
    RequestInv cfg s' := by
  cases hid : s.inserting with
  | none => simp [requestStep, Server.addWaiting, hid] at hstep
  | some id =>
      have hwf := hinv.reachable.wellFormed
      have hmem : id.chars ∈ s.whole.waitForStartProxyConnMap := by
        simp [RequestSystem.whole, System.mapWaiting, hid, insertion, mem_emplace]
      have hname : (s.base.link id).server.proxy.proxyId = id.chars :=
        (hwf.inv id).name_of_waiting (hwf.keyed.waiting_iff.mpr hmem)
      simp only [requestStep, Server.addWaiting, hid, hname, Option.some.injEq] at hstep
      subst hstep
      have hwhole : RequestSystem.whole { s with
          base := s.base.mapWaiting fun map => emplace map id.chars id
          inserting := none } = s.whole := by
        simp only [RequestSystem.whole, hid]
        rfl
      exact {
        reachable := by
          rw [hwhole]
          exact hinv.reachable
        unlisted := by simp
        answered := by
          rw [hwhole]
          exact hinv.answered }

/-- A public connection arrives while no insertion is outstanding. -/
theorem newPublicConn (hinv : RequestInv cfg s) {acceptFd : Fd} (hnone : s.inserting = none)
    (hfresh : Fresh s.base acceptFd) :
    RequestInv cfg (Server.sendStartProxyConnReq s acceptFd) := by
  have hwhole := whole_of_none hnone
  have hreach : Reachable cfg s.base := hwhole ▸ hinv.reachable
  have hstep : step cfg s.base (.newPublicConn acceptFd) =
      some (Server.newPublicConnHandler s.base acceptFd) := if_pos hfresh
  have hnext := hreach.step hstep
  have hanswered := hinv.answered
  rw [hwhole] at hanswered
  unfold Server.newPublicConnHandler at hnext
  unfold Server.sendStartProxyConnReq
  cases hlast : s.base.freeProxyConns.getLast? with
  | none =>
      simp only [hlast] at hnext ⊢
      exact {
        reachable := by
          simp only [RequestSystem.whole, hnone]
          exact hnext
        unlisted := fun id hid => absurd (hnone.symm.trans hid) (Option.some_ne_none id).symm
        answered := by
          simp only [RequestSystem.whole, hnone]
          exact hanswered }
  | some id =>
      obtain ⟨others, hsplit⟩ := List.getLast?_eq_some_iff.mp hlast
      have hfree : 0 < (s.base.view id).free := by simp [System.view, hsplit]
      have hwf := hreach.wellFormed
      obtain ⟨pub, loc, trailing, hlevel⟩ := (hwf.inv id).level_of_home (by omega)
      -- what is free has no other home, so it has no entry yet
      have hwaiting : (s.base.view id).waiting = 0 := by
        have hhome := hlevel.home
        omega
      have hname : (s.base.link id).server.proxy.proxyId = id.chars := hlevel.serverName
      simp only [hlast] at hnext ⊢
      refine ⟨?_, ?_, ?_⟩
      · simpa [Server.reqStartProxy, System.mapLink, Link.request, RequestSystem.whole,
          System.mapWaiting, insertion, hname] using hnext
      · intro found hfound
        obtain rfl := Option.some.inj hfound
        exact fun hmem => hwf.keyed.waiting_iff.mpr hmem hwaiting
      · intro other hother
        by_cases hsame : other = id
        · subst hsame
          simp at hother
        · simp only [Function.update_of_ne hsame] at hother
          have hgone := hanswered other hother
          simp only [RequestSystem.whole, System.mapWaiting, insertion, System.mapLink,
            mem_emplace, not_or]
          exact ⟨fun hchars => hsame (RandStr.chars_injective hchars), hgone⟩

/-- A handler that reads no answer whose insertion is outstanding does in the whole
tunnel what it does here. -/
theorem step_whole {event : Event} {base : System}
    (hpublic : ∀ acceptFd, event ≠ .newPublicConn acceptFd) (hinv : RequestInv cfg s)
    (hlaw : ReadAfterInsertion s (.handler event)) (hstep : step cfg s.base event = some base) :
    step cfg s.whole event = some (base.mapWaiting (insertion s.inserting)) := by
  have hspares (id : RandStr) (publicFd : Nat) (hanswer : Answers s.base id publicFd event) :
      SparesKey (insertion s.inserting) (s.base.link id).server.proxy.proxyId := by
    have hat : AnswersAt s.whole id publicFd := by
      cases event with
      | serverProxyRead found count =>
          obtain ⟨rfl, hat⟩ := hanswer
          exact hat
      | newPublicConn | newProxyConn | publicRead | serverCtlRead | clientCtlRead
      | clientProxyRead | localRead | strayFreeReq => exact hanswer.elim
    obtain ⟨_, _, hname⟩ := (hinv.reachable.wellFormed.inv id).of_answersAt hat
    rw [RequestSystem.whole_link] at hname
    rw [hname]
    exact sparesKey_insertion (hlaw id publicFd hanswer)
  rw [RequestSystem.whole, step_mapWaiting (insertion s.inserting) hpublic hspares, hstep]
  rfl

/-- The answer is matched exactly when the insertion has been made. -/
theorem waiting_iff (hinv : RequestInv cfg s) {publicFd : Nat}
    (hanswer : AnswersAt s.base id publicFd) :
    (s.base.link id).server.proxy.proxyId ∈ s.base.waitForStartProxyConnMap ↔
      s.inserting ≠ some id := by
  have hwf := hinv.reachable.wellFormed
  have hat : AnswersAt s.whole id publicFd := hanswer
  obtain ⟨hwaiting, _, hname⟩ := (hwf.inv id).of_answersAt hat
  rw [RequestSystem.whole_link] at hname
  rw [hname]
  constructor
  · exact fun hmem hid => hinv.unlisted id hid hmem
  · intro hother
    have hmem : id.chars ∈ s.whole.waitForStartProxyConnMap :=
      hwf.keyed.waiting_iff.mp (by omega)
    exact (sparesKey_insertion hother).mem _ |>.mp hmem

/-- A lawful answer. -/
theorem bound_of_answer (hinv : RequestInv cfg s) {publicFd count : Nat} {base : System}
    (hanswer : AnswersAt s.base id publicFd) (hother : s.inserting ≠ some id)
    (hstep : step cfg s.base (.serverProxyRead id count) = some base) :
    BoundTo base id publicFd ∧
      base.waitForStartProxyConnMap = s.base.waitForStartProxyConnMap.erase id.chars := by
  have hat : AnswersAt s.whole id publicFd := hanswer
  obtain ⟨_, hclaimed, hname⟩ := (hinv.reachable.wellFormed.inv id).of_answersAt hat
  rw [RequestSystem.whole_link] at hclaimed hname
  have hbound := CProxy.bound_of_answer hanswer hclaimed ((hinv.waiting_iff hanswer).mpr hother)
    hstep
  rw [hname] at hbound
  exact hbound

end RequestInv

/-- An event that reads no answer notes none. -/
theorem noteAnswer_of_not_answers {event : Event}
    (hanswers : ∀ id publicFd, ¬ Answers s.base id publicFd event) :
    Server.noteAnswer s event = s.answered := by
  cases event with
  | serverProxyRead id count =>
      rw [Server.noteAnswer, if_neg]
      rintro ⟨hidle, hfront⟩
      obtain ⟨publicFd, hfront⟩ := Option.isSome_iff_exists.mp hfront
      exact hanswers id publicFd ⟨rfl, hidle, hfront⟩
  | newPublicConn | newProxyConn | publicRead | serverCtlRead | clientCtlRead | clientProxyRead
  | localRead | strayFreeReq => rfl

theorem noteAnswer_of_ne {count : Nat} {other : RandStr} (hother : other ≠ id) :
    Server.noteAnswer s (.serverProxyRead id count) other = s.answered other := by
  simp only [Server.noteAnswer]
  split
  · exact Function.update_of_ne hother _ _
  · rfl

namespace RequestInv

/-- A handler other than the accept of a public connection. -/
theorem handler {event : Event} (hpublic : ∀ acceptFd, event ≠ .newPublicConn acceptFd)
    (hinv : RequestInv cfg s) (hlaw : ReadAfterInsertion s (.handler event)) {base : System}
    (hstep : step cfg s.base event = some base) :
    RequestInv cfg { s with base := base, answered := Server.noteAnswer s event } := by
  have hnext := hinv.reachable.step (hinv.step_whole hpublic hlaw hstep)
  by_cases hanswers : ∃ id publicFd, Answers s.base id publicFd event
  · obtain ⟨id, publicFd, hanswer⟩ := hanswers
    cases event with
    | serverProxyRead found count =>
        obtain ⟨rfl, hat⟩ := hanswer
        have hother := hlaw found publicFd ⟨rfl, hat⟩
        obtain ⟨_, herase⟩ := hinv.bound_of_answer hat hother hstep
        -- the entry that is erased is not the one whose insertion is outstanding
        have hwhole : insertion s.inserting base.waitForStartProxyConnMap =
            s.whole.waitForStartProxyConnMap.erase found.chars := by
          rw [herase]
          exact ((sparesKey_insertion hother).erase _).symm
        refine ⟨hnext, ?_, ?_⟩
        · intro id hid hmem
          simp only [herase] at hmem
          exact hinv.unlisted id hid (AList.mem_erase.mp hmem).2
        · intro id hid
          change id.chars ∉ insertion s.inserting base.waitForStartProxyConnMap
          rw [hwhole, AList.mem_erase]
          rintro ⟨hne, hmem⟩
          have hsame : id ≠ found := fun heq => hne (congrArg RandStr.chars heq)
          simp only [noteAnswer_of_ne hsame] at hid
          exact hinv.answered id hid hmem
    | newPublicConn | newProxyConn | publicRead | serverCtlRead | clientCtlRead
    | clientProxyRead | localRead | strayFreeReq => exact hanswer.elim
  · have hnone (id : RandStr) (publicFd : Nat) : ¬ Answers s.base id publicFd event :=
      fun hanswer => hanswers ⟨id, publicFd, hanswer⟩
    have hsame := waiting_of_step hpublic hnone hstep
    have hwhole : (base.mapWaiting (insertion s.inserting)).waitForStartProxyConnMap =
        s.whole.waitForStartProxyConnMap := congrArg (insertion s.inserting) hsame
    rw [noteAnswer_of_not_answers hnone]
    exact {
      reachable := hnext
      unlisted := by
        simp only [hsame]
        exact hinv.unlisted
      answered := by
        intro id hid
        change id.chars ∉ (base.mapWaiting (insertion s.inserting)).waitForStartProxyConnMap
        rw [hwhole]
        exact hinv.answered id hid }

theorem step {event : RequestEvent} (hinv : RequestInv cfg s) (hlaw : ReadAfterInsertion s event)
    (hstep : requestStep cfg s event = some s') : RequestInv cfg s' := by
  cases event with
  | insert => exact hinv.insert hstep
  | handler event =>
      cases event with
      | newPublicConn acceptFd =>
          simp only [requestStep, Option.ite_none_right_eq_some, Option.some.injEq] at hstep
          obtain ⟨⟨hnone, hfresh⟩, rfl⟩ := hstep
          exact hinv.newPublicConn hnone hfresh
      | newProxyConn | serverProxyRead | publicRead | serverCtlRead | clientCtlRead
      | clientProxyRead | localRead =>
          obtain ⟨base, hbase, rfl⟩ := Option.map_eq_some_iff.mp hstep
          apply handler _ hinv hlaw hbase
          intro acceptFd hevent
          cases hevent
      | strayFreeReq proxyId =>
          obtain rfl := Option.some.inj hstep
          apply handler _ hinv hlaw rfl
          intro acceptFd hevent
          cases hevent

theorem answerMatched_iff (hinv : RequestInv cfg s) (event : RequestEvent) :
    AnswerMatched cfg s event ↔ ReadAfterInsertion s event := by
  cases event with
  | insert => exact Iff.rfl
  | handler event =>
      apply forall_congr'
      intro id
      apply forall_congr'
      intro publicFd
      apply forall_congr'
      intro hanswer
      cases event with
      | serverProxyRead found count =>
          obtain ⟨rfl, hat⟩ := hanswer
          rw [hinv.waiting_iff hat]
          apply and_iff_left_of_imp
          intro hother s' hstep
          obtain ⟨base, hbase, rfl⟩ := Option.map_eq_some_iff.mp hstep
          obtain ⟨hbound, herase⟩ := hinv.bound_of_answer hat hother hbase
          refine ⟨hbound, ?_⟩
          simp [herase]
      | newPublicConn | newProxyConn | publicRead | serverCtlRead | clientCtlRead
      | clientProxyRead | localRead | strayFreeReq => exact hanswer.elim

end RequestInv

/-- In a run every answer finds its request, and no answered connection keeps an entry,
exactly when each answer is read after the insertion that belongs to its request. -/
theorem answers_matched_iff (cfg : Config) (events : List RequestEvent) :
    (Takes (requestStep cfg) (AnswerMatched cfg) {} events ∧
        Visits (requestStep cfg) NoLeftover {} events) ↔
      Takes (requestStep cfg) ReadAfterInsertion {} events := by
  have hstep (s : RequestSystem) (event : RequestEvent) (s' : RequestSystem)
      (hinv : RequestInv cfg s) (hlaw : ReadAfterInsertion s event)
      (hnext : requestStep cfg s event = some s') : RequestInv cfg s' := hinv.step hlaw hnext
  have hmatched := takes_iff_takes hstep
    (fun s event s' hinv _ => hinv.answerMatched_iff event) (requestInv_init cfg) events
  rw [hmatched]
  apply and_iff_left_of_imp
  intro htakes before middle hinit hrun
  exact (run_invariant_of_takes hstep (requestInv_init cfg) (htakes.of_initial hinit)
    hrun).noLeftover

/-- A connection that has served a session is given to a second public connection, and
its client answers before the listen thread goes on. -/
def sampleEarlyAnswer : List RequestEvent :=
  (sampleStart ++ sampleFinish ++
    [Event.newPublicConn 7, .clientProxyRead sampleId 1 12]).map .handler

set_option maxRecDepth 10000 in
/-- The answer is dropped: descriptor 7 is bound to nothing. The entry made afterwards
stays, and the client forwards to a local connection. -/
theorem not_answers_matched :
    ¬ (∀ cfg events, Takes (requestStep cfg) (AnswerMatched cfg) {} events ∧
      Visits (requestStep cfg) NoLeftover {} events) ∧
    (run (requestStep sampleConfig) {} (sampleEarlyAnswer ++
        [.handler (.serverProxyRead sampleId 1), .insert])).map
      (fun s => (s.answered sampleId, s.base.waitForStartProxyConnMap.keys,
        (s.base.link sampleId).server.starts, (s.base.link sampleId).client.proxy.isStart)) =
      some (true, [sampleId.chars], [5], true) := by
  refine ⟨fun hclaim => ?_, by decide⟩
  have hleftover := (hclaim sampleConfig (sampleEarlyAnswer ++
    [.handler (.serverProxyRead sampleId 1), .insert])).2
  obtain ⟨final, hfinal⟩ := Option.isSome_iff_exists.mp
    (show (run (requestStep sampleConfig) {} (sampleEarlyAnswer ++
      [.handler (.serverProxyRead sampleId 1), .insert])).isSome = true by decide)
  have hkept : (run (requestStep sampleConfig) {} (sampleEarlyAnswer ++
      [.handler (.serverProxyRead sampleId 1), .insert])).map
      (fun s => (s.answered sampleId,
        decide (sampleId.chars ∈ s.base.waitForStartProxyConnMap))) = some (true, true) := by decide
  rw [hfinal, Option.map_some, Option.some.injEq, Prod.mk.injEq, decide_eq_true_iff] at hkept
  exact hleftover _ final (List.prefix_refl _) hfinal sampleId hkept.1 hkept.2

end CProxy
