import CProxy.Foundation.KeyedMap
import CProxy.Tunnel.Client

/-! # Connects and sends that fail on the client

`Client::handleProxyNotify` and `Tunnel::handleStartProxyConnReq` make up to three
calls that can fail, with changes of state between them. `none` stands for a null
pointer that is dereferenced.
-/

namespace CProxy

open Foundation Wire

/-- The proxy connection that a message is about. -/
def Wire.ProxyCtlMsg.proxyId : ProxyCtlMsg → Str
  | .proxyMetaSet _ _ proxyId => proxyId
  | .startProxyConnReq _ proxyId => proxyId
  | .startProxyConnRsp _ proxyId => proxyId

/-- What the calls of a handler return: `tcp_connect` to the proxy port and to the local
server, and the `write` of `send_msg_dirct`. -/
structure Calls where
  proxyConnFd : Int
  localConnFd : Int
  writeNum : Nat

/-- `tunnel_map_` with the `proxy_conn_map` of each tunnel. `told` is history: the
messages that have been sent whole on a proxy connection. -/
structure ClientState where
  clientId : Str
  tunnelMap : AList (fun _ : Str => AList fun _ : Str => End) := ∅
  told : List ProxyCtlMsg := []

/-- `Tunnel::createProxyConn`, with the identifier that `getValidProxyID` draws. -/
def createProxyConn (proxyConnFd : Int) (proxyId : Str) : Option End :=
  if proxyConnFd ≤ 0 then none
  else some { proxy := { fd := proxyConnFd.toNat, proxyId := proxyId } }

/-- `Tunnel::createLocalConn`. -/
def createLocalConn (proxyConn : End) (localConnFd : Int) : Option EdgeConn :=
  if localConnFd ≤ 0 then none
  else some { fd := localConnFd.toNat, proxyId := proxyConn.proxy.proxyId }

/-- `ProxyConn::send_msg_dirct`. -/
def sendMsgDirct (msg : ProxyCtlMsg) (writeNum : Nat) : Int :=
  if writeNum ≠ msg.wire.length then -1 else 0

/-- `ProxyConn::start`, which asks the connection it is given for its descriptor. -/
def End.startWith (side : End) (conn : Option EdgeConn) : Option End := conn.map side.start

namespace ClientState

def proxyConn (s : ClientState) (tunId proxyId : Str) : Option End :=
  (s.tunnelMap.lookup tunId).bind fun map => map.lookup proxyId

/-- `proxy_conn_map.add`. -/
def addProxyConn (s : ClientState) (tunId proxyId : Str) (conn : End) : ClientState :=
  match s.tunnelMap.lookup tunId with
  | none => s
  | some map => { s with tunnelMap := s.tunnelMap.insert tunId (emplace map proxyId conn) }

/-- Changes the object that an entry points to. -/
def setProxyConn (s : ClientState) (tunId proxyId : Str) (conn : End) : ClientState :=
  match s.tunnelMap.lookup tunId with
  | none => s
  | some map => { s with tunnelMap := s.tunnelMap.insert tunId (map.insert proxyId conn) }

/-- The last lines of both handlers, for a connection that is in the map: the message
that binds the session, and the start. -/
def sendAndStart (s : ClientState) (tunId proxyId : Str) (proxyConn : End)
    (localConn : Option EdgeConn) (msg : ProxyCtlMsg) (writeNum : Nat) : Option ClientState :=
  if sendMsgDirct msg writeNum = -1 then some s
  else
    let s := { s with told := s.told ++ [msg] }
    (proxyConn.startWith localConn).map (s.setProxyConn tunId proxyId)

/-- `Client::handleProxyNotify`. -/
def handleProxyNotify (s : ClientState) (tunId proxyId : Str) (calls : Calls) :
    Option ClientState :=
  if tunId ∉ s.tunnelMap then some s
  else
    (createProxyConn calls.proxyConnFd proxyId).bind fun proxyConn =>
      let s := s.addProxyConn tunId proxyId proxyConn
      let localConn := createLocalConn proxyConn calls.localConnFd
      let msg := .proxyMetaSet s.clientId tunId proxyId
      s.sendAndStart tunId proxyId proxyConn localConn msg calls.writeNum

/-- `handleStartProxyConnReq` of the tunnel `tunId`. -/
def handleStartProxyConnReq (s : ClientState) (tunId : Str) (publicFd : Nat) (proxyId : Str)
    (calls : Calls) : Option ClientState :=
  match s.proxyConn tunId proxyId with
  | none => some s
  | some proxyConn =>
      if proxyConn.proxy.isStart then some s
      else
        let localConn := createLocalConn proxyConn calls.localConnFd
        let msg := .startProxyConnRsp publicFd proxyId
        s.sendAndStart tunId proxyId proxyConn localConn msg calls.writeNum

/-! ## What a failure may cost -/

/-- A proxy connection that serves the local connection it has. -/
def Serving (conn : End) : Prop :=
  conn.proxy.isStart = true ∧ ∃ localConn, conn.peer = some localConn ∧
    conn.proxy.peerConnFd = some localConn.fd

/-- The new state adds no entry that is not started and changes none that was there. -/
structure Unharmed (s s' : ClientState) : Prop where
  started : ∀ tunId proxyId conn, s'.proxyConn tunId proxyId = some conn →
    s.proxyConn tunId proxyId = none → conn.proxy.isStart = true
  kept : ∀ tunId proxyId conn, s.proxyConn tunId proxyId = some conn →
    s'.proxyConn tunId proxyId = some conn

/-- No null pointer is dereferenced, a call that fails harms no entry, and the server has
been told of no session without a local connection. -/
def CostsOneSession (s : ClientState) (tunId : Str) (failed : Prop)
    (result : Option ClientState) : Prop :=
  ∃ s', result = some s' ∧ (failed → Unharmed s s') ∧
    ∀ more, s'.told = s.told ++ more → ∀ msg ∈ more,
      ∃ conn, s'.proxyConn tunId msg.proxyId = some conn ∧ Serving conn

/-- The calls of `handleProxyNotify` that fail. -/
def NotifyFails (s : ClientState) (tunId proxyId : Str) (calls : Calls) : Prop :=
  calls.proxyConnFd ≤ 0 ∨ calls.localConnFd ≤ 0 ∨
    sendMsgDirct (.proxyMetaSet s.clientId tunId proxyId) calls.writeNum = -1

/-- The calls of `handleStartProxyConnReq` that fail. -/
def StartFails (publicFd : Nat) (proxyId : Str) (calls : Calls) : Prop :=
  calls.localConnFd ≤ 0 ∨ sendMsgDirct (.startProxyConnRsp publicFd proxyId) calls.writeNum = -1

variable {s s' : ClientState} {tunId proxyId found other : Str} {conn : End} {calls : Calls}
  {publicFd : Nat}

theorem mem_tunnelMap_of_proxyConn (hconn : s.proxyConn tunId proxyId = some conn) :
    tunId ∈ s.tunnelMap := by
  obtain ⟨map, hmap, -⟩ := Option.bind_eq_some_iff.mp hconn
  exact AList.lookup_isSome.mp (by rw [hmap]; rfl)

@[simp] theorem setProxyConn_told : (s.setProxyConn tunId proxyId conn).told = s.told := by
  unfold setProxyConn
  split <;> rfl

@[simp] theorem addProxyConn_told : (s.addProxyConn tunId proxyId conn).told = s.told := by
  unfold addProxyConn
  split <;> rfl

@[simp] theorem addProxyConn_clientId :
    (s.addProxyConn tunId proxyId conn).clientId = s.clientId := by
  unfold addProxyConn
  split <;> rfl

theorem proxyConn_setProxyConn (htun : tunId ∈ s.tunnelMap) (found other : Str) :
    (s.setProxyConn tunId proxyId conn).proxyConn found other =
      if found = tunId ∧ other = proxyId then some conn else s.proxyConn found other := by
  obtain ⟨map, hmap⟩ := Option.isSome_iff_exists.mp (AList.lookup_isSome.mpr htun)
  unfold setProxyConn proxyConn
  simp only [hmap]
  by_cases hfound : found = tunId
  · subst hfound
    by_cases hother : other = proxyId
    · subst hother
      simp
    · simp [hother, hmap, AList.lookup_insert_ne hother]
  · simp [hfound, AList.lookup_insert_ne hfound]

/-- A fresh identifier gets an entry. -/
theorem addProxyConn_eq (hfresh : s.proxyConn tunId proxyId = none) :
    s.addProxyConn tunId proxyId conn = s.setProxyConn tunId proxyId conn := by
  unfold addProxyConn setProxyConn
  cases hmap : s.tunnelMap.lookup tunId with
  | none => rfl
  | some map =>
      have hnot : proxyId ∉ map := by
        rw [← AList.lookup_eq_none]
        simpa [proxyConn, hmap] using hfresh
      simp only [emplace_of_notMem hnot]

theorem setProxyConn_mem (htun : tunId ∈ s.tunnelMap) :
    tunId ∈ (s.setProxyConn tunId proxyId conn).tunnelMap := by
  apply mem_tunnelMap_of_proxyConn
  rw [proxyConn_setProxyConn htun, if_pos ⟨rfl, rfl⟩]

/-! ## The last lines of both handlers -/

theorem sendAndStart_unsent {msg : ProxyCtlMsg} {writeNum : Nat} {localConn : Option EdgeConn}
    (hfails : sendMsgDirct msg writeNum = -1) :
    s.sendAndStart tunId proxyId conn localConn msg writeNum = some s := if_pos hfails

/-- The message has gone out before the missing local connection is found missing. -/
theorem sendAndStart_null {msg : ProxyCtlMsg} {writeNum : Nat}
    (hsent : sendMsgDirct msg writeNum ≠ -1) :
    s.sendAndStart tunId proxyId conn none msg writeNum = none := if_neg hsent

theorem sendAndStart_started {msg : ProxyCtlMsg} {writeNum : Nat} (localConn : EdgeConn)
    (hsent : sendMsgDirct msg writeNum ≠ -1) :
    s.sendAndStart tunId proxyId conn (some localConn) msg writeNum =
      some (({ s with told := s.told ++ [msg] } : ClientState).setProxyConn tunId proxyId
        (conn.start localConn)) := if_neg hsent

theorem CostsOneSession.refl (s : ClientState) (tunId : Str) (failed : Prop) :
    CostsOneSession s tunId failed (some s) := by
  refine ⟨s, rfl, fun _ => ⟨?_, ?_⟩, ?_⟩
  · intro found other conn hconn hnone
    rw [hnone] at hconn
    cases hconn
  · exact fun found other conn hconn => hconn
  · intro more htold msg hmsg
    rw [List.append_right_eq_self.mp htold.symm] at hmsg
    cases hmsg

theorem not_costsOneSession_none (s : ClientState) (tunId : Str) (failed : Prop) :
    ¬ CostsOneSession s tunId failed none := by
  rintro ⟨s', hnone, -⟩
  cases hnone

/-- A message that is followed by its start is about a session that is served. -/
theorem costsOneSession_started {before : ClientState} {failed : Prop} {msg : ProxyCtlMsg}
    {localConn : EdgeConn} (htold : s.told = before.told) (htun : tunId ∈ s.tunnelMap)
    (hmsg : msg.proxyId = proxyId) (hnot : ¬ failed) :
    CostsOneSession before tunId failed
      (some (({ s with told := s.told ++ [msg] } : ClientState).setProxyConn tunId proxyId
        (conn.start localConn))) := by
  refine ⟨_, rfl, fun hfailed => absurd hfailed hnot, ?_⟩
  intro more hmore other hother
  rw [setProxyConn_told, ← htold, List.append_cancel_left_eq] at hmore
  subst hmore
  obtain rfl := List.mem_singleton.mp hother
  have hknown : tunId ∈ ({ s with told := s.told ++ [other] } : ClientState).tunnelMap := htun
  refine ⟨conn.start localConn, ?_, rfl, localConn, rfl, rfl⟩
  rw [proxyConn_setProxyConn hknown, if_pos ⟨rfl, hmsg⟩]

/-! ## Exactly which failures cost one session -/

theorem localConn_cases (conn : End) (localConnFd : Int) :
    localConnFd ≤ 0 ∧ createLocalConn conn localConnFd = none ∨
      ¬ localConnFd ≤ 0 ∧ ∃ localConn, createLocalConn conn localConnFd = some localConn := by
  by_cases hfails : localConnFd ≤ 0
  · exact Or.inl ⟨hfails, if_pos hfails⟩
  · exact Or.inr ⟨hfails, _, if_neg hfails⟩

theorem handleStartProxyConnReq_iff :
    CostsOneSession s tunId (StartFails publicFd proxyId calls)
        (s.handleStartProxyConnReq tunId publicFd proxyId calls) ↔
      ¬ ∃ conn, s.proxyConn tunId proxyId = some conn ∧ conn.proxy.isStart = false ∧
        calls.localConnFd ≤ 0 ∧
        sendMsgDirct (.startProxyConnRsp publicFd proxyId) calls.writeNum ≠ -1 := by
  unfold handleStartProxyConnReq
  cases hconn : s.proxyConn tunId proxyId with
  | none =>
      refine iff_of_true (CostsOneSession.refl s tunId _) ?_
      rintro ⟨conn, hnone, -⟩
      cases hnone
  | some conn =>
      have htun := mem_tunnelMap_of_proxyConn hconn
      by_cases hstart : conn.proxy.isStart = true
      · simp only [hstart, if_true]
        refine iff_of_true (CostsOneSession.refl s tunId _) ?_
        rintro ⟨other, hother, hidle, -⟩
        obtain rfl := Option.some.inj hother
        rw [hstart] at hidle
        cases hidle
      · have hidle : conn.proxy.isStart = false := Bool.not_eq_true _ ▸ hstart
        simp only [hidle, Bool.false_eq_true, if_false]
        by_cases hfails : sendMsgDirct (.startProxyConnRsp publicFd proxyId) calls.writeNum = -1
        · rw [sendAndStart_unsent hfails]
          refine iff_of_true (CostsOneSession.refl s tunId _) ?_
          rintro ⟨-, -, -, -, hsent⟩
          exact hsent hfails
        · rcases localConn_cases conn calls.localConnFd with ⟨hdown, hlocal⟩ | ⟨hup, localConn, hlocal⟩
          · rw [hlocal, sendAndStart_null hfails]
            refine iff_of_false (not_costsOneSession_none s tunId _) (not_not.mpr ?_)
            exact ⟨conn, rfl, hidle, hdown, hfails⟩
          · rw [hlocal, sendAndStart_started localConn hfails]
            refine iff_of_true (costsOneSession_started rfl htun rfl ?_) ?_
            · exact fun hfailed => hfailed.elim hup hfails
            · rintro ⟨-, -, -, hdown, -⟩
              exact hup hdown

/-- An entry that was added and not started stays behind when the send fails. -/
theorem not_unharmed_of_added (htun : tunId ∈ s.tunnelMap)
    (hfresh : s.proxyConn tunId proxyId = none) (hidle : conn.proxy.isStart = false) :
    ¬ Unharmed s (s.addProxyConn tunId proxyId conn) := by
  intro hunharmed
  have hentry : (s.addProxyConn tunId proxyId conn).proxyConn tunId proxyId = some conn := by
    rw [addProxyConn_eq hfresh, proxyConn_setProxyConn htun, if_pos ⟨rfl, rfl⟩]
  have hstarted := hunharmed.started tunId proxyId conn hentry hfresh
  rw [hidle] at hstarted
  cases hstarted

theorem handleProxyNotify_iff (hfresh : s.proxyConn tunId proxyId = none) :
    CostsOneSession s tunId (NotifyFails s tunId proxyId calls)
        (s.handleProxyNotify tunId proxyId calls) ↔
      tunId ∉ s.tunnelMap ∨ ¬ NotifyFails s tunId proxyId calls := by
  unfold handleProxyNotify
  by_cases htun : tunId ∈ s.tunnelMap
  · rw [if_neg (not_not.mpr htun), or_iff_right (not_not.mpr htun)]
    by_cases hproxy : calls.proxyConnFd ≤ 0
    · rw [createProxyConn, if_pos hproxy]
      refine iff_of_false (not_costsOneSession_none s tunId _) (not_not.mpr ?_)
      exact Or.inl hproxy
    · rw [createProxyConn, if_neg hproxy]
      simp only [Option.bind_some, addProxyConn_clientId]
      by_cases hfails : sendMsgDirct (.proxyMetaSet s.clientId tunId proxyId) calls.writeNum = -1
      · have hfailed : NotifyFails s tunId proxyId calls := Or.inr (Or.inr hfails)
        rw [sendAndStart_unsent hfails]
        refine iff_of_false ?_ (not_not.mpr hfailed)
        rintro ⟨s', hs', hunharmed, -⟩
        obtain rfl := Option.some.inj hs'
        exact not_unharmed_of_added htun hfresh rfl (hunharmed hfailed)
      · rcases localConn_cases _ calls.localConnFd with ⟨hdown, hlocal⟩ | ⟨hup, localConn, hlocal⟩
        · rw [hlocal, sendAndStart_null hfails]
          refine iff_of_false (not_costsOneSession_none s tunId _) (not_not.mpr ?_)
          exact Or.inr (Or.inl hdown)
        · have hnot : ¬ NotifyFails s tunId proxyId calls := by
            rintro (hfailed | hfailed | hfailed)
            · exact hproxy hfailed
            · exact hup hfailed
            · exact hfails hfailed
          rw [hlocal, sendAndStart_started localConn hfails]
          refine iff_of_true (costsOneSession_started addProxyConn_told ?_ rfl hnot) hnot
          rw [addProxyConn_eq hfresh]
          exact setProxyConn_mem htun
  · rw [if_pos htun]
    exact iff_of_true (CostsOneSession.refl s tunId _) (Or.inl htun)

/-! ## Where nothing fails -/

theorem createLocalConn_of_not (hup : ¬ calls.localConnFd ≤ 0) :
    createLocalConn conn calls.localConnFd =
      some { fd := calls.localConnFd.toNat, proxyId := conn.proxy.proxyId } := if_neg hup

/-- Without failures a new connection becomes the end that `Client.handleProxyNotify`
gives it. -/
theorem handleProxyNotify_client (cfg : Config) (base : System) (id : RandStr)
    (hnew : (base.link id).client = {}) (htun : tunId ∈ s.tunnelMap)
    (hfresh : s.proxyConn tunId id.chars = none) (hworks : ¬ NotifyFails s tunId id.chars calls) :
    (s.handleProxyNotify tunId id.chars calls).bind (·.proxyConn tunId id.chars) =
      some ((Client.handleProxyNotify cfg base id calls.proxyConnFd.toNat
        calls.localConnFd.toNat).link id).client := by
  unfold NotifyFails at hworks
  push Not at hworks
  obtain ⟨hproxy, hlocal, hsent⟩ := hworks
  rw [handleProxyNotify, if_neg (not_not.mpr htun), createProxyConn, if_neg (not_le.mpr hproxy)]
  simp only [Option.bind_some, addProxyConn_clientId, createLocalConn_of_not (not_le.mpr hlocal)]
  rw [sendAndStart_started _ hsent, Option.bind_some, proxyConn_setProxyConn, if_pos ⟨rfl, rfl⟩]
  · simp [Client.handleProxyNotify, System.mapLink, Link.sendAndStart, hnew]
  · change tunId ∈ (s.addProxyConn tunId id.chars _).tunnelMap
    rw [addProxyConn_eq hfresh]
    exact setProxyConn_mem htun

/-- A handler costs one session at most exactly when the calls that fail are not those
whose failure it does not see, or does not undo. -/
theorem failures_cost_one_session_iff (s : ClientState) (tunId newId proxyId : Str)
    (publicFd : Nat) (calls : Calls) (hfresh : s.proxyConn tunId newId = none) :
    (CostsOneSession s tunId (NotifyFails s tunId newId calls)
        (s.handleProxyNotify tunId newId calls) ↔
      tunId ∉ s.tunnelMap ∨ ¬ NotifyFails s tunId newId calls) ∧
    (CostsOneSession s tunId (StartFails publicFd proxyId calls)
        (s.handleStartProxyConnReq tunId publicFd proxyId calls) ↔
      ¬ ∃ conn, s.proxyConn tunId proxyId = some conn ∧ conn.proxy.isStart = false ∧
        calls.localConnFd ≤ 0 ∧
        sendMsgDirct (.startProxyConnRsp publicFd proxyId) calls.writeNum ≠ -1) :=
  ⟨handleProxyNotify_iff hfresh, handleStartProxyConnReq_iff⟩

/-- A client with one tunnel, whose proxy connection is idle. -/
def sampleClient : ClientState where
  clientId := [67]
  tunnelMap := (∅ : AList fun _ : Str => AList fun _ : Str => End).insert [84]
    ((∅ : AList fun _ : Str => End).insert [80] { proxy := { fd := 4, proxyId := [80] } })

/-- The local server is down; the message to the server goes out. -/
def sampleDown : Calls := { proxyConnFd := 6, localConnFd := -1, writeNum := 24 }

theorem failures_cost_one_session_iff_sample :
    (CostsOneSession sampleClient [84] (NotifyFails sampleClient [84] [81] sampleDown)
        (sampleClient.handleProxyNotify [84] [81] sampleDown) ↔
      [84] ∉ sampleClient.tunnelMap ∨ ¬ NotifyFails sampleClient [84] [81] sampleDown) ∧
    (CostsOneSession sampleClient [84] (StartFails 7 [80] sampleDown)
        (sampleClient.handleStartProxyConnReq [84] 7 [80] sampleDown) ↔
      ¬ ∃ conn, sampleClient.proxyConn [84] [80] = some conn ∧ conn.proxy.isStart = false ∧
        sampleDown.localConnFd ≤ 0 ∧
        sendMsgDirct (.startProxyConnRsp 7 [80]) sampleDown.writeNum ≠ -1) :=
  failures_cost_one_session_iff sampleClient [84] [81] [80] 7 sampleDown (by decide)

/-- The answer has been sent when the null pointer is dereferenced. -/
theorem not_failures_cost_one_session :
    ¬ ∀ (s : ClientState) (tunId proxyId : Str) (publicFd : Nat) (calls : Calls),
      CostsOneSession s tunId (StartFails publicFd proxyId calls)
        (s.handleStartProxyConnReq tunId publicFd proxyId calls) := by
  intro hall
  have hidle := handleStartProxyConnReq_iff.mp (hall sampleClient [84] [80] 7 sampleDown)
  exact hidle ⟨_, rfl, rfl, by decide, by decide⟩

end ClientState

end CProxy
