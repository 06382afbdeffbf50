import CProxy.Tunnel.Load

/-! # Enough identifiers and descriptors

A client makes no more proxy connections than the server has accepted public ones. A
tunnel that has not been given more of these than there are identifiers can always go on.
-/

namespace CProxy

open Foundation Wire

/-! ## Identifiers -/

/-- The characters `rand_str` draws, in order. -/
def randChar (digit : Fin 36) : UInt8 :=
  if digit.val < 10 then UInt8.ofNat (48 + digit.val) else UInt8.ofNat (55 + digit.val)

theorem isRandChar_randChar : ∀ digit, isRandChar (randChar digit) = true := by decide

theorem randChar_injective : Function.Injective randChar := by decide

def RandStr.ofDigits (digits : Fin 5 → Fin 36) : RandStr where
  chars := List.ofFn fun index => randChar (digits index)
  length_eq := List.length_ofFn
  alnum := by
    intro char hchar
    obtain ⟨index, rfl⟩ := List.mem_ofFn.mp hchar
    exact isRandChar_randChar (digits index)

theorem RandStr.ofDigits_injective : Function.Injective RandStr.ofDigits := by
  intro first second heq
  have hchars : List.ofFn (fun index => randChar (first index)) =
      List.ofFn fun index => randChar (second index) := congrArg RandStr.chars heq
  have hsame := List.ofFn_injective hchars
  funext index
  exact randChar_injective (congrFun hsame index)

/-- Fewer identifiers than there are leave one that is not in use. -/
theorem exists_unused {ids : List RandStr} (hfew : ids.length < 36 ^ 5) : ∃ id, id ∉ ids := by
  classical
  have hcard : (Finset.univ.image RandStr.ofDigits).card = 36 ^ 5 := by
    rw [Finset.card_image_of_injective _ RandStr.ofDigits_injective, Finset.card_univ,
      Fintype.card_fun, Fintype.card_fin, Fintype.card_fin]
  have hless : ids.toFinset.card < (Finset.univ.image RandStr.ofDigits).card := by
    rw [hcard]
    exact Nat.lt_of_le_of_lt ids.toFinset_card_le hfew
  obtain ⟨id, -, hunused⟩ := Finset.exists_mem_notMem_of_card_lt_card hless
  exact ⟨id, fun hmem => hunused (List.mem_toFinset.mpr hmem)⟩

theorem exists_fresh {s : System} (hfew : s.accepted.length < 2147483647) : ∃ fd, Fresh s fd := by
  have hless : s.accepted.toFinset.card < (Finset.Icc 1 2147483647).card := by
    rw [Nat.card_Icc]
    exact Nat.lt_of_le_of_lt s.accepted.toFinset_card_le hfew
  obtain ⟨fd, hrange, hfresh⟩ := Finset.exists_mem_notMem_of_card_lt_card hless
  obtain ⟨hpositive, hbounded⟩ := Finset.mem_Icc.mp hrange
  exact ⟨fd, hpositive, hbounded, fun hmem => hfresh (List.mem_toFinset.mpr hmem)⟩

/-! ## Who accepts -/

variable {cfg : Config} {s s' : System} {id : RandStr} {v v' : View}

theorem tunnelClaimProxyConn_accepted (hclaim : Server.tunnelClaimProxyConn s id = some s') :
    s'.accepted = s.accepted := by
  unfold Server.tunnelClaimProxyConn at hclaim
  dsimp only at hclaim
  split at hclaim
  · cases hclaim
  · rw [← Option.some.inj hclaim]
    rfl

theorem claimProxyConn_accepted {ctlId tunId proxyId : Str}
    (hclaim : Server.claimProxyConn cfg s id ctlId tunId proxyId = some s') :
    s'.accepted = s.accepted := by
  unfold Server.claimProxyConn at hclaim
  dsimp only at hclaim
  split at hclaim
  · rw [← Option.some.inj hclaim]
    rfl
  · split at hclaim
    · rw [← Option.some.inj hclaim]
      rfl
    · obtain ⟨claimed, hclaimed, rfl⟩ := Option.map_eq_some_iff.mp hclaim
      have haccepted := tunnelClaimProxyConn_accepted hclaimed
      exact haccepted

theorem serverProxyRead_accepted {count : Nat}
    (hread : Server.proxyRead cfg s id count = some s') : s'.accepted = s.accepted := by
  have hparse (item : Handled) (rest : List UInt8) :=
    Keeps.mapLink s id (fun link => link.parseAtServer item rest) fun _ => rfl
  unfold Server.proxyRead at hread
  split at hread
  · cases hread
  · split at hread
    · exact (Keeps.serverForwardRead hread).accepted
    · unfold Server.messageRead at hread
      split at hread
      · cases hread
      · next rest _ =>
          rw [← Option.some.inj hread]
          exact (hparse .skipped rest).accepted
      · cases hread
      · next rest _ =>
          split at hread
          · cases hread
          · rw [← Option.some.inj hread]
            exact (hparse .skipped rest).accepted
          · next msg _ =>
              have hparsed := hparse (.parsed msg) rest
              dsimp only at hread
              split at hread
              · exact (claimProxyConn_accepted hread).trans hparsed.accepted
              · rw [← Option.some.inj hread]
                exact hparsed.accepted
              · split at hread
                · rw [← Option.some.inj hread]
                  exact (hparsed.trans (Keeps.handleStartProxyConnRsp _ _ _)).accepted
                · rw [← Option.some.inj hread]
                  exact hparsed.accepted

theorem clientCtlRead_accepted {proxyFd localFd : Fd}
    (hread : Client.ctlRead cfg s id proxyFd localFd = some s') : s'.accepted = s.accepted := by
  unfold Client.ctlRead at hread
  split at hread
  · cases hread
  · dsimp only at hread
    split at hread
    · split at hread
      · cases hread
      · rw [← Option.some.inj hread]
        rfl
    · rw [← Option.some.inj hread]
      exact (Keeps.handleShutdownLocalConn _ _ _).accepted
    · rw [← Option.some.inj hread]

/-! ## What the public connections pay for -/

/-- `count` public connections have been accepted: each has made the client create or
owe one proxy connection at most, and the rest of the descriptors are theirs. -/
structure Paid (s : System) (count : Nat) : Prop where
  names : s.created.length + s.needs ≤ count
  descriptors : s.accepted.length ≤ count + s.created.countP fun id => (s.link id).accepted

theorem paid_init : Paid System.init 0 := ⟨Nat.le_refl 0, Nat.le_refl 0⟩

def Event.isPublic : Event → Bool
  | newPublicConn .. => true
  | _ => false

variable {count : Nat}

/-- A connection that has been accepted stays so. -/
theorem countP_accepted_le (hlinks : ∀ id, (s.link id).accepted = true →
    (s'.link id).accepted = true) (ids : List RandStr) :
    ids.countP (fun id => (s.link id).accepted) ≤ ids.countP fun id => (s'.link id).accepted :=
  List.countP_mono_left fun id _ => hlinks id

theorem Paid.newPublicConn (hpaid : Paid s count) (acceptFd : Fd) :
    Paid (Server.newPublicConnHandler s acceptFd) (count + 1) := by
  obtain ⟨hnames, hdescriptors⟩ := hpaid
  unfold Server.newPublicConnHandler
  cases hlast : s.freeProxyConns.getLast? with
  | none =>
      simp only [hlast]
      constructor
      · change s.created.length + (s.ctlToClient ++ [CtlMsg.notifyClientNeedProxy]).count
          .notifyClientNeedProxy ≤ _
        rw [List.count_append]
        simp only [System.needs] at hnames
        simp
        omega
      · simp only [List.length_append, List.length_singleton]
        change _ ≤ _ + s.created.countP _
        omega
  | some id =>
      simp only [hlast]
      have hkeeps := Keeps.reqStartProxy { s with
        accepted := s.accepted ++ [acceptFd]
        freeProxyConns := s.freeProxyConns.dropLast } acceptFd id
      have hcreated := created_eq_of_client hkeeps.client
      have hlinks (other : RandStr) (haccepted : (s.link other).accepted = true) :
          ((Server.reqStartProxy { s with
            accepted := s.accepted ++ [acceptFd]
            freeProxyConns := s.freeProxyConns.dropLast } acceptFd id).link other).accepted =
              true := by
        by_cases hid : other = id
        · subst hid
          simpa [Server.reqStartProxy, System.mapLink, Link.request] using haccepted
        · simpa [Server.reqStartProxy, System.mapLink, hid] using haccepted
      have hmore := countP_accepted_le hlinks s.created
      constructor
      · rw [hcreated, hkeeps.needs]
        exact Nat.le_succ_of_le hnames
      · rw [hcreated, hkeeps.accepted, List.length_append, List.length_singleton]
        change _ ≤ _ + s.created.countP _
        omega

theorem Paid.newProxyConn (hpaid : Paid s count) (hwf : WellFormed cfg s) {acceptFd : Fd}
    (hknown : id.chars ∈ s.clientProxyConnMap) (haccepted : (s.link id).accepted = false) :
    Paid (Server.newProxyConnHandler s id acceptFd) count := by
  obtain ⟨hnames, hdescriptors⟩ := hpaid
  have hmem : id ∈ s.created := (mem_created_iff hwf.keyed).mpr (AList.lookup_isSome.mpr hknown)
  have hone := @countP_update _
    (fun other => ((Server.newProxyConnHandler s id acceptFd).link other).accepted)
    (fun other => (s.link other).accepted) _ hwf.keyed.created_nodup id hmem
    (by simp [Server.newProxyConnHandler, System.mapLink]) haccepted
    (fun other hother => by simp [Server.newProxyConnHandler, System.mapLink, hother])
  refine ⟨hnames, ?_⟩
  change (s.accepted ++ [acceptFd]).length ≤ _ + s.created.countP _
  rw [hone, List.length_append, List.length_singleton]
  omega

/-- The other handlers accept nothing. -/
theorem Paid.of_accepted (hpaid : Paid s count) (hwf : WellFormed cfg s) {event : Event}
    (hstep : CProxy.step cfg s event = some s') (haccepted : s'.accepted = s.accepted) :
    Paid s' count := by
  obtain ⟨hnames, hdescriptors⟩ := hpaid
  have hlinks (id : RandStr) (hopen : (s.link id).accepted = true) :
      (s'.link id).accepted = true :=
    (((step_simulated hwf hstep).links id).accepted_eq hopen).1
  have hmore := countP_accepted_le hlinks s.created
  have hkept (hneeds : s'.needs = s.needs)
      (hclient : s'.clientProxyConnMap = s.clientProxyConnMap) : Paid s' count := by
    have hcreated := created_eq_of_client hclient
    constructor
    · rw [hcreated, hneeds]
      exact hnames
    · rw [hcreated, haccepted]
      omega
  have hlength (fd : Fd) (hlonger : s'.accepted = s.accepted ++ [fd]) : False := by
    rw [haccepted] at hlonger
    simp at hlonger
  cases step_dealt hwf hstep with
  | kept hundeal hneeds _ hclient => exact hkept hneeds hclient
  | taken id fd hundeal hneeds _ hclient => exact hkept hneeds hclient
  | asked fd hfresh hundeal hneeds hlonger => exact (hlength fd hlonger).elim
  | offered id fd hfresh hundeal hneeds hlonger => exact (hlength fd hlonger).elim
  | heard id hundeal hneeds _ hfresh hclient =>
      have hcreated : s'.created = id :: s.created := by
        rw [System.created, hclient, AList.entries_insert_of_notMem hfresh]
        rfl
      constructor
      · rw [hcreated, List.length_cons]
        omega
      · rw [hcreated, haccepted, List.countP_cons]
        omega

theorem Paid.step (hpaid : Paid s count) (hwf : WellFormed cfg s) {event : Event}
    (hstep : CProxy.step cfg s event = some s') :
    Paid s' (count + if event.isPublic then 1 else 0) := by
  have hfirst := hpaid.of_accepted hwf hstep
  cases event with
  | newPublicConn acceptFd =>
      obtain ⟨-, hsome⟩ := Option.ite_none_right_eq_some.mp hstep
      rw [← Option.some.inj hsome]
      exact hpaid.newPublicConn acceptFd
  | newProxyConn id acceptFd =>
      obtain ⟨⟨-, hknown, haccepted⟩, hsome⟩ := Option.ite_none_right_eq_some.mp hstep
      rw [← Option.some.inj hsome]
      exact hpaid.newProxyConn hwf hknown haccepted
  | serverProxyRead => exact hfirst (serverProxyRead_accepted hstep)
  | publicRead => exact hfirst (Keeps.publicRead hstep).accepted
  | serverCtlRead => exact hfirst (Keeps.serverCtlRead hstep).accepted
  | clientCtlRead =>
      exact hfirst (clientCtlRead_accepted (Option.ite_none_right_eq_some.mp hstep).2)
  | clientProxyRead =>
      exact hfirst (Keeps.clientProxyRead (Option.ite_none_right_eq_some.mp hstep).2).accepted
  | localRead => exact hfirst (Keeps.localRead hstep).accepted
  | strayFreeReq proxyId =>
      refine hfirst ?_
      rw [← Option.some.inj hstep]
      exact (Keeps.freeProxyConn s proxyId).accepted

theorem Paid.run {events : List Event} {final : System} (hpaid : Paid s count)
    (hwf : WellFormed cfg s) (hrun : Foundation.run (CProxy.step cfg) s events = some final) :
    Paid final (count + events.countP Event.isPublic) := by
  induction events generalizing s count with
  | nil =>
      obtain rfl := Option.some.inj hrun
      exact hpaid
  | cons event rest ih =>
      obtain ⟨next, hnext, hrest⟩ := run_cons_eq_some.mp hrun
      have hlater := ih (hpaid.step hwf hnext) (hwf.step hnext) hrest
      rwa [List.countP_cons, Nat.add_comm (rest.countP _), ← Nat.add_assoc]

/-- As long as there were no more public connections than identifiers, the client finds
one for every proxy connection it owes, and every `accept` a descriptor. -/
theorem Paid.supplied (hpaid : Paid s count) (hkeyed : Keyed s) (hfew : count ≤ 36 ^ 5) :
    (s.needs ≠ 0 → ∃ id : RandStr, id.chars ∉ s.clientProxyConnMap) ∧ ∃ fd, Fresh s fd := by
  obtain ⟨hnames, hdescriptors⟩ := hpaid
  constructor
  · intro hneeds
    have hless : s.created.length < 36 ^ 5 := by omega
    obtain ⟨id, hunused⟩ := exists_unused hless
    refine ⟨id, fun hknown => hunused ?_⟩
    exact (mem_created_iff hkeyed).mpr (AList.lookup_isSome.mpr hknown)
  · apply exists_fresh
    have hcreated : s.created.countP (fun id => (s.link id).accepted) ≤ s.created.length :=
      List.countP_le_length
    norm_num at hfew
    omega

end CProxy
