import CProxy.Foundation.Ownership
import CProxy.Foundation.Run
import CProxy.Tunnel.System

/-! # What a closed control connection takes down

The `shared_ptr`s between the server, its `Control`s and their `Tunnel`s:
`control_map_` leads to a `Control`, its `tunnel_map_` to a `Tunnel`, whose `ctl_`
leads back. The poller of the listen thread holds the acceptors, whose handlers
have a plain pointer to the `Tunnel`. Objects are named by the order in which they
are constructed.
-/

namespace CProxy

open Foundation Wire

/-- What a `shared_ptr` leads to. -/
inductive Obj where
  | control (index : Nat)
  | tunnel (index : Nat)
  | acceptor (index : Nat)
  deriving DecidableEq

/-- A `Control`. -/
structure ControlObj where
  ctlId : Str
  tunnelMap : AList (fun _ : Str => Nat) := ∅

/-- A server `Tunnel` with its `ctl_`; its `acceptor_` has the same index. -/
structure TunnelObj where
  tunId : Str
  ctl : Nat
  undealPublicFds : List Fd := []
  freeProxyConns : List RandStr := []

/-- `controls` and `tunnels` hold all that have been constructed, `alive` what has not
been destroyed. `polled` are the acceptors in the `fd2chan_` of the listen thread's
poller. `notified` is history: the `Control`s over whose connections a
NotifyClientNeedProxy has been sent. -/
structure Owners where
  controls : List ControlObj := []
  tunnels : List TunnelObj := []
  alive : Finset Obj := ∅
  controlMap : AList (fun _ : Str => Nat) := ∅
  polled : List Nat := []
  notified : List Nat := []

inductive OwnerEvent where
  | newCtlConn (ctlId : Str)
  | newTunnelReq (index : Nat) (tunId : Str)
  | ctlConnClose (index : Nat)
  | newPublicConn (index : Nat) (acceptFd : Fd)
  | freeProxyConn (index : Nat) (id : RandStr)

namespace Owners

/-- The `shared_ptr`s held by the server and by the listen thread's poller. -/
def roots (s : Owners) : List Obj :=
  (s.controlMap.entries.map fun entry => .control entry.snd) ++ s.polled.map .acceptor

/-- The `shared_ptr`s among the members of an object. -/
def holds (s : Owners) : Obj → List Obj
  | .control index =>
      match s.controls[index]? with
      | none => []
      | some ctl => ctl.tunnelMap.entries.map fun entry => .tunnel entry.snd
  | .tunnel index =>
      match s.tunnels[index]? with
      | none => []
      | some tun => [.control tun.ctl, .acceptor index]
  | .acceptor _ => []

/-- Runs the destructors of what has lost its last owner. -/
def settle (s : Owners) : Owners := { s with alive := collect s.roots s.holds s.alive }

/-- A `Control` is in `control_map_`. -/
def Present (s : Owners) (index : Nat) : Prop := ∃ ctlId, s.controlMap.lookup ctlId = some index

/-- One round of the accept loop of `Server::newCtlConnHandler`, which draws a `ctl_id`
that is not in use. -/
def newCtlConnHandler (s : Owners) (ctlId : Str) : Option Owners :=
  if ctlId ∈ s.controlMap then none
  else some { s with
    controls := s.controls ++ [{ ctlId := ctlId }]
    alive := insert (.control s.controls.length) s.alive
    controlMap := emplace s.controlMap ctlId s.controls.length }

/-- `Control::handleNewTunnelReq`, for a connection that is open. When `tunnel_map_` has
the `tun_id` already, the local variable is the tunnel's only owner. -/
def handleNewTunnelReq (s : Owners) (index : Nat) (tunId : Str) : Option Owners :=
  match s.controls[index]? with
  | none => none
  | some ctl =>
      if s.controlMap.lookup ctl.ctlId = some index then
        let s : Owners := { s with
          controls := s.controls.modify index fun ctl =>
            { ctl with tunnelMap := emplace ctl.tunnelMap tunId s.tunnels.length }
          tunnels := s.tunnels ++ [{ tunId := tunId, ctl := index }]
          alive := insert (.tunnel s.tunnels.length)
            (insert (.acceptor s.tunnels.length) s.alive)
          polled := s.polled ++ [s.tunnels.length] }
        some s.settle
      else none

/-- `Control::handleCtlConnClose`, for a connection that is open. -/
def handleCtlConnClose (s : Owners) (index : Nat) : Option Owners :=
  match s.controls[index]? with
  | none => none
  | some ctl =>
      if s.controlMap.lookup ctl.ctlId = some index then
        let s : Owners := { s with controlMap := s.controlMap.erase ctl.ctlId }
        some s.settle
      else none

def mapTunnel (s : Owners) (index : Nat) (update : TunnelObj → TunnelObj) : Owners :=
  { s with tunnels := s.tunnels.modify index update }

/-- One round of the accept loop of `Tunnel::newPublicConnHandler`. The handler of a
tunnel that has been destroyed is not defined. -/
def newPublicConnHandler (s : Owners) (index : Nat) (acceptFd : Fd) : Option Owners :=
  match s.tunnels[index]? with
  | none => none
  | some tun =>
      if index ∉ s.polled ∨ .tunnel index ∉ s.alive then none
      else
        match tun.freeProxyConns.getLast? with
        | some _ => some (s.mapTunnel index fun tun =>
            { tun with freeProxyConns := tun.freeProxyConns.dropLast })
        | none => some { s.mapTunnel index fun tun =>
              { tun with undealPublicFds := tun.undealPublicFds ++ [acceptFd] } with
            notified := s.notified ++ [tun.ctl] }

def step (s : Owners) : OwnerEvent → Option Owners
  | .newCtlConn ctlId => s.newCtlConnHandler ctlId
  | .newTunnelReq index tunId => s.handleNewTunnelReq index tunId
  | .ctlConnClose index => s.handleCtlConnClose index
  | .newPublicConn index acceptFd => s.newPublicConnHandler index acceptFd
  | .freeProxyConn index id => some (s.mapTunnel index fun tun =>
      { tun with freeProxyConns := tun.freeProxyConns ++ [id] })

/-- Every tunnel whose acceptor is registered belongs to a `Control` that is present. -/
def AcceptorsPresent (s : Owners) : Prop :=
  ∀ index tun, s.tunnels[index]? = some tun → .tunnel index ∈ s.alive → index ∈ s.polled →
    s.Present tun.ctl

/-- A public connection is accepted for a `Control` that is present. -/
def AcceptsForPresent (s : Owners) : OwnerEvent → Prop
  | .newPublicConn index _ => ∀ tun, s.tunnels[index]? = some tun → s.Present tun.ctl
  | _ => True

/-- A control connection that closes has no tunnel. -/
def ClosesEmpty (s : Owners) : OwnerEvent → Prop
  | .ctlConnClose index => ∀ ctl, s.controls[index]? = some ctl → ctl.tunnelMap = ∅
  | _ => True

/-! ## Owners and what they hold -/

variable {s s' : Owners} {index place : Nat}

@[simp] theorem control_mem_roots : .control index ∈ s.roots ↔ s.Present index := by
  simp only [roots, List.mem_append, List.mem_map, Obj.control.injEq, reduceCtorEq, and_false,
    exists_false, or_false, Present]
  constructor
  · rintro ⟨⟨ctlId, found⟩, hentry, rfl⟩
    exact ⟨ctlId, mem_entries_iff.mp hentry⟩
  · rintro ⟨ctlId, hlookup⟩
    exact ⟨⟨ctlId, index⟩, mem_entries_iff.mpr hlookup, rfl⟩

@[simp] theorem tunnel_notMem_roots : .tunnel index ∉ s.roots := by simp [roots]

@[simp] theorem acceptor_mem_roots : .acceptor index ∈ s.roots ↔ index ∈ s.polled := by
  simp [roots]

theorem mem_holds_control {item : Obj} : item ∈ s.holds (.control index) ↔
    ∃ ctl tunId place, s.controls[index]? = some ctl ∧
      ctl.tunnelMap.lookup tunId = some place ∧ item = .tunnel place := by
  unfold holds
  cases hctl : s.controls[index]? with
  | none => simp [hctl]
  | some ctl =>
      simp only [hctl, List.mem_map, Option.some.injEq]
      constructor
      · rintro ⟨⟨tunId, place⟩, hentry, rfl⟩
        exact ⟨ctl, tunId, place, rfl, mem_entries_iff.mp hentry, rfl⟩
      · rintro ⟨found, tunId, place, rfl, hlookup, rfl⟩
        exact ⟨⟨tunId, place⟩, mem_entries_iff.mpr hlookup, rfl⟩

theorem mem_holds_tunnel {item : Obj} : item ∈ s.holds (.tunnel place) ↔
    ∃ tun, s.tunnels[place]? = some tun ∧ (item = .control tun.ctl ∨ item = .acceptor place) := by
  unfold holds
  cases htun : s.tunnels[place]? with
  | none => simp [htun]
  | some tun => simp [htun]

/-- Everything alive has an owner. What `control_map_` leads to is alive and has that
`ctl_id`, and no other `Control` is alive. What `tunnel_map_` leads to has the right
`ctl_` and lives as long as the `Control`. Every acceptor is registered. -/
structure OwnerInv (s : Owners) : Prop where
  supported : Supported s.roots s.holds s.alive
  controlMap : ∀ ctlId index, s.controlMap.lookup ctlId = some index →
    .control index ∈ s.alive ∧ (s.controls[index]?.map ControlObj.ctlId) = some ctlId
  present : ∀ index, .control index ∈ s.alive → s.Present index
  tunnelMap : ∀ index ctl, s.controls[index]? = some ctl →
    ∀ tunId place, ctl.tunnelMap.lookup tunId = some place →
      (s.tunnels[place]?.map TunnelObj.ctl) = some index ∧
        (.control index ∈ s.alive → .tunnel place ∈ s.alive)
  polled : ∀ place, place < s.tunnels.length → place ∈ s.polled ∧ .acceptor place ∈ s.alive

theorem ownerInv_init : OwnerInv {} where
  supported := by simp [Supported]
  controlMap := by simp
  present := by simp
  tunnelMap := by simp
  polled := by simp

/-- The only owner of a tunnel is its `Control`. -/
theorem OwnerInv.owner (hinv : OwnerInv s) {tun : TunnelObj} (htun : s.tunnels[place]? = some tun)
    (halive : .tunnel place ∈ s.alive) :
    .control tun.ctl ∈ s.alive ∧ ∃ ctl tunId, s.controls[tun.ctl]? = some ctl ∧
      ctl.tunnelMap.lookup tunId = some place := by
  rcases hinv.supported _ halive with hroot | ⟨owner, howner, hheld⟩
  · exact absurd hroot tunnel_notMem_roots
  · cases owner with
    | acceptor other => simp [holds] at hheld
    | tunnel other =>
        obtain ⟨_, _, hother | hother⟩ := mem_holds_tunnel.mp hheld
        · cases hother
        · cases hother
    | control index =>
        obtain ⟨ctl, tunId, found, hctl, hlookup, hfound⟩ := mem_holds_control.mp hheld
        obtain rfl := Obj.tunnel.inj hfound
        have hback := (hinv.tunnelMap index ctl hctl tunId place hlookup).1
        rw [htun, Option.map_some, Option.some.injEq] at hback
        subst hback
        exact ⟨howner, ctl, tunId, hctl, hlookup⟩

theorem OwnerInv.acceptorsPresent (hinv : OwnerInv s) : AcceptorsPresent s := by
  intro index tun htun halive _
  exact hinv.present tun.ctl (hinv.owner htun halive).1

/-! ## Closing a control connection -/

/-- `erase` lets go of the `Control`. -/
def erased (s : Owners) (ctlId : Str) : Owners :=
  { s with controlMap := s.controlMap.erase ctlId }

theorem handleCtlConnClose_cases (hstep : s.handleCtlConnClose index = some s') :
    ∃ ctl, s.controls[index]? = some ctl ∧ s.controlMap.lookup ctl.ctlId = some index ∧
      s' = (s.erased ctl.ctlId).settle := by
  unfold handleCtlConnClose at hstep
  cases hctl : s.controls[index]? with
  | none => simp [hctl] at hstep
  | some ctl =>
      simp only [hctl, Option.ite_none_right_eq_some, Option.some.injEq] at hstep
      exact ⟨ctl, rfl, hstep.1, hstep.2.symm⟩

theorem present_erased {ctlId : Str} {other : Nat} (hctl : s.controlMap.lookup ctlId = some index)
    (hother : other ≠ index) (hpresent : s.Present other) : (s.erased ctlId).Present other := by
  obtain ⟨found, hlookup⟩ := hpresent
  refine ⟨found, ?_⟩
  have hname : found ≠ ctlId := by
    rintro rfl
    exact hother (Option.some.inj (hlookup.symm.trans hctl))
  exact (AList.lookup_erase_ne hname).trans hlookup

theorem OwnerInv.not_present_erased (hinv : OwnerInv s) {ctlId : Str}
    (hctl : s.controlMap.lookup ctlId = some index) : ¬ (s.erased ctlId).Present index := by
  rintro ⟨found, hlookup⟩
  have hold := lookup_of_erase hlookup
  have hname : ctlId = found := Option.some.inj
    ((hinv.controlMap ctlId index hctl).2.symm.trans (hinv.controlMap found index hold).2)
  rw [← hname] at hlookup
  simp [erased] at hlookup

/-- A `Control` and one of its tunnels keep each other alive. -/
theorem OwnerInv.kept_of_tunnel (hinv : OwnerInv s) {ctl : ControlObj} {tunId : Str}
    (hctl : s.controls[index]? = some ctl) (hlookup : ctl.tunnelMap.lookup tunId = some place)
    (halive : .control index ∈ s.alive) (ctlId : Str) :
    .control index ∈ (s.erased ctlId).settle.alive ∧
      .tunnel place ∈ (s.erased ctlId).settle.alive := by
  obtain ⟨hback, htunnel⟩ := hinv.tunnelMap index ctl hctl tunId place hlookup
  obtain ⟨tun, htun, hback⟩ := Option.map_eq_some_iff.mp hback
  have hdown : .tunnel place ∈ (s.erased ctlId).holds (.control index) :=
    mem_holds_control.mpr ⟨ctl, tunId, place, hctl, hlookup, rfl⟩
  have hup : .control index ∈ (s.erased ctlId).holds (.tunnel place) :=
    mem_holds_tunnel.mpr ⟨tun, htun, Or.inl (by rw [hback])⟩
  -- each of the two is held by the other, so the two need no root
  have hcycle : Supported (s.erased ctlId).roots (s.erased ctlId).holds
      {.control index, .tunnel place} := by
    intro item hitem
    rcases Finset.mem_insert.mp hitem with rfl | hitem
    · exact Or.inr ⟨.tunnel place, by simp, hup⟩
    · rw [Finset.mem_singleton.mp hitem]
      exact Or.inr ⟨.control index, by simp, hdown⟩
  have hsub : ({.control index, .tunnel place} : Finset Obj) ⊆ (s.erased ctlId).alive :=
    Finset.insert_subset halive (Finset.singleton_subset_iff.mpr (htunnel halive))
  have hkept := hcycle.subset_collect hsub
  exact ⟨hkept (by simp), hkept (by simp)⟩

/-- Closing destroys a `Control` exactly when it has no tunnel. -/
theorem OwnerInv.destroyed_iff (hinv : OwnerInv s) {ctl : ControlObj}
    (hctl : s.controls[index]? = some ctl) (hopen : s.controlMap.lookup ctl.ctlId = some index) :
    .control index ∉ (s.erased ctl.ctlId).settle.alive ↔ ctl.tunnelMap = ∅ := by
  have halive := (hinv.controlMap ctl.ctlId index hopen).1
  constructor
  · intro hdestroyed
    apply AList.ext
    rw [AList.empty_entries, List.eq_nil_iff_forall_not_mem]
    rintro ⟨tunId, place⟩ hentry
    exact hdestroyed (hinv.kept_of_tunnel hctl (mem_entries_iff.mp hentry) halive ctl.ctlId).1
  · intro hempty hkept
    rcases supported_collect _ hkept with hroot | ⟨owner, howner, hheld⟩
    · exact hinv.not_present_erased hopen (control_mem_roots.mp hroot)
    · cases owner with
      | acceptor other => simp [holds] at hheld
      | control other =>
          obtain ⟨_, _, _, _, _, hfound⟩ := mem_holds_control.mp hheld
          cases hfound
      | tunnel place =>
          -- a tunnel that is alive is in the map, which is empty
          obtain ⟨tun, htun, hfound | hfound⟩ := mem_holds_tunnel.mp hheld
          · obtain rfl := Obj.control.inj hfound
            obtain ⟨_, found, tunId, hfound, hlookup⟩ := hinv.owner htun (collect_subset howner)
            rw [hctl, Option.some.injEq] at hfound
            rw [← hfound, hempty] at hlookup
            simp at hlookup
          · cases hfound

/-- A connection that closes without a tunnel takes its `Control` down. -/
theorem OwnerInv.ctlConnClose (hinv : OwnerInv s) (hempty : ClosesEmpty s (.ctlConnClose index))
    (hstep : s.handleCtlConnClose index = some s') : OwnerInv s' := by
  obtain ⟨ctl, hctl, hopen, rfl⟩ := handleCtlConnClose_cases hstep
  have hdestroyed := (hinv.destroyed_iff hctl hopen).mpr (hempty ctl hctl)
  have hkept (other : Nat) (hother : other ≠ index) (hpresent : s.Present other) :
      .control other ∈ (s.erased ctl.ctlId).settle.alive := by
    obtain ⟨found, hlookup⟩ := hpresent
    have hroot := present_erased hopen hother ⟨found, hlookup⟩
    exact mem_collect_of_root (control_mem_roots.mpr hroot)
      (hinv.controlMap found other hlookup).1
  refine ⟨supported_collect, ?_, ?_, ?_, ?_⟩
  · intro found other hlookup
    have hold := lookup_of_erase hlookup
    refine ⟨hkept other ?_ ⟨found, hold⟩, (hinv.controlMap found other hold).2⟩
    rintro rfl
    exact hinv.not_present_erased hopen ⟨found, hlookup⟩
  · intro other hother
    have hne : other ≠ index := by
      rintro rfl
      exact hdestroyed hother
    exact present_erased hopen hne (hinv.present other (collect_subset hother))
  · intro other ctl' hctl' tunId place hlookup
    obtain ⟨hback, htunnel⟩ := hinv.tunnelMap other ctl' hctl' tunId place hlookup
    refine ⟨hback, fun hcontrol => ?_⟩
    exact mem_collect_of_held hcontrol
      (mem_holds_control.mpr ⟨ctl', tunId, place, hctl', hlookup, rfl⟩)
      (htunnel (collect_subset hcontrol))
  · intro place hplace
    obtain ⟨hpolled, hacceptor⟩ := hinv.polled place hplace
    exact ⟨hpolled, mem_collect_of_root (acceptor_mem_roots.mpr hpolled) hacceptor⟩

/-- A connection that closes with a tunnel leaves it, and its acceptor, behind. -/
theorem OwnerInv.not_acceptorsPresent (hinv : OwnerInv s)
    (hnot : ¬ ClosesEmpty s (.ctlConnClose index))
    (hstep : s.handleCtlConnClose index = some s') : ¬ AcceptorsPresent s' := by
  simp only [ClosesEmpty] at hnot
  push Not at hnot
  obtain ⟨ctl, hctl, hnonempty⟩ := hnot
  obtain ⟨found, hfound, hopen, rfl⟩ := handleCtlConnClose_cases hstep
  obtain rfl : ctl = found := Option.some.inj (hctl.symm.trans hfound)
  obtain ⟨⟨tunId, place⟩, hentry⟩ : ∃ entry, entry ∈ ctl.tunnelMap.entries := by
    apply List.exists_mem_of_ne_nil
    exact fun hnil => hnonempty (AList.ext hnil)
  have hlookup := mem_entries_iff.mp hentry
  obtain ⟨hback, _⟩ := hinv.tunnelMap index ctl hctl tunId place hlookup
  obtain ⟨tun, htun, hback⟩ := Option.map_eq_some_iff.mp hback
  have hkept := hinv.kept_of_tunnel hctl hlookup (hinv.controlMap _ _ hopen).1 ctl.ctlId
  have hplace : place < s.tunnels.length := (List.getElem?_eq_some_iff.mp htun).1
  intro hpresent
  have hstale := hpresent place tun htun hkept.2 (hinv.polled place hplace).1
  rw [hback] at hstale
  exact hinv.not_present_erased hopen hstale

/-! ## The other steps -/

theorem newCtlConnHandler_cases {ctlId : Str} (hstep : s.newCtlConnHandler ctlId = some s') :
    ctlId ∉ s.controlMap ∧ s' = { s with
      controls := s.controls ++ [{ ctlId := ctlId }]
      alive := insert (.control s.controls.length) s.alive
      controlMap := emplace s.controlMap ctlId s.controls.length } := by
  simp only [newCtlConnHandler, Option.ite_none_left_eq_some, Option.some.injEq] at hstep
  exact ⟨hstep.1, hstep.2.symm⟩

theorem OwnerInv.newCtlConn (hinv : OwnerInv s) {ctlId : Str}
    (hstep : s.newCtlConnHandler ctlId = some s') : OwnerInv s' := by
  obtain ⟨hfresh, rfl⟩ := newCtlConnHandler_cases hstep
  have hgrow {found : Str} {other : Nat} (hlookup : s.controlMap.lookup found = some other) :
      (emplace s.controlMap ctlId s.controls.length).lookup found = some other := by
    have hne : found ≠ ctlId := by
      rintro rfl
      exact hfresh (AList.lookup_isSome.mp (by rw [hlookup]; rfl))
    rw [emplace_of_notMem hfresh, AList.lookup_insert_ne hne]
    exact hlookup
  have hnew : (emplace s.controlMap ctlId s.controls.length).lookup ctlId =
      some s.controls.length := by
    rw [emplace_of_notMem hfresh, AList.lookup_insert]
  refine ⟨?_, ?_, ?_, ?_, ?_⟩
  · apply Supported.insert
    · apply hinv.supported.mono
      · intro item _ hroot
        cases item with
        | control other =>
            obtain ⟨found, hlookup⟩ := control_mem_roots.mp hroot
            exact control_mem_roots.mpr ⟨found, hgrow hlookup⟩
        | tunnel other => exact absurd hroot tunnel_notMem_roots
        | acceptor other =>
            have hpolled : other ∈ s.polled := acceptor_mem_roots.mp hroot
            exact acceptor_mem_roots.mpr hpolled
      · intro owner _ item _ hheld
        cases owner with
        | control other =>
            obtain ⟨ctl, tunId, place, hctl, hlookup, rfl⟩ := mem_holds_control.mp hheld
            refine mem_holds_control.mpr ⟨ctl, tunId, place, ?_, hlookup, rfl⟩
            rw [List.getElem?_append_left (List.getElem?_eq_some_iff.mp hctl).1]
            exact hctl
        | tunnel other => exact hheld
        | acceptor other => exact hheld
    · exact Or.inl (control_mem_roots.mpr ⟨ctlId, hnew⟩)
  · intro found other hlookup
    rcases lookup_of_emplace hlookup with hbefore | ⟨rfl, rfl⟩
    · obtain ⟨halive, hname⟩ := hinv.controlMap found other hbefore
      refine ⟨Finset.mem_insert_of_mem halive, ?_⟩
      obtain ⟨ctl, hctl, rfl⟩ := Option.map_eq_some_iff.mp hname
      rw [List.getElem?_append_left (List.getElem?_eq_some_iff.mp hctl).1, hctl]
      rfl
    · refine ⟨Finset.mem_insert_self _ _, ?_⟩
      rw [List.getElem?_concat_length]
      rfl
  · intro other hother
    rcases Finset.mem_insert.mp hother with hsame | hbefore
    · obtain rfl := Obj.control.inj hsame
      exact ⟨ctlId, hnew⟩
    · obtain ⟨found, hlookup⟩ := hinv.present other hbefore
      exact ⟨found, hgrow hlookup⟩
  · intro other ctl hctl tunId place hlookup
    rw [List.getElem?_append] at hctl
    split at hctl
    · obtain ⟨hback, htunnel⟩ := hinv.tunnelMap other ctl hctl tunId place hlookup
      refine ⟨hback, fun hcontrol => ?_⟩
      rcases Finset.mem_insert.mp hcontrol with hsame | hbefore
      · obtain rfl := Obj.control.inj hsame
        omega
      · exact Finset.mem_insert_of_mem (htunnel hbefore)
    · rw [List.getElem?_singleton] at hctl
      split at hctl
      · obtain rfl := Option.some.inj hctl
        simp at hlookup
      · cases hctl
  · intro place hplace
    obtain ⟨hpolled, hacceptor⟩ := hinv.polled place hplace
    exact ⟨hpolled, Finset.mem_insert_of_mem hacceptor⟩

/-- `handleNewTunnelReq` up to its end, when the local variable goes. -/
def withTunnel (s : Owners) (index : Nat) (tunId : Str) : Owners :=
  { s with
    controls := s.controls.modify index fun ctl =>
      { ctl with tunnelMap := emplace ctl.tunnelMap tunId s.tunnels.length }
    tunnels := s.tunnels ++ [{ tunId := tunId, ctl := index }]
    alive := insert (.tunnel s.tunnels.length) (insert (.acceptor s.tunnels.length) s.alive)
    polled := s.polled ++ [s.tunnels.length] }

section WithTunnel

variable {tunId : Str}

theorem handleNewTunnelReq_cases (hstep : s.handleNewTunnelReq index tunId = some s') :
    ∃ ctl, s.controls[index]? = some ctl ∧ s.controlMap.lookup ctl.ctlId = some index ∧
      s' = (s.withTunnel index tunId).settle := by
  unfold handleNewTunnelReq at hstep
  cases hctl : s.controls[index]? with
  | none => simp [hctl] at hstep
  | some ctl =>
      simp only [hctl, Option.ite_none_right_eq_some, Option.some.injEq] at hstep
      exact ⟨ctl, rfl, hstep.1, hstep.2.symm⟩

theorem ctlId_withTunnel (other : Nat) :
    (s.withTunnel index tunId).controls[other]?.map ControlObj.ctlId =
      s.controls[other]?.map ControlObj.ctlId := by
  simp only [withTunnel, List.getElem?_modify]
  cases s.controls[other]? with
  | none => rfl
  | some ctl =>
      by_cases hother : index = other
      · simp [hother]
      · simp [hother]

theorem ctl_withTunnel_of_lt (hplace : place < s.tunnels.length) :
    (s.withTunnel index tunId).tunnels[place]? = s.tunnels[place]? :=
  List.getElem?_append_left hplace

/-- What `tunnel_map_`s lead to once the new tunnel has been offered to one of them. -/
theorem lookup_withTunnel {other : Nat} {ctl : ControlObj} {found : Str}
    (hctl : (s.withTunnel index tunId).controls[other]? = some ctl)
    (hlookup : ctl.tunnelMap.lookup found = some place) :
    (∃ before, s.controls[other]? = some before ∧ before.tunnelMap.lookup found = some place) ∨
      other = index ∧ place = s.tunnels.length := by
  simp only [withTunnel, List.getElem?_modify] at hctl
  obtain ⟨before, hbefore, rfl⟩ := Option.map_eq_some_iff.mp hctl
  by_cases hother : index = other
  · simp only [hother, if_true] at hlookup
    rcases lookup_of_emplace hlookup with hold | ⟨_, rfl⟩
    · exact Or.inl ⟨before, hbefore, hold⟩
    · exact Or.inr ⟨hother.symm, rfl⟩
  · simp only [hother, if_false] at hlookup
    exact Or.inl ⟨before, hbefore, hlookup⟩

theorem OwnerInv.newTunnelReq (hinv : OwnerInv s)
    (hstep : s.handleNewTunnelReq index tunId = some s') : OwnerInv s' := by
  obtain ⟨ctl, hctl, -, rfl⟩ := handleNewTunnelReq_cases hstep
  have hcontrol {other : Nat} (hother : .control other ∈ (s.withTunnel index tunId).alive) :
      .control other ∈ s.alive := by
    simpa [withTunnel] using hother
  refine ⟨supported_collect, ?_, ?_, ?_, ?_⟩
  · intro found other hlookup
    obtain ⟨halive, hname⟩ := hinv.controlMap found other hlookup
    refine ⟨mem_collect_of_root (control_mem_roots.mpr ⟨found, hlookup⟩) ?_, ?_⟩
    · exact Finset.mem_insert_of_mem (Finset.mem_insert_of_mem halive)
    · exact (ctlId_withTunnel other).trans hname
  · intro other hother
    exact hinv.present other (hcontrol (collect_subset hother))
  · intro other ctl' hctl' found place hlookup
    have hheld : .tunnel place ∈ (s.withTunnel index tunId).holds (.control other) :=
      mem_holds_control.mpr ⟨ctl', found, place, hctl', hlookup, rfl⟩
    rcases lookup_withTunnel hctl' hlookup with ⟨before, hbefore, hold⟩ | ⟨rfl, rfl⟩
    · obtain ⟨hback, htunnel⟩ := hinv.tunnelMap other before hbefore found place hold
      have hplace : place < s.tunnels.length := by
        obtain ⟨tun, htun, _⟩ := Option.map_eq_some_iff.mp hback
        exact (List.getElem?_eq_some_iff.mp htun).1
      refine ⟨?_, fun halive => mem_collect_of_held halive hheld ?_⟩
      · change ((s.withTunnel index tunId).tunnels[place]?).map TunnelObj.ctl = some other
        rw [ctl_withTunnel_of_lt hplace]
        exact hback
      · exact Finset.mem_insert_of_mem (Finset.mem_insert_of_mem
          (htunnel (hcontrol (collect_subset halive))))
    · -- the map took the new tunnel
      refine ⟨?_, fun halive => mem_collect_of_held halive hheld (Finset.mem_insert_self _ _)⟩
      change ((s.tunnels ++ [TunnelObj.mk tunId other [] []])[s.tunnels.length]?).map
        TunnelObj.ctl = some other
      rw [List.getElem?_concat_length]
      rfl
  · intro place hplace
    have hkept (hpolled : place ∈ (s.withTunnel index tunId).polled)
        (halive : .acceptor place ∈ (s.withTunnel index tunId).alive) :
        place ∈ (s.withTunnel index tunId).settle.polled ∧
          .acceptor place ∈ (s.withTunnel index tunId).settle.alive :=
      ⟨hpolled, mem_collect_of_root (acceptor_mem_roots.mpr hpolled) halive⟩
    by_cases hnew : place = s.tunnels.length
    · subst hnew
      apply hkept
      · simp [withTunnel]
      · simp [withTunnel]
    · have hlength : (s.withTunnel index tunId).settle.tunnels.length = s.tunnels.length + 1 :=
        List.length_append
      obtain ⟨hpolled, hacceptor⟩ := hinv.polled place (by omega)
      apply hkept (List.mem_append_left _ hpolled)
      exact Finset.mem_insert_of_mem (Finset.mem_insert_of_mem hacceptor)

end WithTunnel

/-- What does not change a tunnel's `ctl_` changes no owner. -/
theorem OwnerInv.mapTunnel (hinv : OwnerInv s) (update : TunnelObj → TunnelObj)
    (hkeeps : ∀ tun, (update tun).ctl = tun.ctl) (place : Nat) (notified : List Nat) :
    OwnerInv { s.mapTunnel place update with notified := notified } := by
  have hctl (other : Nat) : (s.tunnels.modify place update)[other]?.map TunnelObj.ctl =
      s.tunnels[other]?.map TunnelObj.ctl := by
    rw [List.getElem?_modify]
    cases s.tunnels[other]? with
    | none => rfl
    | some tun =>
        by_cases hother : place = other
        · simp [hother, hkeeps]
        · simp [hother]
  refine ⟨?_, hinv.controlMap, hinv.present, ?_, ?_⟩
  · apply hinv.supported.mono
    · exact fun _ _ hroot => hroot
    · intro owner _ item _ hheld
      cases owner with
      | control other => exact hheld
      | acceptor other => exact hheld
      | tunnel other =>
          obtain ⟨tun, htun, hitem⟩ := mem_holds_tunnel.mp hheld
          have hsame := hctl other
          rw [htun, Option.map_some, Option.map_eq_some_iff] at hsame
          obtain ⟨tun', htun', hback⟩ := hsame
          refine mem_holds_tunnel.mpr ⟨tun', htun', ?_⟩
          rw [hback]
          exact hitem
  · intro other ctl hother tunId found hlookup
    obtain ⟨hback, htunnel⟩ := hinv.tunnelMap other ctl hother tunId found hlookup
    exact ⟨(hctl found).trans hback, htunnel⟩
  · intro found hfound
    simp only [Owners.mapTunnel, List.length_modify] at hfound
    exact hinv.polled found hfound

theorem OwnerInv.newPublicConn (hinv : OwnerInv s) {acceptFd : Fd}
    (hstep : s.newPublicConnHandler index acceptFd = some s') : OwnerInv s' := by
  unfold newPublicConnHandler at hstep
  cases htun : s.tunnels[index]? with
  | none => simp [htun] at hstep
  | some tun =>
      simp only [htun, Option.ite_none_left_eq_some] at hstep
      obtain ⟨_, hstep⟩ := hstep
      cases hfree : tun.freeProxyConns.getLast? with
      | some id =>
          simp only [hfree, Option.some.injEq] at hstep
          subst hstep
          exact hinv.mapTunnel (fun tun => { tun with
            freeProxyConns := tun.freeProxyConns.dropLast }) (fun _ => rfl) index s.notified
      | none =>
          simp only [hfree, Option.some.injEq] at hstep
          subst hstep
          exact hinv.mapTunnel (fun tun => { tun with
            undealPublicFds := tun.undealPublicFds ++ [acceptFd] }) (fun _ => rfl) index _

theorem OwnerInv.step {event : OwnerEvent} (hinv : OwnerInv s) (hlaw : ClosesEmpty s event)
    (hstep : Owners.step s event = some s') : OwnerInv s' := by
  cases event with
  | newCtlConn ctlId => exact hinv.newCtlConn hstep
  | newTunnelReq index tunId => exact hinv.newTunnelReq hstep
  | ctlConnClose index => exact hinv.ctlConnClose hlaw hstep
  | newPublicConn index acceptFd => exact hinv.newPublicConn hstep
  | freeProxyConn index id =>
      obtain rfl := Option.some.inj hstep
      exact hinv.mapTunnel (fun tun => { tun with freeProxyConns := tun.freeProxyConns ++ [id] })
        (fun _ => rfl) index s.notified

/-- A public connection reaches its tunnel through a registered acceptor. -/
theorem AcceptorsPresent.acceptsForPresent {event : OwnerEvent} (hpresent : AcceptorsPresent s)
    (hstep : Owners.step s event = some s') : AcceptsForPresent s event := by
  cases event with
  | newPublicConn index acceptFd =>
      intro tun htun
      simp only [Owners.step, newPublicConnHandler, htun, Option.ite_none_left_eq_some,
        not_or, not_not] at hstep
      exact hpresent index tun htun hstep.1.2 hstep.1.1
  | newCtlConn | newTunnelReq | ctlConnClose | freeProxyConn => trivial

/-- In a run every registered acceptor belongs to a `Control` that is present, and
every public connection is accepted for one, exactly when each control connection that
closes has no tunnel. -/
theorem acceptors_present_iff (events : List OwnerEvent) :
    (Visits Owners.step AcceptorsPresent {} events ∧
        Takes Owners.step AcceptsForPresent {} events) ↔
      Takes Owners.step ClosesEmpty {} events := by
  have hbad (s : Owners) (event : OwnerEvent) (s' : Owners) (hinv : OwnerInv s)
      (hstep : Owners.step s event = some s') (hnot : ¬ ClosesEmpty s event) :
      ¬ AcceptorsPresent s' := by
    cases event with
    | ctlConnClose index => exact hinv.not_acceptorsPresent hnot hstep
    | newCtlConn | newTunnelReq | newPublicConn | freeProxyConn => exact absurd trivial hnot
  have hvisits : Visits Owners.step AcceptorsPresent {} events ↔
      Takes Owners.step ClosesEmpty {} events :=
    visits_iff_takes (fun _ _ _ hinv hlaw hstep => OwnerInv.step hinv hlaw hstep)
      (fun _ hinv => OwnerInv.acceptorsPresent hinv) hbad ownerInv_init events
  rw [← hvisits]
  apply and_iff_left_of_imp
  intro hpresent before event middle next hinit hrun hstep
  have hmiddle := hpresent before middle ((List.prefix_append before [event]).trans hinit) hrun
  exact hmiddle.acceptsForPresent hstep

/-- A control connection with one tunnel closes, then a public connection arrives. -/
def sampleAbandoned : List OwnerEvent :=
  [.newCtlConn [65], .newTunnelReq 0 [66], .ctlConnClose 0, .newPublicConn 0 5]

/-- `control_map_` is empty and nothing has been destroyed: descriptor 5 is accepted,
waits, and a notification is sent over the closed connection. -/
theorem not_acceptors_present :
    ¬ (∀ events, Visits Owners.step AcceptorsPresent {} events ∧
      Takes Owners.step AcceptsForPresent {} events) ∧
    (run Owners.step {} sampleAbandoned).map
      (fun s => (s.controlMap.keys, s.alive.card, s.notified,
        s.tunnels.map TunnelObj.undealPublicFds)) = some ([], 3, [0], [[5]]) := by
  refine ⟨fun hclaim => ?_, by decide⟩
  have htakes := (hclaim sampleAbandoned).2
  obtain ⟨middle, hmiddle⟩ := Option.isSome_iff_exists.mp
    (show (run Owners.step {} (sampleAbandoned.take 3)).isSome = true by decide)
  obtain ⟨next, hnext⟩ := Option.isSome_iff_exists.mp
    (show (run Owners.step {} sampleAbandoned).isSome = true by decide)
  have hlast : Owners.step middle (.newPublicConn 0 5) = some next := by
    rw [← run_concat hmiddle]
    exact hnext
  have hstate : (run Owners.step {} (sampleAbandoned.take 3)).map
      (fun s => (s.controlMap.keys, s.tunnels.map TunnelObj.ctl)) = some ([], [0]) := by decide
  rw [hmiddle, Option.map_some, Option.some.injEq, Prod.mk.injEq] at hstate
  obtain ⟨tun, htun⟩ : ∃ tun, middle.tunnels[0]? = some tun := by
    cases htunnels : middle.tunnels with
    | nil => simp [htunnels] at hstate
    | cons tun rest => exact ⟨tun, rfl⟩
  obtain ⟨ctlId, hlookup⟩ := htakes (sampleAbandoned.take 3) (.newPublicConn 0 5) middle next
    (List.prefix_refl _) hmiddle hlast tun htun
  have hmem : ctlId ∈ middle.controlMap.keys :=
    AList.mem_keys.mp (AList.lookup_isSome.mp (by rw [hlookup]; rfl))
  rw [hstate.1] at hmem
  cases hmem

end Owners

end CProxy
