import CProxy.Conn.Session
import CProxy.Foundation.Pipe
import CProxy.Foundation.Run

/-! # Relaying through a pipe

`PublicConn::handleRead`, `LocalConn::handleRead` and the forwarding half of
`ProxyConn::handleRead` move bytes with two `splice` calls and a pipe between
them. The second call can move less than it is asked for, or nothing.
-/

namespace CProxy

open Foundation

/-- What the two `splice` calls of one `handleRead` return. -/
inductive Spliced where
  /-- The first call returns -1. -/
  | failed
  /-- The first call returns 0. -/
  | ended
  /-- The first call moves `bytes`; the second moves `count` of as many, or returns -1. -/
  | moved (bytes : List UInt8) (count : Option Nat)
  deriving DecidableEq

namespace Spliced

/-- The second call moves all that it is asked for. -/
def Full : Spliced → Prop
  | moved bytes count => count = some bytes.length
  | _ => True

instance (spliced : Spliced) : Decidable spliced.Full :=
  match spliced with
  | failed => isTrue trivial
  | ended => isTrue trivial
  | moved bytes count => inferInstanceAs (Decidable (count = some bytes.length))

/-- There is no more input. -/
def Dry : Spliced → Prop
  | moved .. => False
  | _ => True

end Spliced

/-- The call with which the end of a stream is reported to the tunnel. -/
inductive Report where
  | shutdownFromPublic (proxyId : Wire.Str) (tranCount : Nat)
  | shutdownFromLocal (proxyId : Wire.Str) (tranCount : Nat)
  deriving DecidableEq

/-- A `PublicConn` or `LocalConn` and the pipe to its proxy connection. -/
structure EdgeRelay where
  proxyId : Wire.Str
  tranCount : Int := 0
  closing : Bool := false
  pipe : Pipe UInt8 := {}
  reports : List Report := []
  deriving DecidableEq

/-- The part that `PublicConn::handleRead` and `LocalConn::handleRead` share. -/
def EdgeRelay.handleRead (report : Wire.Str → Nat → Report) (s : EdgeRelay) :
    Spliced → Option EdgeRelay
  | .failed => some s
  | .ended =>
      -- a second end of input splices nothing
      if s.closing then some s
      else some { s with
        reports := s.reports ++ [report s.proxyId (uint32 s.tranCount)]
        closing := true }
  | .moved bytes count =>
      -- nothing follows the end of input
      if s.closing ∨ ¬ SpliceLen bytes.length then none
      else
        let s := { s with pipe := s.pipe.fill bytes }
        match count with
        | none => some s
        | some count =>
            if count = 0 ∨ bytes.length < count then none
            -- a sum beyond `int` is undefined
            else if s.tranCount + count > intMax then none
            else some { s with
              pipe := s.pipe.drain count
              tranCount := int32 (s.tranCount + count) }

/-- `PublicConn::handleRead`. -/
def PublicConn.handleRead : EdgeRelay → Spliced → Option EdgeRelay :=
  EdgeRelay.handleRead .shutdownFromPublic

/-- `LocalConn::handleRead`. -/
def LocalConn.handleRead : EdgeRelay → Spliced → Option EdgeRelay :=
  EdgeRelay.handleRead .shutdownFromLocal

/-- A `ProxyConn` and the pipe to the connection it serves. -/
structure ProxyRelay where
  conn : ProxyConn
  inBufferEmpty : Bool := false
  pipe : Pipe UInt8 := {}
  deriving DecidableEq

/-- What happens to a `ProxyConn` in a session. -/
inductive RelayEvent where
  | read (spliced : Spliced)
  /-- The far end announces its total. -/
  | announce (tranCount : Nat)
  /-- The connection served has ended its stream. -/
  | endLocal
  deriving DecidableEq

namespace ProxyRelay

/-- The half of `ProxyConn::handleRead` that forwards. -/
def handleRead (s : ProxyRelay) : Spliced → Option ProxyRelay
  | .failed => some s
  | .ended => some { s with inBufferEmpty := true }
  | .moved bytes count =>
      if ¬ SpliceLen bytes.length then none
      else
        let s := { s with pipe := s.pipe.fill bytes }
        match count with
        | none => some s
        | some count =>
            if count = 0 ∨ bytes.length < count then none
            -- a sum beyond `int` is undefined
            else if s.conn.recvCount + count > intMax then none
            else
              let conn := s.conn.incrRecvCount count
              some { s with
                pipe := s.pipe.drain count
                conn := if conn.recvCount = conn.theoreticalTotalRecvCount then
                  conn.shutdownWhenComplete.1 else conn }

/-- The handlers that run while the connection is started. -/
def step (s : ProxyRelay) : RelayEvent → Option ProxyRelay
  | .read spliced => if s.conn.isStart then handleRead s spliced else none
  | .announce tranCount =>
      some { s with
        conn := (s.conn.incrTheoreticalTotalRecvCount tranCount).shutdownWhenComplete.1 }
  | .endLocal => some { s with conn := s.conn.shutdownFromLocal.1 }

end ProxyRelay

/-! ## From a public or local connection -/

section Edge

variable {report : Wire.Str → Nat → Report} {s s' : EdgeRelay} {spliced : Spliced}

/-- What is counted is what has reached the proxy connection. -/
structure EdgeRelay.Counted (s : EdgeRelay) : Prop where
  conserved : s.pipe.Conserved
  tranCount : s.tranCount = s.pipe.given.length
  bounded : s.tranCount ≤ intMax

theorem EdgeRelay.counted_new (proxyId : Wire.Str) :
    EdgeRelay.Counted { proxyId := proxyId } where
  conserved := Pipe.conserved_empty
  tranCount := rfl
  bounded := (by decide : (0 : Int) ≤ intMax)

theorem EdgeRelay.Counted.uint32_tranCount (hcounted : s.Counted) :
    uint32 s.tranCount = s.pipe.given.length := by
  have hbounded := hcounted.bounded
  have hvalue : (uint32 s.tranCount : Int) = s.tranCount := by
    apply uint32_of_range
    · rw [hcounted.tranCount]
      exact Int.natCast_nonneg _
    · unfold intMax at hbounded
      omega
  rw [hcounted.tranCount] at hvalue ⊢
  exact_mod_cast hvalue

/-- The ways a `handleRead` goes. -/
inductive EdgeRelay.Reads (report : Wire.Str → Nat → Report) (s : EdgeRelay) :
    Spliced → EdgeRelay → Prop
  | failed : Reads report s .failed s
  | ended (hopen : s.closing = false) : Reads report s .ended { s with
      reports := s.reports ++ [report s.proxyId (uint32 s.tranCount)]
      closing := true }
  | endedAgain (hclosing : s.closing = true) : Reads report s .ended s
  | stuck (bytes : List UInt8) (hopen : s.closing = false) (hbytes : bytes ≠ []) :
      Reads report s (.moved bytes none) { s with pipe := s.pipe.fill bytes }
  | moved (bytes : List UInt8) (count : Nat) (hopen : s.closing = false) (hbytes : bytes ≠ [])
      (hcount : count ≤ bytes.length) (hfits : s.tranCount + count ≤ intMax) :
      Reads report s (.moved bytes (some count)) { s with
        pipe := (s.pipe.fill bytes).drain count
        tranCount := int32 (s.tranCount + count) }

theorem EdgeRelay.reads_of_handleRead
    (hread : EdgeRelay.handleRead report s spliced = some s') : Reads report s spliced s' := by
  cases spliced with
  | failed =>
      obtain rfl := Option.some.inj hread
      exact .failed
  | ended =>
      simp only [EdgeRelay.handleRead] at hread
      split at hread
      · next hclosing =>
          obtain rfl := Option.some.inj hread
          exact .endedAgain hclosing
      · next hopen =>
          obtain rfl := Option.some.inj hread
          exact .ended (Bool.not_eq_true _ ▸ hopen)
  | moved bytes count =>
      simp only [EdgeRelay.handleRead] at hread
      split at hread
      · cases hread
      · next hguard =>
          push Not at hguard
          have hopen : s.closing = false := Bool.not_eq_true _ ▸ hguard.1
          have hbytes : bytes ≠ [] := List.length_pos_iff.mp hguard.2.1
          cases count with
          | none =>
              obtain rfl := Option.some.inj hread
              exact .stuck bytes hopen hbytes
          | some count =>
              simp only at hread
              split at hread
              · cases hread
              · next hcount =>
                  split at hread
                  · cases hread
                  · next hfits =>
                      obtain rfl := Option.some.inj hread
                      push Not at hcount
                      exact .moved bytes count hopen hbytes hcount.2 (not_lt.mp hfits)

theorem EdgeRelay.Counted.step (hcounted : s.Counted)
    (hread : EdgeRelay.handleRead report s spliced = some s') : s'.Counted := by
  cases EdgeRelay.reads_of_handleRead hread with
  | failed | endedAgain => exact hcounted
  | ended => exact { hcounted with }
  | stuck bytes => exact { hcounted with conserved := hcounted.conserved.fill bytes }
  | moved bytes count hopen hbytes hcount hfits =>
      have hexact : int32 (s.tranCount + count) = s.tranCount + count := by
        apply int32_of_range _ hfits
        rw [hcounted.tranCount]
        omega
      exact {
        conserved := (hcounted.conserved.fill bytes).drain count
        tranCount := by
          rw [hexact, hcounted.tranCount, Pipe.length_given_drain hcount, Int.natCast_add]
        bounded := by
          rw [hexact]
          exact hfits }

theorem EdgeRelay.proxyId_eq (hread : EdgeRelay.handleRead report s spliced = some s') :
    s'.proxyId = s.proxyId := by
  cases EdgeRelay.reads_of_handleRead hread with
  | failed | ended | endedAgain | stuck | moved => rfl

theorem EdgeRelay.closing_eq_false_iff (hread : EdgeRelay.handleRead report s spliced = some s') :
    s'.closing = false ↔ s.closing = false ∧ spliced ≠ .ended := by
  cases EdgeRelay.reads_of_handleRead hread with
  | failed => simp
  | ended => simp
  | endedAgain hclosing => simp [hclosing]
  | stuck bytes hopen | moved bytes count hopen => simp

/-- The pipe stays empty exactly when the second `splice` moves everything. -/
theorem EdgeRelay.held_eq_nil_iff (hread : EdgeRelay.handleRead report s spliced = some s') :
    s'.pipe.held = [] ↔ s.pipe.held = [] ∧ spliced.Full := by
  cases EdgeRelay.reads_of_handleRead hread with
  | failed | ended | endedAgain => simp [Spliced.Full]
  | stuck bytes hopen hbytes => simp [Spliced.Full, Pipe.fill_held_ne_nil hbytes]
  | moved bytes count hopen hbytes hcount =>
      rw [Pipe.drain_fill_held_eq_nil_iff hcount]
      simp [Spliced.Full]

/-- A report is made once, at the end of the input, and nothing moves after it. -/
structure EdgeRelay.Reported (report : Wire.Str → Nat → Report) (s : EdgeRelay) : Prop where
  opened : s.closing = false → s.reports = []
  closed : s.closing = true → s.reports = [report s.proxyId (uint32 s.tranCount)]

theorem EdgeRelay.Reported.step (hreported : s.Reported report)
    (hread : EdgeRelay.handleRead report s spliced = some s') : s'.Reported report := by
  cases EdgeRelay.reads_of_handleRead hread with
  | failed | endedAgain => exact hreported
  | ended hopen => exact ⟨nofun, fun _ => by rw [hreported.opened hopen, List.nil_append]⟩
  | stuck bytes hopen => exact ⟨hreported.opened, fun hclosing => by simp [hopen] at hclosing⟩
  | moved bytes count hopen =>
      exact ⟨hreported.opened, fun hclosing => by simp [hopen] at hclosing⟩

/-- A run in which the end of the input is reported. -/
theorem EdgeRelay.lossless_iff {proxyId : Wire.Str} {events : List Spliced} {final : EdgeRelay}
    (hrun : run (EdgeRelay.handleRead report) { proxyId := proxyId } events = some final)
    (hended : .ended ∈ events) :
    (final.reports = [report proxyId final.pipe.taken.length] ∧
        final.pipe.given = final.pipe.taken ∧ final.pipe.held = []) ↔
      ∀ spliced ∈ events, spliced.Full := by
  have hinit : EdgeRelay.Counted { proxyId := proxyId } ∧
      EdgeRelay.Reported report { proxyId := proxyId } ∧
        ({ proxyId := proxyId } : EdgeRelay).proxyId = proxyId :=
    ⟨EdgeRelay.counted_new proxyId, ⟨fun _ => rfl, nofun⟩, rfl⟩
  have hstep (s : EdgeRelay) (spliced : Spliced) (s' : EdgeRelay)
      (hs : s.Counted ∧ s.Reported report ∧ s.proxyId = proxyId)
      (hread : EdgeRelay.handleRead report s spliced = some s') :
      s'.Counted ∧ s'.Reported report ∧ s'.proxyId = proxyId :=
    ⟨hs.1.step hread, hs.2.1.step hread, (EdgeRelay.proxyId_eq hread).trans hs.2.2⟩
  obtain ⟨hcounted, hreported, hname⟩ := run_invariant hstep hinit hrun
  have hclosing : final.closing = true := by
    have hopen := clean_iff_forall (fun _ _ _ _ _ => trivial)
      (fun s spliced s' _ hread => EdgeRelay.closing_eq_false_iff hread) trivial hrun
    rw [← Bool.not_eq_false, hopen]
    rintro ⟨_, hnone⟩
    exact hnone _ hended rfl
  have hheld := clean_iff_forall (fun _ _ _ _ _ => trivial)
    (fun s spliced s' _ hread => EdgeRelay.held_eq_nil_iff hread) trivial hrun
  rw [hreported.closed hclosing, hcounted.uint32_tranCount, hname,
    hcounted.conserved.given_eq_iff]
  constructor
  · rintro ⟨_, hempty, _⟩
    exact (hheld.mp hempty).2
  · intro hfull
    have hempty := hheld.mpr ⟨rfl, hfull⟩
    rw [hcounted.conserved.given_eq_iff.mpr hempty]
    exact ⟨rfl, hempty, hempty⟩

end Edge

/-! ## From a proxy connection -/

namespace ProxyConn

variable {conn : ProxyConn}

/-- A handler that leaves the connection started leaves the bytes counted. -/
theorem recvCount_shutdownFromLocal (hstart : conn.shutdownFromLocal.1.isStart = true) :
    conn.isStart = true ∧ conn.shutdownFromLocal.1.recvCount = conn.recvCount := by
  unfold shutdownFromLocal at hstart ⊢
  split at hstart
  · cases hstart
  · next hhalf =>
      rw [if_neg hhalf]
      exact ⟨hstart, rfl⟩

theorem recvCount_shutdownWhenComplete (hstart : conn.shutdownWhenComplete.1.isStart = true) :
    conn.isStart = true ∧ conn.shutdownWhenComplete.1.recvCount = conn.recvCount := by
  unfold shutdownWhenComplete shutdownFromRemote at hstart ⊢
  split at hstart
  · next hcount =>
      rw [if_pos hcount]
      exact ⟨hstart, rfl⟩
  · next hcount =>
      rw [if_neg hcount]
      dsimp only at hstart ⊢
      split at hstart
      · cases hstart
      · next hhalf =>
          rw [if_neg hhalf]
          exact ⟨hstart, rfl⟩

theorem ite_shutdownWhenComplete (conn : ProxyConn) :
    (if conn.recvCount = conn.theoreticalTotalRecvCount then conn.shutdownWhenComplete.1
      else conn) = conn.shutdownWhenComplete.1 := by
  split
  · rfl
  · next hcount => rw [shutdownWhenComplete_of_ne hcount]

end ProxyConn

section Proxy

variable {s s' : ProxyRelay} {event : RelayEvent}

/-- While the connection is started, what is counted is what has reached its peer. -/
structure ProxyRelay.Counted (s : ProxyRelay) : Prop where
  conserved : s.pipe.Conserved
  recvCount : s.conn.isStart = true → s.conn.recvCount = s.pipe.given.length

theorem ProxyRelay.counted_new {conn : ProxyConn} (hcount : conn.recvCount = 0) :
    ProxyRelay.Counted { conn := conn } where
  conserved := Pipe.conserved_empty
  recvCount := fun _ => hcount

/-- The ways a handler goes. -/
inductive ProxyRelay.Steps (s : ProxyRelay) : RelayEvent → ProxyRelay → Prop
  | dry (spliced : Spliced) (hstart : s.conn.isStart = true) (hdry : spliced.Dry) (empty : Bool) :
      Steps s (.read spliced) { s with inBufferEmpty := empty }
  | stuck (bytes : List UInt8) (hstart : s.conn.isStart = true) (hbytes : bytes ≠ []) :
      Steps s (.read (.moved bytes none)) { s with pipe := s.pipe.fill bytes }
  | moved (bytes : List UInt8) (count : Nat) (hstart : s.conn.isStart = true)
      (hcount : count ≤ bytes.length) (hfits : s.conn.recvCount + count ≤ intMax) :
      Steps s (.read (.moved bytes (some count))) { s with
        pipe := (s.pipe.fill bytes).drain count
        conn := (s.conn.incrRecvCount count).shutdownWhenComplete.1 }
  | announce (tranCount : Nat) : Steps s (.announce tranCount) { s with
      conn := (s.conn.incrTheoreticalTotalRecvCount tranCount).shutdownWhenComplete.1 }
  | endLocal : Steps s .endLocal { s with conn := s.conn.shutdownFromLocal.1 }

theorem ProxyRelay.steps_of_handleRead {spliced : Spliced} (hstart : s.conn.isStart = true)
    (hread : ProxyRelay.handleRead s spliced = some s') : Steps s (.read spliced) s' := by
  cases spliced with
  | failed =>
      obtain rfl := Option.some.inj hread
      exact .dry .failed hstart trivial s.inBufferEmpty
  | ended =>
      obtain rfl := Option.some.inj hread
      exact .dry .ended hstart trivial true
  | moved bytes count =>
      simp only [ProxyRelay.handleRead] at hread
      split at hread
      · cases hread
      · next hbytes =>
          push Not at hbytes
          cases count with
          | none =>
              obtain rfl := Option.some.inj hread
              exact .stuck bytes hstart (List.length_pos_iff.mp hbytes.1)
          | some count =>
              simp only at hread
              split at hread
              · cases hread
              · next hcount =>
                  split at hread
                  · cases hread
                  · next hfits =>
                      obtain rfl := Option.some.inj hread
                      push Not at hcount
                      rw [ProxyConn.ite_shutdownWhenComplete]
                      exact .moved bytes count hstart hcount.2 (not_lt.mp hfits)

theorem ProxyRelay.steps_of_step (hstep : ProxyRelay.step s event = some s') :
    Steps s event s' := by
  cases event with
  | read spliced =>
      simp only [ProxyRelay.step, Option.ite_none_right_eq_some] at hstep
      exact ProxyRelay.steps_of_handleRead hstep.1 hstep.2
  | announce tranCount =>
      obtain rfl := Option.some.inj hstep
      exact .announce tranCount
  | endLocal =>
      obtain rfl := Option.some.inj hstep
      exact .endLocal

theorem ProxyRelay.Counted.step (hcounted : s.Counted)
    (hstep : ProxyRelay.step s event = some s') : s'.Counted := by
  cases ProxyRelay.steps_of_step hstep with
  | dry => exact { hcounted with }
  | stuck bytes => exact { hcounted with conserved := hcounted.conserved.fill bytes }
  | moved bytes count hstart hcount hfits =>
      refine ⟨(hcounted.conserved.fill bytes).drain count, fun hkept => ?_⟩
      have hbefore := hcounted.recvCount hstart
      have hexact : int32 (s.conn.recvCount + count) = s.conn.recvCount + count := by
        apply int32_of_range _ hfits
        rw [hbefore]
        omega
      rw [(ProxyConn.recvCount_shutdownWhenComplete hkept).2, Pipe.length_given_drain hcount,
        Int.natCast_add, ← hbefore, ← hexact]
      rfl
  | announce tranCount =>
      refine ⟨hcounted.conserved, fun hkept => ?_⟩
      obtain ⟨hstart, hsame⟩ := ProxyConn.recvCount_shutdownWhenComplete hkept
      rw [hsame, ProxyConn.incrTheoreticalTotalRecvCount_recvCount]
      exact hcounted.recvCount (ProxyConn.incrTheoreticalTotalRecvCount_isStart _ _ ▸ hstart)
  | endLocal =>
      refine ⟨hcounted.conserved, fun hkept => ?_⟩
      obtain ⟨hstart, hsame⟩ := ProxyConn.recvCount_shutdownFromLocal hkept
      exact hsame.trans (hcounted.recvCount hstart)

/-- Every `splice` of the event that is to empty the pipe empties it. -/
def RelayEvent.Full : RelayEvent → Prop
  | read spliced => spliced.Full
  | _ => True

theorem ProxyRelay.held_eq_nil_iff (hstep : ProxyRelay.step s event = some s') :
    s'.pipe.held = [] ↔ s.pipe.held = [] ∧ event.Full := by
  cases ProxyRelay.steps_of_step hstep with
  | dry spliced hstart hdry =>
      cases spliced with
      | failed | ended => simp [RelayEvent.Full, Spliced.Full]
      | moved => exact hdry.elim
  | stuck bytes hstart hbytes =>
      simp [RelayEvent.Full, Spliced.Full, Pipe.fill_held_ne_nil hbytes]
  | moved bytes count hstart hcount =>
      rw [Pipe.drain_fill_held_eq_nil_iff hcount]
      simp [RelayEvent.Full, Spliced.Full]
  | announce | endLocal => simp [RelayEvent.Full]

/-- A run that finds no more input. -/
theorem ProxyRelay.lossless_iff {conn : ProxyConn} {events : List RelayEvent} {spliced : Spliced}
    {final : ProxyRelay} (hcount : conn.recvCount = 0) (hdry : spliced.Dry)
    (hrun : run ProxyRelay.step { conn := conn } (events ++ [.read spliced]) = some final) :
    (final.pipe.given = final.pipe.taken ∧
        final.conn.recvCount = final.pipe.taken.length ∧ final.pipe.held = []) ↔
      ∀ event ∈ events, event.Full := by
  have hcounted := run_invariant (fun s event s' (hs : s.Counted) hstep => hs.step hstep)
    (ProxyRelay.counted_new hcount) hrun
  have hheld := clean_iff_forall (fun _ _ _ _ _ => trivial)
    (fun s event s' _ hstep => ProxyRelay.held_eq_nil_iff hstep) trivial hrun
  have hstart : final.conn.isStart = true := by
    rw [run_append, Option.bind_eq_some_iff] at hrun
    obtain ⟨middle, _, hlast⟩ := hrun
    obtain ⟨next, hnext, hdone⟩ := run_cons_eq_some.mp hlast
    obtain rfl := Option.some.inj hdone
    cases ProxyRelay.steps_of_step hnext with
    | dry _ hstart => exact hstart
    | stuck | moved => exact hdry.elim
  have hlast : (RelayEvent.read spliced).Full := by
    cases spliced with
    | failed | ended => trivial
    | moved => exact hdry.elim
  simp only [List.forall_mem_append, List.forall_mem_singleton, hlast, and_true, true_and] at hheld
  rw [hcounted.recvCount hstart, hcounted.conserved.given_eq_iff, ← hheld]
  constructor
  · exact fun hempty => hempty.1
  · intro hempty
    rw [hcounted.conserved.given_eq_iff.mpr hempty]
    exact ⟨hempty, rfl, hempty⟩

end Proxy

/-! ## Full moves -/

/-- The connection of the tunnel's model, whose moves are all full. -/
def EdgeRelay.edgeConn (s : EdgeRelay) (fd : Fd) : EdgeConn where
  fd := fd
  proxyId := s.proxyId
  tranCount := s.tranCount
  closing := s.closing
  received := s.pipe.taken

/-- Through an empty pipe a full move is the relay of the tunnel's model. -/
theorem EdgeRelay.full_relay {report : Wire.Str → Nat → Report} {s s' : EdgeRelay}
    {bytes : List UInt8} (hheld : s.pipe.held = []) (fd : Fd)
    (hread : EdgeRelay.handleRead report s (.moved bytes (some bytes.length)) = some s') :
    s'.edgeConn fd = (s.edgeConn fd).relay bytes ∧ s'.pipe.given = s.pipe.given ++ bytes ∧
      s'.pipe.held = [] := by
  cases EdgeRelay.reads_of_handleRead hread with
  | moved =>
      rw [Pipe.drain_fill hheld]
      exact ⟨rfl, rfl, rfl⟩

/-- The end of the tunnel's model that a proxy connection and its pipe make up. -/
def ProxyRelay.toEnd (s : ProxyRelay) (peer : EdgeConn) : End where
  proxy := s.conn
  peer := some { peer with written := s.pipe.given }

theorem ProxyRelay.full_forward {s s' : ProxyRelay} {bytes : List UInt8}
    (hheld : s.pipe.held = []) (peer : EdgeConn)
    (hstep : ProxyRelay.step s (.read (.moved bytes (some bytes.length))) = some s') :
    s'.toEnd peer = ((s.toEnd peer).forward bytes).settle ∧ s'.pipe.held = [] := by
  cases ProxyRelay.steps_of_step hstep with
  | dry _ _ hdry => exact hdry.elim
  | moved =>
      rw [Pipe.drain_fill hheld]
      exact ⟨rfl, rfl⟩

/-! ## Both kinds of relay -/

/-- Whenever a public or local connection reports its end, its report and the bytes
on the proxy connection are those it read, and whenever a proxy connection finds no
more input, the bytes at its peer and in its counter are those it took, exactly when
the second `splice` has moved each time all that the first one brought. -/
theorem relay_lossless_iff (proxyId : Wire.Str) (events : List Spliced) (conn : ProxyConn)
    (relayed : List RelayEvent) :
    (∀ final, run PublicConn.handleRead { proxyId := proxyId } events = some final →
      .ended ∈ events →
      ((final.reports = [.shutdownFromPublic proxyId final.pipe.taken.length] ∧
          final.pipe.given = final.pipe.taken ∧ final.pipe.held = []) ↔
        ∀ spliced ∈ events, spliced.Full)) ∧
    (∀ final, run LocalConn.handleRead { proxyId := proxyId } events = some final →
      .ended ∈ events →
      ((final.reports = [.shutdownFromLocal proxyId final.pipe.taken.length] ∧
          final.pipe.given = final.pipe.taken ∧ final.pipe.held = []) ↔
        ∀ spliced ∈ events, spliced.Full)) ∧
    ∀ spliced final, conn.recvCount = 0 → spliced.Dry →
      run ProxyRelay.step { conn := conn } (relayed ++ [.read spliced]) = some final →
      ((final.pipe.given = final.pipe.taken ∧
          final.conn.recvCount = final.pipe.taken.length ∧ final.pipe.held = []) ↔
        ∀ event ∈ relayed, event.Full) :=
  ⟨fun _ hrun hended => EdgeRelay.lossless_iff hrun hended,
    fun _ hrun hended => EdgeRelay.lossless_iff hrun hended,
    fun _ _ hcount hdry hrun => ProxyRelay.lossless_iff hcount hdry hrun⟩

/-- Two bytes are read in two rounds, and all arrive; so they do on the way back. -/
theorem relay_lossless_iff_sample :
    (∃ final, run PublicConn.handleRead { proxyId := [] }
        [.moved [1] (some 1), .failed, .moved [2] (some 1), .ended] = some final ∧
      final.reports = [.shutdownFromPublic [] 2] ∧ final.pipe.given = [1, 2]) ∧
    (∃ final, run LocalConn.handleRead { proxyId := [] }
        [.moved [1] (some 1), .failed, .moved [2] (some 1), .ended] = some final ∧
      final.reports = [.shutdownFromLocal [] 2] ∧ final.pipe.given = [1, 2]) ∧
    ∃ final, run ProxyRelay.step { conn := { isStart := true } }
        ([.read (.moved [1, 2] (some 2))] ++ [.read .failed]) = some final ∧
      final.conn.recvCount = 2 ∧ final.pipe.given = [1, 2] := by
  obtain ⟨hpublic, hlocal, hproxy⟩ := relay_lossless_iff []
    [.moved [1] (some 1), .failed, .moved [2] (some 1), .ended] { isStart := true }
    [.read (.moved [1, 2] (some 2))]
  refine ⟨⟨_, rfl, ?_⟩, ⟨_, rfl, ?_⟩, ⟨_, rfl, ?_⟩⟩
  · have hlossless := (hpublic _ rfl (by decide)).mpr (by decide)
    exact ⟨hlossless.1, hlossless.2.1⟩
  · have hlossless := (hlocal _ rfl (by decide)).mpr (by decide)
    exact ⟨hlossless.1, hlossless.2.1⟩
  · have hlossless := (hproxy .failed _ rfl trivial rfl).mpr (by
      simp [RelayEvent.Full, Spliced.Full])
    exact ⟨hlossless.2.1, hlossless.1⟩

/-- The destination takes one byte of two, then none: the report counts one byte,
which is all that arrives, and the rest stays in the pipe. On the other side a
session ends its input with a byte that is neither written nor counted. -/
theorem not_relay_lossless :
    ¬ (∀ proxyId events final,
      run PublicConn.handleRead { proxyId := proxyId } events = some final → .ended ∈ events →
        final.reports = [.shutdownFromPublic proxyId final.pipe.taken.length]) ∧
    ¬ (∀ proxyId events final,
      run LocalConn.handleRead { proxyId := proxyId } events = some final → .ended ∈ events →
        final.pipe.given = final.pipe.taken) ∧
    ¬ (∀ conn events spliced final, conn.recvCount = 0 → spliced.Dry →
      run ProxyRelay.step { conn := conn } (events ++ [.read spliced]) = some final →
        final.conn.recvCount = final.pipe.taken.length) := by
  refine ⟨fun hall => ?_, fun hall => ?_, fun hall => ?_⟩
  · have hreport := hall [] [.moved [1, 2] (some 1), .moved [3] none, .ended] _ rfl (by decide)
    exact absurd hreport (by decide)
  · have hgiven := hall [] [.moved [1, 2] (some 1), .moved [3] none, .ended] _ rfl (by decide)
    exact absurd hgiven (by decide)
  · have hcount := hall { isStart := true } [.read (.moved [1, 2] (some 1))] .failed _ rfl trivial
      rfl
    exact absurd hcount (by decide)

end CProxy
