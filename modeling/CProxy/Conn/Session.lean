import CProxy.Conn.ProxyConn
import CProxy.Foundation.Transfer

/-! # One end of a session

What holds of a started end and of the bytes on their way to it, and what the
handlers make of it. The lemmas are about either end: `conn` is the connection
at this end, `other` the one at the far end whose bytes arrive here.
-/

namespace CProxy

open Foundation Wire

/-- `theoretical_total_recv_count_` for an announcement heard or not. -/
def totalOf : Option Nat → Int
  | none => -1
  | some count => count

theorem totalOf_eq_natCast {total : Option Nat} {count : Nat} :
    totalOf total = count ↔ total = some count := by
  cases total with
  | none => simp [totalOf]
  | some heard => simp [totalOf]

namespace EdgeConn

/-- The bytes taken from the descriptor are counted, and the count has not overflowed. -/
structure Counted (conn : EdgeConn) : Prop where
  tranCount : conn.tranCount = conn.received.length
  bounded : conn.tranCount ≤ intMax

theorem Counted.uint32_tranCount {conn : EdgeConn} (hcounted : conn.Counted) :
    uint32 conn.tranCount = conn.received.length := by
  have hbounded := hcounted.bounded
  have hvalue : (uint32 conn.tranCount : Int) = conn.tranCount := by
    apply uint32_of_range
    · rw [hcounted.tranCount]
      exact Int.natCast_nonneg _
    · unfold intMax at hbounded
      omega
  rw [hcounted.tranCount] at hvalue ⊢
  exact_mod_cast hvalue

/-- `PublicConn::handleRead` and `LocalConn::handleRead` on data, seen from the connection. -/
def relay (conn : EdgeConn) (bytes : List UInt8) : EdgeConn :=
  { conn with
    tranCount := int32 (conn.tranCount + bytes.length)
    received := conn.received ++ bytes }

theorem Counted.relay {conn : EdgeConn} (hcounted : conn.Counted) {bytes : List UInt8}
    (hfits : conn.tranCount + bytes.length ≤ intMax) : (conn.relay bytes).Counted := by
  have hexact : (conn.relay bytes).tranCount = conn.tranCount + bytes.length := by
    apply int32_of_range _ hfits
    rw [hcounted.tranCount]
    omega
  constructor
  · rw [hexact, hcounted.tranCount]
    simp [EdgeConn.relay]
  · rw [hexact]
    exact hfits

theorem counted_new (fd : Fd) (proxyId : Str) :
    Counted { fd := fd, proxyId := proxyId } where
  tranCount := rfl
  bounded := (by decide : (0 : Int) ≤ intMax)

end EdgeConn

/-- The stream that arrives at an end, as a transfer. -/
def incoming (conn other : EdgeConn) (trailing flight : List UInt8) (notices : List Nat)
    (total : Option Nat) : Transfer UInt8 where
  source := other.received
  trailing := trailing
  sink := conn.written
  flight := flight
  closed := other.closing
  notices := notices
  total := total

/-- A started end whose completion check is still to be made. -/
structure Unsettled (side : End) (conn other : EdgeConn) (trailing flight : List UInt8)
    (notices : List Nat) (total : Option Nat) : Prop where
  peer : side.peer = some conn
  isStart : side.proxy.isStart = true
  peerConnFd : side.proxy.peerConnFd = some conn.fd
  recvCount : side.proxy.recvCount = conn.written.length
  theoretical : side.proxy.theoreticalTotalRecvCount = totalOf total
  halfClose : side.proxy.halfClose = conn.closing
  sound : (incoming conn other trailing flight notices total).Sound

/-- A started end between two handlers: `half_close_` tells that exactly one of
its directions has ended. -/
structure Active (side : End) (conn other : EdgeConn) (trailing flight : List UInt8)
    (notices : List Nat) (total : Option Nat) : Prop where
  peer : side.peer = some conn
  isStart : side.proxy.isStart = true
  peerConnFd : side.proxy.peerConnFd = some conn.fd
  recvCount : side.proxy.recvCount = conn.written.length
  theoretical : side.proxy.theoreticalTotalRecvCount = totalOf total
  halfClose : side.proxy.halfClose = true ↔
    conn.closing = true ∨ (incoming conn other trailing flight notices total).Complete
  unfinished : conn.closing = true → ¬ (incoming conn other trailing flight notices total).Complete
  sound : (incoming conn other trailing flight notices total).Sound

/-- An end that has gone back to idle mode after a session. -/
structure Resting (side : End) (conn other : EdgeConn) (trailing flight : List UInt8)
    (notices : List Nat) : Prop where
  peer : side.peer = some conn
  idle : side.proxy.Idle
  closing : conn.closing = true
  otherClosing : other.closing = true
  delivered : conn.written = other.received
  flight : flight = trailing
  notices : notices = []

/-- An end of a bound session, between two handlers. -/
def EndInv (side : End) (conn other : EdgeConn) (trailing flight : List UInt8)
    (notices : List Nat) : Prop :=
  (∃ total, Active side conn other trailing flight notices total) ∨
    Resting side conn other trailing flight notices

variable {side : End} {conn other : EdgeConn} {trailing flight : List UInt8}
variable {notices : List Nat} {total : Option Nat}

theorem End.active_start (side : End) (hidle : side.proxy.Idle) (fd : Fd) (proxyId : Str)
    {other : EdgeConn} {flight : List UInt8} {notices : List Nat}
    (hsound : (incoming { fd := fd, proxyId := proxyId } other [] flight notices none).Sound) :
    Active (side.start { fd := fd, proxyId := proxyId }) { fd := fd, proxyId := proxyId } other []
      flight notices none where
  peer := rfl
  isStart := rfl
  peerConnFd := rfl
  recvCount := hidle.recvCount
  theoretical := hidle.theoreticalTotalRecvCount
  halfClose := by simp [End.start, hidle.halfClose, Transfer.Complete, incoming]
  unfinished := by simp
  sound := hsound

/-! ## The completion check -/

namespace ProxyConn

theorem shutdownWhenComplete_of_ne {conn : ProxyConn}
    (hcount : conn.recvCount ≠ conn.theoreticalTotalRecvCount) :
    conn.shutdownWhenComplete = (conn, false) := by
  simp [shutdownWhenComplete, hcount]

theorem shutdownWhenComplete_of_eq {conn : ProxyConn}
    (hcount : conn.recvCount = conn.theoreticalTotalRecvCount) :
    conn.shutdownWhenComplete = conn.shutdownFromRemote := by
  simp [shutdownWhenComplete, hcount]

end ProxyConn

/-- What the completion check leaves. -/
def End.settle (side : End) : End := side.mapProxy fun conn => conn.shutdownWhenComplete.1

theorem End.settle_eq {side : End} {result : ProxyConn × Bool}
    (hresult : side.proxy.shutdownWhenComplete = result) :
    side.settle = { side with proxy := result.1 } := by
  simp only [End.settle, End.mapProxy, hresult]

namespace Unsettled

theorem complete_iff (hunsettled : Unsettled side conn other trailing flight notices total) :
    (incoming conn other trailing flight notices total).Complete ↔
      side.proxy.recvCount = side.proxy.theoreticalTotalRecvCount := by
  rw [hunsettled.recvCount, hunsettled.theoretical, @eq_comm _ (conn.written.length : Int),
    totalOf_eq_natCast]
  rfl

/-- Nothing happens while bytes or the announcement are missing. -/
theorem settle_waiting (hunsettled : Unsettled side conn other trailing flight notices total)
    (hcomplete : ¬ (incoming conn other trailing flight notices total).Complete) :
    side.proxy.shutdownWhenComplete = (side.proxy, false) ∧
      Active side conn other trailing flight notices total := by
  have hcount := mt hunsettled.complete_iff.mpr hcomplete
  refine ⟨ProxyConn.shutdownWhenComplete_of_ne hcount, ?_⟩
  exact { hunsettled with
    halfClose := by simp [hunsettled.halfClose, hcomplete]
    unfinished := fun _ => hcomplete }

/-- The remote direction ends first: the end stays started, half closed. -/
theorem settle_half (hunsettled : Unsettled side conn other trailing flight notices total)
    (hcomplete : (incoming conn other trailing flight notices total).Complete)
    (hopen : conn.closing = false) :
    side.proxy.shutdownWhenComplete.2 = false ∧
      Active side.settle conn other trailing flight notices total := by
  have hcount := hunsettled.complete_iff.mp hcomplete
  have hhalf : side.proxy.halfClose = false := hunsettled.halfClose.trans hopen
  have hresult : side.proxy.shutdownWhenComplete =
      ({ side.proxy with
          shutWr := side.proxy.shutWr ++ [side.proxy.peerConnFd]
          halfClose := true }, false) := by
    rw [ProxyConn.shutdownWhenComplete_of_eq hcount]
    simp [ProxyConn.shutdownFromRemote, hhalf]
  refine ⟨by rw [hresult], ?_⟩
  rw [End.settle_eq hresult]
  exact { hunsettled with
    halfClose := by simp [hcomplete]
    unfinished := by simp [hopen] }

/-- The remote direction ends last: the end is reset. -/
theorem settle_reset (hunsettled : Unsettled side conn other trailing flight notices total)
    (hcomplete : (incoming conn other trailing flight notices total).Complete)
    (hclosing : conn.closing = true) :
    side.proxy.shutdownWhenComplete.2 = true ∧
      Resting side.settle conn other trailing flight notices := by
  have hcount := hunsettled.complete_iff.mp hcomplete
  have hhalf : side.proxy.halfClose = true := hunsettled.halfClose.trans hclosing
  obtain ⟨hother, hsink, hflight, hnotices⟩ := hunsettled.sound.complete hcomplete
  have hresult : side.proxy.shutdownWhenComplete =
      (({ side.proxy with
          shutWr := side.proxy.shutWr ++ [side.proxy.peerConnFd] } : ProxyConn).resetConn, true) := by
    rw [ProxyConn.shutdownWhenComplete_of_eq hcount]
    simp [ProxyConn.shutdownFromRemote, hhalf]
  refine ⟨by rw [hresult], ?_⟩
  rw [End.settle_eq hresult]
  exact ⟨hunsettled.peer, ProxyConn.resetConn_idle _, hclosing, hother, hsink, hflight, hnotices⟩

/-- In every case the check leaves an end of a bound session. -/
theorem settle (hunsettled : Unsettled side conn other trailing flight notices total) :
    EndInv side.settle conn other trailing flight notices := by
  by_cases hcomplete : (incoming conn other trailing flight notices total).Complete
  · cases hclosing : conn.closing with
    | false => exact Or.inl ⟨total, (hunsettled.settle_half hcomplete hclosing).2⟩
    | true => exact Or.inr (hunsettled.settle_reset hcomplete hclosing).2
  · obtain ⟨hresult, hactive⟩ := hunsettled.settle_waiting hcomplete
    refine Or.inl ⟨total, ?_⟩
    rw [End.settle_eq hresult]
    exact hactive

/-- The check reports a reset exactly when it leaves the end idle. -/
theorem isFree_iff (hunsettled : Unsettled side conn other trailing flight notices total) :
    side.proxy.shutdownWhenComplete.2 = true ↔ side.settle.proxy.isStart = false := by
  by_cases hcomplete : (incoming conn other trailing flight notices total).Complete
  · cases hclosing : conn.closing with
    | false =>
        obtain ⟨hfree, hactive⟩ := hunsettled.settle_half hcomplete hclosing
        simp [hfree, hactive.isStart]
    | true =>
        obtain ⟨hfree, hresting⟩ := hunsettled.settle_reset hcomplete hclosing
        simp [hfree, hresting.idle.isStart]
  · obtain ⟨hresult, hactive⟩ := hunsettled.settle_waiting hcomplete
    simp [End.settle, End.mapProxy, hresult, hactive.isStart]

end Unsettled

/-! ## What the handlers do to an end -/

namespace Active

theorem complete_iff (hactive : Active side conn other trailing flight notices total) :
    (incoming conn other trailing flight notices total).Complete ↔
      side.proxy.recvCount = side.proxy.theoreticalTotalRecvCount := by
  rw [hactive.recvCount, hactive.theoretical, @eq_comm _ (conn.written.length : Int),
    totalOf_eq_natCast]
  rfl

theorem unsettled (hactive : Active side conn other trailing flight notices total)
    (hcomplete : ¬ (incoming conn other trailing flight notices total).Complete) :
    Unsettled side conn other trailing flight notices total :=
  { hactive with
    halfClose := by
      have hhalf := hactive.halfClose
      rw [or_iff_left hcomplete] at hhalf
      exact Bool.eq_iff_iff.mpr hhalf }

/-- Bytes that are still to come make the stream incomplete. What trails it is
there only behind a stream whose receiving end has closed its own direction. -/
theorem not_complete (hactive : Active side conn other trailing flight notices total)
    (htrailing : trailing = [] ∨ conn.closing = true) (hflight : flight ≠ []) :
    ¬ (incoming conn other trailing flight notices total).Complete := by
  intro hcomplete
  rcases htrailing with hnone | hclosing
  · exact hflight ((hactive.sound.complete hcomplete).2.2.1.trans hnone)
  · exact hactive.unfinished hclosing hcomplete

/-- `ProxyConn::handleRead` on data, up to the completion check. -/
theorem forward (hactive : Active side conn other trailing flight notices total)
    (htrailing : trailing = [] ∨ conn.closing = true) {count : Nat} (hpositive : 0 < count)
    (hcount : count ≤ flight.length) (hfits : side.proxy.recvCount + count ≤ intMax) :
    Unsettled (side.forward (flight.take count))
      { conn with written := conn.written ++ flight.take count } other trailing
      (flight.drop count) notices total := by
  have hlength : (flight.take count).length = count := List.length_take_of_le hcount
  have hflight : flight ≠ [] := by
    rintro rfl
    simp only [List.length_nil] at hcount
    omega
  have hunsettled := hactive.unsettled (hactive.not_complete htrailing hflight)
  constructor
  · simp [End.forward, hactive.peer]
  · exact hactive.isStart
  · exact hactive.peerConnFd
  · simp only [End.forward, ProxyConn.incrRecvCount, List.length_append, hlength]
    rw [int32_of_range _ hfits, hactive.recvCount, Int.natCast_add]
    rw [hactive.recvCount]
    omega
  · exact hactive.theoretical
  · exact hunsettled.halfClose
  · exact hactive.sound.deliver count

/-- An announcement is heard, up to the completion check. -/
theorem hear (hactive : Active side conn other trailing flight notices total)
    (hcounted : other.Counted) {count : Nat} {rest : List Nat} (hnotices : notices = count :: rest) :
    Unsettled (side.mapProxy fun conn => conn.incrTheoreticalTotalRecvCount count) conn other
      trailing flight rest (some count) := by
  obtain ⟨hclosed, hlength, hnone⟩ :=
    hactive.sound.notices count (by simp [incoming, hnotices])
  have hunset : side.proxy.theoreticalTotalRecvCount = -1 := by
    rw [hactive.theoretical]
    exact congrArg totalOf hnone
  have hvalue : int32 count = count := by
    have hbounded := hcounted.bounded
    rw [hcounted.tranCount] at hbounded
    simp only [incoming] at hlength
    apply int32_of_range
    · omega
    · rw [hlength]
      exact hbounded
  have hincomplete : ¬ (incoming conn other trailing flight notices total).Complete := by
    intro hcomplete
    rw [Transfer.Complete, hnone] at hcomplete
    exact absurd hcomplete nofun
  have hresult : side.proxy.incrTheoreticalTotalRecvCount count =
      { side.proxy with theoreticalTotalRecvCount := count } := by
    simp [ProxyConn.incrTheoreticalTotalRecvCount, hunset, hvalue]
  simp only [End.mapProxy, hresult]
  exact { hactive.unsettled hincomplete with
    theoretical := rfl
    sound := hactive.sound.hear (by simp [incoming, hnotices]) }

/-- The connection at this end reports the end of its input first. -/
theorem closeOwn_half (hactive : Active side conn other trailing flight notices total)
    (hcomplete : ¬ (incoming conn other trailing flight notices total).Complete)
    (hopen : conn.closing = false) :
    Active (side.mapProxy fun conn => conn.shutdownFromLocal.1).close
      { conn with closing := true } other trailing flight notices total := by
  have hhalf : side.proxy.halfClose = false := (hactive.unsettled hcomplete).halfClose.trans hopen
  have hresult : side.proxy.shutdownFromLocal.1 = { side.proxy with halfClose := true } := by
    simp [ProxyConn.shutdownFromLocal, hhalf]
  simp only [End.close, End.mapProxy, hresult]
  exact { hactive with
    peer := by simp [hactive.peer]
    halfClose := by simp
    unfinished := fun _ => hcomplete }

/-- The connection at this end reports the end of its input. -/
theorem closeOwn (hactive : Active side conn other trailing flight notices total)
    (hopen : conn.closing = false) :
    EndInv (side.mapProxy fun conn => conn.shutdownFromLocal.1).close
      { conn with closing := true } other trailing flight notices := by
  by_cases hcomplete : (incoming conn other trailing flight notices total).Complete
  · have hhalf : side.proxy.halfClose = true := hactive.halfClose.mpr (Or.inr hcomplete)
    obtain ⟨hother, hsink, hflight, hnotices⟩ := hactive.sound.complete hcomplete
    have hresult : side.proxy.shutdownFromLocal.1 = side.proxy.resetConn := by
      simp [ProxyConn.shutdownFromLocal, hhalf]
    simp only [End.close, End.mapProxy, hresult]
    exact Or.inr {
      peer := by simp [hactive.peer]
      idle := ProxyConn.resetConn_idle side.proxy
      closing := rfl
      otherClosing := hother
      delivered := hsink
      flight := hflight
      notices := hnotices }
  · exact Or.inl ⟨total, hactive.closeOwn_half hcomplete hopen⟩

/-- What the own connection takes in changes nothing about what arrives. -/
theorem relayOwn (hactive : Active side conn other trailing flight notices total)
    (bytes : List UInt8) :
    Active (side.relay bytes) (conn.relay bytes) other trailing flight notices total :=
  { hactive with peer := by simp [End.relay, EdgeConn.relay, hactive.peer] }

/-- Bytes from the far end join those under way. -/
theorem relayOther (hactive : Active side conn other trailing flight notices total)
    (hopen : other.closing = false) (hlast : trailing = []) (bytes : List UInt8) :
    Active side conn (other.relay bytes) trailing (flight ++ bytes) notices total :=
  { hactive with sound := hactive.sound.send hopen hlast bytes }

/-- The far end announces its total. -/
theorem closeOther (hactive : Active side conn other trailing flight notices total)
    (hopen : other.closing = false) :
    Active side conn { other with closing := true } trailing flight
      (notices ++ [other.received.length]) total :=
  { hactive with sound := hactive.sound.finish hopen }

/-- Of the connection at the far end only the bytes taken in and the end of input matter. -/
theorem withOther (hactive : Active side conn other trailing flight notices total)
    {renewed : EdgeConn} (hreceived : renewed.received = other.received)
    (hclosing : renewed.closing = other.closing) :
    Active side conn renewed trailing flight notices total := by
  have hsame : incoming conn renewed trailing flight notices total =
      incoming conn other trailing flight notices total := by
    simp [incoming, hreceived, hclosing]
  exact { hactive with
    halfClose := by
      rw [hsame]
      exact hactive.halfClose
    unfinished := by
      rw [hsame]
      exact hactive.unfinished
    sound := by
      rw [hsame]
      exact hactive.sound }

end Active

namespace EndInv

theorem withOther (hend : EndInv side conn other trailing flight notices)
    {renewed : EdgeConn} (hreceived : renewed.received = other.received)
    (hclosing : renewed.closing = other.closing) :
    EndInv side conn renewed trailing flight notices := by
  rcases hend with ⟨total, hactive⟩ | hresting
  · exact Or.inl ⟨total, hactive.withOther hreceived hclosing⟩
  · exact Or.inr { hresting with
      otherClosing := hclosing.trans hresting.otherClosing
      delivered := hresting.delivered.trans hreceived.symm }

theorem active_of_other_open (hend : EndInv side conn other trailing flight notices)
    (hopen : other.closing = false) :
    ∃ total, Active side conn other trailing flight notices total := by
  rcases hend with hactive | hresting
  · exact hactive
  · simp [hresting.otherClosing] at hopen

theorem active_of_open (hend : EndInv side conn other trailing flight notices)
    (hopen : conn.closing = false) :
    ∃ total, Active side conn other trailing flight notices total := by
  rcases hend with hactive | hresting
  · exact hactive
  · simp [hresting.closing] at hopen

theorem active_of_isStart (hend : EndInv side conn other trailing flight notices)
    (hstart : side.proxy.isStart = true) :
    ∃ total, Active side conn other trailing flight notices total := by
  rcases hend with hactive | hresting
  · exact hactive
  · simp [hresting.idle.isStart] at hstart

theorem resting_of_not_isStart (hend : EndInv side conn other trailing flight notices)
    (hstart : side.proxy.isStart = false) :
    Resting side conn other trailing flight notices := by
  rcases hend with ⟨total, hactive⟩ | hresting
  · simp [hactive.isStart] at hstart
  · exact hresting

theorem peer (hend : EndInv side conn other trailing flight notices) :
    side.peer = some conn := by
  rcases hend with ⟨total, hactive⟩ | hresting
  · exact hactive.peer
  · exact hresting.peer

/-- With nothing under way, an end that has heard of the far end's close and whose
own connection has closed is idle. -/
theorem resting_of_heard (hend : EndInv side conn other [] [] [])
    (hheard : side.proxy.isStart = true → side.proxy.theoreticalTotalRecvCount ≠ -1)
    (hclosing : conn.closing = true) : Resting side conn other [] [] [] := by
  rcases hend with ⟨total, hactive⟩ | hresting
  · have hknown := hheard hactive.isStart
    rw [hactive.theoretical] at hknown
    cases total with
    | none => exact absurd rfl hknown
    | some count =>
        have hlength := (hactive.sound.total count rfl).2
        have hconserved := hactive.sound.conserved
        simp only [incoming, List.append_nil] at hlength hconserved
        refine absurd ?_ (hactive.unfinished hclosing)
        rw [Transfer.Complete, incoming, hlength, hconserved]
  · exact hresting

/-- A request put behind the stream. -/
theorem append (hend : EndInv side conn other trailing flight notices) (bytes : List UInt8) :
    EndInv side conn other (trailing ++ bytes) (flight ++ bytes) notices := by
  rcases hend with ⟨total, hactive⟩ | hresting
  · exact Or.inl ⟨total, { hactive with sound := hactive.sound.append bytes }⟩
  · exact Or.inr { hresting with flight := by rw [hresting.flight] }

end EndInv

end CProxy
