import CProxy.Conn.Session

/-! # What an end records of the session it is in

From the start of a session an end shuts its connection down once at most, when
every byte the far end announced is there, and it hears of the far end's close.
-/

namespace CProxy

open Foundation Wire

/-- `before` lists the shutdowns from before the session. -/
structure Recorded (before : List (Option Fd)) (side : End) (conn other : EdgeConn)
    (notices : List Nat) : Prop where
  tranCount : side.proxy.tranCount = 0
  announced : other.closing = true → side.proxy.isStart = true →
    notices ≠ [] ∨ side.proxy.theoreticalTotalRecvCount ≠ -1
  shutWr :
    (side.proxy.shutWr = before ∧ side.proxy.isStart = true ∧
      side.proxy.recvCount ≠ side.proxy.theoreticalTotalRecvCount) ∨
    (side.proxy.shutWr = before ++ [some conn.fd] ∧ other.closing = true ∧
      conn.written = other.received ∧ (side.proxy.isStart = true →
        side.proxy.recvCount = side.proxy.theoreticalTotalRecvCount))

variable {before : List (Option Fd)} {side : End} {conn other : EdgeConn}
variable {trailing flight : List UInt8} {notices : List Nat} {total : Option Nat}

/-- The completion check records the shutdown it makes. -/
theorem Unsettled.recorded (hunsettled : Unsettled side conn other trailing flight notices total)
    (hbefore : side.proxy.shutWr = before) (htran : side.proxy.tranCount = 0)
    (hannounced : other.closing = true →
      notices ≠ [] ∨ side.proxy.theoreticalTotalRecvCount ≠ -1) :
    Recorded before side.settle conn other notices := by
  by_cases hcomplete : (incoming conn other trailing flight notices total).Complete
  · have hcount := hunsettled.complete_iff.mp hcomplete
    obtain ⟨hother, hsink, _, _⟩ := hunsettled.sound.complete hcomplete
    have hshut : side.proxy.shutWr ++ [side.proxy.peerConnFd] = before ++ [some conn.fd] := by
      rw [hbefore, hunsettled.peerConnFd]
    rw [End.settle_eq (ProxyConn.shutdownWhenComplete_of_eq hcount)]
    unfold ProxyConn.shutdownFromRemote
    dsimp only
    split
    · exact ⟨rfl, nofun, Or.inr ⟨hshut, hother, hsink, nofun⟩⟩
    · exact ⟨htran, fun hclosing _ => hannounced hclosing,
        Or.inr ⟨hshut, hother, hsink, fun _ => hcount⟩⟩
  · have hcount := mt hunsettled.complete_iff.mpr hcomplete
    rw [End.settle_eq (ProxyConn.shutdownWhenComplete_of_ne hcount)]
    exact ⟨htran, fun hclosing _ => hannounced hclosing,
      Or.inl ⟨hbefore, hunsettled.isStart, hcount⟩⟩

namespace Recorded

/-- Nothing has been shut down while the stream is incomplete. -/
theorem shutWr_eq (hrecorded : Recorded before side conn other notices)
    (hactive : Active side conn other trailing flight notices total)
    (hcomplete : ¬ (incoming conn other trailing flight notices total).Complete) :
    side.proxy.shutWr = before := by
  rcases hrecorded.shutWr with ⟨hnone, _⟩ | ⟨_, _, _, hcount⟩
  · exact hnone
  · exact absurd (hactive.complete_iff.mpr (hcount hactive.isStart)) hcomplete

theorem forward (hrecorded : Recorded before side conn other notices)
    (hactive : Active side conn other trailing flight notices total)
    (htrailing : trailing = [] ∨ conn.closing = true) {count : Nat} (hpositive : 0 < count)
    (hcount : count ≤ flight.length) (hfits : side.proxy.recvCount + count ≤ intMax) :
    Recorded before (side.forward (flight.take count)).settle
      { conn with written := conn.written ++ flight.take count } other notices := by
  have hflight : flight ≠ [] := List.length_pos_iff.mp (Nat.lt_of_lt_of_le hpositive hcount)
  have hshut := hrecorded.shutWr_eq hactive (hactive.not_complete htrailing hflight)
  exact (hactive.forward htrailing hpositive hcount hfits).recorded hshut hrecorded.tranCount
    fun hclosing => hrecorded.announced hclosing hactive.isStart

theorem hear (hrecorded : Recorded before side conn other notices)
    (hactive : Active side conn other trailing flight notices total)
    (hcounted : other.Counted) {count : Nat} {rest : List Nat} (hnotices : notices = count :: rest) :
    Recorded before
      (side.mapProxy fun conn => conn.incrTheoreticalTotalRecvCount count).settle conn other
        rest := by
  have hunsettled := hactive.hear hcounted hnotices
  have hnone := (hactive.sound.notices count (by simp [incoming, hnotices])).2.2
  have hincomplete : ¬ (incoming conn other trailing flight notices total).Complete := by
    intro hcomplete
    rw [Transfer.Complete, hnone] at hcomplete
    cases hcomplete
  have hkept : (side.proxy.incrTheoreticalTotalRecvCount count).shutWr = side.proxy.shutWr ∧
      (side.proxy.incrTheoreticalTotalRecvCount count).tranCount = side.proxy.tranCount := by
    unfold ProxyConn.incrTheoreticalTotalRecvCount
    split
    · exact ⟨rfl, rfl⟩
    · exact ⟨rfl, rfl⟩
  apply hunsettled.recorded
  · exact hkept.1.trans (hrecorded.shutWr_eq hactive hincomplete)
  · exact hkept.2.trans hrecorded.tranCount
  · intro _
    refine Or.inr ?_
    rw [hunsettled.theoretical, totalOf]
    omega

theorem closeOwn (hrecorded : Recorded before side conn other notices)
    (hactive : Active side conn other trailing flight notices total)
    (hopen : conn.closing = false) :
    Recorded before (side.mapProxy fun conn => conn.shutdownFromLocal.1).close
      { conn with closing := true } other notices := by
  simp only [End.close, End.mapProxy, ProxyConn.shutdownFromLocal]
  cases hhalf : side.proxy.halfClose with
  | false =>
      simp only [Bool.false_eq_true, if_false]
      exact { hrecorded with }
  | true =>
      -- an end that is half closed before its own close has shut its connection down
      have hcomplete := (hactive.halfClose.mp hhalf).resolve_left (by simp [hopen])
      have hcount := hactive.complete_iff.mp hcomplete
      simp only [if_true]
      have hidle : side.proxy.resetConn.isStart = false := rfl
      refine ⟨rfl, by simp [hidle], ?_⟩
      rcases hrecorded.shutWr with ⟨_, _, hne⟩ | ⟨hshut, hother, hwritten, _⟩
      · exact absurd hcount hne
      · exact Or.inr ⟨hshut, hother, hwritten, by simp [hidle]⟩

theorem relayOwn (hrecorded : Recorded before side conn other notices) (bytes : List UInt8) :
    Recorded before (side.relay bytes) (conn.relay bytes) other notices := { hrecorded with }

/-- An open connection at the far end takes in more or closes. -/
theorem withOther (hrecorded : Recorded before side conn other notices)
    (hopen : other.closing = false) {renewed : EdgeConn} {notices' : List Nat}
    (hannounced : renewed.closing = true → notices' ≠ []) :
    Recorded before side conn renewed notices' where
  tranCount := hrecorded.tranCount
  announced := fun hclosing _ => Or.inl (hannounced hclosing)
  shutWr := by
    rcases hrecorded.shutWr with hnone | ⟨_, hother, _⟩
    · exact Or.inl hnone
    · simp [hopen] at hother

/-- With nothing under way and both connections closed, the end has gone idle. -/
theorem resting_of_quiescent (hrecorded : Recorded before side conn other [])
    (hend : EndInv side conn other [] [] []) (hclosing : conn.closing = true)
    (hother : other.closing = true) : Resting side conn other [] [] [] :=
  hend.resting_of_heard
    (fun hstart => (hrecorded.announced hother hstart).resolve_left fun hsome => hsome rfl) hclosing

end Recorded

end CProxy
