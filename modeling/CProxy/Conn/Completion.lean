import CProxy.Conn.Session
import CProxy.Foundation.Run

/-! # Two threads that complete one direction

The thread of the control connection announces the total of a session and checks
whether all bytes are there; the worker thread counts the bytes of each chunk and
makes the same check. Every call that takes a mutex is a step of its own.
-/

namespace CProxy

open Foundation

/-- Where a thread stands in the server's `shutdownPublicConn` or the client's
`shutdonwLocalConn`. -/
inductive CheckPoint where
  | entered
  | readTheoretical (count : Int)
  | shutting
  /-- The connection is idle, and is still to be put into the free list. -/
  | freeing
  /-- Returned because the counters differ. -/
  | quit
  /-- Returned after a shutdown. -/
  | shut
  deriving DecidableEq

/-- Where the worker thread stands in `ProxyConn::handleRead`, after its `splice` calls. -/
inductive DataPoint where
  | idle
  | counted
  | readRecv (count : Int)
  | checking (point : CheckPoint)
  deriving DecidableEq

/-- Where the control thread stands with the announcement. -/
inductive NoticePoint where
  | waiting
  | checking (point : CheckPoint)
  deriving DecidableEq

/-- What was the case when `resetConn` ran. -/
structure Reset where
  localEnded : Bool
  recvCount : Int
  deriving DecidableEq

/-- One end in a session. `chunks` are the lengths of the reads to come, and the
last two fields are history: the resets, and the calls that free the connection. -/
structure Completion where
  conn : ProxyConn
  chunks : List Nat
  localEnded : Bool := false
  data : DataPoint := .idle
  notice : NoticePoint := .waiting
  resets : List Reset := []
  frees : Nat := 0
  deriving DecidableEq

inductive CompletionEvent where
  /-- The worker thread forwards a chunk and counts it. -/
  | chunk
  /-- The worker thread makes its next call. -/
  | data
  /-- The control thread counts the announced total. -/
  | announce
  /-- The control thread makes its next call. -/
  | notice
  /-- The worker thread handles the end of the local stream. -/
  | endLocal
  deriving DecidableEq

/-- The worker thread is between two handlers. -/
def DataPoint.Free : DataPoint → Prop
  | idle | checking .quit | checking .shut => True
  | _ => False

instance (point : DataPoint) : Decidable point.Free := by
  unfold DataPoint.Free
  split <;> infer_instance

namespace Completion

/-- A session with the given chunks, just started. -/
def start (publicFd : Fd) (chunks : List Nat) : Completion where
  conn := { isStart := true, peerConnFd := some publicFd }
  chunks := chunks

/-- The next call of `shutdownPublicConn` or `shutdonwLocalConn`. -/
def check (s : Completion) : CheckPoint → Option (Completion × CheckPoint)
  | .entered => some (s, .readTheoretical s.conn.theoreticalTotalRecvCount)
  | .readTheoretical count => some (s, if s.conn.recvCount ≠ count then .quit else .shutting)
  | .shutting =>
      let isFree := s.conn.shutdownFromRemote.2
      some ({ s with
        conn := s.conn.shutdownFromRemote.1
        resets := s.resets ++ if isFree then [⟨s.localEnded, s.conn.recvCount⟩] else [] },
        if isFree then .freeing else .shut)
  | .freeing => some ({ s with frees := s.frees + 1 }, .shut)
  | .quit => none
  | .shut => none

/-- The announced total is that of the chunks. -/
def step (total : Nat) (s : Completion) : CompletionEvent → Option Completion
  | .chunk =>
      match s.chunks with
      | [] => none
      | count :: rest =>
          if s.data.Free ∧ s.conn.isStart then
            some { s with conn := s.conn.incrRecvCount count, chunks := rest, data := .counted }
          else none
  | .data =>
      match s.data with
      | .idle => none
      | .counted => some { s with data := .readRecv s.conn.recvCount }
      | .readRecv count =>
          some { s with
            data := if count = s.conn.theoreticalTotalRecvCount then .checking .entered
              else .idle }
      | .checking point =>
          (s.check point).map fun (s, point) => { s with data := .checking point }
  | .announce =>
      if s.notice = .waiting then
        some { s with
          conn := s.conn.incrTheoreticalTotalRecvCount total
          notice := .checking .entered }
      else none
  | .notice =>
      match s.notice with
      | .waiting => none
      | .checking point =>
          (s.check point).map fun (s, point) => { s with notice := .checking point }
  | .endLocal =>
      if s.data.Free ∧ s.localEnded = false then
        some { s with
          conn := s.conn.shutdownFromLocal.1
          localEnded := true
          resets := s.resets ++
            if s.conn.shutdownFromLocal.2 then [⟨true, s.conn.recvCount⟩] else [] }
      else none

/-- All chunks are counted, and no handler is under way or to come. -/
def Finished (s : Completion) : Prop :=
  s.chunks = [] ∧ s.data.Free ∧
    (s.notice = .checking .quit ∨ s.notice = .checking .shut)

instance (s : Completion) : Decidable s.Finished := inferInstanceAs (Decidable (_ ∧ _ ∧ _))

end Completion

/-- The check has succeeded. -/
def CheckPoint.Decided : CheckPoint → Prop
  | shutting | freeing | shut => True
  | _ => False

def DataPoint.Decided : DataPoint → Prop
  | checking point => point.Decided
  | _ => False

def NoticePoint.Decided : NoticePoint → Prop
  | checking point => point.Decided
  | _ => False

namespace Completion

/-- Nothing is reset or freed before both directions have ended, and the remote
direction is shut down once at most. -/
structure Proper (total : Nat) (s : Completion) : Prop where
  resets : ∀ reset ∈ s.resets, reset.localEnded = true ∧ reset.recvCount = total
  frees : s.localEnded = false → s.frees = 0
  once : s.conn.shutWr.length ≤ 1

/-- A thread makes the last read of its check after the other's check has succeeded
only when the connection has been reset in between. -/
def ReadsInTurn (s : Completion) : CompletionEvent → Prop
  | .data => ∀ count, s.data = .checking (.readTheoretical count) → s.notice.Decided →
      s.conn.isStart = false
  | .notice => ∀ count, s.notice = .checking (.readTheoretical count) → s.data.Decided →
      s.conn.isStart = false
  | _ => True

/-- The ways a call of the check goes. -/
inductive Checks (s : Completion) : CheckPoint → Completion → CheckPoint → Prop
  | enter : Checks s .entered s (.readTheoretical s.conn.theoreticalTotalRecvCount)
  | quit (count : Int) (hcount : s.conn.recvCount ≠ count) :
      Checks s (.readTheoretical count) s .quit
  | decide : Checks s (.readTheoretical s.conn.recvCount) s .shutting
  | half (hhalf : s.conn.halfClose = false) :
      Checks s .shutting { s with conn := { s.conn with
        shutWr := s.conn.shutWr ++ [s.conn.peerConnFd]
        halfClose := true } } .shut
  | reset (hhalf : s.conn.halfClose = true) :
      Checks s .shutting { s with
        conn := ({ s.conn with shutWr := s.conn.shutWr ++ [s.conn.peerConnFd] } :
          ProxyConn).resetConn
        resets := s.resets ++ [⟨s.localEnded, s.conn.recvCount⟩] } .freeing
  | free : Checks s .freeing { s with frees := s.frees + 1 } .shut

/-- A call of the check is no call of the threads' own. -/
theorem Checks.frame {s next : Completion} {point after : CheckPoint}
    (hchecks : Checks s point next after) :
    next.chunks = s.chunks ∧ next.data = s.data ∧ next.notice = s.notice := by
  cases hchecks with
  | enter | quit | decide | half | reset | free => exact ⟨rfl, rfl, rfl⟩

theorem checks_of_check {s : Completion} {point : CheckPoint} {result : Completion × CheckPoint}
    (hcheck : s.check point = some result) : Checks s point result.1 result.2 := by
  cases point with
  | entered =>
      obtain rfl := Option.some.inj hcheck
      exact .enter
  | readTheoretical count =>
      obtain rfl := Option.some.inj hcheck
      by_cases hcount : s.conn.recvCount = count
      · subst hcount
        simp only [ne_eq, not_true, if_false]
        exact .decide
      · simp only [ne_eq, hcount, not_false_eq_true, if_true]
        exact .quit count hcount
  | shutting =>
      obtain rfl := Option.some.inj hcheck
      cases hhalf : s.conn.halfClose with
      | false =>
          simp only [ProxyConn.shutdownFromRemote, hhalf, Bool.false_eq_true, if_false,
            List.append_nil]
          exact .half hhalf
      | true =>
          simp only [ProxyConn.shutdownFromRemote, hhalf, if_true]
          exact .reset hhalf
  | freeing =>
      obtain rfl := Option.some.inj hcheck
      exact .free
  | quit | shut => cases hcheck

end Completion

/-! ## A session that goes on -/

/-- How often a thread has called `shutdownFromRemote`. -/
def CheckPoint.shuts : CheckPoint → Nat
  | freeing | shut => 1
  | _ => 0

def DataPoint.shuts : DataPoint → Nat
  | checking point => point.shuts
  | _ => 0

def NoticePoint.shuts : NoticePoint → Nat
  | checking point => point.shuts
  | _ => 0

/-- A check of a connection that has not been reset. -/
def CheckPoint.Sound (total : Nat) : CheckPoint → Prop
  | readTheoretical count => count = total
  | entered | shutting | shut => True
  | freeing | quit => False

/-- The worker thread checks once all chunks are counted and the total is announced. -/
def DataPoint.Sound (total : Nat) (s : Completion) : DataPoint → Prop
  | idle => True
  | counted => 0 < total
  | readRecv count => 0 < total ∧ count = s.conn.recvCount
  | checking point => 0 < total ∧ s.chunks = [] ∧ s.notice ≠ .waiting ∧ point.Sound total

/-- The control thread gives up only while the worker thread has still to check. -/
def NoticePoint.Sound (total : Nat) (s : Completion) : NoticePoint → Prop
  | waiting => True
  | checking .quit => s.chunks = [] → s.data ≠ .idle
  | checking point => point.Sound total ∧ (point.Decided → s.chunks = [])

namespace Completion

structure Live (total : Nat) (s : Completion) : Prop where
  isStart : s.conn.isStart = true
  positive : ∀ count ∈ s.chunks, 0 < count
  counted : 0 ≤ s.conn.recvCount
  recvCount : s.conn.recvCount + s.chunks.sum = total
  unannounced : s.notice = .waiting → s.conn.theoreticalTotalRecvCount = -1
  announced : s.notice ≠ .waiting → s.conn.theoreticalTotalRecvCount = total
  halfClose : s.conn.halfClose = true ↔ s.localEnded = true ∨ s.conn.shutWr ≠ []
  unshut : s.localEnded = true → s.conn.shutWr = []
  shuts : s.conn.shutWr.length = s.data.shuts + s.notice.shuts
  data : s.data.Sound total s
  notice : s.notice.Sound total s
  apart : ¬ (s.data.Decided ∧ s.notice.Decided)
  resets : s.resets = []
  frees : s.frees = 0

variable {total : Nat} {s s' : Completion}

/-- All bytes are counted exactly when no chunk is to come. -/
theorem Live.chunks_eq_nil_iff (hlive : Live total s) :
    s.conn.recvCount = total ↔ s.chunks = [] := by
  have hsum := hlive.recvCount
  constructor
  · intro hall
    cases hchunks : s.chunks with
    | nil => rfl
    | cons count rest =>
        have hpos := hlive.positive count (by simp [hchunks])
        rw [hchunks, List.sum_cons] at hsum
        omega
  · intro hnone
    rw [hnone, List.sum_nil] at hsum
    omega

theorem Live.idle_of_free (hlive : Live total s) (hfree : s.data.Free)
    (hchunks : s.chunks ≠ []) : s.data = .idle := by
  have hsound := hlive.data
  cases hdata : s.data with
  | idle => rfl
  | counted | readRecv => simp [hdata, DataPoint.Free] at hfree
  | checking point =>
      rw [hdata] at hsound
      exact absurd hsound.2.1 hchunks

theorem Live.chunk (hlive : Live total s) (htotal : (total : Int) ≤ intMax)
    (hstep : step total s .chunk = some s') : Live total s' := by
  simp only [step] at hstep
  split at hstep
  · cases hstep
  · next count rest hchunks =>
      rw [Option.ite_none_right_eq_some] at hstep
      obtain ⟨⟨hfree, hstart⟩, hsome⟩ := hstep
      obtain rfl := Option.some.inj hsome
      have hmore : s.chunks ≠ [] := by simp [hchunks]
      have hshuts := hlive.shuts
      rw [hlive.idle_of_free hfree hmore] at hshuts
      have hpos := hlive.positive count (by simp [hchunks])
      have hsum := hlive.recvCount
      rw [hchunks, List.sum_cons] at hsum
      have hcounted := hlive.counted
      have hexact : int32 (s.conn.recvCount + count) = s.conn.recvCount + count := by
        apply int32_of_range
        · omega
        · omega
      exact { hlive with
        positive := fun other hother => hlive.positive other (by simp [hchunks, hother])
        counted := by
          simp only [ProxyConn.incrRecvCount, hexact]
          omega
        recvCount := by
          simp only [ProxyConn.incrRecvCount, hexact]
          omega
        shuts := hshuts
        data := by
          change 0 < total
          omega
        notice := by
          have hsound := hlive.notice
          cases hnotice : s.notice with
          | waiting => trivial
          | checking point =>
              rw [hnotice] at hsound
              cases point with
              | quit => exact fun _ hquit => by cases hquit
              | entered | readTheoretical => exact ⟨hsound.1, fun hshuts => by cases hshuts⟩
              | shutting | shut => exact absurd (hsound.2 trivial) hmore
              | freeing => exact hsound.1.elim
        apart := fun hdecided => hdecided.1.elim }

theorem Live.announce (hlive : Live total s) (htotal : (total : Int) ≤ intMax)
    (hstep : step total s .announce = some s') : Live total s' := by
  simp only [step, Option.ite_none_right_eq_some] at hstep
  obtain ⟨hwaiting, hsome⟩ := hstep
  obtain rfl := Option.some.inj hsome
  have hnone := hlive.unannounced hwaiting
  have hexact : int32 total = total := int32_of_range (by omega) htotal
  have hconn : s.conn.incrTheoreticalTotalRecvCount total =
      { s.conn with theoreticalTotalRecvCount := total } := by
    simp [ProxyConn.incrTheoreticalTotalRecvCount, hnone, hexact]
  rw [hconn]
  exact { hlive with
    unannounced := by simp
    announced := fun _ => rfl
    shuts := by
      have hshuts := hlive.shuts
      rwa [hwaiting] at hshuts
    data := by
      have hsound := hlive.data
      cases hdata : s.data with
      | idle | counted | readRecv =>
          rw [hdata] at hsound
          exact hsound
      | checking point =>
          rw [hdata] at hsound
          exact absurd hwaiting hsound.2.2.1
    notice := ⟨trivial, fun hdecided => by cases hdecided⟩
    apart := fun hdecided => hdecided.2.elim }

end Completion

theorem CheckPoint.decided_of_shuts {point : CheckPoint} (hshuts : point.shuts ≠ 0) :
    point.Decided := by
  cases point with
  | shutting | freeing | shut => trivial
  | entered | readTheoretical | quit => exact absurd rfl hshuts

theorem DataPoint.decided_of_shuts {point : DataPoint} (hshuts : point.shuts ≠ 0) :
    point.Decided := by
  cases point with
  | idle | counted | readRecv => exact absurd rfl hshuts
  | checking point => exact CheckPoint.decided_of_shuts hshuts

theorem NoticePoint.decided_of_shuts {point : NoticePoint} (hshuts : point.shuts ≠ 0) :
    point.Decided := by
  cases point with
  | waiting => exact absurd rfl hshuts
  | checking point => exact CheckPoint.decided_of_shuts hshuts

theorem CheckPoint.shuts_le (point : CheckPoint) : point.shuts ≤ 1 := by
  cases point with
  | shutting | freeing | shut | entered | readTheoretical | quit => simp [shuts]

theorem DataPoint.shuts_le (point : DataPoint) : point.shuts ≤ 1 := by
  cases point with
  | idle | counted | readRecv => exact Nat.zero_le 1
  | checking point => exact point.shuts_le

theorem NoticePoint.shuts_le (point : NoticePoint) : point.shuts ≤ 1 := by
  cases point with
  | waiting => exact Nat.zero_le 1
  | checking point => exact point.shuts_le

/-! ## A session that has been reset -/

/-- A check of a connection that was reset at the latest after this point fails. -/
def CheckPoint.Spent : CheckPoint → Prop
  | entered | quit => True
  | readTheoretical count => count ≠ 0
  | _ => False

def DataPoint.Spent : DataPoint → Prop
  | idle | counted => True
  | readRecv count => count ≠ -1
  | checking point => point.Spent

def NoticePoint.Spent : NoticePoint → Prop
  | waiting => False
  | checking point => point.Spent

namespace Completion

/-- One thread has made the shutdown, and the other will make none. -/
inductive Closer (s : Completion) : Prop
  | data (point : CheckPoint) (hdata : s.data = .checking point) (hshuts : point.shuts = 1)
      (hnotice : s.notice.Spent)
  | notice (point : CheckPoint) (hnotice : s.notice = .checking point) (hshuts : point.shuts = 1)
      (hdata : s.data.Spent)

structure Closed (total : Nat) (s : Completion) : Prop where
  idle : s.conn.Idle
  localEnded : s.localEnded = true
  chunks : s.chunks = []
  resets : s.resets = [⟨true, total⟩]
  once : s.conn.shutWr.length = 1
  closer : Closer s

inductive Inv (total : Nat) (s : Completion) : Prop
  | live (hlive : Live total s)
  | closed (hclosed : Closed total s)

variable {total : Nat} {s s' : Completion}

theorem Live.open_of_half (hlive : Live total s) (hhalf : s.conn.halfClose = false) :
    s.localEnded = false ∧ s.conn.shutWr = [] := by
  have hnot : ¬ (s.localEnded = true ∨ s.conn.shutWr ≠ []) := by
    rw [← hlive.halfClose, hhalf]
    exact Bool.false_ne_true
  push Not at hnot
  exact ⟨Bool.not_eq_true _ ▸ hnot.1, hnot.2⟩

/-- While no thread has made the shutdown, only the local stream can have ended. -/
theorem Live.ended_of_half (hlive : Live total s) (hhalf : s.conn.halfClose = true)
    (hdata : s.data.shuts = 0) (hnotice : s.notice.shuts = 0) :
    s.localEnded = true ∧ s.conn.shutWr = [] := by
  have hnone : s.conn.shutWr = [] := by
    rw [← List.length_eq_zero_iff, hlive.shuts, hdata, hnotice]
  refine ⟨?_, hnone⟩
  rcases hlive.halfClose.mp hhalf with hended | hshut
  · exact hended
  · exact absurd hnone hshut

/-- The check of the worker thread leads back to idle, or to the end of the session. -/
theorem Live.spent_data (hlive : Live total s) (hopen : ¬ s.data.Decided) : s.data.Spent := by
  have hsound := hlive.data
  cases hdata : s.data with
  | idle | counted => trivial
  | readRecv count =>
      rw [hdata] at hsound
      have hcounted := hlive.counted
      change count ≠ -1
      rw [hsound.2]
      omega
  | checking point =>
      rw [hdata] at hsound hopen
      obtain ⟨hpos, _, _, hpoint⟩ := hsound
      cases point with
      | entered => trivial
      | readTheoretical count =>
          change count ≠ 0
          rw [show count = total from hpoint]
          omega
      | shutting | shut => exact absurd trivial hopen
      | freeing | quit => exact hpoint.elim

theorem Live.spent_notice (hlive : Live total s) (hpos : 0 < total) (hnoticed : s.notice ≠ .waiting)
    (hopen : ¬ s.notice.Decided) : s.notice.Spent := by
  have hsound := hlive.notice
  cases hnotice : s.notice with
  | waiting => exact absurd hnotice hnoticed
  | checking point =>
      rw [hnotice] at hsound hopen
      cases point with
      | entered | quit => trivial
      | readTheoretical count =>
          change count ≠ 0
          rw [show count = total from hsound.1]
          omega
      | shutting | shut => exact absurd trivial hopen
      | freeing => exact hsound.1.elim

theorem noticeSound_of_data (hsound : s.notice.Sound total s) (hnotice : s'.notice = s.notice)
    (hchunks : s'.chunks = s.chunks) (hdata : s'.data ≠ .idle) : s'.notice.Sound total s' := by
  rw [hnotice]
  cases hpoint : s.notice with
  | waiting => trivial
  | checking point =>
      rw [hpoint] at hsound
      cases point with
      | quit => exact fun _ => hdata
      | entered | readTheoretical | shutting | freeing | shut =>
          exact ⟨hsound.1, fun hdecided => hchunks.trans (hsound.2 hdecided)⟩

/-- Between two handlers of the worker thread, after the one shutdown of the session. -/
theorem Live.closer_of_shut (hlive : Live total s) (hfree : s.data.Free)
    (hshut : s.conn.shutWr ≠ []) :
    s.chunks = [] ∧ s.conn.shutWr.length = 1 ∧ Closer s := by
  have hsound := hlive.data
  have hshuts := hlive.shuts
  have hpos := List.length_pos_iff.mpr hshut
  cases hdata : s.data with
  | counted | readRecv => simp [hdata, DataPoint.Free] at hfree
  | idle =>
      rw [hdata] at hshuts
      have hnotice := hlive.notice
      cases hpoint : s.notice with
      | waiting =>
          rw [hpoint] at hshuts
          simp [DataPoint.shuts, NoticePoint.shuts, hshut] at hshuts
      | checking point =>
          rw [hpoint] at hshuts hnotice
          cases point with
          | entered | readTheoretical | shutting | quit =>
              simp [DataPoint.shuts, NoticePoint.shuts, CheckPoint.shuts, hshut] at hshuts
          | freeing => exact hnotice.1.elim
          | shut => exact ⟨hnotice.2 trivial, hshuts, .notice .shut hpoint rfl (hdata ▸ trivial)⟩
  | checking point =>
      rw [hdata] at hsound hshuts
      obtain ⟨hpositive, hchunks, hnoticed, hpoint⟩ := hsound
      cases point with
      | entered | readTheoretical | shutting => simp [hdata, DataPoint.Free] at hfree
      | freeing | quit => exact hpoint.elim
      | shut =>
          have hopen : ¬ s.notice.Decided := fun hdecided =>
            hlive.apart ⟨by rw [hdata]; trivial, hdecided⟩
          have hnone : s.notice.shuts = 0 := not_not.mp (mt NoticePoint.decided_of_shuts hopen)
          rw [hnone] at hshuts
          exact ⟨hchunks, hshuts, .data .shut hdata rfl (hlive.spent_notice hpositive hnoticed hopen)⟩

theorem Live.endLocal (hlive : Live total s) (hstep : step total s .endLocal = some s') :
    Inv total s' := by
  simp only [step, Option.ite_none_right_eq_some] at hstep
  obtain ⟨⟨hfree, hbefore⟩, hsome⟩ := hstep
  obtain rfl := Option.some.inj hsome
  cases hhalf : s.conn.halfClose with
  | false =>
      obtain ⟨_, hnone⟩ := hlive.open_of_half hhalf
      apply Inv.live
      simp only [ProxyConn.shutdownFromLocal, hhalf, Bool.false_eq_true, if_false, List.append_nil]
      exact { hlive with
        halfClose := by simp
        unshut := fun _ => hnone }
  | true =>
      have hshut : s.conn.shutWr ≠ [] := by
        rcases hlive.halfClose.mp hhalf with hended | hshut
        · simp [hbefore] at hended
        · exact hshut
      obtain ⟨hchunks, hone, hcloser⟩ := hlive.closer_of_shut hfree hshut
      apply Inv.closed
      simp only [ProxyConn.shutdownFromLocal, hhalf, if_true]
      exact {
        idle := ProxyConn.resetConn_idle _
        localEnded := rfl
        chunks := hchunks
        resets := by rw [hlive.resets, hlive.chunks_eq_nil_iff.mpr hchunks, List.nil_append]
        once := hone
        closer := by
          cases hcloser with
          | data point hdata hshuts hnotice => exact .data point hdata hshuts hnotice
          | notice point hnotice hshuts hdata => exact .notice point hnotice hshuts hdata }

/-- The worker thread's next call, under the condition on its last read. -/
theorem Live.dataStep (hlive : Live total s) (hlaw : ReadsInTurn s .data)
    (hstep : step total s .data = some s') : Inv total s' := by
  have hsound := hlive.data
  cases hdata : s.data with
  | idle => simp [step, hdata] at hstep
  | counted =>
      rw [hdata] at hsound
      simp only [step, hdata, Option.some.injEq] at hstep
      subst hstep
      have hshuts := hlive.shuts
      rw [hdata] at hshuts
      exact .live { hlive with
        shuts := hshuts
        data := ⟨hsound, rfl⟩
        notice := noticeSound_of_data hlive.notice rfl rfl nofun
        apart := fun hdecided => hdecided.1.elim }
  | readRecv count =>
      rw [hdata] at hsound
      obtain ⟨hpos, rfl⟩ := hsound
      simp only [step, hdata, Option.some.injEq] at hstep
      subst hstep
      have hshuts := hlive.shuts
      rw [hdata] at hshuts
      by_cases hcount : s.conn.recvCount = s.conn.theoreticalTotalRecvCount
      · rw [if_pos hcount]
        have hnoticed : s.notice ≠ .waiting := by
          intro hwaiting
          have hcounted := hlive.counted
          rw [hcount, hlive.unannounced hwaiting] at hcounted
          omega
        have hchunks := hlive.chunks_eq_nil_iff.mp (hcount.trans (hlive.announced hnoticed))
        exact .live { hlive with
          shuts := hshuts
          data := ⟨hpos, hchunks, hnoticed, trivial⟩
          notice := noticeSound_of_data hlive.notice rfl rfl nofun
          apart := fun hdecided => hdecided.1.elim }
      · rw [if_neg hcount]
        exact .live { hlive with
          shuts := hshuts
          data := trivial
          notice := by
            have hnotice := hlive.notice
            cases hpoint : s.notice with
            | waiting => trivial
            | checking point =>
                rw [hpoint] at hnotice
                cases point with
                | quit =>
                    intro hchunks
                    have hannounced := hlive.announced (by simp [hpoint])
                    rw [hannounced] at hcount
                    exact absurd (hlive.chunks_eq_nil_iff.mpr hchunks) hcount
                | entered | readTheoretical | shutting | freeing | shut => exact hnotice
          apart := fun hdecided => hdecided.1.elim }
  | checking point =>
      rw [hdata] at hsound
      obtain ⟨hpos, hchunks, hnoticed, hpoint⟩ := hsound
      have hall := hlive.chunks_eq_nil_iff.mpr hchunks
      have hshuts := hlive.shuts
      rw [hdata] at hshuts
      simp only [step, hdata, Option.map_eq_some_iff] at hstep
      obtain ⟨⟨next, after⟩, hcheck, rfl⟩ := hstep
      have hchecks : Checks s point next after := checks_of_check hcheck
      cases hchecks with
      | enter =>
          exact .live { hlive with
            shuts := hshuts
            data := ⟨hpos, hchunks, hnoticed, hlive.announced hnoticed⟩
            notice := noticeSound_of_data hlive.notice rfl rfl nofun
            apart := fun hdecided => hdecided.1.elim }
      | quit count hcount => exact absurd (hall.trans (Eq.symm hpoint)) hcount
      | decide =>
          have hopen : ¬ s.notice.Decided := by
            intro hdecided
            have hreset := hlaw _ hdata hdecided
            simp [hlive.isStart] at hreset
          exact .live { hlive with
            shuts := hshuts
            data := ⟨hpos, hchunks, hnoticed, trivial⟩
            notice := noticeSound_of_data hlive.notice rfl rfl nofun
            apart := fun hdecided => hopen hdecided.2 }
      | half hhalf =>
          obtain ⟨hended, hnone⟩ := hlive.open_of_half hhalf
          have hopen : ¬ s.notice.Decided := fun hdecided =>
            hlive.apart ⟨by rw [hdata]; trivial, hdecided⟩
          rw [hnone] at hshuts
          exact .live { hlive with
            halfClose := by simp
            unshut := fun hclosed => by simp [hended] at hclosed
            shuts := by
              simp only [hnone, List.nil_append, List.length_singleton, DataPoint.shuts,
                CheckPoint.shuts] at hshuts ⊢
              simp at hshuts
              omega
            data := ⟨hpos, hchunks, hnoticed, trivial⟩
            notice := noticeSound_of_data hlive.notice rfl rfl nofun
            apart := fun hdecided => hopen hdecided.2 }
      | reset hhalf =>
          have hopen : ¬ s.notice.Decided := fun hdecided =>
            hlive.apart ⟨by rw [hdata]; trivial, hdecided⟩
          obtain ⟨hended, hnone⟩ := hlive.ended_of_half hhalf (by rw [hdata]; rfl)
            (not_not.mp (mt NoticePoint.decided_of_shuts hopen))
          exact .closed {
            idle := ProxyConn.resetConn_idle _
            localEnded := hended
            chunks := hchunks
            resets := by rw [hlive.resets, hended, hall, List.nil_append]
            once := by simp [ProxyConn.resetConn, hnone]
            closer := .data .freeing rfl rfl (hlive.spent_notice hpos hnoticed hopen) }
      | free => exact hpoint.elim

theorem dataSound_of_notice (hsound : s.data.Sound total s) (hdata : s'.data = s.data)
    (hchunks : s'.chunks = s.chunks) (hrecv : s'.conn.recvCount = s.conn.recvCount)
    (hnoticed : s'.notice ≠ .waiting) : s'.data.Sound total s' := by
  rw [hdata]
  cases hpoint : s.data with
  | idle => trivial
  | counted =>
      rw [hpoint] at hsound
      exact hsound
  | readRecv count =>
      rw [hpoint] at hsound
      exact ⟨hsound.1, hsound.2.trans hrecv.symm⟩
  | checking point =>
      rw [hpoint] at hsound
      exact ⟨hsound.1, hchunks.trans hsound.2.1, hnoticed, hsound.2.2.2⟩

theorem Live.noticeStep (hlive : Live total s) (hlaw : ReadsInTurn s .notice)
    (hstep : step total s .notice = some s') : Inv total s' := by
  have hsound := hlive.notice
  cases hnotice : s.notice with
  | waiting => simp [step, hnotice] at hstep
  | checking point =>
      have hannounced := hlive.announced (by simp [hnotice])
      have hshuts := hlive.shuts
      rw [hnotice] at hsound hshuts
      simp only [step, hnotice, Option.map_eq_some_iff] at hstep
      obtain ⟨⟨next, after⟩, hcheck, rfl⟩ := hstep
      have hchecks : Checks s point next after := checks_of_check hcheck
      cases hchecks with
      | enter =>
          exact .live { hlive with
            unannounced := nofun
            announced := fun _ => hannounced
            shuts := hshuts
            data := dataSound_of_notice hlive.data rfl rfl rfl nofun
            notice := ⟨hannounced, nofun⟩
            apart := fun hdecided => hdecided.2.elim }
      | quit count hcount =>
          rw [show count = total from hsound.1] at hcount
          exact .live { hlive with
            unannounced := nofun
            announced := fun _ => hannounced
            shuts := hshuts
            data := dataSound_of_notice hlive.data rfl rfl rfl nofun
            notice := fun hchunks => absurd (hlive.chunks_eq_nil_iff.mpr hchunks) hcount
            apart := fun hdecided => hdecided.2.elim }
      | decide =>
          have hopen : ¬ s.data.Decided := by
            intro hdecided
            have hreset := hlaw _ hnotice hdecided
            simp [hlive.isStart] at hreset
          exact .live { hlive with
            unannounced := nofun
            announced := fun _ => hannounced
            shuts := hshuts
            data := dataSound_of_notice hlive.data rfl rfl rfl nofun
            notice := ⟨trivial, fun _ => hlive.chunks_eq_nil_iff.mp hsound.1⟩
            apart := fun hdecided => hopen hdecided.1 }
      | half hhalf =>
          obtain ⟨hended, hnone⟩ := hlive.open_of_half hhalf
          have hopen : ¬ s.data.Decided := fun hdecided =>
            hlive.apart ⟨hdecided, by rw [hnotice]; trivial⟩
          have hzero : s.data.shuts = 0 := not_not.mp (mt DataPoint.decided_of_shuts hopen)
          exact .live { hlive with
            unannounced := nofun
            announced := fun _ => hannounced
            halfClose := by simp
            unshut := fun hclosed => by simp [hended] at hclosed
            shuts := by
              change (s.conn.shutWr ++ [s.conn.peerConnFd]).length = s.data.shuts + 1
              rw [hnone, hzero]
              rfl
            data := dataSound_of_notice hlive.data rfl rfl rfl nofun
            notice := ⟨trivial, fun _ => hsound.2 trivial⟩
            apart := fun hdecided => hopen hdecided.1 }
      | reset hhalf =>
          have hopen : ¬ s.data.Decided := fun hdecided =>
            hlive.apart ⟨hdecided, by rw [hnotice]; trivial⟩
          have hchunks := hsound.2 trivial
          obtain ⟨hended, hnone⟩ := hlive.ended_of_half hhalf
            (not_not.mp (mt DataPoint.decided_of_shuts hopen)) (by rw [hnotice]; rfl)
          exact .closed {
            idle := ProxyConn.resetConn_idle _
            localEnded := hended
            chunks := hchunks
            resets := by
              rw [hlive.resets, hended, hlive.chunks_eq_nil_iff.mpr hchunks, List.nil_append]
            once := by simp [ProxyConn.resetConn, hnone]
            closer := .notice .freeing rfl rfl (hlive.spent_data hopen) }
      | free => exact hsound.1.elim

/-- A check that was under way when the connection was reset fails. -/
theorem checks_of_spent {point after : CheckPoint} {next : Completion}
    (hspent : point.Spent) (hidle : s.conn.Idle) (hchecks : Checks s point next after) :
    next = s ∧ after.Spent := by
  cases hchecks with
  | enter =>
      refine ⟨rfl, ?_⟩
      change s.conn.theoreticalTotalRecvCount ≠ 0
      rw [hidle.theoreticalTotalRecvCount]
      exact Int.neg_ne_zero.mpr one_ne_zero
  | quit => exact ⟨rfl, trivial⟩
  | decide => exact absurd hidle.recvCount hspent
  | half | reset | free => exact hspent.elim

theorem Closed.dataStep (hclosed : Closed total s) (hstep : step total s .data = some s') :
    Closed total s' := by
  cases hclosed.closer with
  | data point hdata hshuts hnotice =>
      simp only [step, hdata, Option.map_eq_some_iff] at hstep
      obtain ⟨⟨next, after⟩, hcheck, rfl⟩ := hstep
      have hchecks : Checks s point next after := checks_of_check hcheck
      cases hchecks with
      | free => exact { hclosed with closer := .data .shut rfl rfl hnotice }
      | enter | quit | decide | half | reset => cases hshuts
  | notice point hnotice hshuts hspent =>
      cases hdata : s.data with
      | idle => simp [step, hdata] at hstep
      | counted =>
          simp only [step, hdata, Option.some.injEq] at hstep
          subst hstep
          refine { hclosed with closer := .notice point hnotice hshuts ?_ }
          change s.conn.recvCount ≠ -1
          rw [hclosed.idle.recvCount]
          exact (by decide : (0 : Int) ≠ -1)
      | readRecv count =>
          rw [hdata] at hspent
          simp only [step, hdata, Option.some.injEq] at hstep
          subst hstep
          have hcount : count ≠ s.conn.theoreticalTotalRecvCount := by
            rw [hclosed.idle.theoreticalTotalRecvCount]
            exact hspent
          rw [if_neg hcount]
          exact { hclosed with closer := .notice point hnotice hshuts trivial }
      | checking other =>
          rw [hdata] at hspent
          simp only [step, hdata, Option.map_eq_some_iff] at hstep
          obtain ⟨⟨next, after⟩, hcheck, rfl⟩ := hstep
          obtain ⟨rfl, hafter⟩ := checks_of_spent hspent hclosed.idle (checks_of_check hcheck)
          exact { hclosed with closer := .notice point hnotice hshuts hafter }

theorem Closed.noticeStep (hclosed : Closed total s) (hstep : step total s .notice = some s') :
    Closed total s' := by
  cases hclosed.closer with
  | notice point hnotice hshuts hdata =>
      simp only [step, hnotice, Option.map_eq_some_iff] at hstep
      obtain ⟨⟨next, after⟩, hcheck, rfl⟩ := hstep
      have hchecks : Checks s point next after := checks_of_check hcheck
      cases hchecks with
      | free => exact { hclosed with closer := .notice .shut rfl rfl hdata }
      | enter | quit | decide | half | reset => cases hshuts
  | data point hdata hshuts hspent =>
      cases hnotice : s.notice with
      | waiting => simp [step, hnotice] at hstep
      | checking other =>
          rw [hnotice] at hspent
          simp only [step, hnotice, Option.map_eq_some_iff] at hstep
          obtain ⟨⟨next, after⟩, hcheck, rfl⟩ := hstep
          obtain ⟨rfl, hafter⟩ := checks_of_spent hspent hclosed.idle (checks_of_check hcheck)
          exact { hclosed with closer := .data point hdata hshuts hafter }

theorem Closed.step {event : CompletionEvent} (hclosed : Closed total s)
    (hstep : Completion.step total s event = some s') : Closed total s' := by
  cases event with
  | data => exact hclosed.dataStep hstep
  | notice => exact hclosed.noticeStep hstep
  | chunk => simp [Completion.step, hclosed.chunks] at hstep
  | announce =>
      simp only [Completion.step, Option.ite_none_right_eq_some] at hstep
      cases hclosed.closer with
      | data point hdata hshuts hspent =>
          rw [hstep.1] at hspent
          exact hspent.elim
      | notice point hnotice =>
          rw [hstep.1] at hnotice
          cases hnotice
  | endLocal => simp [Completion.step, hclosed.localEnded] at hstep

theorem Inv.step {event : CompletionEvent} (hinv : Inv total s) (htotal : (total : Int) ≤ intMax)
    (hlaw : ReadsInTurn s event) (hstep : Completion.step total s event = some s') :
    Inv total s' := by
  cases hinv with
  | closed hclosed => exact .closed (hclosed.step hstep)
  | live hlive =>
      cases event with
      | chunk => exact .live (hlive.chunk htotal hstep)
      | data => exact hlive.dataStep hlaw hstep
      | announce => exact .live (hlive.announce htotal hstep)
      | notice => exact hlive.noticeStep hlaw hstep
      | endLocal => exact hlive.endLocal hstep

theorem Inv.proper (hinv : Inv total s) : Proper total s := by
  cases hinv with
  | closed hclosed =>
      constructor
      · intro reset hreset
        rw [hclosed.resets, List.mem_singleton] at hreset
        subst hreset
        exact ⟨rfl, rfl⟩
      · intro hopen
        simp [hclosed.localEnded] at hopen
      · exact hclosed.once.le
  | live hlive =>
      constructor
      · simp [hlive.resets]
      · exact fun _ => hlive.frees
      · rw [hlive.shuts]
        by_cases hdata : s.data.shuts = 0
        · rw [hdata, Nat.zero_add]
          exact NoticePoint.shuts_le _
        · have hnotice : s.notice.shuts = 0 := by
            by_contra hsome
            exact hlive.apart ⟨DataPoint.decided_of_shuts hdata,
              NoticePoint.decided_of_shuts hsome⟩
          rw [hnotice, Nat.add_zero]
          exact DataPoint.shuts_le _

/-- When all is done, one of the threads has made the shutdown. -/
theorem Inv.once (hinv : Inv total s) (hfinished : s.Finished) : s.conn.shutWr.length = 1 := by
  obtain ⟨hchunks, hfree, hnotice⟩ := hfinished
  cases hinv with
  | closed hclosed => exact hclosed.once
  | live hlive =>
      by_cases hshut : s.conn.shutWr = []
      · have hshuts := hlive.shuts
        have hsound := hlive.notice
        rw [hshut, List.length_nil] at hshuts
        rcases hnotice with hquit | hdone
        · rw [hquit] at hsound
          have hbusy := hsound hchunks
          have hdata := hlive.data
          cases hpoint : s.data with
          | idle => exact absurd hpoint hbusy
          | counted | readRecv => simp [hpoint, DataPoint.Free] at hfree
          | checking point =>
              rw [hpoint] at hdata hshuts hfree
              cases point with
              | entered | readTheoretical | shutting | freeing => exact hfree.elim
              | quit => exact hdata.2.2.2.elim
              | shut =>
                  simp only [DataPoint.shuts, CheckPoint.shuts] at hshuts
                  omega
        · rw [hdone] at hshuts
          simp [NoticePoint.shuts, CheckPoint.shuts] at hshuts
      · exact (hlive.closer_of_shut hfree hshut).2.1

/-! ## Two checks that succeed -/

/-- Both threads are at, or past, their shutdown. -/
structure Doubled (s : Completion) : Prop where
  chunks : s.chunks = []
  data : s.data.Decided
  notice : s.notice.Decided
  shuts : s.conn.shutWr.length = s.data.shuts + s.notice.shuts

theorem Checks.decided {point after : CheckPoint} {next : Completion}
    (hchecks : Checks s point next after) (hdecided : point.Decided) :
    after.Decided ∧
      next.conn.shutWr.length + point.shuts = s.conn.shutWr.length + after.shuts := by
  cases hchecks with
  | enter | quit | decide => exact hdecided.elim
  | half => exact ⟨trivial, by simp [CheckPoint.shuts]⟩
  | reset => exact ⟨trivial, by simp [CheckPoint.shuts, ProxyConn.resetConn]⟩
  | free => exact ⟨trivial, rfl⟩

theorem Doubled.step {event : CompletionEvent} (hdoubled : Doubled s)
    (hstep : Completion.step total s event = some s') : Doubled s' := by
  obtain ⟨hchunks, hdata, hnotice, hshuts⟩ := hdoubled
  cases event with
  | chunk => simp [Completion.step, hchunks] at hstep
  | announce =>
      simp only [Completion.step, Option.ite_none_right_eq_some] at hstep
      rw [hstep.1] at hnotice
      exact hnotice.elim
  | endLocal =>
      simp only [Completion.step, Option.ite_none_right_eq_some] at hstep
      obtain ⟨_, hsome⟩ := hstep
      obtain rfl := Option.some.inj hsome
      refine ⟨hchunks, hdata, hnotice, ?_⟩
      rw [← hshuts]
      simp only [ProxyConn.shutdownFromLocal]
      split
      · rfl
      · rfl
  | data =>
      cases hpoint : s.data with
      | idle | counted | readRecv =>
          rw [hpoint] at hdata
          exact hdata.elim
      | checking point =>
          rw [hpoint] at hdata hshuts
          simp only [Completion.step, hpoint, Option.map_eq_some_iff] at hstep
          obtain ⟨⟨next, after⟩, hcheck, rfl⟩ := hstep
          have hchecks : Checks s point next after := checks_of_check hcheck
          obtain ⟨hsame, _, hother⟩ := hchecks.frame
          obtain ⟨hafter, hcount⟩ := hchecks.decided hdata
          refine ⟨hsame.trans hchunks, hafter, ?_, ?_⟩
          · change next.notice.Decided
            rw [hother]
            exact hnotice
          · change next.conn.shutWr.length = after.shuts + next.notice.shuts
            rw [hother]
            simp only [DataPoint.shuts] at hshuts hcount
            omega
  | notice =>
      cases hpoint : s.notice with
      | waiting =>
          rw [hpoint] at hnotice
          exact hnotice.elim
      | checking point =>
          rw [hpoint] at hnotice hshuts
          simp only [Completion.step, hpoint, Option.map_eq_some_iff] at hstep
          obtain ⟨⟨next, after⟩, hcheck, rfl⟩ := hstep
          have hchecks : Checks s point next after := checks_of_check hcheck
          obtain ⟨hsame, hother, _⟩ := hchecks.frame
          obtain ⟨hafter, hcount⟩ := hchecks.decided hnotice
          refine ⟨hsame.trans hchunks, ?_, hafter, ?_⟩
          · change next.data.Decided
            rw [hother]
            exact hdata
          · change next.conn.shutWr.length = next.data.shuts + after.shuts
            rw [hother]
            simp only [NoticePoint.shuts] at hshuts hcount
            omega

theorem Doubled.twice (hdoubled : Doubled s) (hfinished : s.Finished) :
    s.conn.shutWr.length = 2 := by
  obtain ⟨_, hdata, hnotice, hshuts⟩ := hdoubled
  obtain ⟨_, hfree, hdone⟩ := hfinished
  have hshut : s.notice = .checking .shut := by
    rcases hdone with hquit | hshut
    · rw [hquit] at hnotice
      exact hnotice.elim
    · exact hshut
  rw [hshuts, hshut]
  cases hpoint : s.data with
  | idle | counted | readRecv =>
      rw [hpoint] at hdata
      exact hdata.elim
  | checking point =>
      rw [hpoint] at hdata hfree
      cases point with
      | shut => rfl
      | entered | readTheoretical | quit => exact hdata.elim
      | shutting | freeing => exact hfree.elim

/-- A thread that reads out of turn comes to the same result as the other. -/
theorem Inv.doubled {event : CompletionEvent} (hinv : Inv total s)
    (hlaw : ¬ ReadsInTurn s event) (hstep : Completion.step total s event = some s') :
    Doubled s' := by
  have hlive (hstart : s.conn.isStart ≠ false) : Live total s := by
    cases hinv with
    | live hlive => exact hlive
    | closed hclosed => exact absurd hclosed.idle.isStart hstart
  cases event with
  | chunk | announce | endLocal => exact absurd trivial hlaw
  | data =>
      unfold ReadsInTurn at hlaw
      push Not at hlaw
      obtain ⟨count, hdata, hnotice, hstart⟩ := hlaw
      have hlive := hlive hstart
      have hsound := hlive.data
      have hshuts := hlive.shuts
      rw [hdata] at hsound hshuts
      obtain ⟨_, hchunks, _, hcount⟩ := hsound
      have hall : s.conn.recvCount = count :=
        (hlive.chunks_eq_nil_iff.mpr hchunks).trans (Eq.symm hcount)
      subst hall
      simp [Completion.step, hdata, check] at hstep
      subst hstep
      exact ⟨hchunks, trivial, hnotice, hshuts⟩
  | notice =>
      unfold ReadsInTurn at hlaw
      push Not at hlaw
      obtain ⟨count, hnotice, hdata, hstart⟩ := hlaw
      have hlive := hlive hstart
      have hsound := hlive.notice
      have hshuts := hlive.shuts
      rw [hnotice] at hsound hshuts
      have hchunks : s.chunks = [] := by
        have hbusy := hlive.data
        cases hpoint : s.data with
        | idle | counted | readRecv =>
            rw [hpoint] at hdata
            exact hdata.elim
        | checking point =>
            rw [hpoint] at hbusy
            exact hbusy.2.1
      have hall : s.conn.recvCount = count :=
        (hlive.chunks_eq_nil_iff.mpr hchunks).trans (Eq.symm hsound.1)
      subst hall
      simp [Completion.step, hnotice, check] at hstep
      subst hstep
      exact ⟨hchunks, hdata, trivial, hshuts⟩

/-- Made in a row, the calls of a thread are the check of the tunnel's model. -/
theorem run_in_a_row (hnotice : s.notice = .checking .entered) :
    ∃ events final, run (Completion.step total) s events = some final ∧
      (∀ event ∈ events, event = .notice) ∧ final.conn = s.conn.shutdownWhenComplete.1 ∧
        (final.notice = .checking .freeing ↔ s.conn.shutdownWhenComplete.2 = true) := by
  by_cases hcount : s.conn.recvCount = s.conn.theoreticalTotalRecvCount
  · refine ⟨[.notice, .notice, .notice], { s with
      conn := s.conn.shutdownFromRemote.1
      resets := s.resets ++
        if s.conn.shutdownFromRemote.2 then [⟨s.localEnded, s.conn.recvCount⟩] else []
      notice := .checking (if s.conn.shutdownFromRemote.2 then .freeing else .shut) }, ?_,
      by simp, ?_⟩
    · simp [run, Completion.step, hnotice, check, hcount]
    · rw [ProxyConn.shutdownWhenComplete_of_eq hcount]
      cases hfree : s.conn.shutdownFromRemote.2 with
      | false => simp
      | true => simp
  · refine ⟨[.notice, .notice], { s with notice := .checking .quit }, ?_, by simp, ?_⟩
    · simp [run, Completion.step, hnotice, check, hcount]
    · rw [ProxyConn.shutdownWhenComplete_of_ne hcount]
      simp

theorem live_start (publicFd : Fd) {chunks : List Nat} (hpositive : ∀ count ∈ chunks, 0 < count) :
    Live chunks.sum (start publicFd chunks) where
  isStart := rfl
  positive := hpositive
  counted := le_refl _
  recvCount := by simp [start]
  unannounced := fun _ => rfl
  announced := fun hnot => absurd rfl hnot
  halfClose := by simp [start]
  unshut := nofun
  shuts := rfl
  data := trivial
  notice := trivial
  apart := fun hdecided => hdecided.1
  resets := rfl
  frees := rfl

end Completion

open Completion in
/-- In every interleaving nothing is reset or freed too early while the threads make
their last reads in turn, and when they have finished, the remote direction has been
shut down exactly once just when they did. -/
theorem one_remote_shutdown_iff (publicFd : Fd) (chunks : List Nat)
    (hpositive : ∀ count ∈ chunks, 0 < count) (htotal : (chunks.sum : Int) ≤ intMax) :
    (∀ events,
      Takes (step chunks.sum) ReadsInTurn (start publicFd chunks) events →
        Visits (step chunks.sum) (Proper chunks.sum) (start publicFd chunks) events) ∧
    ∀ events final, run (step chunks.sum) (start publicFd chunks) events = some final →
      final.Finished →
        ((final.conn.shutWr.length = 1 ∧
            Visits (step chunks.sum) (Proper chunks.sum) (start publicFd chunks) events) ↔
          Takes (step chunks.sum) ReadsInTurn (start publicFd chunks) events) := by
  have hinit : Inv chunks.sum (start publicFd chunks) := .live (live_start publicFd hpositive)
  have hstep (s : Completion) (event : CompletionEvent) (s' : Completion) (hinv : Inv chunks.sum s)
      (hlaw : ReadsInTurn s event) (hnext : step chunks.sum s event = some s') :
      Inv chunks.sum s' := hinv.step htotal hlaw hnext
  have hproper (events : List CompletionEvent)
      (htakes : Takes (step chunks.sum) ReadsInTurn (start publicFd chunks) events) :
      Visits (step chunks.sum) (Proper chunks.sum) (start publicFd chunks) events :=
    fun before middle hbefore hmiddle =>
      (run_invariant_of_takes hstep hinit (htakes.of_initial hbefore) hmiddle).proper
  refine ⟨hproper, fun events final hrun hfinished => ⟨fun hgood => ?_, fun htakes => ?_⟩⟩
  · by_contra hnot
    have hdoubled : Doubled final := spoiled_of_not_takes hstep
      (fun _ _ _ hinv hlaw hnext => hinv.doubled hlaw hnext)
      (fun _ _ _ hdoubled hnext => hdoubled.step hnext) hinit hnot hrun
    have htwice := hdoubled.twice hfinished
    rw [hgood.1] at htwice
    cases htwice
  · exact ⟨(run_invariant_of_takes hstep hinit htakes hrun).once hfinished, hproper events htakes⟩

/-! ## Counting apart -/

namespace Completion

variable {total : Nat} {s s' : Completion}

/-- Neither thread makes the last count of its own while the other stands between its
count and its read of this one. -/
def CountsApart (s : Completion) : CompletionEvent → Prop
  | .chunk => s.chunks.length = 1 → s.notice = .waiting ∨ s.notice = .checking .quit
  | .announce => s.chunks = [] → s.data = .idle
  | _ => True

/-- Once all is counted, the worker thread has given up to a control thread that goes on. -/
def GivenUp (s : Completion) : Prop :=
  s.chunks = [] → s.data = .idle ∨ s.notice = .waiting ∨ s.notice = .checking .quit

theorem GivenUp.readsInTurn {event : CompletionEvent} (hgiven : GivenUp s) (hinv : Inv total s) :
    ReadsInTurn s event := by
  cases hinv with
  | closed hclosed =>
      cases event with
      | data | notice => exact fun _ _ _ => hclosed.idle.isStart
      | chunk | announce | endLocal => trivial
  | live hlive =>
      have hsound := hlive.data
      cases event with
      | chunk | announce | endLocal => trivial
      | data =>
          intro count hdata hdecided
          rw [hdata] at hsound
          rcases hgiven hsound.2.1 with hidle | hwaiting | hquit
          · simp [hdata] at hidle
          · exact absurd hwaiting hsound.2.2.1
          · rw [hquit] at hdecided
            exact hdecided.elim
      | notice =>
          intro count hnotice hdecided
          cases hdata : s.data with
          | idle | counted | readRecv =>
              rw [hdata] at hdecided
              exact hdecided.elim
          | checking point =>
              rw [hdata] at hsound
              rcases hgiven hsound.2.1 with hidle | hwaiting | hquit
              · simp [hdata] at hidle
              · simp [hnotice] at hwaiting
              · simp [hnotice] at hquit

theorem GivenUp.step {event : CompletionEvent} (hgiven : GivenUp s) (hapart : CountsApart s event)
    (hstep : Completion.step total s event = some s') : GivenUp s' := by
  intro hchunks
  cases event with
  | chunk =>
      simp only [Completion.step] at hstep
      split at hstep
      · cases hstep
      · next count rest hbefore =>
          rw [Option.ite_none_right_eq_some] at hstep
          obtain rfl := Option.some.inj hstep.2
          have hnone : rest = [] := hchunks
          exact Or.inr (hapart (by rw [hbefore, hnone]; rfl))
  | announce =>
      simp only [Completion.step, Option.ite_none_right_eq_some] at hstep
      obtain rfl := Option.some.inj hstep.2
      exact Or.inl (hapart hchunks)
  | endLocal =>
      simp only [Completion.step, Option.ite_none_right_eq_some] at hstep
      obtain rfl := Option.some.inj hstep.2
      exact hgiven hchunks
  | data =>
      cases hdata : s.data with
      | idle => simp [Completion.step, hdata] at hstep
      | counted | readRecv =>
          simp only [Completion.step, hdata, Option.some.injEq] at hstep
          subst hstep
          rcases hgiven hchunks with hidle | hnotice
          · simp [hdata] at hidle
          · exact Or.inr hnotice
      | checking point =>
          simp only [Completion.step, hdata, Option.map_eq_some_iff] at hstep
          obtain ⟨⟨next, after⟩, hcheck, rfl⟩ := hstep
          obtain ⟨hsame, _, hother⟩ := (checks_of_check hcheck).frame
          rcases hgiven (hsame.symm.trans hchunks) with hidle | hnotice
          · simp [hdata] at hidle
          · rw [← hother] at hnotice
            exact Or.inr hnotice
  | notice =>
      cases hnotice : s.notice with
      | waiting => simp [Completion.step, hnotice] at hstep
      | checking point =>
          simp only [Completion.step, hnotice, Option.map_eq_some_iff] at hstep
          obtain ⟨⟨next, after⟩, hcheck, rfl⟩ := hstep
          obtain ⟨hsame, hother, _⟩ := (checks_of_check hcheck).frame
          rcases hgiven (hsame.symm.trans hchunks) with hidle | hwaiting | hquit
          · exact Or.inl (hother.trans hidle)
          · simp [hnotice] at hwaiting
          · rw [hnotice, NoticePoint.checking.injEq] at hquit
            subst hquit
            cases hcheck

/-- Threads that count apart make their last reads in turn. -/
theorem takes_readsInTurn_of_countsApart (publicFd : Fd) {chunks : List Nat}
    (hpositive : ∀ count ∈ chunks, 0 < count) (htotal : (chunks.sum : Int) ≤ intMax)
    {events : List CompletionEvent}
    (htakes : Takes (Completion.step chunks.sum) CountsApart (start publicFd chunks) events) :
    Takes (Completion.step chunks.sum) ReadsInTurn (start publicFd chunks) events := by
  have hinit : Inv chunks.sum (start publicFd chunks) ∧ GivenUp (start publicFd chunks) :=
    ⟨.live (live_start publicFd hpositive), fun _ => Or.inl rfl⟩
  have hstep (s : Completion) (event : CompletionEvent) (s' : Completion)
      (hs : Inv chunks.sum s ∧ GivenUp s) (hapart : CountsApart s event)
      (hnext : Completion.step chunks.sum s event = some s') : Inv chunks.sum s' ∧ GivenUp s' :=
    ⟨hs.1.step htotal (hs.2.readsInTurn hs.1) hnext, hs.2.step hapart hnext⟩
  intro before event middle next hbefore hmiddle hnext
  have hearlier : before <+: events := (List.prefix_append before [event]).trans hbefore
  have hreached := run_invariant_of_takes hstep hinit (htakes.of_initial hearlier) hmiddle
  exact hreached.2.readsInTurn hreached.1

end Completion

/-- Two chunks of three bytes in all, the announcement before the second, and the
local stream at last. -/
def sampleTurns : List CompletionEvent :=
  [.chunk, .data, .data, .announce, .notice, .notice, .chunk, .data, .data, .data, .data, .data,
    .endLocal]

open Completion in
theorem one_remote_shutdown_iff_sample :
    ∃ final, run (step 3) (start 5 [1, 2]) sampleTurns = some final ∧ final.Finished ∧
      final.conn.shutWr.length = 1 ∧ final.conn.isStart = false := by
  refine ⟨_, rfl, by decide, ?_, rfl⟩
  have hiff := (one_remote_shutdown_iff 5 [1, 2] (by decide) (by decide)).2 sampleTurns _ rfl
    (by decide)
  refine (hiff.mpr ?_).1
  refine .cons rfl trivial (.cons rfl nofun (.cons rfl nofun (.cons rfl trivial ?_)))
  refine .cons rfl nofun (.cons rfl (fun _ _ hdecided => hdecided.elim) (.cons rfl trivial ?_))
  refine .cons rfl nofun (.cons rfl nofun (.cons rfl nofun ?_))
  exact .cons rfl (fun _ _ hdecided => hdecided.elim)
    (.cons rfl nofun (.cons rfl trivial (takes_nil _ _)))

/-- The announcement is counted between the last chunk and the worker thread's check. -/
def sampleCrossed : List CompletionEvent :=
  [.chunk, .announce, .data, .data, .data, .notice, .data, .notice, .data, .notice, .notice]

open Completion in
/-- Both threads make the shutdown, and the second one resets and frees the connection
while the local stream goes on. -/
theorem not_one_remote_shutdown :
    ¬ (∀ publicFd chunks, (∀ count ∈ chunks, 0 < count) → (chunks.sum : Int) ≤ intMax →
      ∀ events final, run (step chunks.sum) (start publicFd chunks) events = some final →
        final.Finished → final.conn.shutWr.length = 1) ∧
    (run (step 1) (start 5 [1]) sampleCrossed).map
      (fun s => (s.localEnded, s.resets, s.frees, s.conn.isStart)) =
        some (false, [⟨false, 1⟩], 1, false) := by
  refine ⟨fun hall => ?_, rfl⟩
  have honce := hall 5 [1] (by decide) (by decide) sampleCrossed _ rfl (by decide)
  exact absurd honce (by decide)

end CProxy
