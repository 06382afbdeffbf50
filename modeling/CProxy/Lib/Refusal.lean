import CProxy.Lib.BufferedConn

/-! # When a write is refused

`ensureInsert` asks whether the capacity plus the new bytes exceeds the limit, not whether
the unread bytes and the new ones do. `none` stands for an `int` out of range.
-/

namespace CProxy

open Foundation Wire

/-- What happens to a buffer: a call, or a `write(2)` of `WriteToSock` that takes
something. -/
inductive HistoryOp where
  | call (op : BufferOp)
  | drain (count : Nat)

/-- The length is an `int`, and the pointer that goes with it points to that many bytes. -/
def HistoryOp.Valid : HistoryOp → Prop
  | .call (.write data expectLen) => expectLen ≤ intMax ∧ expectLen ≤ data.length
  | .call (.read expectLen) => expectLen ≤ intMax
  | .drain _ => True

namespace Buffer

def drain (buffer : Buffer) (count : Nat) : Option Buffer :=
  buffer.getUnreadSize.map fun unread =>
    if unread = 0 then buffer
    else (({ buffer := buffer } : SockWriter).answer (.wrote count)).buffer

def historyStep (buffer : Buffer) : HistoryOp → Option Buffer
  | .call op => (op.apply buffer).map Prod.snd
  | .drain count => buffer.drain count

/-- `WriteToBuffer` takes the bytes exactly when they fit below the limit. -/
def AcceptsFitting (buffer : Buffer) (data : List UInt8) (expectLen : Int) : Prop :=
  ∃ unread writeNum next, buffer.getUnreadSize = some unread ∧
    buffer.writeToBuffer data expectLen = some (writeNum, next) ∧
      ((writeNum : Int) = expectLen ↔ unread + expectLen ≤ buffer.maxCapacity)

/-- The bytes fit without growing, or the limit leaves room for them behind the whole
capacity, or they do not fit and the sum that shows it is an `int`. -/
def ShowsRoom (buffer : Buffer) (expectLen : Int) : Prop :=
  ∃ unread, buffer.getUnreadSize = some unread ∧
    (unread + expectLen ≤ buffer.capacity ∨ buffer.capacity + expectLen ≤ buffer.maxCapacity ∨
      buffer.maxCapacity < unread + expectLen ∧ buffer.capacity + expectLen ≤ intMax)

end Buffer

namespace BufferedConn

/-- `SendMsg` drops the message: the buffer is as it was. -/
def Refuses (conn : BufferedConn) (msg : Msg) : Prop :=
  (conn.sendMsg msg).map outBuffer = some conn.outBuffer

/-- It does so only when the unsent bytes and the message exceed the limit. -/
def RefusesOnlyFull (conn : BufferedConn) (msg : Msg) : Prop :=
  ∃ unread, conn.outBuffer.getUnreadSize = some unread ∧
    (conn.Refuses msg → conn.outBuffer.maxCapacity < unread + msg.len)

end BufferedConn

namespace Buffer

variable {buffer next : Buffer} {queue : BoundedQueue UInt8} {data : List UInt8} {expectLen : Int}

/-! ## Exactly which writes are refused -/

/-- Without room in the capacity and behind it, the write is refused, or the sum that
would show it is no `int`. -/
theorem Represents.writeToBuffer_full (hrep : buffer.Represents queue) (hpos : 0 < expectLen)
    (hfull : queue.capacity < queue.items.length + expectLen)
    (hmax : queue.maxCapacity < queue.capacity + expectLen) :
    buffer.writeToBuffer data expectLen =
      if queue.capacity + expectLen ≤ intMax then some (0, buffer) else none := by
  have hfree : ¬ (queue.capacity : Int) - queue.items.length ≥ expectLen.toNat := by omega
  rw [Buffer.writeToBuffer, if_neg (Int.not_le.mpr hpos), Buffer.ensureInsert, hrep.getFreeSize,
    Option.bind_eq_bind, Option.bind_eq_bind, Option.bind_some, if_neg hfree, hrep.capacity,
    hrep.maxCapacity]
  by_cases hint : queue.capacity + expectLen ≤ intMax
  · have hsum : intResult (queue.capacity + expectLen.toNat) =
        some (queue.capacity + expectLen.toNat) := by
      unfold intResult
      exact if_pos (by omega)
    rw [if_pos hint, hsum, Option.bind_eq_bind, Option.bind_some, if_pos (by omega)]
    rfl
  · have hsum : intResult (queue.capacity + expectLen.toNat) = none := by
      unfold intResult
      exact if_neg (by omega)
    rw [if_neg hint, hsum]
    rfl

theorem Represents.writeToBuffer_room (hrep : buffer.Represents queue) (hpos : 0 < expectLen)
    (hdata : expectLen ≤ data.length)
    (hroom : queue.items.length + expectLen ≤ queue.capacity ∨
      queue.capacity + expectLen ≤ queue.maxCapacity) :
    ∃ next written, buffer.writeToBuffer data expectLen = some (expectLen.toNat, next) ∧
      next.Represents written ∧
      written.items.length = queue.items.length + expectLen.toNat := by
  have hsmall := hrep.small
  have hbounded := queue.bounded
  rcases hrep.writeToBuffer hpos (by omega) hdata with ⟨-, hfull, hmax⟩ |
    ⟨next, written, hwrite, hwritten, hitems, -⟩
  · omega
  · refine ⟨next, written, hwrite, hwritten, ?_⟩
    rw [hitems, List.length_append, List.length_take_of_le (by omega)]

theorem Represents.acceptsFitting_iff (hrep : buffer.Represents queue) (hpos : 0 < expectLen)
    (hdata : expectLen ≤ data.length) :
    buffer.AcceptsFitting data expectLen ↔ buffer.ShowsRoom expectLen := by
  have hsize := hrep.getUnreadSize
  have hcapacity := hrep.capacity
  have hmaxCapacity := hrep.maxCapacity
  have hfits := queue.fits
  have hbounded := queue.bounded
  unfold AcceptsFitting ShowsRoom
  simp only [hsize, Option.some.injEq, exists_and_left, exists_eq_left', hcapacity, hmaxCapacity]
  by_cases hroom : queue.items.length + expectLen ≤ queue.capacity ∨
      queue.capacity + expectLen ≤ queue.maxCapacity
  · obtain ⟨next, written, hwrite, -⟩ := hrep.writeToBuffer_room hpos hdata hroom
    refine iff_of_true ⟨expectLen.toNat, next, hwrite, ?_⟩ (by omega)
    refine iff_of_true (Int.toNat_of_nonneg hpos.le) (by omega)
  · rw [hrep.writeToBuffer_full hpos (by omega) (by omega)]
    by_cases hint : queue.capacity + expectLen ≤ intMax
    · rw [if_pos hint]
      constructor
      · rintro ⟨writeNum, next, hwrite, haccepts⟩
        obtain ⟨rfl, rfl⟩ := Prod.mk.inj (Option.some.inj hwrite)
        -- nothing was taken, so by what is claimed the bytes do not fit
        have hnot : ¬ queue.items.length + expectLen ≤ queue.maxCapacity :=
          fun hfit => absurd (haccepts.mpr hfit) (by omega)
        omega
      · intro hshows
        exact ⟨0, buffer, rfl, iff_of_false (by omega) (by omega)⟩
    · rw [if_neg hint]
      refine iff_of_false ?_ (by omega)
      rintro ⟨writeNum, next, hwrite, -⟩
      cases hwrite

/-! ## Messages -/

theorem structBytes_makeMsg_length (type : Nat) {body : List UInt8}
    (hbody : body.length ≤ maxMsgLen) :
    (makeMsg type body).structBytes.length = msgSize := by
  simp only [Msg.structBytes, makeMsg, List.length_append, beBytes_length, leBytes_length,
    List.length_replicate, msgSize]
  omega

/-- The length that `SendMsg` hands to `WriteToBuffer`. -/
theorem int32_uint32_makeMsg (type : Nat) {body : List UInt8} (hbody : body.length ≤ maxMsgLen) :
    uint32 (makeMsg type body).len = 8 + body.length ∧
      int32 (uint32 (makeMsg type body).len) = 8 + body.length := by
  have hlen : uint32 (makeMsg type body).len = 8 + body.length := by
    change uint32 ((4 + 4 + body.length : Nat) : Int) = 8 + body.length
    unfold uint32 maxMsgLen at *
    omega
  refine ⟨hlen, ?_⟩
  rw [hlen]
  unfold int32 maxMsgLen at *
  omega

theorem sendMsg_makeMsg (conn : BufferedConn) (type : Nat) {body : List UInt8}
    (hbody : body.length ≤ maxMsgLen) :
    conn.sendMsg (makeMsg type body) =
      (conn.outBuffer.writeToBuffer (makeMsg type body).structBytes (8 + body.length)).map
        fun written =>
          let conn := { conn with outBuffer := written.2 }
          if written.1 ≠ 8 + body.length then conn
          else (conn.addEvents {.epollout}).updateToPoller := by
  obtain ⟨hlen, hint⟩ := int32_uint32_makeMsg type hbody
  simp only [BufferedConn.sendMsg]
  rw [hint, hlen]

theorem Represents.refusesOnlyFull_iff {conn : BufferedConn}
    (hrep : conn.outBuffer.Represents queue) (type : Nat) {body : List UInt8}
    (hbody : body.length ≤ maxMsgLen) :
    conn.RefusesOnlyFull (makeMsg type body) ↔
      conn.outBuffer.ShowsRoom (8 + body.length) := by
  have hsize := hrep.getUnreadSize
  have hmax := hrep.maxCapacity
  have hcapacity := hrep.capacity
  have hsmall := hrep.small
  have hbounded := queue.bounded
  have hfits := queue.fits
  have hpos : (0 : Int) < 8 + body.length := by omega
  have hdata : (8 + body.length : Int) ≤ (makeMsg type body).structBytes.length := by
    rw [structBytes_makeMsg_length type hbody]
    unfold msgSize
    omega
  have hmsg : (makeMsg type body).len = 8 + body.length := rfl
  have hmsgSize : 8 + body.length ≤ 2056 := by
    unfold maxMsgLen at hbody
    omega
  unfold BufferedConn.RefusesOnlyFull BufferedConn.Refuses ShowsRoom
  simp only [sendMsg_makeMsg conn type hbody, hsize, Option.some.injEq, exists_eq_left', hmsg,
    hmax, hcapacity]
  by_cases hroom : queue.items.length + (8 + body.length : Int) ≤ queue.capacity ∨
      queue.capacity + (8 + body.length : Int) ≤ queue.maxCapacity
  · obtain ⟨next, written, hwrite, hwritten, hmore⟩ := hrep.writeToBuffer_room hpos hdata hroom
    refine iff_of_true ?_ (by omega)
    intro hsame
    -- a buffer that took the message has more unread bytes
    rw [hwrite, Option.map_some, Option.map_some,
      if_neg (show ¬ (8 + body.length : Int).toNat ≠ 8 + body.length by omega)] at hsame
    have heq : next = conn.outBuffer := Option.some.inj hsame
    have hunread := hwritten.getUnreadSize
    rw [heq, hsize] at hunread
    have hcount := Option.some.inj hunread
    omega
  · rw [hrep.writeToBuffer_full hpos (by omega) (by omega), if_pos (by unfold intMax; omega),
      Option.map_some, Option.map_some, if_pos (show 0 ≠ 8 + body.length by omega)]
    unfold intMax
    constructor
    · intro honly
      have hover := honly rfl
      omega
    · intro hshows _
      omega

/-! ## Any history -/

/-- Whatever a buffer is asked for, what it holds is a bounded queue with the same limit. -/
theorem Represents.call (hrep : buffer.Represents queue) {op : BufferOp}
    (hvalid : (HistoryOp.call op).Valid) (hcall : (op.apply buffer).map Prod.snd = some next) :
    ∃ after, next.Represents after ∧ after.maxCapacity = queue.maxCapacity := by
  have hbounded := queue.bounded
  have hsmall := hrep.small
  have hitems := hrep.items_small
  cases op with
  | write data expectLen =>
      rcases Int.lt_or_le 0 expectLen with hpos | hnone
      · by_cases hroom : queue.items.length + expectLen ≤ queue.capacity ∨
            queue.capacity + expectLen ≤ queue.maxCapacity
        · have hlt : expectLen < 536870912 := by omega
          rcases hrep.writeToBuffer hpos hlt hvalid.2 with ⟨hwrite, -, -⟩ |
            ⟨written, after, hwrite, hafter, -, -, hmax⟩
          · simp only [BufferOp.apply, hwrite, Option.map_some, Option.some.injEq] at hcall
            exact ⟨queue, hcall ▸ hrep, rfl⟩
          · simp only [BufferOp.apply, hwrite, Option.map_some, Option.some.injEq] at hcall
            exact ⟨after, hcall ▸ hafter, hmax⟩
        · rw [BufferOp.apply, hrep.writeToBuffer_full hpos (by omega) (by omega)] at hcall
          by_cases hint : queue.capacity + expectLen ≤ intMax
          · simp only [if_pos hint, Option.map_some, Option.some.injEq] at hcall
            exact ⟨queue, hcall ▸ hrep, rfl⟩
          · simp [if_neg hint] at hcall
      · simp only [BufferOp.apply, Buffer.writeToBuffer, if_pos hnone, Option.map_some,
          Option.some.injEq] at hcall
        exact ⟨queue, hcall ▸ hrep, rfl⟩
  | read expectLen =>
      rcases Int.lt_or_le 0 expectLen with hpos | hnone
      · by_cases hunread : expectLen ≤ queue.items.length
        · obtain ⟨left, hread, hleft⟩ := hrep.read_taken hpos hunread
          simp only [BufferOp.apply, hread, Option.map_some, Option.some.injEq] at hcall
          exact ⟨queue.drop expectLen.toNat, hcall ▸ hleft, rfl⟩
        · simp only [BufferOp.apply, hrep.read_short (Int.not_le.mp hunread), Option.map_some,
            Option.some.injEq] at hcall
          exact ⟨queue, hcall ▸ hrep, rfl⟩
      · simp only [BufferOp.apply, Buffer.read, if_pos hnone, Option.map_some,
          Option.some.injEq] at hcall
        exact ⟨queue, hcall ▸ hrep, rfl⟩

theorem Represents.drain (hrep : buffer.Represents queue) {count : Nat}
    (hdrain : buffer.drain count = some next) :
    ∃ after, next.Represents after ∧ after.maxCapacity = queue.maxCapacity := by
  rw [Buffer.drain, hrep.getUnreadSize, Option.map_some, Option.some.injEq] at hdrain
  by_cases hempty : queue.items.length = 0
  · rw [if_pos hempty] at hdrain
    exact ⟨queue, hdrain ▸ hrep, rfl⟩
  · rw [if_neg hempty] at hdrain
    have hrunning : ¬ SockWriter.Returned { buffer := buffer } := by
      rintro (hzero | hstopped)
      · exact hempty (Option.some.inj (hrep.getUnreadSize.symm.trans hzero))
      · cases hstopped
    obtain ⟨hsettled, -⟩ :=
      (SockWriter.settled_init hrep).wrote hrep.items_small hrunning count
    obtain ⟨rest, hrest, -⟩ := hsettled.split
    refine ⟨rest, hdrain ▸ hrest, ?_⟩
    rw [← hrest.maxCapacity, ← hrep.maxCapacity]
    simp only [SockWriter.answer, SockWriter.afterWrite]
    split <;> rfl

theorem Represents.historyStep (hrep : buffer.Represents queue) {op : HistoryOp}
    (hvalid : op.Valid) (hstep : buffer.historyStep op = some next) :
    ∃ after, next.Represents after ∧ after.maxCapacity = queue.maxCapacity := by
  cases op with
  | call op => exact hrep.call hvalid hstep
  | drain count => exact hrep.drain hstep

theorem Represents.history (hrep : buffer.Represents queue) {ops : List HistoryOp}
    (hvalid : ∀ op ∈ ops, op.Valid) (hrun : run Buffer.historyStep buffer ops = some next) :
    ∃ after, next.Represents after ∧ after.maxCapacity = queue.maxCapacity := by
  have hstep : ∀ middle op next,
      (∃ after, middle.Represents after ∧ after.maxCapacity = queue.maxCapacity) → op.Valid →
      Buffer.historyStep middle op = some next →
      ∃ after, next.Represents after ∧ after.maxCapacity = queue.maxCapacity := by
    rintro middle op next ⟨after, hafter, hmax⟩ hop hnext
    obtain ⟨later, hlater, hsame⟩ := hafter.historyStep hop hnext
    exact ⟨later, hlater, hsame.trans hmax⟩
  exact run_invariant_of_takes hstep ⟨queue, hrep, rfl⟩ (takes_of_forall hvalid buffer) hrun

/-- After any history, exactly where the limit shows what room there is, a write is taken
if and only if it fits below the limit, and only messages that do not fit are dropped. -/
theorem refuses_only_full_iff (capacity : Nat) (maxCapacity : Int) (hcapacity : capacity < 536870912)
    (hmax : maxCapacity < 536870912) (ops : List HistoryOp) (hvalid : ∀ op ∈ ops, op.Valid) :
    ∃ fresh, Buffer.new capacity maxCapacity = some fresh ∧
      ∀ buffer, run Buffer.historyStep fresh ops = some buffer →
        buffer.maxCapacity = max capacity maxCapacity.toNat ∧
        (∀ (data : List UInt8) (expectLen : Int), 0 < expectLen → expectLen ≤ data.length →
          (buffer.AcceptsFitting data expectLen ↔ buffer.ShowsRoom expectLen)) ∧
        ∀ (conn : BufferedConn) (type : Nat) (body : List UInt8), conn.outBuffer = buffer →
          body.length ≤ maxMsgLen →
          (conn.RefusesOnlyFull (makeMsg type body) ↔ buffer.ShowsRoom (8 + body.length)) := by
  obtain ⟨fresh, hfresh, hempty⟩ := represents_new hcapacity hmax
  refine ⟨fresh, hfresh, ?_⟩
  intro buffer hrun
  obtain ⟨queue, hrep, hlimit⟩ := hempty.history hvalid hrun
  refine ⟨hrep.maxCapacity.trans hlimit, ?_, ?_⟩
  · intro data expectLen hpos hdata
    exact hrep.acceptsFitting_iff hpos hdata
  · rintro conn type body rfl hbody
    exact hrep.refusesOnlyFull_iff type hbody

/-- Four bytes are written and three of them sent. -/
def sampleHistory : List HistoryOp :=
  [.call (.write [1, 2, 3, 4] 4), .drain 3]

/-- One byte waits. Three more are taken, and five refused, though a limit of eight would
leave room for them. -/
theorem refuses_only_full_iff_sample :
    ∃ fresh buffer, Buffer.new 4 8 = some fresh ∧
      run Buffer.historyStep fresh sampleHistory = some buffer ∧
      buffer.AcceptsFitting [5, 6, 7] 3 ∧ ¬ buffer.AcceptsFitting [5, 6, 7, 8, 9] 5 := by
  obtain ⟨fresh, hfresh, hall⟩ := refuses_only_full_iff 4 8 (by decide) (by decide) sampleHistory
    (by simp [sampleHistory, HistoryOp.Valid, intMax])
  have hrun : ((Buffer.new 4 8).bind fun fresh => run Buffer.historyStep fresh sampleHistory).map
      (fun buffer => (buffer.getUnreadSize, buffer.capacity, buffer.maxCapacity)) =
        some (some 1, 4, 8) := by
    decide
  rw [hfresh, Option.bind_some] at hrun
  obtain ⟨buffer, hbuffer, hends⟩ := Option.map_eq_some_iff.mp hrun
  simp only [Prod.mk.injEq] at hends
  obtain ⟨hunread, hcapacity, hmax⟩ := hends
  obtain ⟨-, haccepts, -⟩ := hall buffer hbuffer
  refine ⟨fresh, buffer, hfresh, hbuffer, ?_, ?_⟩
  · rw [haccepts [5, 6, 7] 3 (by decide) (by decide)]
    exact ⟨1, hunread, Or.inl (by rw [hcapacity]; decide)⟩
  · rw [haccepts [5, 6, 7, 8, 9] 5 (by decide) (by decide)]
    rintro ⟨unread, hsame, hroom⟩
    obtain rfl := Option.some.inj (hunread.symm.trans hsame)
    rw [hcapacity, hmax] at hroom
    revert hroom
    decide

/-- Five bytes are refused beside the one that waits, below a limit of eight: the
capacity is four. -/
theorem not_accepts_fitting :
    ¬ ∀ (capacity : Nat) (maxCapacity : Int) (ops : List HistoryOp) (fresh buffer : Buffer)
      (data : List UInt8) (expectLen : Int), capacity < 536870912 → maxCapacity < 536870912 →
      (∀ op ∈ ops, op.Valid) → Buffer.new capacity maxCapacity = some fresh →
      run Buffer.historyStep fresh ops = some buffer → 0 < expectLen →
      expectLen ≤ data.length → buffer.AcceptsFitting data expectLen := by
  intro hall
  let waiting : Buffer :=
    ⟨4, 5, 8, [some 1, some 2, some 3, some 4, none], 3, 4⟩
  obtain ⟨unread, writeNum, next, hunread, hwrite, haccepts⟩ :=
    hall 4 8 sampleHistory _ waiting [5, 6, 7, 8, 9] 5 (by decide) (by decide)
      (by simp [sampleHistory, HistoryOp.Valid, intMax]) rfl rfl (by decide) (by decide)
  have hone : waiting.getUnreadSize = some 1 := by rfl
  have hrefused : waiting.writeToBuffer [5, 6, 7, 8, 9] 5 = some (0, waiting) := by decide
  obtain rfl := Option.some.inj (hone.symm.trans hunread)
  obtain ⟨rfl, rfl⟩ := Prod.mk.inj (Option.some.inj (hrefused.symm.trans hwrite))
  exact absurd (haccepts.mpr (by decide)) (by decide)

end Buffer

end CProxy
