import CProxy.Lib.Buffer

/-! # Sending the buffered bytes

`Buffer::WriteToSock` calls `write(2)` in a loop. The answer is kept in a `size_t`,
so a failed call counts as the largest number of bytes there is.
-/

namespace CProxy

open Foundation

/-- The errors of `write(2)` that the code or its callers tell apart. -/
inductive Errno where
  | eintr
  | eagain
  | fatal
  deriving DecidableEq

/-- The answer of a `write(2)` that is asked for at least one byte. A count stands for
the nearest one between 1 and the request. -/
inductive WriteAnswer where
  | wrote (count : Nat)
  | failed (errno : Errno)
  deriving DecidableEq

/-- The state at the head of the loop. `handed` is history: the bytes the socket has
taken, oldest first. `stopped` is set by the `break`. -/
structure SockWriter where
  buffer : Buffer
  totalSentNum : Int := 0
  handed : List (Option UInt8) := []
  stopped : Bool := false

namespace SockWriter

/-- `cur_send_len`. -/
def curSendLen (buffer : Buffer) : Nat :=
  if buffer.readIndex > buffer.writeIndex then buffer.dataSize - buffer.readIndex
  else buffer.writeIndex - buffer.readIndex

/-- The loop's body after `write`, whose answer is `writeNum`. -/
def afterWrite (s : SockWriter) (writeNum : Nat) (errno : Errno) : SockWriter :=
  if writeNum = 0 then
    if errno = .eintr then s else { s with stopped := true }
  else
    { s with
      -- both sums are formed in `size_t`, the second is cut down to an `int` again
      buffer := { s.buffer with
        readIndex := (s.buffer.readIndex + writeNum) % (sizeMax + 1) % s.buffer.dataSize }
      totalSentNum := int32 (s.totalSentNum + writeNum) }

def taken (buffer : Buffer) (count : Nat) : Nat := max 1 (min count (curSendLen buffer))

/-- One call of `write` and what follows it. -/
def answer (s : SockWriter) : WriteAnswer → SockWriter
  | .wrote count =>
      let writeNum := taken s.buffer count
      let s := { s with
        handed := s.handed ++ (s.buffer.data.drop s.buffer.readIndex).take writeNum }
      s.afterWrite writeNum .eintr
  | .failed errno => s.afterWrite sizeMax errno

/-- The loop is left by its condition or by the `break`. -/
def Returned (s : SockWriter) : Prop := s.buffer.getUnreadSize = some 0 ∨ s.stopped = true

instance (s : SockWriter) : Decidable s.Returned := inferInstanceAs (Decidable (_ ∨ _))

def step (s : SockWriter) (reply : WriteAnswer) : Option SockWriter :=
  if s.Returned then none else some (s.answer reply)

/-- The value returned: the `int` as a `size_t`. -/
def result (s : SockWriter) : Nat := sizeT s.totalSentNum

end SockWriter

/-! ## What is claimed, and when it holds -/

namespace SockWriter

/-- The socket has taken a beginning of the unread bytes and the buffer holds the rest. -/
structure Settled (queue : BoundedQueue UInt8) (s : SockWriter) : Prop where
  split : ∃ rest, s.buffer.Represents rest ∧ queue.items.map some = s.handed ++ rest.items.map some
  total : s.totalSentNum = s.handed.length

/-- A call that loses and repeats nothing, whatever the kernel answers. -/
structure Lossless (queue : BoundedQueue UInt8) (buffer : Buffer) (kernel : Nat → WriteAnswer) :
    Prop where
  settled : ∀ calls s, runFor step kernel { buffer := buffer } calls = some s → Settled queue s
  /-- A failed call leaves the indices where they are. -/
  kept : ∀ calls s s' errno, runFor step kernel { buffer := buffer } calls = some s →
    kernel calls = .failed errno → step s (kernel calls) = some s' → s'.buffer = s.buffer
  result : ∀ calls s, runFor step kernel { buffer := buffer } calls = some s → s.Returned →
    s.result = s.handed.length
  returns : (∃ calls, ∀ later, calls ≤ later →
      kernel later = .failed .eagain ∨ kernel later = .failed .fatal) →
    ∃ calls s, runFor step kernel { buffer := buffer } calls = some s ∧ s.Returned

variable {queue : BoundedQueue UInt8} {buffer : Buffer} {kernel : Nat → WriteAnswer}
  {s s' : SockWriter} {reply : WriteAnswer}

theorem step_eq_some : s.step reply = some s' ↔ ¬ s.Returned ∧ s.answer reply = s' := by
  simp [step]

theorem step_eq_none : s.step reply = none ↔ s.Returned := by
  simp [step]

/-- The bytes of a request lie in one piece and are all unread. -/
theorem request_bounds (hrep : buffer.Represents queue) (hunread : queue.items ≠ []) :
    1 ≤ curSendLen buffer ∧ curSendLen buffer ≤ queue.items.length ∧
      buffer.readIndex + curSendLen buffer ≤ buffer.data.length := by
  have hpos : 0 < queue.items.length := List.length_pos_iff.mpr hunread
  have hsize := hrep.getUnreadSize
  have hread := hrep.readIndex
  have hwrite := hrep.writeIndex_lt
  have hlt := hrep.items_lt
  have hdistance := Ring.distance_eq hread hlt
  rw [← hrep.writeIndex] at hdistance
  rw [hrep.data]
  unfold curSendLen
  split at hdistance <;> split <;> omega

theorem settled_init (hrep : buffer.Represents queue) : Settled queue { buffer := buffer } where
  split := ⟨queue, hrep, rfl⟩
  total := rfl

theorem Settled.handed_le (hsettled : Settled queue s) :
    s.handed.length ≤ queue.items.length := by
  obtain ⟨rest, -, hsplit⟩ := hsettled.split
  have hlength := congrArg List.length hsplit
  simp only [List.length_map, List.length_append] at hlength
  omega

/-- Nothing is lost in the conversions as long as no call fails. -/
theorem Settled.result_eq (hrep : buffer.Represents queue) (hsettled : Settled queue s) :
    s.result = s.handed.length := by
  have hhanded := hsettled.handed_le
  have hsmall := hrep.items_small
  rw [result, hsettled.total]
  apply sizeT_natCast
  unfold sizeMax
  omega

/-- A call that succeeds moves some of the unread bytes to the socket. -/
theorem Settled.wrote (hsettled : Settled queue s) (hsmall : queue.items.length < 536870912)
    (hrunning : ¬ s.Returned) (count : Nat) :
    Settled queue (s.answer (.wrote count)) ∧
      s.handed.length < (s.answer (.wrote count)).handed.length := by
  obtain ⟨rest, hrep, hsplit⟩ := hsettled.split
  have hunread : rest.items ≠ [] := by
    intro hnil
    apply hrunning
    left
    rw [hrep.getUnreadSize, hnil]
    rfl
  obtain ⟨hpos, hall, hend⟩ := request_bounds hrep hunread
  have htaken : 1 ≤ taken s.buffer count ∧ taken s.buffer count ≤ curSendLen s.buffer := by
    unfold taken
    omega
  have hbytes : (s.buffer.data.drop s.buffer.readIndex).take (taken s.buffer count) =
      (rest.items.take (taken s.buffer count)).map some :=
    hrep.holds.take_drop (htaken.2.trans hall) (by omega)
  have hlength : s.handed.length + rest.items.length = queue.items.length := by
    have hboth := congrArg List.length hsplit
    simp only [List.length_map, List.length_append] at hboth
    exact hboth.symm
  have hmoved : ((rest.items.take (taken s.buffer count)).map some).length =
      taken s.buffer count := by
    rw [List.length_map, List.length_take_of_le (htaken.2.trans hall)]
  -- the request ends inside the cells, so no sum is cut down
  have hread := hrep.readIndex
  have hsize := hrep.dataSize_le
  have hindex : (s.buffer.readIndex + taken s.buffer count) % (sizeMax + 1) =
      s.buffer.readIndex + taken s.buffer count := by
    apply Nat.mod_eq_of_lt
    unfold sizeMax
    rw [hrep.data] at hend
    omega
  have hanswer : s.answer (.wrote count) =
      { s with
        buffer := { s.buffer with
          readIndex := (s.buffer.readIndex + taken s.buffer count) % s.buffer.dataSize }
        totalSentNum := s.totalSentNum + taken s.buffer count
        handed := s.handed ++ (rest.items.take (taken s.buffer count)).map some } := by
    have htotal : int32 (s.totalSentNum + taken s.buffer count) =
        s.totalSentNum + taken s.buffer count := by
      rw [hsettled.total]
      apply int32_of_range
      · omega
      · unfold intMax
        omega
    simp only [answer, afterWrite, if_neg (show taken s.buffer count ≠ 0 by omega), hbytes,
      hindex, htotal]
  rw [hanswer]
  refine ⟨⟨⟨rest.drop (taken s.buffer count), hrep.advance (htaken.2.trans hall), ?_⟩, ?_⟩, ?_⟩
  · rw [hsplit, List.append_assoc, ← List.map_append]
    change _ = s.handed ++ List.map some (rest.items.take _ ++ rest.items.drop _)
    rw [List.take_append_drop]
  · change s.totalSentNum + taken s.buffer count = _
    rw [hsettled.total, List.length_append, hmoved]
    push_cast
    rfl
  · change s.handed.length < (s.handed ++ _).length
    rw [List.length_append, hmoved]
    omega

theorem answer_wrote_capacity (s : SockWriter) (count : Nat) :
    (s.answer (.wrote count)).buffer.capacity = s.buffer.capacity := by
  simp only [answer, afterWrite]
  split
  · rfl
  · rfl

/-- The first call on a buffer with unread bytes takes some of them, oldest first. -/
theorem exists_rest_of_wrote (hrep : buffer.Represents queue) (hunread : queue.items ≠ [])
    {count : Nat} {writer : SockWriter}
    (hwriter : ({ buffer := buffer } : SockWriter).answer (.wrote count) = writer) :
    ∃ rest, writer.buffer.Represents rest ∧ rest.capacity = queue.capacity ∧
      queue.items = writer.handed.map (·.getD 0) ++ rest.items ∧
      rest.items.length < queue.items.length := by
  subst hwriter
  have hrunning : ¬ ({ buffer := buffer } : SockWriter).Returned := by
    rintro (hnone | hstopped)
    · rw [hrep.getUnreadSize] at hnone
      exact hunread (List.eq_nil_of_length_eq_zero (Option.some.inj hnone))
    · cases hstopped
  obtain ⟨hsettled, hmore⟩ := (settled_init hrep).wrote hrep.items_small hrunning count
  obtain ⟨rest, hrest, hsplit⟩ := hsettled.split
  have hcapacity := answer_wrote_capacity { buffer := buffer } count
  rw [hrest.capacity, hrep.capacity] at hcapacity
  have hvalues := congrArg (List.map (·.getD 0)) hsplit
  have hlength := congrArg List.length hsplit
  simp only [List.length_map, List.length_append, List.length_nil] at hlength hmore
  refine ⟨rest, hrest, hcapacity, ?_, by omega⟩
  simpa [Function.comp_def] using hvalues

/-- A call that fails takes one from the total and hands nothing over. -/
theorem Settled.not_failed (hsettled : Settled queue s) (errno : Errno) :
    ¬ Settled queue (s.answer (.failed errno)) := by
  intro hafter
  have hne : sizeMax ≠ 0 := by
    unfold sizeMax
    omega
  have htotal : (s.answer (.failed errno)).totalSentNum = int32 (s.totalSentNum + sizeMax) := by
    simp only [answer, afterWrite, if_neg hne]
  have hhanded : (s.answer (.failed errno)).handed = s.handed := by
    simp only [answer, afterWrite, if_neg hne]
  have hle := hsettled.handed_le
  have hsame := hafter.total
  -- the two sides differ by one modulo 2^32
  rw [htotal, hhanded, hsettled.total] at hsame
  unfold int32 sizeMax at hsame
  omega

/-- Exactly the calls of `WriteToSock` in which no `write(2)` is answered with -1 lose
and repeat nothing. -/
theorem writeToSock_lossless_iff (hrep : buffer.Represents queue) (kernel : Nat → WriteAnswer) :
    Lossless queue buffer kernel ↔
      ∀ calls s, runFor step kernel { buffer := buffer } calls = some s → ¬ s.Returned →
        ∃ count, kernel calls = .wrote count := by
  have hsmall := hrep.items_small
  constructor
  · intro hlossless calls s hrun hrunning
    cases hreply : kernel calls with
    | wrote count => exact ⟨count, rfl⟩
    | failed errno =>
        have hnext : runFor step kernel { buffer := buffer } (calls + 1) =
            some (s.answer (.failed errno)) := by
          rw [runFor_succ hrun, hreply]
          exact step_eq_some.mpr ⟨hrunning, rfl⟩
        exact absurd (hlossless.settled (calls + 1) _ hnext)
          ((hlossless.settled calls s hrun).not_failed errno)
  · intro hwrote
    have hstep (calls : Nat) (s s' : SockWriter)
        (hrun : runFor step kernel { buffer := buffer } calls = some s)
        (hinv : Settled queue s ∧ calls ≤ s.handed.length)
        (hnext : step s (kernel calls) = some s') :
        Settled queue s' ∧ calls + 1 ≤ s'.handed.length := by
      obtain ⟨hrunning, rfl⟩ := step_eq_some.mp hnext
      obtain ⟨count, hreply⟩ := hwrote calls s hrun hrunning
      obtain ⟨hsettled, hmore⟩ := hinv.1.wrote hsmall hrunning count
      rw [hreply]
      exact ⟨hsettled, hinv.2.trans_lt hmore⟩
    have hinv (calls : Nat) (s : SockWriter)
        (hrun : runFor step kernel { buffer := buffer } calls = some s) :
        Settled queue s ∧ calls ≤ s.handed.length :=
      runFor_invariant ⟨settled_init hrep, Nat.zero_le _⟩ hstep hrun
    constructor
    · exact fun calls s hrun => (hinv calls s hrun).1
    · intro calls s s' errno hrun hfailed hnext
      obtain ⟨count, hreply⟩ := hwrote calls s hrun (step_eq_some.mp hnext).1
      rw [hfailed] at hreply
      cases hreply
    · exact fun calls s hrun _ => (hinv calls s hrun).1.result_eq hrep
    · -- every call hands something over, so the unread bytes bound their number
      intro _
      rcases @runFor_isSome_or_stuck _ _ step kernel { buffer := buffer }
        (queue.items.length + 1) with ⟨s, hrun⟩ | ⟨calls, s, -, hrun, hstuck⟩
      · obtain ⟨hsettled, hmany⟩ := hinv _ s hrun
        have hhanded := hsettled.handed_le
        omega
      · exact ⟨calls, s, hrun, step_eq_none.mp hstuck⟩

/-! ## A wrapped buffer -/

/-- Five unread bytes in six cells, the last two at the front. -/
def wrappedBuffer : Buffer where
  capacity := 5
  dataSize := 6
  maxCapacity := 8
  data := [some 4, some 5, none, some 1, some 2, some 3]
  readIndex := 3
  writeIndex := 2

def wrappedQueue : BoundedQueue UInt8 := ⟨[1, 2, 3, 4, 5], 5, 8, by decide, by decide⟩

theorem wrappedBuffer_represents : wrappedBuffer.Represents wrappedQueue where
  capacity := rfl
  maxCapacity := rfl
  small := by decide
  dataSize := rfl
  data := rfl
  readIndex := by decide
  writeIndex := rfl
  holds := by
    intro i item hitem
    obtain ⟨hlt, rfl⟩ := List.getElem?_eq_some_iff.mp hitem
    have hcells : ∀ i : Fin 5, wrappedBuffer.data[(3 + i.val) % 6]? =
        some (some wrappedQueue.items[i]) := by decide
    exact hcells ⟨i, hlt⟩

/-- The kernel takes two bytes, then one at a time; nothing is lost or repeated. -/
theorem writeToSock_lossless_iff_sample :
    Lossless wrappedQueue wrappedBuffer (fun calls => .wrote (2 - calls)) :=
  (writeToSock_lossless_iff wrappedBuffer_represents fun calls => .wrote (2 - calls)).mpr
    fun calls _ _ _ => ⟨2 - calls, rfl⟩

/-! ## A full socket -/

/-- One unread byte in the middle of four cells. -/
def sampleBuffer : Buffer where
  capacity := 3
  dataSize := 4
  maxCapacity := 8
  data := [none, some 7, none, none]
  readIndex := 1
  writeIndex := 2

def sampleQueue : BoundedQueue UInt8 := ⟨[7], 3, 8, by decide, by decide⟩

theorem sampleBuffer_represents : sampleBuffer.Represents sampleQueue where
  capacity := rfl
  maxCapacity := rfl
  small := by decide
  dataSize := rfl
  data := rfl
  readIndex := by decide
  writeIndex := rfl
  holds := by
    intro i item hitem
    obtain ⟨hlt, rfl⟩ := List.getElem?_eq_some_iff.mp hitem
    obtain rfl : i = 0 := Nat.lt_one_iff.mp hlt
    rfl

/-- The first EAGAIN moves the read index back to a byte that was never written, and
the call goes on. -/
theorem not_writeToSock_lossless :
    ¬ ∀ (queue : BoundedQueue UInt8) (buffer : Buffer) (kernel : Nat → WriteAnswer),
      buffer.Represents queue → Lossless queue buffer kernel := by
  intro hall
  have hlossless := hall sampleQueue sampleBuffer (fun _ => .failed .eagain)
    sampleBuffer_represents
  have hkept := hlossless.kept 0 { buffer := sampleBuffer } _ .eagain rfl rfl
    (step_eq_some.mpr ⟨by decide, rfl⟩)
  exact absurd (congrArg Buffer.readIndex hkept) (by decide)

end SockWriter

end CProxy
