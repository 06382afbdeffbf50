import CProxy.Foundation.BoundedQueue
import CProxy.Foundation.Loop
import CProxy.Foundation.Ring
import CProxy.Foundation.Run
import CProxy.Foundation.Word

/-! # The buffer of outgoing bytes

`Buffer` keeps its bytes in a ring of `capacity_ + 1` cells, one of which stays
free, and grows up to `max_capacity_`. `none` stands for what the language does
not define: an `int` out of range, or a cell outside the block. The `int` fields
hold no negative value.
-/

namespace CProxy

open Foundation

/-- The value of an `int` computation. -/
def intResult (value : Nat) : Option Nat := if (value : Int) ≤ intMax then some value else none

/-- A cell of `data_` that has not been written has no value. -/
structure Buffer where
  capacity : Nat
  dataSize : Nat
  maxCapacity : Nat
  data : List (Option UInt8)
  readIndex : Nat := 0
  writeIndex : Nat := 0
  deriving DecidableEq

namespace Buffer

def doubleBorderLine : Nat := 1024

def new (capacity : Nat) (maxCapacity : Int) : Option Buffer := do
  let dataSize ← intResult (capacity + 1)
  some {
    capacity := capacity
    dataSize := dataSize
    maxCapacity := if maxCapacity > capacity then maxCapacity.toNat else capacity
    data := List.replicate dataSize none }

def getUnreadSize (buffer : Buffer) : Option Nat :=
  if buffer.writeIndex ≥ buffer.readIndex then some (buffer.writeIndex - buffer.readIndex)
  else intResult ((buffer.dataSize - buffer.readIndex) + buffer.writeIndex)

def getFreeSize (buffer : Buffer) : Option Int := do
  let unreadSize ← buffer.getUnreadSize
  some (buffer.capacity - unreadSize)

/-- A round of the copy loop of `resize` and `read`: `cur_index` and the bytes copied. -/
def copyOutRound (buffer : Buffer) (i : Nat) (loop : Nat × List (Option UInt8)) :
    Option (Nat × List (Option UInt8)) := do
  let sum ← intResult (buffer.readIndex + i)
  let curIndex := sum % buffer.dataSize
  let cell ← buffer.data[curIndex]?
  some (curIndex, loop.2 ++ [cell])

def copyOut (buffer : Buffer) (count : Nat) : Option (Nat × List (Option UInt8)) :=
  forRange buffer.copyOutRound count (buffer.readIndex, [])

/-- A round of the copy loop of `WriteToBuffer`: `cur_index` and the cells. -/
def copyInRound (buffer : Buffer) (data : List UInt8) (i : Nat)
    (loop : Nat × List (Option UInt8)) : Option (Nat × List (Option UInt8)) := do
  let sum ← intResult (buffer.writeIndex + i)
  let curIndex := sum % buffer.dataSize
  let byte ← data[i]?
  if curIndex < loop.2.length then some (curIndex, loop.2.set curIndex (some byte)) else none

def copyIn (buffer : Buffer) (data : List UInt8) (count : Nat) :
    Option (Nat × List (Option UInt8)) :=
  forRange (buffer.copyInRound data) count (buffer.writeIndex, buffer.data)

def resize (buffer : Buffer) (capacity : Nat) : Option Buffer := do
  let unreadSize ← buffer.getUnreadSize
  if unreadSize > capacity then some buffer
  else if capacity = buffer.capacity then some buffer
  else
    let dataSize ← intResult (capacity + 1)
    let copied ← buffer.copyOut unreadSize
    some { buffer with
      capacity := capacity
      dataSize := dataSize
      data := copied.2 ++ List.replicate (dataSize - unreadSize) none
      readIndex := 0
      writeIndex := unreadSize }

/-- The `while` loop of `ensureInsert`. A round that adds nothing would repeat for
ever, so a loop that ends needs no more than `minCapNeed` rounds. -/
def grow (maxCapacity minCapNeed : Nat) : Nat → Nat → Option Nat
  | 0, newcap => if newcap < minCapNeed then none else some newcap
  | rounds + 1, newcap =>
      if newcap < minCapNeed then do
        let newcap ← intResult (newcap + newcap / 4)
        if newcap > maxCapacity then some maxCapacity
        else grow maxCapacity minCapNeed rounds newcap
      else some newcap

def newCapacity (buffer : Buffer) (minCapNeed : Nat) : Option Nat := do
  let doublecap ← intResult (buffer.capacity * 2)
  if minCapNeed > doublecap then some minCapNeed
  else if buffer.capacity < doubleBorderLine then
    some (if doublecap ≤ buffer.maxCapacity then doublecap else buffer.maxCapacity)
  else grow buffer.maxCapacity minCapNeed minCapNeed buffer.capacity

def ensureInsert (buffer : Buffer) (insertLen : Nat) : Option (Except String Buffer) := do
  let freeSize ← buffer.getFreeSize
  if freeSize ≥ insertLen then some (.ok buffer)
  else
    let minCapNeed ← intResult (buffer.capacity + insertLen)
    if minCapNeed > buffer.maxCapacity then some (.error "out of capacity")
    else
      let newcap ← buffer.newCapacity minCapNeed
      (buffer.resize newcap).map .ok

/-- The result and the bytes put where `data` points. -/
def read (buffer : Buffer) (expectLen : Int) : Option (Nat × List (Option UInt8) × Buffer) := do
  if expectLen ≤ 0 then some (0, [], buffer)
  else
    let unreadSize ← buffer.getUnreadSize
    if expectLen > unreadSize then some (sizeMax, [], buffer)
    else
      let copied ← buffer.copyOut expectLen.toNat
      let next ← intResult (copied.1 + 1)
      some (expectLen.toNat, copied.2, { buffer with readIndex := next % buffer.dataSize })

def writeToBuffer (buffer : Buffer) (data : List UInt8) (expectLen : Int) :
    Option (Nat × Buffer) := do
  if expectLen ≤ 0 then some (0, buffer)
  else
    match ← buffer.ensureInsert expectLen.toNat with
    | .error _ => some (0, buffer)
    | .ok buffer =>
        let copied ← buffer.copyIn data expectLen.toNat
        let next ← intResult (copied.1 + 1)
        some (expectLen.toNat,
          { buffer with data := copied.2, writeIndex := next % buffer.dataSize })

end Buffer

/-! ## The bytes a buffer holds -/

/-- A buffer whose unread bytes are those of a bounded queue. -/
structure Buffer.Represents (buffer : Buffer) (queue : BoundedQueue UInt8) : Prop where
  capacity : buffer.capacity = queue.capacity
  maxCapacity : buffer.maxCapacity = queue.maxCapacity
  small : queue.maxCapacity < 536870912
  dataSize : buffer.dataSize = buffer.capacity + 1
  data : buffer.data.length = buffer.dataSize
  readIndex : buffer.readIndex < buffer.dataSize
  writeIndex : buffer.writeIndex = (buffer.readIndex + queue.items.length) % buffer.dataSize
  holds : Ring.Holds buffer.data buffer.readIndex queue.items

theorem intResult_eq {value : Nat} (hfits : value < 2147483648) : intResult value = some value := by
  unfold intResult intMax
  exact if_pos (by omega)

namespace Buffer.Represents

variable {buffer : Buffer} {queue : BoundedQueue UInt8}

theorem items_lt (hrep : buffer.Represents queue) : queue.items.length < buffer.dataSize := by
  rw [hrep.dataSize, hrep.capacity]
  exact Nat.lt_succ_of_le queue.fits

theorem items_small (hrep : buffer.Represents queue) : queue.items.length < 536870912 :=
  (queue.fits.trans queue.bounded).trans_lt hrep.small

theorem dataSize_le (hrep : buffer.Represents queue) : buffer.dataSize ≤ 536870912 := by
  rw [hrep.dataSize, hrep.capacity]
  exact queue.bounded.trans_lt hrep.small

theorem writeIndex_lt (hrep : buffer.Represents queue) :
    buffer.writeIndex < buffer.dataSize := by
  rw [hrep.writeIndex]
  exact Nat.mod_lt _ (Nat.zero_lt_of_lt hrep.readIndex)

theorem getUnreadSize (hrep : buffer.Represents queue) :
    buffer.getUnreadSize = some queue.items.length := by
  have hdistance := Ring.distance_eq hrep.readIndex hrep.items_lt
  rw [← hrep.writeIndex] at hdistance
  unfold Buffer.getUnreadSize
  split at hdistance
  · next hle => rw [if_pos hle, hdistance]
  · next hlt =>
      have hsize := hrep.dataSize_le
      have hitems := hrep.items_lt
      rw [if_neg hlt, intResult_eq (by omega), hdistance]

theorem getFreeSize (hrep : buffer.Represents queue) :
    buffer.getFreeSize = some ((queue.capacity : Int) - queue.items.length) := by
  simp [Buffer.getFreeSize, hrep.getUnreadSize, hrep.capacity]

end Buffer.Represents

/-! ## The copy loops -/

namespace Buffer

variable {buffer : Buffer} {queue : BoundedQueue UInt8} {data : List UInt8} {count : Nat}

/-- After `count` rounds from `start` on the last cell was the one before the next. -/
structure LoopAt (size start count cur : Nat) : Prop where
  lt : cur < size
  next : 0 < count → (cur + 1) % size = (start + count) % size

theorem loopAt_init {size start : Nat} (hstart : start < size) : LoopAt size start 0 start :=
  ⟨hstart, nofun⟩

theorem loopAt_succ {size start : Nat} (hsize : 0 < size) (count : Nat) :
    LoopAt size start (count + 1) ((start + count) % size) where
  lt := Nat.mod_lt _ hsize
  next := fun _ => by rw [Nat.mod_add_mod, Nat.add_assoc]

/-- What `i` rounds have copied. -/
def CopiedOut (buffer : Buffer) (queue : BoundedQueue UInt8) (i : Nat)
    (loop : Nat × List (Option UInt8)) : Prop :=
  LoopAt buffer.dataSize buffer.readIndex i loop.1 ∧ loop.2 = (queue.items.take i).map some

theorem Represents.copyOutRound (hrep : buffer.Represents queue) {i : Nat}
    {loop : Nat × List (Option UInt8)} (hi : i < queue.items.length)
    (hcopied : CopiedOut buffer queue i loop) :
    ∃ next, buffer.copyOutRound i loop = some next ∧ CopiedOut buffer queue (i + 1) next := by
  have hitem : queue.items[i]? = some queue.items[i] := List.getElem?_eq_getElem hi
  have hcell := hrep.holds i _ hitem
  rw [hrep.data] at hcell
  have hsum : buffer.readIndex + i < 2147483648 := by
    have hsize := hrep.dataSize_le
    have hread := hrep.readIndex
    have hitems := hrep.items_lt
    omega
  refine ⟨((buffer.readIndex + i) % buffer.dataSize, loop.2 ++ [some queue.items[i]]), ?_,
    loopAt_succ (Nat.zero_lt_of_lt hrep.readIndex) i, ?_⟩
  · simp [Buffer.copyOutRound, intResult_eq hsum, hcell]
  · rw [hcopied.2, List.take_add_one, hitem, List.map_append]
    rfl

/-- The loop copies the oldest bytes. -/
theorem Represents.copyOut (hrep : buffer.Represents queue) (hcount : count ≤ queue.items.length) :
    ∃ cur, buffer.copyOut count = some (cur, (queue.items.take count).map some) ∧
      LoopAt buffer.dataSize buffer.readIndex count cur := by
  have hinit : CopiedOut buffer queue 0 (buffer.readIndex, []) := by
    refine ⟨loopAt_init hrep.readIndex, ?_⟩
    simp
  obtain ⟨⟨cur, copied⟩, hloop, hcur, rfl⟩ := forRange_spec (CopiedOut buffer queue) hinit
    fun i loop hi hcopied => hrep.copyOutRound (hi.trans_le hcount) hcopied
  exact ⟨cur, hloop, hcur⟩

/-- What the cells are after `i` rounds. -/
def CopiedIn (buffer : Buffer) (queue : BoundedQueue UInt8) (data : List UInt8) (i : Nat)
    (loop : Nat × List (Option UInt8)) : Prop :=
  LoopAt buffer.dataSize buffer.writeIndex i loop.1 ∧ loop.2.length = buffer.dataSize ∧
    Ring.Holds loop.2 buffer.readIndex (queue.items ++ data.take i)

theorem Represents.copyInRound (hrep : buffer.Represents queue) {i : Nat}
    {loop : Nat × List (Option UInt8)} (hi : i < data.length)
    (hroom : queue.items.length + i < queue.capacity)
    (hcopied : CopiedIn buffer queue data i loop) :
    ∃ next, buffer.copyInRound data i loop = some next ∧
      CopiedIn buffer queue data (i + 1) next := by
  obtain ⟨-, hlength, hholds⟩ := hcopied
  have hsize : 0 < buffer.dataSize := Nat.zero_lt_of_lt hrep.readIndex
  have hbyte : data[i]? = some data[i] := List.getElem?_eq_getElem hi
  have hfilled : (queue.items ++ data.take i).length = queue.items.length + i := by
    rw [List.length_append, List.length_take_of_le hi.le]
  have hfree : queue.items.length + i < buffer.dataSize := by
    rw [hrep.dataSize, hrep.capacity]
    exact Nat.lt_succ_of_lt hroom
  have hsum : buffer.writeIndex + i < 2147483648 := by
    have hwrite := hrep.writeIndex_lt
    have hdata := hrep.dataSize_le
    omega
  -- the loop counts from `write_index_`, the ring from `read_index_`
  have hslot : (buffer.writeIndex + i) % buffer.dataSize =
      (buffer.readIndex + (queue.items ++ data.take i).length) % loop.2.length := by
    rw [hrep.writeIndex, Nat.mod_add_mod, hlength, hfilled, Nat.add_assoc]
  refine ⟨((buffer.writeIndex + i) % buffer.dataSize,
    loop.2.set ((buffer.writeIndex + i) % buffer.dataSize) (some data[i])), ?_,
    loopAt_succ hsize i, ?_, ?_⟩
  · simp [Buffer.copyInRound, intResult_eq hsum, hlength, Nat.mod_lt _ hsize, hi]
  · rw [List.length_set, hlength]
  · have hmore := hholds.append (by rw [hfilled, hlength]; exact hfree) data[i]
    rw [← hslot, List.append_assoc] at hmore
    rw [List.take_add_one, hbyte]
    exact hmore

/-- The loop stores its bytes behind the others. -/
theorem Represents.copyIn (hrep : buffer.Represents queue) (hdata : count ≤ data.length)
    (hroom : queue.items.length + count ≤ queue.capacity) :
    ∃ cur cells, buffer.copyIn data count = some (cur, cells) ∧
      LoopAt buffer.dataSize buffer.writeIndex count cur ∧ cells.length = buffer.dataSize ∧
      Ring.Holds cells buffer.readIndex (queue.items ++ data.take count) := by
  have hinit : CopiedIn buffer queue data 0 (buffer.writeIndex, buffer.data) := by
    refine ⟨loopAt_init hrep.writeIndex_lt, hrep.data, ?_⟩
    rw [List.take_zero, List.append_nil]
    exact hrep.holds
  obtain ⟨⟨cur, cells⟩, hloop, hcopied⟩ := forRange_spec (CopiedIn buffer queue data) hinit
    fun i loop (hi : i < count) hcopied =>
      hrep.copyInRound (hi.trans_le hdata) (by omega) hcopied
  exact ⟨cur, cells, hloop, hcopied⟩

/-! ## Growth -/

/-- The loop ends, with a capacity that is enough and not too large. -/
theorem grow_eq_some {maxCapacity minCapNeed rounds newcap : Nat} (hmax : maxCapacity < 536870912)
    (hneed : minCapNeed ≤ maxCapacity) (hnewcap : newcap ≤ maxCapacity) (hstart : 4 ≤ newcap)
    (hrounds : minCapNeed ≤ newcap + rounds) :
    ∃ final, grow maxCapacity minCapNeed rounds newcap = some final ∧
      minCapNeed ≤ final ∧ final ≤ maxCapacity := by
  induction rounds generalizing newcap with
  | zero =>
      refine ⟨newcap, ?_, hrounds, hnewcap⟩
      exact if_neg (Nat.not_lt.mpr hrounds)
  | succ rounds ih =>
      by_cases hless : newcap < minCapNeed
      · -- from four cells on a quarter is at least one, so the rounds suffice
        have hsum : newcap + newcap / 4 < 2147483648 := by omega
        by_cases hover : newcap + newcap / 4 > maxCapacity
        · refine ⟨maxCapacity, ?_, hneed, le_refl _⟩
          simp [grow, hless, intResult_eq hsum, hover]
        · obtain ⟨final, hfinal, hbounds⟩ :=
            @ih (newcap + newcap / 4) (by omega) (by omega) (by omega)
          refine ⟨final, ?_, hbounds⟩
          simpa [grow, hless, intResult_eq hsum, hover] using hfinal
      · refine ⟨newcap, ?_, Nat.not_lt.mp hless, hnewcap⟩
        exact if_neg hless

theorem Represents.newCapacity (hrep : buffer.Represents queue) {minCapNeed : Nat}
    (hneed : minCapNeed ≤ queue.maxCapacity) :
    ∃ newcap, buffer.newCapacity minCapNeed = some newcap ∧ minCapNeed ≤ newcap ∧
      newcap ≤ queue.maxCapacity := by
  have hsmall := hrep.small
  have hbounded := queue.bounded
  have hdouble : queue.capacity * 2 < 2147483648 := by omega
  simp only [Buffer.newCapacity, hrep.capacity, hrep.maxCapacity, intResult_eq hdouble,
    Option.bind_eq_bind, Option.bind_some]
  by_cases hjump : minCapNeed > queue.capacity * 2
  · exact ⟨minCapNeed, if_pos hjump, le_refl _, hneed⟩
  · rw [if_neg hjump]
    by_cases hlow : queue.capacity < doubleBorderLine
    · rw [if_pos hlow]
      by_cases hmax : queue.capacity * 2 ≤ queue.maxCapacity
      · exact ⟨_, by rw [if_pos hmax], Nat.not_lt.mp hjump, hmax⟩
      · exact ⟨_, by rw [if_neg hmax], hneed, le_refl _⟩
    · -- the loop is entered with 1024 cells or more
      rw [if_neg hlow]
      unfold doubleBorderLine at hlow
      exact grow_eq_some hsmall hneed hbounded (by omega) (by omega)

theorem Represents.resize (hrep : buffer.Represents queue) {capacity : Nat}
    (hfits : queue.items.length ≤ capacity) (hbounded : capacity ≤ queue.maxCapacity) :
    ∃ next, buffer.resize capacity = some next ∧
      next.Represents (queue.resized capacity hfits hbounded) := by
  unfold Buffer.resize
  simp only [hrep.getUnreadSize, Option.bind_eq_bind, Option.bind_some]
  rw [if_neg (Nat.not_lt.mpr hfits)]
  by_cases hsame : capacity = buffer.capacity
  · rw [if_pos hsame]
    subst hsame
    exact ⟨buffer, rfl, { hrep with capacity := rfl, maxCapacity := hrep.maxCapacity }⟩
  · have hsmall := hrep.small
    obtain ⟨cur, hcopied, -⟩ := hrep.copyOut (le_refl _)
    rw [if_neg hsame, intResult_eq (by omega), Option.bind_some, hcopied, Option.bind_some,
      List.take_length]
    refine ⟨_, rfl, ?_⟩
    constructor
    · rfl
    · exact hrep.maxCapacity
    · exact hsmall
    · rfl
    · simp only [List.length_append, List.length_map, List.length_replicate]
      omega
    · exact Nat.succ_pos capacity
    · change queue.items.length = (0 + queue.items.length) % (capacity + 1)
      rw [Nat.zero_add, Nat.mod_eq_of_lt (Nat.lt_succ_of_le hfits)]
    · exact Ring.Holds.of_front queue.items _

/-- Room is made or the buffer is as it was; it is made whenever the limit allows. -/
theorem Represents.ensureInsert (hrep : buffer.Represents queue) {insertLen : Nat}
    (hlen : insertLen < 536870912) :
    (∃ message, buffer.ensureInsert insertLen = some (.error message) ∧
      queue.capacity < queue.items.length + insertLen ∧
      queue.maxCapacity < queue.capacity + insertLen) ∨
    ∃ next grown, buffer.ensureInsert insertLen = some (.ok next) ∧ next.Represents grown ∧
      grown.items = queue.items ∧ grown.maxCapacity = queue.maxCapacity ∧
      queue.capacity ≤ grown.capacity ∧ grown.items.length + insertLen ≤ grown.capacity := by
  have hsmall := hrep.small
  have hbounded := queue.bounded
  have hitems := queue.fits
  unfold Buffer.ensureInsert
  simp only [hrep.getFreeSize, Option.bind_eq_bind, Option.bind_some, hrep.capacity,
    hrep.maxCapacity]
  by_cases hfree : (queue.capacity : Int) - queue.items.length ≥ insertLen
  · rw [if_pos hfree]
    exact Or.inr ⟨buffer, queue, rfl, hrep, rfl, rfl, le_refl _, by omega⟩
  · rw [if_neg hfree, intResult_eq (by omega), Option.bind_some]
    by_cases hover : queue.capacity + insertLen > queue.maxCapacity
    · rw [if_pos hover]
      exact Or.inl ⟨_, rfl, by omega, hover⟩
    · obtain ⟨newcap, hnewcap, henough, hmax⟩ := hrep.newCapacity (Nat.not_lt.mp hover)
      obtain ⟨next, hnext, hgrown⟩ := hrep.resize (by omega) hmax
      rw [if_neg hover, hnewcap, Option.bind_some, hnext]
      refine Or.inr ⟨next, _, rfl, hgrown, rfl, rfl, ?_, ?_⟩
      · change queue.capacity ≤ newcap
        omega
      · change queue.items.length + insertLen ≤ newcap
        omega

/-! ## The operations -/

/-- The oldest bytes are given up by moving the read index. -/
theorem Represents.advance (hrep : buffer.Represents queue)
    (hcount : count ≤ queue.items.length) :
    ({ buffer with readIndex := (buffer.readIndex + count) % buffer.dataSize } :
      Buffer).Represents (queue.drop count) := by
  constructor
  · exact hrep.capacity
  · exact hrep.maxCapacity
  · exact hrep.small
  · exact hrep.dataSize
  · exact hrep.data
  · exact Nat.mod_lt _ (Nat.zero_lt_of_lt hrep.readIndex)
  · change buffer.writeIndex = ((buffer.readIndex + count) % buffer.dataSize +
      (queue.items.drop count).length) % buffer.dataSize
    rw [hrep.writeIndex, Nat.mod_add_mod, List.length_drop, Nat.add_assoc,
      Nat.add_sub_cancel' hcount]
  · change Ring.Holds buffer.data ((buffer.readIndex + count) % buffer.dataSize)
      (queue.items.drop count)
    rw [← hrep.data, Ring.holds_mod]
    exact hrep.holds.drop count

theorem Represents.read_taken (hrep : buffer.Represents queue) {expectLen : Int}
    (hpos : 0 < expectLen) (hunread : expectLen ≤ queue.items.length) :
    ∃ next, buffer.read expectLen =
        some (expectLen.toNat, (queue.items.take expectLen.toNat).map some, next) ∧
      next.Represents (queue.drop expectLen.toNat) := by
  have hcount : expectLen.toNat ≤ queue.items.length := by omega
  obtain ⟨cur, hcopied, hcur⟩ := hrep.copyOut hcount
  have hnext := hcur.next (by omega)
  have hsmall : cur + 1 < 2147483648 := by
    have hlt := hcur.lt
    have hsize := hrep.dataSize_le
    omega
  refine ⟨_, ?_, hrep.advance hcount⟩
  unfold Buffer.read
  rw [if_neg (Int.not_le.mpr hpos), hrep.getUnreadSize, Option.bind_eq_bind, Option.bind_some,
    if_neg (Int.not_lt.mpr hunread), hcopied, Option.bind_eq_bind, Option.bind_some,
    intResult_eq hsmall, Option.bind_some, hnext]

theorem Represents.read_short (hrep : buffer.Represents queue) {expectLen : Int}
    (hshort : queue.items.length < expectLen) :
    buffer.read expectLen = some (sizeMax, [], buffer) := by
  unfold Buffer.read
  rw [if_neg (by omega), hrep.getUnreadSize, Option.bind_eq_bind, Option.bind_some,
    if_pos hshort]

/-- A refused write leaves the buffer as it is; an accepted one appends its bytes. -/
theorem Represents.writeToBuffer (hrep : buffer.Represents queue) {expectLen : Int}
    (hpos : 0 < expectLen) (hsmall : expectLen < 536870912) (hdata : expectLen ≤ data.length) :
    buffer.writeToBuffer data expectLen = some (0, buffer) ∧
      queue.capacity < queue.items.length + expectLen.toNat ∧
      queue.maxCapacity < queue.capacity + expectLen.toNat ∨
    ∃ next written, buffer.writeToBuffer data expectLen = some (expectLen.toNat, next) ∧
      next.Represents written ∧ written.items = queue.items ++ data.take expectLen.toNat ∧
      queue.capacity ≤ written.capacity ∧ written.maxCapacity = queue.maxCapacity := by
  rcases hrep.ensureInsert (show expectLen.toNat < 536870912 by omega) with
    ⟨message, hrefused, hfull, hmax⟩ |
    ⟨roomy, grown, hroomy, hgrown, hitems, hmax, hcapacity, hroom⟩
  · refine Or.inl ⟨?_, hfull, hmax⟩
    rw [Buffer.writeToBuffer, if_neg (Int.not_le.mpr hpos), hrefused]
    rfl
  · obtain ⟨cur, cells, hcopied, hcur, hlength, hholds⟩ :=
      @Represents.copyIn roomy grown data expectLen.toNat hgrown (by omega) hroom
    have hnext := hcur.next (by omega)
    have hsum : cur + 1 < 2147483648 := by
      have hlt := hcur.lt
      have hsize := hgrown.dataSize_le
      omega
    have hwrite : buffer.writeToBuffer data expectLen = some (expectLen.toNat,
        { roomy with
          data := cells
          writeIndex := (roomy.writeIndex + expectLen.toNat) % roomy.dataSize }) := by
      rw [Buffer.writeToBuffer, if_neg (Int.not_le.mpr hpos), hroomy, Option.bind_eq_bind,
        Option.bind_some]
      dsimp only
      rw [hcopied, Option.bind_eq_bind, Option.bind_some, intResult_eq hsum,
        Option.bind_eq_bind, Option.bind_some, hnext]
    have htaken : (data.take expectLen.toNat).length = expectLen.toNat :=
      List.length_take_of_le (by omega)
    refine Or.inr ⟨_, grown.append (data.take expectLen.toNat) (by rw [htaken]; exact hroom),
      hwrite, ?_, ?_, hcapacity, hmax⟩
    · constructor
      · exact hgrown.capacity
      · exact hgrown.maxCapacity
      · exact hgrown.small
      · exact hgrown.dataSize
      · exact hlength
      · exact hgrown.readIndex
      · change (roomy.writeIndex + expectLen.toNat) % roomy.dataSize =
          (roomy.readIndex + (grown.items ++ data.take expectLen.toNat).length) % roomy.dataSize
        rw [hgrown.writeIndex, Nat.mod_add_mod, List.length_append, htaken, Nat.add_assoc]
      · exact hholds
    · change grown.items ++ data.take expectLen.toNat = _
      rw [hitems]

end Buffer

/-! ## Any sequence of operations -/

inductive BufferOp where
  | write (data : List UInt8) (expectLen : Int)
  | read (expectLen : Int)
  deriving DecidableEq

/-- What a call returns and the bytes it hands out. -/
structure BufferResult where
  value : Nat
  bytes : List (Option UInt8)
  deriving DecidableEq

namespace BufferOp

/-- The pointer that goes with a length points to that many bytes. -/
def Valid : BufferOp → Prop
  | write data expectLen => expectLen < 536870912 ∧ expectLen ≤ data.length
  | read expectLen => expectLen < 536870912

instance : DecidablePred Valid
  | write _ _ => inferInstanceAs (Decidable (_ ∧ _))
  | read _ => inferInstanceAs (Decidable (_ < _))

def apply (buffer : Buffer) : BufferOp → Option (BufferResult × Buffer)
  | write data expectLen =>
      (buffer.writeToBuffer data expectLen).map fun (value, next) => (⟨value, []⟩, next)
  | read expectLen =>
      (buffer.read expectLen).map fun (value, bytes, next) => (⟨value, bytes⟩, next)

/-- The operation on a queue. -/
def request : BufferOp → BoundedQueue.Request UInt8
  | write data expectLen => .put (data.take expectLen.toNat)
  | read expectLen => .take expectLen.toNat

/-- What a response looks like to the caller. -/
def result : BoundedQueue.Request UInt8 → BoundedQueue.Response UInt8 → BufferResult
  | .put items, .accepted => ⟨items.length, []⟩
  | _, .taken items => ⟨items.length, items.map some⟩
  | _, .short => ⟨sizeMax, []⟩
  | _, _ => ⟨0, []⟩

end BufferOp

namespace Buffer

def runOps (buffer : Buffer) : List BufferOp → Option (List BufferResult × Buffer)
  | [] => some ([], buffer)
  | op :: rest => do
      let applied ← op.apply buffer
      let later ← applied.2.runOps rest
      some (applied.1 :: later.1, later.2)

variable {buffer : Buffer} {queue : BoundedQueue UInt8}

/-- One operation is a step of the queue. -/
theorem Represents.apply (hrep : buffer.Represents queue) {op : BufferOp} (hvalid : op.Valid) :
    ∃ next after response, op.apply buffer = some (BufferOp.result op.request response, next) ∧
      queue.Step op.request response after ∧ next.Represents after := by
  cases op with
  | write data expectLen =>
      obtain ⟨hsmall, hdata⟩ := hvalid
      by_cases hpos : 0 < expectLen
      · have htaken : (data.take expectLen.toNat).length = expectLen.toNat :=
          List.length_take_of_le (by omega)
        rcases hrep.writeToBuffer hpos hsmall hdata with ⟨hrefused, hfull, hmax⟩ |
          ⟨next, written, haccepted, hwritten, hitems, hgrown, hmax⟩
        · refine ⟨buffer, queue, .refused, ?_, ?_, hrep⟩
          · simp [BufferOp.apply, hrefused, BufferOp.result]
          · apply BoundedQueue.Step.refuse
            · rw [htaken]
              exact hfull
            · rw [htaken]
              exact hmax
        · refine ⟨next, written, .accepted, ?_, .accept hitems hgrown hmax, hwritten⟩
          simp only [BufferOp.apply, haccepted, BufferOp.result, BufferOp.request, htaken,
            Option.map_some]
      · -- a length of 0 or less stands for no bytes
        have hnone : expectLen.toNat = 0 := Int.toNat_of_nonpos (Int.not_lt.mp hpos)
        refine ⟨buffer, queue, .accepted, ?_, ?_, hrep⟩
        · simp [BufferOp.apply, Buffer.writeToBuffer, Int.not_lt.mp hpos, BufferOp.request,
            BufferOp.result, hnone]
        · apply BoundedQueue.Step.accept _ (le_refl _) rfl
          rw [hnone, List.take_zero, List.append_nil]
  | read expectLen =>
      by_cases hpos : 0 < expectLen
      · by_cases hunread : expectLen ≤ queue.items.length
        · obtain ⟨next, hread, hnext⟩ := hrep.read_taken hpos hunread
          refine ⟨next, queue.drop expectLen.toNat, .taken (queue.items.take expectLen.toNat), ?_,
            .take (by omega) rfl rfl rfl, hnext⟩
          rw [BufferOp.apply, hread, BufferOp.result, List.length_take_of_le (by omega)]
          rfl
        · have hshort := Int.not_le.mp hunread
          refine ⟨buffer, queue, .short, ?_, .short (by omega), hrep⟩
          rw [BufferOp.apply, hrep.read_short hshort]
          rfl
      · have hnone : expectLen.toNat = 0 := Int.toNat_of_nonpos (Int.not_lt.mp hpos)
        refine ⟨buffer, queue, .taken [], ?_, ?_, hrep⟩
        · simp [BufferOp.apply, Buffer.read, Int.not_lt.mp hpos, BufferOp.request,
            BufferOp.result]
        · have htake : queue.items.take expectLen.toNat = [] := by
            rw [hnone, List.take_zero]
          rw [BufferOp.request, ← htake]
          apply BoundedQueue.Step.take (by omega) _ rfl rfl
          rw [hnone, List.drop_zero]

theorem Represents.runOps (hrep : buffer.Represents queue) {ops : List BufferOp}
    (hvalid : ∀ op ∈ ops, op.Valid) :
    ∃ final after responses,
      buffer.runOps ops =
        some (List.zipWith BufferOp.result (ops.map BufferOp.request) responses, final) ∧
      queue.Serves (ops.map BufferOp.request) responses after ∧ final.Represents after := by
  -- each operation meets the queue that the one before it has left
  induction ops generalizing buffer queue with
  | nil => exact ⟨buffer, queue, [], rfl, .nil queue, hrep⟩
  | cons op rest ih =>
      obtain ⟨hop, hrest⟩ := List.forall_mem_cons.mp hvalid
      obtain ⟨next, after, response, hnext, hstep, hafter⟩ := hrep.apply hop
      obtain ⟨final, last, responses, hfinal, hserves, hlast⟩ := ih hafter hrest
      refine ⟨final, last, response :: responses, ?_, .cons hstep hserves, hlast⟩
      simp [Buffer.runOps, hnext, hfinal]

theorem represents_new {capacity : Nat} {maxCapacity : Int} (hcapacity : capacity < 536870912)
    (hmax : maxCapacity < 536870912) :
    ∃ buffer, Buffer.new capacity maxCapacity = some buffer ∧
      buffer.Represents
        (BoundedQueue.empty capacity (max capacity maxCapacity.toNat) (Nat.le_max_left _ _)) := by
  unfold Buffer.new
  rw [intResult_eq (by omega), Option.bind_eq_bind, Option.bind_some]
  refine ⟨_, rfl, ?_⟩
  constructor
  · rfl
  · change (if maxCapacity > capacity then maxCapacity.toNat else capacity) = max _ _
    split <;> omega
  · change max capacity maxCapacity.toNat < 536870912
    omega
  · rfl
  · exact List.length_replicate
  · exact Nat.succ_pos capacity
  · exact (Nat.zero_mod _).symm
  · exact Ring.holds_nil _ _

/-- A new buffer serves any operations as a bounded queue does, and every computation
on the way is defined. -/
theorem buffer_refines_queue (capacity : Nat) (maxCapacity : Int) (hcapacity : capacity < 536870912)
    (hmax : maxCapacity < 536870912) (ops : List BufferOp) (hvalid : ∀ op ∈ ops, op.Valid) :
    ∃ fresh final queue responses, Buffer.new capacity maxCapacity = some fresh ∧
      fresh.runOps ops =
        some (List.zipWith BufferOp.result (ops.map BufferOp.request) responses, final) ∧
      (BoundedQueue.empty capacity (max capacity maxCapacity.toNat) (Nat.le_max_left _ _)).Serves
        (ops.map BufferOp.request) responses queue ∧
      final.Represents queue ∧ final.readIndex < final.dataSize ∧
      final.writeIndex < final.dataSize ∧ final.dataSize = final.capacity + 1 ∧
      final.getUnreadSize = some queue.items.length ∧ queue.items.length ≤ final.capacity ∧
      final.capacity ≤ final.maxCapacity := by
  obtain ⟨fresh, hfresh, hempty⟩ := represents_new hcapacity hmax
  obtain ⟨final, queue, responses, hrun, hserves, hrep⟩ := hempty.runOps hvalid
  refine ⟨fresh, final, queue, responses, hfresh, hrun, hserves, hrep, hrep.readIndex,
    hrep.writeIndex_lt, hrep.dataSize, hrep.getUnreadSize, ?_, ?_⟩
  · rw [hrep.capacity]
    exact queue.fits
  · rw [hrep.capacity, hrep.maxCapacity]
    exact queue.bounded

/-- Three bytes, of which two are read, then five more around the end of the cells,
then more than there is room for. -/
def sampleOps : List BufferOp :=
  [.write [1, 2, 3] 3, .read 2, .write [4, 5, 6, 7, 8] 5, .write [9, 9, 9, 9] 4, .read 7]

theorem buffer_refines_queue_sample :
    ∃ fresh final queue responses, Buffer.new 4 8 = some fresh ∧
      fresh.runOps sampleOps =
        some (List.zipWith BufferOp.result (sampleOps.map BufferOp.request) responses, final) ∧
      (BoundedQueue.empty 4 (max 4 (8 : Int).toNat) (Nat.le_max_left _ _)).Serves
        (sampleOps.map BufferOp.request) responses queue ∧
      final.Represents queue ∧ final.readIndex < final.dataSize ∧
      final.writeIndex < final.dataSize ∧ final.dataSize = final.capacity + 1 ∧
      final.getUnreadSize = some queue.items.length ∧ queue.items.length ≤ final.capacity ∧
      final.capacity ≤ final.maxCapacity :=
  buffer_refines_queue 4 8 (by decide) (by decide) sampleOps (by decide)

end Buffer

end CProxy
