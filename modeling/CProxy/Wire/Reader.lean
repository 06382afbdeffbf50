import CProxy.Foundation.Run
import CProxy.Wire.Frame

/-! # The reader on a non-blocking socket

`CtlConn::handleRead` and the idle half of `ProxyConn::handleRead`, one `read(2)`
at a time: a `readn` for the length and one for the rest of the message. Both
conversions between `size_t` and `int` are made as `readn` makes them.
-/

namespace CProxy.Wire

open Foundation

/-- What a call of `handleRead` has come to before its `switch`. -/
inductive ReadOutcome where
  /-- The input has ended. -/
  | nothing
  | lenErr
  | lenTooLong
  | bodyErr
  /-- The length, and the bytes read behind it. -/
  | switch (len : Nat) (got : List UInt8)
  deriving DecidableEq

/-- The two `readn` calls, with the bytes they have read so far. -/
inductive ReaderPoint where
  | length (got : List UInt8)
  | body (len : Nat) (got : List UInt8)
  | returned (outcome : ReadOutcome)
  deriving DecidableEq

/-- `incoming` has arrived at the socket and is unread; `closed` tells that the peer
has finished. `arrived` is history: all that has come to the socket. -/
structure MsgReader where
  point : ReaderPoint := .length []
  incoming : List UInt8 := []
  closed : Bool := false
  inBufferEmpty : Bool := false
  arrived : List UInt8 := incoming
  deriving DecidableEq

inductive ReaderEvent where
  | arrive (bytes : List UInt8)
  | hangUp
  /-- A `read(2)`. The kernel hands over at least one byte if there is one, and `count`
  of them if so many are asked for and there. -/
  | read (count : Nat)
  /-- A `read(2)` that fails with EINTR. -/
  | interrupted
  /-- A `read(2)` that fails otherwise. -/
  | broken
  deriving DecidableEq

namespace MsgReader

/-- `size_t body_len = msg.len - sizeof(msg.len)`. -/
def bodyLen (len : Nat) : Nat := sizeT (len - 4)

/-- `len_left` in `readn`, an `int` that starts as `size`. -/
def lenLeft (size count : Nat) : Int := int32 size - count

/-- The value of `size - len_left`. -/
def readNum (size count : Nat) : Nat := sizeT (size - lenLeft size count)

/-- What follows the second `readn`. -/
def afterBody (inBufferEmpty : Bool) (len : Nat) (got : List UInt8) (readNum : Nat) :
    ReadOutcome :=
  if readNum = 0 ∧ inBufferEmpty then .nothing
  else if readNum ≠ bodyLen len then .bodyErr
  else .switch len got

/-- What follows the first `readn`. -/
def afterLength (inBufferEmpty : Bool) (got : List UInt8) (num : Nat) : ReaderPoint :=
  if num = 0 ∧ inBufferEmpty then .returned .nothing
  else if num ≠ 4 then .returned .lenErr
  else if beValue got > msgSize then .returned .lenTooLong
  else if lenLeft (bodyLen (beValue got)) 0 > 0 then .body (beValue got) []
  else
    .returned (afterBody inBufferEmpty (beValue got) [] (readNum (bodyLen (beValue got)) 0))

/-- Where `handleRead` goes when the `readn` it is in returns. -/
def leave (inBufferEmpty : Bool) : ReaderPoint → Nat → ReaderPoint
  | .length got, num => afterLength inBufferEmpty got num
  | .body len got, num => .returned (afterBody inBufferEmpty len got num)
  | .returned outcome, _ => .returned outcome

/-- The bytes of the current `readn` and how many it is to read. -/
def got : ReaderPoint → List UInt8
  | .length got => got
  | .body _ got => got
  | .returned _ => []

def size : ReaderPoint → Nat
  | .length _ => 4
  | .body len _ => bodyLen len
  | .returned _ => 0

def put (bytes : List UInt8) : ReaderPoint → ReaderPoint
  | .length got => .length (got ++ bytes)
  | .body len got => .body len (got ++ bytes)
  | .returned outcome => .returned outcome

/-- `read(2)` has handed over `count` bytes; `readn` goes on while some are missing. -/
def take (s : MsgReader) (count : Nat) : MsgReader :=
  let point := put (s.incoming.take count) s.point
  { s with
    incoming := s.incoming.drop count
    point :=
      if lenLeft (size point) (got point).length > 0 then point
      else leave s.inBufferEmpty point (readNum (size point) (got point).length) }

@[simp] theorem take_closed (s : MsgReader) (count : Nat) : (s.take count).closed = s.closed := by
  cases s
  simp only [take]

@[simp] theorem take_inBufferEmpty (s : MsgReader) (count : Nat) :
    (s.take count).inBufferEmpty = s.inBufferEmpty := by
  cases s
  simp only [take]

@[simp] theorem take_arrived (s : MsgReader) (count : Nat) :
    (s.take count).arrived = s.arrived := by
  cases s
  simp only [take]

/-- The number of bytes `read(2)` hands over when it is asked for `asked`. -/
def handed (s : MsgReader) (count : Nat) : Nat :=
  max 1 (min count
    (min (lenLeft (size s.point) (got s.point).length).toNat s.incoming.length))

def Returned (s : MsgReader) : Prop := ∃ outcome, s.point = .returned outcome

instance (s : MsgReader) : Decidable s.Returned :=
  match hpoint : s.point with
  | .length _ => isFalse fun hreturned => by
      obtain ⟨outcome, heq⟩ := hreturned
      rw [hpoint] at heq
      cases heq
  | .body _ _ => isFalse fun hreturned => by
      obtain ⟨outcome, heq⟩ := hreturned
      rw [hpoint] at heq
      cases heq
  | .returned outcome => isTrue ⟨outcome, hpoint⟩

def step (s : MsgReader) (event : ReaderEvent) : Option MsgReader :=
  if s.Returned then none
  else
    match event with
    | .arrive bytes =>
        if s.closed then none
        else some { s with incoming := s.incoming ++ bytes, arrived := s.arrived ++ bytes }
    | .hangUp => some { s with closed := true }
    | .read count =>
        if s.incoming ≠ [] then some (s.take (s.handed count))
        else if s.closed then
          some { s with
            inBufferEmpty := true
            point := leave true s.point (readNum (size s.point) (got s.point).length) }
        -- EAGAIN: `readn` tries again
        else some s
    | .interrupted => some s
    | .broken => some { s with point := leave s.inBufferEmpty s.point sizeMax }

/-! ## The conversions in `readn` -/

theorem four_le_msgSize : 4 ≤ msgSize := by
  unfold msgSize maxMsgLen
  omega

theorem bodyLen_eq {len : Nat} (hlow : 4 ≤ len) (hhigh : len ≤ msgSize) :
    bodyLen len = len - 4 := by
  unfold bodyLen sizeT sizeMax
  unfold msgSize maxMsgLen at hhigh
  omega

theorem lenLeft_eq {size : Nat} (hsize : size ≤ msgSize) (count : Nat) :
    lenLeft size count = size - count := by
  unfold lenLeft int32
  unfold msgSize maxMsgLen at hsize
  omega

theorem readNum_eq {size count : Nat} (hsize : size ≤ msgSize) (hcount : count ≤ size) :
    readNum size count = count := by
  unfold readNum sizeT sizeMax
  rw [lenLeft_eq hsize]
  unfold msgSize maxMsgLen at hsize
  omega

/-- A length below 4 makes a huge `size_t` and a negative `int`, so nothing is read. -/
theorem short_length {len : Nat} (hlow : len < 4) :
    lenLeft (bodyLen len) 0 < 0 ∧ readNum (bodyLen len) 0 = 0 ∧ bodyLen len ≠ 0 := by
  unfold readNum lenLeft bodyLen int32 sizeT sizeMax
  omega

/-! ## What has been read -/

/-- The four bytes of a length, the bytes read behind them and those still unread. -/
def Behind (arrived : List UInt8) (len : Nat) (got incoming : List UInt8) : Prop :=
  ∃ head, head.length = 4 ∧ beValue head = len ∧ arrived = head ++ (got ++ incoming)

theorem Behind.take {arrived got incoming : List UInt8} {len : Nat}
    (hbehind : Behind arrived len got incoming) (count : Nat) :
    Behind arrived len (got ++ incoming.take count) (incoming.drop count) := by
  obtain ⟨head, hhead, hvalue, harrived⟩ := hbehind
  refine ⟨head, hhead, hvalue, ?_⟩
  rw [List.append_assoc got, List.take_append_drop, harrived]

theorem Behind.split {arrived got incoming : List UInt8} {len : Nat}
    (hbehind : Behind arrived len got incoming) :
    4 ≤ arrived.length ∧ len = beValue (arrived.take 4) ∧ arrived.drop 4 = got ++ incoming := by
  obtain ⟨head, hhead, rfl, rfl⟩ := hbehind
  refine ⟨?_, ?_, List.drop_left' hhead⟩
  · rw [List.length_append, hhead]
    exact Nat.le_add_right 4 _
  · rw [List.take_left' hhead]

/-- What the reader makes of the bytes that have arrived. `calm` says that the input has
neither ended nor failed. -/
inductive Shape (calm : Bool) (arrived incoming : List UInt8) : ReaderPoint → Prop
  | length {got : List UInt8} (hgot : got.length < 4) (harrived : arrived = got ++ incoming) :
      Shape calm arrived incoming (.length got)
  | body {len : Nat} {got : List UInt8} (hlow : 4 < len) (hhigh : len ≤ msgSize)
      (hgot : got.length < len - 4) (hbehind : Behind arrived len got incoming) :
      Shape calm arrived incoming (.body len got)
  | switch {len : Nat} {got : List UInt8} (hlow : 4 ≤ len) (hhigh : len ≤ msgSize)
      (hgot : got.length = len - 4) (hbehind : Behind arrived len got incoming) :
      Shape calm arrived incoming (.returned (.switch len got))
  | refused {outcome : ReadOutcome} (hnot : ∀ len got, outcome ≠ .switch len got)
      (hlen : calm = true → ∃ len, (len ≤ 4 ∨ msgSize < len) ∧ Behind arrived len [] incoming) :
      Shape calm arrived incoming (.returned outcome)

structure ReaderInv (calm : Bool) (s : MsgReader) : Prop where
  shape : Shape calm s.arrived s.incoming s.point
  closed : calm = true → s.closed = false

variable {calm : Bool} {arrived incoming head bytes : List UInt8} {s s' : MsgReader}
  {event : ReaderEvent}

theorem readerInv_start (calm inBufferEmpty : Bool) (incoming : List UInt8) :
    ReaderInv calm { incoming := incoming, inBufferEmpty := inBufferEmpty } where
  shape := .length (by decide) rfl
  closed := fun _ => rfl

/-- A second `readn` that reads nothing leaves at once. -/
theorem shape_afterBody_nil {len num : Nat} (inBufferEmpty : Bool) (hlen : len ≤ 4)
    (hnum : num = 0) (hfour : bodyLen len = 0 → len = 4)
    (hbehind : Behind arrived len [] incoming) :
    Shape calm arrived incoming (.returned (afterBody inBufferEmpty len [] num)) := by
  unfold afterBody
  split
  · exact .refused nofun fun _ => ⟨len, Or.inl hlen, hbehind⟩
  · split
    · exact .refused nofun fun _ => ⟨len, Or.inl hlen, hbehind⟩
    · next hsame =>
        have hlen : len = 4 := hfour (by rw [← Decidable.not_not.mp hsame, hnum])
        subst hlen
        exact .switch (le_refl 4) four_le_msgSize rfl hbehind

/-- The length has been read whole. -/
theorem shape_afterLength (calm inBufferEmpty : Bool) (hhead : head.length = 4)
    (incoming : List UInt8) :
    Shape calm (head ++ incoming) incoming (afterLength inBufferEmpty head 4) := by
  have hbehind : Behind (head ++ incoming) (beValue head) [] incoming := ⟨head, hhead, rfl, rfl⟩
  unfold afterLength
  rw [if_neg (by omega), if_neg (by omega)]
  by_cases hlong : beValue head > msgSize
  · rw [if_pos hlong]
    exact .refused nofun fun _ => ⟨_, Or.inr hlong, hbehind⟩
  rw [if_neg hlong]
  have hhigh : beValue head ≤ msgSize := Nat.not_lt.mp hlong
  -- only a length above 4 leaves something to read
  rcases Nat.lt_trichotomy (beValue head) 4 with hlow | hfour | hmore
  · obtain ⟨hleft, hnum, hlen⟩ := short_length hlow
    rw [if_neg (not_lt.mpr hleft.le)]
    exact shape_afterBody_nil inBufferEmpty hlow.le hnum (fun hzero => absurd hzero hlen) hbehind
  · have hbody : bodyLen (beValue head) = 0 := by
      rw [bodyLen_eq hfour.ge hhigh, hfour]
    have hleft : ¬ lenLeft (bodyLen (beValue head)) 0 > 0 := by
      rw [hbody]
      decide
    have hnum : readNum (bodyLen (beValue head)) 0 = 0 := by
      rw [hbody]
      exact readNum_eq (Nat.zero_le _) (le_refl 0)
    rw [if_neg hleft]
    exact shape_afterBody_nil inBufferEmpty hfour.le hnum (fun _ => hfour) hbehind
  · have hbody := bodyLen_eq hmore.le hhigh
    have hleft : lenLeft (bodyLen (beValue head)) 0 > 0 := by
      rw [hbody, lenLeft_eq (by omega)]
      omega
    rw [if_pos hleft]
    exact .body hmore hhigh (by simpa using hmore) hbehind

/-- The current `readn` goes on as long as it has not read all it is to read. -/
theorem Shape.lenLeft_eq {point : ReaderPoint} (hshape : Shape calm arrived incoming point)
    (hrunning : ∀ outcome, point ≠ .returned outcome) :
    lenLeft (size point) (got point).length = size point - (got point).length ∧
      (got point).length < size point ∧ size point ≤ msgSize := by
  cases hshape with
  | length hgot harrived =>
      exact ⟨MsgReader.lenLeft_eq four_le_msgSize _, hgot, four_le_msgSize⟩
  | @body len read hlow hhigh hgot hbehind =>
      have hbody := bodyLen_eq hlow.le hhigh
      have hsize : bodyLen len ≤ msgSize := by omega
      refine ⟨MsgReader.lenLeft_eq hsize _, ?_, hsize⟩
      change read.length < bodyLen len
      rw [hbody]
      exact hgot
  | switch hlow hhigh hgot hbehind => exact absurd rfl (hrunning _)
  | refused hnot hlen => exact absurd rfl (hrunning _)

/-- A `readn` that does not get all it asked for brings the call to no message. -/
theorem leave_short {point : ReaderPoint} {num : Nat} (inBufferEmpty : Bool)
    (hrunning : ∀ outcome, point ≠ .returned outcome) (hshort : num ≠ size point) :
    ∃ outcome, leave inBufferEmpty point num = .returned outcome ∧
      ∀ len got, outcome ≠ .switch len got := by
  cases point with
  | length read =>
      have hlength : num ≠ 4 := hshort
      simp only [leave, afterLength, if_pos hlength]
      split
      · exact ⟨_, rfl, by simp⟩
      · exact ⟨_, rfl, by simp⟩
  | body len read =>
      have hbody : num ≠ bodyLen len := hshort
      simp only [leave, afterBody, if_pos hbody]
      split
      · exact ⟨_, rfl, by simp⟩
      · exact ⟨_, rfl, by simp⟩
  | returned outcome => exact absurd rfl (hrunning outcome)

theorem shape_leave_short {point : ReaderPoint} {num : Nat} (inBufferEmpty : Bool)
    (hrunning : ∀ outcome, point ≠ .returned outcome) (hshort : num ≠ size point) :
    Shape false arrived incoming (leave inBufferEmpty point num) := by
  obtain ⟨outcome, hleave, hnot⟩ := leave_short inBufferEmpty hrunning hshort
  rw [hleave]
  exact .refused hnot (by simp)

/-- At the end of the input `readn` has read less than it asked for. -/
theorem Shape.readNum_ne {point : ReaderPoint} (hshape : Shape calm arrived incoming point)
    (hrunning : ∀ outcome, point ≠ .returned outcome) :
    readNum (size point) (got point).length ≠ size point := by
  obtain ⟨-, hmissing, hsize⟩ := hshape.lenLeft_eq hrunning
  rw [readNum_eq hsize hmissing.le]
  exact hmissing.ne

/-- An error is returned as `(size_t)-1`, more than any size asked for. -/
theorem Shape.sizeMax_ne {point : ReaderPoint} (hshape : Shape calm arrived incoming point)
    (hrunning : ∀ outcome, point ≠ .returned outcome) : sizeMax ≠ size point := by
  obtain ⟨-, -, hsize⟩ := hshape.lenLeft_eq hrunning
  unfold sizeMax
  unfold msgSize maxMsgLen at hsize
  omega

theorem length_got_put (bytes : List UInt8) {point : ReaderPoint}
    (hrunning : ∀ outcome, point ≠ .returned outcome) :
    (got (put bytes point)).length = (got point).length + bytes.length ∧
      size (put bytes point) = size point := by
  cases point with
  | length read => exact ⟨List.length_append, rfl⟩
  | body len read => exact ⟨List.length_append, rfl⟩
  | returned outcome => exact absurd rfl (hrunning outcome)

/-- Bytes that are wanted go from the socket into the message. -/
theorem shape_take {count : Nat} (hshape : Shape calm s.arrived s.incoming s.point)
    (hrunning : ∀ outcome, s.point ≠ .returned outcome) (hcount : count ≤ s.incoming.length)
    (hwanted : (got s.point).length + count ≤ size s.point) :
    Shape calm (s.take count).arrived (s.take count).incoming (s.take count).point := by
  have hsize := (hshape.lenLeft_eq hrunning).2.2
  obtain ⟨hgot, hsame⟩ := length_got_put (s.incoming.take count) hrunning
  rw [List.length_take_of_le hcount] at hgot
  unfold MsgReader.take
  dsimp only
  rw [hsame, hgot, MsgReader.lenLeft_eq hsize, readNum_eq hsize hwanted]
  cases s with
  | mk point incoming closed inBufferEmpty arrived =>
  dsimp only at *
  by_cases hmore : (MsgReader.got point).length + count < size point
  · rw [if_pos (by omega)]
    cases hshape with
    | length hread harrived =>
        refine .length (hgot.trans_lt hmore) ?_
        rw [List.append_assoc, List.take_append_drop, harrived]
    | body hlow hhigh hread hbehind =>
        refine .body hlow hhigh ?_ (hbehind.take count)
        have hbody := bodyLen_eq hlow.le hhigh
        exact hgot.trans_lt (hbody ▸ hmore)
    | switch hlow hhigh hread hbehind => exact absurd rfl (hrunning _)
    | refused hnot hlen => exact absurd rfl (hrunning _)
  · -- this `readn` has all its bytes
    have hall : (MsgReader.got point).length + count = size point := by omega
    rw [if_neg (by omega), hall]
    cases hshape with
    | length hread harrived =>
        rw [harrived, ← List.take_append_drop count incoming, ← List.append_assoc,
          List.take_append_drop]
        exact shape_afterLength calm inBufferEmpty (hgot.trans hall) _
    | @body len read hlow hhigh hread hbehind =>
        have hbody := bodyLen_eq hlow.le hhigh
        have hlength : (read ++ incoming.take count).length = len - 4 :=
          hgot.trans (hall.trans hbody)
        change Shape calm arrived _ (.returned (afterBody inBufferEmpty len _ (bodyLen len)))
        rw [afterBody, if_neg (by omega), if_neg (not_not.mpr rfl)]
        exact .switch hlow.le hhigh hlength (hbehind.take count)
    | switch hlow hhigh hread hbehind => exact absurd rfl (hrunning _)
    | refused hnot hlen => exact absurd rfl (hrunning _)

/-- A `read(2)` that finds bytes. -/
theorem shape_handed (hshape : Shape calm s.arrived s.incoming s.point)
    (hrunning : ∀ outcome, s.point ≠ .returned outcome) (hincoming : s.incoming ≠ [])
    (count : Nat) : Shape calm (s.take (s.handed count)).arrived
      (s.take (s.handed count)).incoming (s.take (s.handed count)).point := by
  obtain ⟨hleft, hmissing, -⟩ := hshape.lenLeft_eq hrunning
  have hpos : 0 < s.incoming.length := List.length_pos_iff.mpr hincoming
  apply shape_take hshape hrunning
  · unfold handed
    omega
  · unfold handed
    omega

theorem shape_arrive {point : ReaderPoint} (hshape : Shape calm arrived incoming point)
    (hrunning : ∀ outcome, point ≠ .returned outcome) (bytes : List UInt8) :
    Shape calm (arrived ++ bytes) (incoming ++ bytes) point := by
  cases hshape with
  | length hread harrived =>
      refine .length hread ?_
      rw [harrived, List.append_assoc]
  | body hlow hhigh hread hbehind =>
      obtain ⟨head, hhead, hvalue, harrived⟩ := hbehind
      refine .body hlow hhigh hread ⟨head, hhead, hvalue, ?_⟩
      rw [harrived]
      simp only [List.append_assoc]
  | switch hlow hhigh hgot hbehind => exact absurd rfl (hrunning _)
  | refused hnot hlen => exact absurd rfl (hrunning _)

theorem running_of_step (hstep : step s event = some s') (outcome : ReadOutcome) :
    s.point ≠ .returned outcome := by
  unfold MsgReader.step at hstep
  rw [Option.ite_none_left_eq_some] at hstep
  exact fun hreturned => hstep.1 ⟨outcome, hreturned⟩

/-- A `read(2)` finds bytes, or the end of the input, or it has to be made again. -/
theorem step_read_cases {count : Nat} (hstep : step s (.read count) = some s') :
    s.incoming ≠ [] ∧ s' = s.take (s.handed count) ∨
      s.incoming = [] ∧ s.closed = true ∧ s' = { s with
        inBufferEmpty := true
        point := leave true s.point (readNum (size s.point) (got s.point).length) } ∨
      s.incoming = [] ∧ s.closed = false ∧ s' = s := by
  unfold MsgReader.step at hstep
  rw [Option.ite_none_left_eq_some] at hstep
  have hread := hstep.2
  by_cases hincoming : s.incoming ≠ []
  · simp only [if_pos hincoming, Option.some.injEq] at hread
    exact Or.inl ⟨hincoming, hread.symm⟩
  · simp only [if_neg hincoming] at hread
    have hnil := not_not.mp hincoming
    by_cases hclosed : s.closed = true
    · rw [if_pos hclosed, Option.some.injEq] at hread
      exact Or.inr (Or.inl ⟨hnil, hclosed, hread.symm⟩)
    · rw [if_neg hclosed, Option.some.injEq] at hread
      exact Or.inr (Or.inr ⟨hnil, Bool.not_eq_true _ ▸ hclosed, hread.symm⟩)

/-- Events that neither end nor break the input. -/
def Calm : ReaderEvent → Prop
  | .hangUp | .broken => False
  | _ => True

theorem ReaderInv.step (hinv : ReaderInv calm s) (hcalm : calm = true → Calm event)
    (hstep : step s event = some s') : ReaderInv calm s' := by
  have hrunning := running_of_step hstep
  cases event with
  | read count =>
      rcases step_read_cases hstep with ⟨hincoming, rfl⟩ | ⟨-, hclosed, rfl⟩ | ⟨-, -, rfl⟩
      · exact ⟨shape_handed hinv.shape hrunning hincoming count,
          (take_closed s _).symm ▸ hinv.closed⟩
      · cases calm with
        | true => rw [hinv.closed rfl] at hclosed; cases hclosed
        | false =>
            exact ⟨shape_leave_short true hrunning (hinv.shape.readNum_ne hrunning), nofun⟩
      · exact hinv
  | arrive bytes =>
      simp only [MsgReader.step, Option.ite_none_left_eq_some] at hstep
      obtain rfl := Option.some.inj hstep.2.2
      exact ⟨shape_arrive hinv.shape hrunning bytes, hinv.closed⟩
  | hangUp =>
      simp only [MsgReader.step, Option.ite_none_left_eq_some] at hstep
      obtain rfl := Option.some.inj hstep.2
      exact ⟨hinv.shape, fun htrue => (hcalm htrue).elim⟩
  | interrupted =>
      simp only [MsgReader.step, Option.ite_none_left_eq_some] at hstep
      obtain rfl := Option.some.inj hstep.2
      exact hinv
  | broken =>
      simp only [MsgReader.step, Option.ite_none_left_eq_some] at hstep
      obtain rfl := Option.some.inj hstep.2
      cases calm with
      | true => exact (hcalm rfl).elim
      | false =>
          exact ⟨shape_leave_short s.inBufferEmpty hrunning (hinv.shape.sizeMax_ne hrunning),
            nofun⟩

/-- The kernel may hand over all that is wanted when it is there. -/
theorem step_read {count : Nat} (hshape : Shape calm s.arrived s.incoming s.point)
    (hrunning : ∀ outcome, s.point ≠ .returned outcome) (hpos : 0 < count)
    (hthere : count ≤ s.incoming.length) (hall : (got s.point).length + count = size s.point) :
    step s (.read count) = some (s.take count) ∧
      (s.take count).incoming = s.incoming.drop count ∧
      (s.take count).point =
        leave s.inBufferEmpty (put (s.incoming.take count) s.point) (size s.point) := by
  have hleft := (hshape.lenLeft_eq hrunning).1
  have hsize := (hshape.lenLeft_eq hrunning).2.2
  have hhanded : s.handed count = count := by
    unfold handed
    omega
  have hincoming : s.incoming ≠ [] := List.length_pos_iff.mp (hpos.trans_le hthere)
  have hnot : ¬ s.Returned := fun ⟨outcome, hreturned⟩ => hrunning outcome hreturned
  obtain ⟨hgot, hsame⟩ := length_got_put (s.incoming.take count) hrunning
  rw [List.length_take_of_le hthere, hall] at hgot
  refine ⟨?_, ?_, ?_⟩
  · rw [step, if_neg hnot]
    simp only [if_pos hincoming, hhanded]
  · cases s
    simp only [take]
  · have hdone : ¬ lenLeft (size s.point) (size s.point) > 0 := by
      rw [MsgReader.lenLeft_eq hsize]
      omega
    unfold take
    dsimp only
    rw [hsame, hgot, if_neg hdone, readNum_eq hsize (le_refl _)]

/-- A call that has not returned can always read. -/
theorem exists_step_read (hrunning : ¬ s.Returned) (count : Nat) :
    ∃ s', step s (.read count) = some s' := by
  rw [step, if_neg hrunning]
  by_cases hincoming : s.incoming ≠ []
  · exact ⟨_, if_pos hincoming⟩
  · by_cases hclosed : s.closed = true
    · exact ⟨_, (if_neg hincoming).trans (if_pos hclosed)⟩
    · exact ⟨_, (if_neg hincoming).trans (if_neg hclosed)⟩

/-- Nothing arrives while the reader reads. -/
theorem arrived_of_read {count : Nat} (hstep : step s (.read count) = some s') :
    s'.arrived = s.arrived := by
  rcases step_read_cases hstep with ⟨-, rfl⟩ | ⟨-, -, rfl⟩ | ⟨-, -, rfl⟩
  · exact take_arrived s _
  · rfl
  · rfl

/-! ## A message that has not arrived whole -/

/-- However the kernel splits the bytes that are there, the call returns after at most
`bound` reads. -/
def ReturnsWithin (s : MsgReader) (bound : Nat) : Prop :=
  ∀ kernel : Nat → Nat, ∃ calls, calls ≤ bound ∧
    ∃ s', runFor MsgReader.step (fun call => .read (kernel call)) s calls = some s' ∧ s'.Returned

/-- The reader at a socket that holds the first `count` bytes of a message. -/
def atPart (type : Nat) (body : List UInt8) (count : Nat) (inBufferEmpty : Bool) : MsgReader :=
  { incoming := (makeMsg type body).wire.take count, inBufferEmpty := inBufferEmpty }

variable {type count : Nat} {body : List UInt8} {inBufferEmpty : Bool}

/-- `readn` asks for the missing bytes again and again. -/
theorem not_returned_atPart (hbody : body.length ≤ maxMsgLen) (hcount : count < 8 + body.length)
    {kernel : Nat → Nat} {calls : Nat}
    (hrun : runFor MsgReader.step (fun call => .read (kernel call))
      (atPart type body count inBufferEmpty) calls = some s) : ¬ s.Returned := by
  have hstep (calls : Nat) (s s' : MsgReader) (hinv : ReaderInv true s ∧
      s.arrived = (makeMsg type body).wire.take count)
      (hnext : MsgReader.step s (.read (kernel calls)) = some s') :
      ReaderInv true s' ∧ s'.arrived = (makeMsg type body).wire.take count :=
    ⟨hinv.1.step (fun _ => show Calm (.read _) from trivial) hnext, (arrived_of_read hnext).trans hinv.2⟩
  obtain ⟨hinv, harrived⟩ := runFor_invariant
    ⟨readerInv_start true inBufferEmpty ((makeMsg type body).wire.take count), rfl⟩
    (fun calls s s' _ hinv hnext => hstep calls s s' hinv hnext) hrun
  have hlength : s.arrived.length ≤ count := by
    rw [harrived, List.length_take]
    exact Nat.min_le_left _ _
  -- the length that was read is the length of the whole message
  have hlen {len : Nat} {read : List UInt8} (hbehind : Behind s.arrived len read s.incoming) :
      len = 8 + body.length := by
    obtain ⟨hfour, hvalue, -⟩ := hbehind.split
    rw [hvalue, harrived, List.take_take, Nat.min_eq_left (hfour.trans hlength), makeMsg_wire,
      List.take_left' (beBytes_length 4 _), beValue_len body hbody]
  rintro ⟨outcome, hreturned⟩
  have hshape := hinv.shape
  rw [hreturned] at hshape
  cases hshape with
  | switch hlow hhigh hread hbehind =>
      have hall := congrArg List.length hbehind.split.2.2
      have hsame := hlen hbehind
      simp only [List.length_drop, List.length_append] at hall
      omega
  | refused hnot hrefused =>
      obtain ⟨len, hbad, hbehind⟩ := hrefused rfl
      have hsame := hlen hbehind
      unfold msgSize at hbad
      omega

/-- The reader of a message of which some bytes, but not all, have arrived never returns
to the event loop. -/
theorem partial_frame_holds_loop (type : Nat) (body : List UInt8)
    (hbody : body.length ≤ maxMsgLen) (count : Nat) (hcount : count < 8 + body.length)
    (inBufferEmpty : Bool) :
    ¬ ∃ bound, ReturnsWithin (atPart type body count inBufferEmpty) bound := by
  rintro ⟨bound, hwithin⟩
  obtain ⟨calls, -, s, hrun, hreturned⟩ := hwithin fun _ => 1
  exact not_returned_atPart hbody hcount hrun hreturned

theorem partial_frame_holds_loop_sample :
    ¬ ∃ bound, ReturnsWithin (atPart 0 [0] 4 false) bound :=
  partial_frame_holds_loop 0 [0] (by decide) 4 (by decide) false

/-- The four length bytes of a NewCtlReq are there and nothing else comes. -/
theorem not_partial_frame_returns :
    ¬ ∀ (type : Nat) (body : List UInt8) (count : Nat) (inBufferEmpty : Bool),
      body.length ≤ maxMsgLen → 0 < count → count < 8 + body.length →
        ∃ bound, ReturnsWithin (atPart type body count inBufferEmpty) bound := by
  intro hall
  obtain ⟨bound, hwithin⟩ := hall 0 [0] 4 false (by decide) (by decide) (by decide)
  obtain ⟨calls, -, s, hrun, hreturned⟩ := hwithin fun _ => 1
  exact not_returned_atPart (by decide) (by decide) hrun hreturned

end MsgReader

end CProxy.Wire
