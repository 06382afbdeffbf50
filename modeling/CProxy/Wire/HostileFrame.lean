import CProxy.Wire.Reader

/-! # Messages from a hostile peer

What `handleRead` does behind its `readn` calls with bytes that no sender of the
repository wrote: the `switch` over the type, and the copy of the body into the
struct of that type.
-/

namespace CProxy.Wire

open Foundation MsgReader

/-- The class whose `handleRead` it is; `ProxyConn` reads messages while it is idle. -/
inductive MsgClass where
  | ctlConn
  | proxyConn
  deriving DecidableEq

/-- Where a body is copied: a struct on the stack, or for NewCtlRsp a block as large as
the body, which is read as a string afterwards. -/
inductive Destination where
  | struct (size : Nat)
  | block
  deriving DecidableEq

/-- The `switch` of `CtlConn::handleRead` and the sizes of its structs. -/
def ctlDestination : Nat → Option Destination
  | 0 => some (.struct 1)
  | 1 => some .block
  | 2 => some (.struct 24)
  | 3 => some (.struct 60)
  | 4 => some (.struct 16)
  | 5 => some (.struct 24)
  | 6 => some (.struct 20)
  | _ => none

/-- The `switch` of `ProxyConn::handleRead`. -/
def proxyDestination : Nat → Option Destination
  | 0 => some (.struct 30)
  | 1 => some (.struct 16)
  | 2 => some (.struct 16)
  | _ => none

def MsgClass.destination : MsgClass → Nat → Option Destination
  | ctlConn => ctlDestination
  | proxyConn => proxyDestination

/-- The number of message types. -/
def MsgClass.kinds : MsgClass → Nat
  | ctlConn => 7
  | proxyConn => 3

/-- `GetCtlMsgBodySize` and `get_proxy_ctl_msg_body_size`. -/
def bodySize (len : Nat) : Nat := sizeT (len - 8)

/-- `msg.type`, of which the bytes that were not read are those that `stale` had there. -/
def typeOf (stale got : List UInt8) : Nat := leValue (got.take 4 ++ stale.drop got.length)

/-- What is asked of a copy of `bodySize len` bytes behind the type. -/
structure BoundedCopy (len : Nat) (got : List UInt8) (dest : Destination) : Prop where
  typeRead : 4 ≤ got.length
  noUnderflow : 8 ≤ len
  received : bodySize len = (got.drop 4).length
  fits : match dest with
    | .struct size => bodySize len ≤ size
    | .block => 0 ∈ got.drop 4

/-- Every copy that a call of `handleRead` makes once these bytes have arrived is bounded,
whatever the message variable held before and however the kernel answers. -/
def DecodesBounded (which : MsgClass) (stream : List UInt8) : Prop :=
  ∀ (stale : List UInt8) (inBufferEmpty : Bool) (events : List ReaderEvent) (s : MsgReader)
    (len : Nat) (got : List UInt8) (dest : Destination), stale.length = 4 →
      run MsgReader.step { inBufferEmpty := inBufferEmpty } events = some s →
        s.arrived = stream → s.point = .returned (.switch len got) →
          which.destination (typeOf stale got) = some dest → BoundedCopy len got dest

/-! ## The first message of a stream -/

/-- The value of the four length bytes. -/
def frameLen (stream : List UInt8) : Nat := beValue (stream.take 4)

/-- The bytes of the message behind its length. -/
def frameBytes (stream : List UInt8) : List UInt8 := (stream.take (frameLen stream)).drop 4

/-- The streams whose first message is refused, or whose body fits where its type puts it. -/
def Harmless (which : MsgClass) (stream : List UInt8) : Prop :=
  stream.length < 4 ∨ stream.length < frameLen stream ∨ frameLen stream < 4 ∨
    msgSize < frameLen stream ∨ which.kinds ≤ leValue ((frameBytes stream).take 4) ∨
    8 ≤ frameLen stream ∧
      match which.destination (leValue ((frameBytes stream).take 4)) with
      | some (.struct size) => frameLen stream - 8 ≤ size
      | some .block => 0 ∈ (frameBytes stream).drop 4
      | none => True

theorem ctlDestination_isSome_iff (type : Nat) :
    (ctlDestination type).isSome = true ↔ type < 7 := by
  match type with
  | 0 | 1 | 2 | 3 | 4 | 5 | 6 => decide
  | rest + 7 => simp [ctlDestination]

theorem proxyDestination_isSome_iff (type : Nat) :
    (proxyDestination type).isSome = true ↔ type < 3 := by
  match type with
  | 0 | 1 | 2 => decide
  | rest + 3 => simp [proxyDestination]

theorem destination_isSome_iff (which : MsgClass) (type : Nat) :
    (which.destination type).isSome = true ↔ type < which.kinds := by
  cases which with
  | ctlConn => exact ctlDestination_isSome_iff type
  | proxyConn => exact proxyDestination_isSome_iff type

theorem bodySize_eq {len : Nat} (hlow : 8 ≤ len) (hhigh : len ≤ msgSize) :
    bodySize len = len - 8 := by
  unfold bodySize sizeT sizeMax
  unfold msgSize maxMsgLen at hhigh
  omega

variable {stale got incoming stream : List UInt8} {len : Nat}

/-- A type that was read whole does not depend on what was there before. -/
theorem typeOf_eq (hstale : stale.length = 4) (hgot : 4 ≤ got.length) :
    typeOf stale got = leValue (got.take 4) := by
  rw [typeOf, List.drop_of_length_le (hstale.trans_le hgot), List.append_nil]

theorem le_typeOf (stale got : List UInt8) : leValue (got.take 4) ≤ typeOf stale got := by
  rw [typeOf, leValue_append]
  exact Nat.le_add_right _ _

theorem typeOf_zeros (got : List UInt8) :
    typeOf (List.replicate 4 0) got = leValue (got.take 4) := by
  rw [typeOf, List.drop_replicate, leValue_append, leValue_zeros, Nat.mul_zero, Nat.add_zero]

/-- What has been read is the first message of what has arrived. -/
theorem MsgReader.Behind.frame (hbehind : Behind stream len got incoming) (hlow : 4 ≤ len)
    (hgot : got.length = len - 4) :
    4 ≤ stream.length ∧ frameLen stream = len ∧ frameBytes stream = got ∧
      len ≤ stream.length := by
  obtain ⟨hfour, hvalue, hdrop⟩ := hbehind.split
  have hlen : frameLen stream = len := hvalue.symm
  have hbytes : frameBytes stream = got := by
    rw [frameBytes, hlen, List.drop_take, hdrop, ← hgot, List.take_left]
  have hlength := congrArg List.length hdrop
  rw [List.length_drop, List.length_append, hgot] at hlength
  exact ⟨hfour, hlen, hbytes, by omega⟩

/-! ## The reader gets to the first message -/

theorem MsgReader.afterLength_eq {head : List UInt8} (hlow : 4 ≤ beValue head)
    (hhigh : beValue head ≤ msgSize) :
    afterLength false head 4 =
      if beValue head = 4 then .returned (.switch 4 []) else .body (beValue head) [] := by
  have hbody := bodyLen_eq hlow hhigh
  have hsize : bodyLen (beValue head) ≤ msgSize := by omega
  unfold afterLength
  rw [if_neg (by omega), if_neg (by omega), if_neg (Nat.not_lt.mpr hhigh), lenLeft_eq hsize,
    readNum_eq hsize (Nat.zero_le _)]
  by_cases hfour : beValue head = 4
  · rw [if_pos hfour, if_neg (by omega)]
    unfold afterBody
    rw [if_neg (by simp), if_neg (by omega), hfour]
  · rw [if_neg hfour, if_pos (by omega)]

/-- A first message that is there whole is read. -/
theorem MsgReader.exists_run_switch {stream : List UInt8} (hfour : 4 ≤ stream.length)
    (hlow : 4 ≤ frameLen stream) (hhigh : frameLen stream ≤ msgSize)
    (hthere : frameLen stream ≤ stream.length) :
    ∃ events s, run MsgReader.step {} events = some s ∧ s.arrived = stream ∧
      s.point = .returned (.switch (frameLen stream) (frameBytes stream)) := by
  have harrive : MsgReader.step {} (.arrive stream) =
      some { incoming := stream } := by
    simp [MsgReader.step, Returned]
  have hfresh := readerInv_start true false stream
  obtain ⟨hfirst, hincoming, hpoint⟩ := step_read hfresh.shape (by simp) (by decide) hfour rfl
  have hinv := hfresh.step (fun _ => show Calm (.read 4) from trivial) hfirst
  have harrived := arrived_of_read hfirst
  have hrun : run MsgReader.step {} [.arrive stream, .read 4] =
      some (({ incoming := stream } : MsgReader).take 4) := by
    rw [run_cons harrive, run_cons hfirst]
    rfl
  generalize ({ incoming := stream } : MsgReader).take 4 = s at *
  have hafter : s.point = if frameLen stream = 4 then .returned (.switch 4 [])
      else .body (frameLen stream) [] := hpoint.trans (afterLength_eq hlow hhigh)
  by_cases hshort : frameLen stream = 4
  · have hnone : frameBytes stream = [] := by
      rw [frameBytes, hshort, List.drop_take]
      rfl
    rw [if_pos hshort] at hafter
    exact ⟨_, s, hrun, harrived, by rw [hafter, hshort, hnone]⟩
  · rw [if_neg hshort] at hafter
    have hbody := bodyLen_eq hlow hhigh
    have hleft : frameLen stream - 4 ≤ s.incoming.length := by
      rw [hincoming, List.length_drop]
      exact Nat.sub_le_sub_right hthere 4
    have hwanted : (MsgReader.got s.point).length + (frameLen stream - 4) = size s.point := by
      rw [hafter]
      change 0 + _ = bodyLen _
      rw [hbody, Nat.zero_add]
    obtain ⟨hsecond, -, hreturned⟩ :=
      step_read hinv.shape (by simp [hafter]) (by omega) hleft hwanted
    refine ⟨_, _, (run_concat hrun (.read (frameLen stream - 4))).trans hsecond,
      (take_arrived s _).trans harrived, ?_⟩
    have hbytes : s.incoming.take (frameLen stream - 4) = frameBytes stream := by
      rw [hincoming, frameBytes, List.drop_take]
    rw [hreturned, hafter, hbytes]
    change ReaderPoint.returned (afterBody s.inBufferEmpty _ _ (bodyLen (frameLen stream))) = _
    rw [afterBody, if_neg (by omega), if_neg (not_not.mpr rfl)]
    rfl

/-! ## Exactly the harmless streams are decoded within bounds -/

theorem decodesBounded_of_harmless {which : MsgClass} (hharmless : Harmless which stream) :
    DecodesBounded which stream := by
  intro stale inBufferEmpty events s len got dest hstale hrun harrived hpoint hdest
  have hinv : ReaderInv false s :=
    run_invariant (fun s event s' hinv hstep => hinv.step nofun hstep)
      (readerInv_start false inBufferEmpty []) hrun
  have hshape := hinv.shape
  rw [hpoint, harrived] at hshape
  cases hshape with
  | refused hnot hlen => exact absurd rfl (hnot len got)
  | switch hlow hhigh hgot hbehind =>
      obtain ⟨hfour, hlen, hbytes, hthere⟩ := hbehind.frame hlow hgot
      have hkind : leValue (got.take 4) < which.kinds := by
        apply (le_typeOf stale got).trans_lt
        rw [← destination_isSome_iff, hdest]
        rfl
      unfold Harmless at hharmless
      rw [hlen, hbytes] at hharmless
      rcases hharmless with hshort | hcut | hsmall | hlarge | hunknown | ⟨height, hfits⟩
      · exact absurd hfour (Nat.not_le.mpr hshort)
      · exact absurd hthere (Nat.not_le.mpr hcut)
      · exact absurd hlow (Nat.not_le.mpr hsmall)
      · exact absurd hhigh (Nat.not_le.mpr hlarge)
      · exact absurd hkind (Nat.not_lt.mpr hunknown)
      · have htype : 4 ≤ got.length := by omega
        rw [typeOf_eq hstale htype] at hdest
        rw [hdest] at hfits
        constructor
        · exact htype
        · exact height
        · rw [bodySize_eq height hhigh, List.length_drop, hgot, Nat.sub_sub]
        · cases dest with
          | struct size =>
              change bodySize len ≤ size
              rw [bodySize_eq height hhigh]
              exact hfits
          | block => exact hfits

theorem harmless_of_decodesBounded {which : MsgClass} (hbounded : DecodesBounded which stream) :
    Harmless which stream := by
  unfold Harmless
  by_contra hnot
  push Not at hnot
  obtain ⟨hfour, hthere, hlow, hhigh, hkind, hunfit⟩ := hnot
  obtain ⟨events, s, hrun, harrived, hpoint⟩ :=
    MsgReader.exists_run_switch hfour hlow hhigh hthere
  obtain ⟨dest, hdest⟩ : ∃ dest,
      which.destination (leValue ((frameBytes stream).take 4)) = some dest := by
    rw [← Option.isSome_iff_exists, destination_isSome_iff]
    exact hkind
  -- zeros are what makes the smallest type of the bytes that were read
  have hcopy := hbounded (List.replicate 4 0) false events s _ _ dest rfl hrun harrived hpoint
    (by rw [typeOf_zeros, hdest])
  apply hunfit hcopy.noUnderflow
  rw [hdest]
  have hfits := hcopy.fits
  cases dest with
  | struct size =>
      have hsize : bodySize (frameLen stream) ≤ size := hfits
      rw [bodySize_eq hcopy.noUnderflow hhigh] at hsize
      exact hsize
  | block => exact hfits

/-- Whatever has arrived, `handleRead` copies within bounds exactly when the first message
is refused or fits where its type puts it. -/
theorem decodes_bounded_iff (which : MsgClass) (stream : List UInt8) :
    DecodesBounded which stream ↔ Harmless which stream :=
  ⟨harmless_of_decodesBounded, decodesBounded_of_harmless⟩

/-- A message that consists of its length alone. -/
def sampleBareLength : List UInt8 := [0, 0, 0, 4]

/-- The type is never read and the size of the body wraps around. -/
theorem not_decodes_bounded : ¬ ∀ which stream, DecodesBounded which stream := by
  intro hall
  rcases harmless_of_decodesBounded (hall .ctlConn sampleBareLength) with
    hshort | hcut | hsmall | hlarge | hunknown | ⟨height, -⟩
  · exact absurd hshort (by decide)
  · exact absurd hcut (by decide)
  · exact absurd hsmall (by decide)
  · exact absurd hlarge (by decide)
  · exact absurd hunknown (by decide)
  · exact absurd height (by decide)

end CProxy.Wire
