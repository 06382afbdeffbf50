import CProxy.Conn.ProxyConn
import CProxy.Foundation.Run

/-! # The completion test and the width of its counters

The two counters that the test compares are 32 bits wide and wrap around, -1 stands
for a total that has not been announced, and the total travels as a `u_int32_t` in
network order. Handlers are atomic, and the test is made at the end of each.
-/

namespace CProxy

open Foundation Wire

/-- `tran_count_` at the sender once it has spliced the given chunks. -/
def tranCountOf (chunks : List Nat) : Int :=
  chunks.foldl (fun (count : Int) (added : Nat) => int32 (count + added)) 0

/-- The announced total as the receiver's `ntohl` gives it. -/
def announcedTotal (chunks : List Nat) : Nat := beValue (beBytes 4 (uint32 (tranCountOf chunks)))

/-- The receiver's connection. `forwarded` and `announced` are history. -/
structure CompletionTest where
  conn : ProxyConn := {}
  forwarded : Nat := 0
  announced : Bool := false

inductive TestEvent where
  /-- `ProxyConn::handleRead` forwards a chunk. -/
  | chunk (count : Nat)
  /-- `handleShutdownPublicConn` or `handleShutdownLocalConn`. -/
  | announce (total : Nat)

namespace CompletionTest

def step (s : CompletionTest) : TestEvent → Option CompletionTest
  | .chunk count => some { s with
      conn := s.conn.incrRecvCount count
      forwarded := s.forwarded + count }
  | .announce total => some { s with
      conn := s.conn.incrTheoreticalTotalRecvCount total
      announced := true }

/-- `recv_count_ == theoretical_total_recv_count_`. -/
def Succeeds (s : CompletionTest) : Prop := s.conn.recvCount = s.conn.theoreticalTotalRecvCount

/-- The test tells whether the announcement and all bytes have come. -/
def Right (total : Nat) (s : CompletionTest) : Prop :=
  s.Succeeds ↔ s.announced = true ∧ s.forwarded = total

/-- A session in which the announcement comes between the two lists of chunks. -/
def session (sent before after : List Nat) : List TestEvent :=
  before.map .chunk ++ .announce (announcedTotal sent) :: after.map .chunk

/-- The counts at which a test is made, oldest first: before the announcement none is
the bit pattern of -1, and from it on none agrees with the total too early. -/
def CountsApart (total : Nat) (before after : List Nat) : Prop :=
  (∀ count ∈ before.scanl (· + ·) 0, count % 4294967296 ≠ 4294967295) ∧
    ∀ count ∈ after.scanl (· + ·) before.sum,
      count < total → count % 4294967296 ≠ total % 4294967296

end CompletionTest

/-! ## Wrapping -/

theorem int32_eq_iff {first second : Int} :
    int32 first = int32 second ↔ first % 4294967296 = second % 4294967296 := by
  unfold int32
  omega

theorem int32_add (first second : Int) : int32 (int32 first + second) = int32 (first + second) := by
  rw [int32_eq_iff]
  unfold int32
  omega

theorem int32_uint32_mod (value : Int) : int32 (uint32 value) = int32 value := by
  rw [int32_eq_iff]
  unfold uint32
  omega

theorem foldl_int32 (chunks : List Nat) (start : Int) :
    chunks.foldl (fun (count : Int) (added : Nat) => int32 (count + added)) (int32 start) =
      int32 (start + chunks.sum) := by
  induction chunks generalizing start with
  | nil => simp
  | cons chunk rest ih =>
      rw [List.foldl_cons, int32_add, ih, List.sum_cons]
      push_cast
      rw [add_assoc]

/-- However the sender cuts its bytes, the announced total is their number, mod 2 ^ 32. -/
theorem int32_announcedTotal (chunks : List Nat) :
    int32 (announcedTotal chunks) = int32 chunks.sum := by
  have hzero : tranCountOf chunks = int32 chunks.sum := by
    have hfold := foldl_int32 chunks 0
    rw [zero_add] at hfold
    exact hfold
  have hfits : uint32 (tranCountOf chunks) < 256 ^ 4 := uint32_lt _
  rw [announcedTotal, beValue_beBytes 4 _ hfits, int32_uint32_mod, hzero, int32_eq_iff]
  unfold int32
  omega

/-! ## The test in a session -/

namespace CompletionTest

variable {total forwarded : Nat} {s : CompletionTest}

/-- The counters before the announcement. -/
structure Unannounced (s : CompletionTest) (forwarded : Nat) : Prop where
  recvCount : s.conn.recvCount = int32 forwarded
  theoretical : s.conn.theoreticalTotalRecvCount = -1
  forwarded : s.forwarded = forwarded
  announced : s.announced = false

/-- The counters after it. -/
structure Announced (total : Nat) (s : CompletionTest) (forwarded : Nat) : Prop where
  recvCount : s.conn.recvCount = int32 forwarded
  theoretical : s.conn.theoreticalTotalRecvCount = int32 total
  forwarded : s.forwarded = forwarded
  announced : s.announced = true

theorem Unannounced.right_iff (hs : Unannounced s forwarded) :
    Right total s ↔ forwarded % 4294967296 ≠ 4294967295 := by
  have hnone : (-1 : Int) = int32 (-1) := by decide
  rw [Right, Succeeds, hs.recvCount, hs.theoretical, hs.announced, hnone, int32_eq_iff]
  simp only [Bool.false_eq_true, false_and, iff_false]
  omega

theorem Announced.right_iff (hs : Announced total s forwarded) :
    Right total s ↔ (forwarded % 4294967296 = total % 4294967296 ↔ forwarded = total) := by
  rw [Right, Succeeds, hs.recvCount, hs.theoretical, hs.announced, hs.forwarded, int32_eq_iff]
  simp only [true_and]
  constructor <;> intro hright <;> rw [← hright] <;> omega

theorem Unannounced.chunk (hs : Unannounced s forwarded) (count : Nat) :
    ∃ s', step s (.chunk count) = some s' ∧ Unannounced s' (forwarded + count) := by
  refine ⟨_, rfl, ?_, hs.theoretical, congrArg (· + count) hs.forwarded, hs.announced⟩
  change int32 (s.conn.recvCount + count) = _
  rw [hs.recvCount, int32_add]
  push_cast
  rfl

theorem Announced.chunk (hs : Announced total s forwarded) (count : Nat) :
    ∃ s', step s (.chunk count) = some s' ∧ Announced total s' (forwarded + count) := by
  refine ⟨_, rfl, ?_, hs.theoretical, congrArg (· + count) hs.forwarded, hs.announced⟩
  change int32 (s.conn.recvCount + count) = _
  rw [hs.recvCount, int32_add]
  push_cast
  rfl

theorem Unannounced.announce (hs : Unannounced s forwarded) (sent : List Nat) :
    ∃ s', step s (.announce (announcedTotal sent)) = some s' ∧
      Announced sent.sum s' forwarded := by
  have hconn : s.conn.incrTheoreticalTotalRecvCount (announcedTotal sent) =
      { s.conn with theoreticalTotalRecvCount := int32 (announcedTotal sent) } := by
    rw [ProxyConn.incrTheoreticalTotalRecvCount, if_pos hs.theoretical]
  refine ⟨_, rfl, ?_, ?_, hs.forwarded, rfl⟩
  · rw [ProxyConn.incrTheoreticalTotalRecvCount_recvCount]
    exact hs.recvCount
  · rw [hconn]
    exact int32_announcedTotal sent

/-- From the announcement on the test errs exactly when a count agrees with the total
too early. -/
theorem Announced.visits_iff (hs : Announced total s forwarded) (after : List Nat)
    (htotal : forwarded + after.sum = total) :
    Visits step (Right total) s (after.map .chunk) ↔
      ∀ count ∈ after.scanl (· + ·) forwarded,
        count < total → count % 4294967296 ≠ total % 4294967296 := by
  induction after generalizing s forwarded with
  | nil =>
      rw [List.map_nil, visits_nil_iff, hs.right_iff, List.scanl_nil, List.forall_mem_singleton]
      simp only [List.sum_nil] at htotal
      omega
  | cons chunk rest ih =>
      obtain ⟨next, hnext, hafter⟩ := hs.chunk chunk
      rw [List.sum_cons] at htotal
      rw [List.map_cons, visits_cons_iff hnext, hs.right_iff, List.scanl_cons,
        List.forall_mem_cons, ih hafter (by omega)]
      apply and_congr_left
      intro _
      constructor
      · intro hright hless hsame
        exact hless.ne (hright.mp hsame)
      · intro hapart
        constructor
        · intro hsame
          by_contra hne
          exact hapart (by omega) hsame
        · intro heq
          rw [heq]

/-- Before it, when a count is the bit pattern of -1. -/
theorem Unannounced.visits_iff (hs : Unannounced s forwarded) (before : List Nat)
    {tail : List TestEvent} {apart : Prop}
    (htail : ∀ s', Unannounced s' (forwarded + before.sum) →
      (Visits step (Right total) s' tail ↔
        (forwarded + before.sum) % 4294967296 ≠ 4294967295 ∧ apart)) :
    Visits step (Right total) s (before.map .chunk ++ tail) ↔
      (∀ count ∈ before.scanl (· + ·) forwarded, count % 4294967296 ≠ 4294967295) ∧ apart := by
  induction before generalizing s forwarded with
  | nil =>
      rw [List.map_nil, List.nil_append, List.scanl_nil, List.forall_mem_singleton]
      exact htail s hs
  | cons chunk rest ih =>
      obtain ⟨next, hnext, hafter⟩ := hs.chunk chunk
      rw [List.map_cons, List.cons_append, visits_cons_iff hnext, hs.right_iff, List.scanl_cons,
        List.forall_mem_cons, and_assoc]
      apply and_congr_right
      intro _
      apply ih hafter
      rw [Nat.add_assoc, ← List.sum_cons]
      exact htail

theorem visits_session_iff {sent before after : List Nat}
    (htotal : before.sum + after.sum = sent.sum) :
    Visits step (Right sent.sum) {} (session sent before after) ↔
      CountsApart sent.sum before after := by
  have hstart : Unannounced {} 0 := ⟨rfl, rfl, rfl, rfl⟩
  apply hstart.visits_iff before
  intro s hs
  rw [Nat.zero_add] at hs ⊢
  obtain ⟨next, hnext, hafter⟩ := hs.announce sent
  rw [visits_cons_iff hnext, hs.right_iff, hafter.visits_iff after htotal]

theorem le_of_mem_scanl {chunks : List Nat} {start count : Nat}
    (hcount : count ∈ chunks.scanl (· + ·) start) : count ≤ start + chunks.sum := by
  induction chunks generalizing start with
  | nil =>
      rw [List.scanl_nil, List.mem_singleton] at hcount
      exact hcount.le
  | cons chunk rest ih =>
      rw [List.scanl_cons, List.mem_cons] at hcount
      rw [List.sum_cons, ← Nat.add_assoc]
      rcases hcount with hstart | hrest
      · omega
      · exact ih hrest

theorem sum_mem_scanl (chunks : List Nat) (start : Nat) :
    start + chunks.sum ∈ chunks.scanl (· + ·) start := by
  induction chunks generalizing start with
  | nil => simp
  | cons chunk rest ih =>
      rw [List.scanl_cons, List.sum_cons, ← Nat.add_assoc]
      exact List.mem_cons_of_mem _ (ih (start + chunk))

/-- Totals below 2 ^ 32 - 1 are safe, whatever their sign as an `int`. -/
theorem countsApart_of_lt (before after : List Nat)
    (hsmall : before.sum + after.sum < 4294967295) :
    CountsApart (before.sum + after.sum) before after := by
  constructor
  · intro count hcount
    have hle := le_of_mem_scanl hcount
    omega
  · intro count _ hless
    omega

/-- However a session is cut into chunks and wherever the announcement comes, the test is
right all along exactly when the counts stay apart. -/
theorem completion_test_iff (sent before after : List Nat)
    (htotal : before.sum + after.sum = sent.sum) :
    Visits step (Right sent.sum) {} (session sent before after) ↔
      CountsApart sent.sum before after :=
  visits_session_iff htotal

/-- Five bytes sent in two pieces and forwarded in three, the announcement in between. -/
theorem completion_test_iff_sample :
    Visits step (Right 5) {} (session [2, 3] [1, 2] [2]) :=
  (completion_test_iff [2, 3] [1, 2] [2] (by decide)).mpr
    (countsApart_of_lt [1, 2] [2] (by decide))

/-- Whole chunks of 2048 bytes and a last one that is a byte short. -/
def shortChunks (whole : Nat) : List Nat := List.replicate whole 2048 ++ [2047]

theorem spliceLen_of_mem_shortChunks {whole count : Nat} (hcount : count ∈ shortChunks whole) :
    SpliceLen count := by
  rw [shortChunks, List.mem_append, List.mem_singleton] at hcount
  rcases hcount with hwhole | hlast
  · rw [List.eq_of_mem_replicate hwhole]
    decide
  · rw [hlast]
    decide

theorem sum_shortChunks (whole : Nat) : (shortChunks whole).sum = whole * 2048 + 2047 := by
  rw [shortChunks, List.sum_append_nat, List.sum_replicate_nat, List.sum_singleton]

/-- When 2 ^ 32 - 1 bytes come before the announcement the count is -1, and the test
succeeds without it. -/
theorem not_completion_test :
    ¬ ∀ sent before after : List Nat,
      (∀ count ∈ sent ++ before ++ after, SpliceLen count) →
      before.sum + after.sum = sent.sum →
      Visits step (Right sent.sum) {} (session sent before after) := by
  intro hclaim
  obtain ⟨whole, hwhole⟩ : ∃ whole : Nat, whole * 2048 + 2047 = 4294967295 := ⟨2097151, rfl⟩
  have hchunks : ∀ count ∈ shortChunks whole ++ shortChunks whole ++ [], SpliceLen count := by
    intro count hcount
    rw [List.append_nil, List.mem_append, or_self] at hcount
    exact spliceLen_of_mem_shortChunks hcount
  have htotal : (shortChunks whole).sum + ([] : List Nat).sum = (shortChunks whole).sum := rfl
  have hvisits := hclaim (shortChunks whole) (shortChunks whole) [] hchunks htotal
  have hapart := ((visits_session_iff htotal).mp hvisits).1
  have hlast := sum_mem_scanl (shortChunks whole) 0
  rw [Nat.zero_add, sum_shortChunks, hwhole] at hlast
  exact hapart 4294967295 hlast rfl

end CompletionTest

end CProxy
