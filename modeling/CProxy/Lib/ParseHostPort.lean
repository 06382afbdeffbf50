import CProxy.Foundation.Memory
import CProxy.Foundation.Word

/-! # Addresses on the command line

`parse_host_port`, the check of the client's `main`, and the port that `tcp_connect` hands
to `htons`. `none` stands for what the language does not define: a write behind
`addr_arr`, a null pointer read, an `atoi` whose value is no `int`.
-/

namespace CProxy.Address

open Foundation

def colon : UInt8 := 58

/-! ## The library's functions -/

def isspace (char : UInt8) : Bool := char = 32 || (9 ≤ char && char ≤ 13)

def isdigit (char : UInt8) : Bool := 48 ≤ char && char ≤ 57

def decimalValue (digits : List UInt8) : Nat :=
  digits.foldl (fun value char => 10 * value + (char.toNat - 48)) 0

/-- Whether a number is negative, and what stands behind its sign. -/
def splitSign (text : List UInt8) : Bool × List UInt8 :=
  if text.head? = some 45 then (true, text.tail)
  else if text.head? = some 43 then (false, text.tail)
  else (false, text)

/-- The digits a text starts with, behind white space and a sign. -/
def leadingDigits (text : List UInt8) : List UInt8 :=
  (splitSign (text.dropWhile isspace)).2.takeWhile isdigit

def atoi (text : List UInt8) : Option Int :=
  let magnitude : Int := decimalValue (leadingDigits text)
  let value := if (splitSign (text.dropWhile isspace)).1 then -magnitude else magnitude
  if -2147483648 ≤ value ∧ value ≤ intMax then some value else none

/-- `strtok` with ":": the token, and the text that the next call goes on with. -/
def strtok (text : List UInt8) : Option (List UInt8) × List UInt8 :=
  let start := text.dropWhile (· = colon)
  if start = [] then (none, [])
  else (some (start.takeWhile (· ≠ colon)), (start.dropWhile (· ≠ colon)).tail)

/-! ## The parser -/

/-- An element of `split_ret`, and whether the program has set it. -/
structure SplitSlot where
  pointer : Option (List UInt8)
  isSet : Bool

/-- What the locals hold before they are set. -/
structure StaleLocals where
  addrArr : List UInt8
  splitRet : List (Option (List UInt8))
  addrArr_length : addrArr.length = 100
  splitRet_length : splitRet.length = 2

structure HostPort where
  host : List UInt8
  port : Nat
  readUnset : Bool
  deriving DecidableEq

/-- The `for` loop, with the rounds that are left. -/
def splitLoop : Nat → Nat → Option (List UInt8) → List UInt8 → List SplitSlot →
    Option (List SplitSlot)
  | 0, _, _, _, splitRet => some splitRet
  | rounds + 1, i, splitPtr, saved, splitRet =>
      if i < splitRet.length then
        let splitRet := splitRet.set i ⟨splitPtr, true⟩
        if (strtok saved).1 = none then some splitRet
        else splitLoop rounds (i + 1) (strtok saved).1 (strtok saved).2 splitRet
      else none

/-- `split_ret` behind the loop. -/
def splitAddr (stale : StaleLocals) (addr : CString) : Option (List SplitSlot) := do
  let addrArr ← Memory.strcpy stale.addrArr 0 addr
  let text ← Memory.readString addrArr 0
  splitLoop 2 0 (strtok text.chars).1 (strtok text.chars).2
    (stale.splitRet.map fun pointer => ⟨pointer, false⟩)

def parseHostPort (stale : StaleLocals) (addr : CString) : Option HostPort := do
  let splitRet ← splitAddr stale addr
  let first ← splitRet[0]?
  let host ← first.pointer
  let second ← splitRet[1]?
  let number ← second.pointer
  let port ← atoi number
  some { host := host, port := uint32 port, readUnset := !(first.isSet && second.isSet) }

/-- `main` goes on. -/
def MainAccepts (parsed : HostPort) : Prop := ¬ (parsed.host = [] ∨ parsed.port = 0)

/-- The argument of `htons`. -/
def htonsArg (port : Nat) : Nat := port % 65536

/-! ## What is claimed, and when it holds -/

/-- A host, a colon and the digits of a port number. -/
def WellFormed (text host : List UInt8) (port : Nat) : Prop :=
  ∃ digits, text = host ++ colon :: digits ∧ host ≠ [] ∧ colon ∉ host ∧ digits ≠ [] ∧
    (∀ char ∈ digits, isdigit char = true) ∧ decimalValue digits = port ∧ 1 ≤ port ∧ port ≤ 65535

/-- Every read and write is defined, and the address is accepted exactly when it is well
formed, for the host and the port it names. -/
def ParsesExactly (addr : CString) : Prop :=
  ∀ stale, ∃ parsed, parseHostPort stale addr = some parsed ∧ parsed.readUnset = false ∧
    (∀ host port, MainAccepts parsed ∧ parsed.host = host ∧ parsed.port = port ↔
      WellFormed addr.chars host port) ∧
    (MainAccepts parsed → htonsArg parsed.port = parsed.port)

def Piece (text : List UInt8) : Prop := text ≠ [] ∧ colon ∉ text

/-- The first two of the pieces that colons cut a text into. -/
def FirstPieces (text host second : List UInt8) : Prop :=
  ∃ lead gap rest, text = lead ++ host ++ gap ++ second ++ rest ∧
    (∀ char ∈ lead, char = colon) ∧ Piece host ∧ gap ≠ [] ∧ (∀ char ∈ gap, char = colon) ∧
    Piece second ∧ (rest = [] ∨ rest.head? = some colon)

/-- No digit but 0 among those a text starts with. -/
def LeadsWithZero (text : List UInt8) : Prop := ∀ char ∈ leadingDigits text, char = 48

/-! ## Tokens -/

variable {text lead tok tail rest host second : List UInt8}

theorem takeWhile_piece (htok : Piece tok) (htail : tail = [] ∨ tail.head? = some colon) :
    (tok ++ tail).takeWhile (· ≠ colon) = tok ∧ (tok ++ tail).dropWhile (· ≠ colon) = tail := by
  have hchars : ∀ char ∈ tok, (decide (char ≠ colon)) = true := by
    intro char hchar
    exact decide_eq_true fun heq => htok.2 (heq ▸ hchar)
  rw [List.takeWhile_append_of_pos hchars, List.dropWhile_append_of_pos hchars]
  rcases htail with rfl | hhead
  · simp
  · obtain ⟨rest, rfl⟩ := List.head?_eq_some_iff.mp hhead
    simp

/-- Colons before a token are skipped, and the one behind it is used up. -/
theorem strtok_piece (hlead : ∀ char ∈ lead, char = colon) (htok : Piece tok)
    (htail : tail = [] ∨ tail.head? = some colon) :
    strtok (lead ++ (tok ++ tail)) = (some tok, tail.tail) := by
  have hstart : (lead ++ (tok ++ tail)).dropWhile (· = colon) = tok ++ tail := by
    rw [List.dropWhile_append_of_pos (by simpa using hlead)]
    cases tok with
    | nil => exact absurd rfl htok.1
    | cons head chars =>
        apply List.dropWhile_cons_of_neg
        intro heq
        exact htok.2 (by simp [of_decide_eq_true heq])
  obtain ⟨htake, hdrop⟩ := takeWhile_piece htok htail
  unfold strtok
  simp only [hstart, htake, hdrop]
  exact if_neg (List.append_ne_nil_of_left_ne_nil htok.1 tail)

theorem strtok_colons (hall : ∀ char ∈ text, char = colon) : strtok text = (none, []) := by
  unfold strtok
  exact if_pos (List.dropWhile_eq_nil_iff.mpr (by simpa using hall))

/-- A text that has a token starts with one. -/
theorem exists_piece (hsome : ∃ char ∈ text, char ≠ colon) :
    ∃ lead tok tail, text = lead ++ (tok ++ tail) ∧ (∀ char ∈ lead, char = colon) ∧ Piece tok ∧
      (tail = [] ∨ tail.head? = some colon) := by
  have hstart : text.dropWhile (· = colon) ≠ [] := by
    intro hnil
    obtain ⟨char, hchar, hne⟩ := hsome
    exact hne (by simpa using List.dropWhile_eq_nil_iff.mp hnil char hchar)
  refine ⟨text.takeWhile (· = colon), (text.dropWhile (· = colon)).takeWhile (· ≠ colon),
    (text.dropWhile (· = colon)).dropWhile (· ≠ colon), ?_, ?_, ⟨?_, ?_⟩, ?_⟩
  · rw [List.takeWhile_append_dropWhile, List.takeWhile_append_dropWhile]
  · intro char hchar
    simpa using List.mem_takeWhile_imp hchar
  · have hhead := List.head_dropWhile_not (· = colon) hstart
    obtain ⟨head, chars, hcons⟩ := List.exists_cons_of_ne_nil hstart
    simp only [hcons, List.head_cons] at hhead
    rw [hcons, List.takeWhile_cons_of_pos (by simpa using hhead)]
    exact List.cons_ne_nil _ _
  · intro hmem
    exact absurd (List.mem_takeWhile_imp hmem) (by simp)
  · rcases hrest : (text.dropWhile (· = colon)).dropWhile (· ≠ colon) with _ | ⟨head, chars⟩
    · exact Or.inl rfl
    · right
      have hhead := List.head_dropWhile_not (· ≠ colon)
        (show (text.dropWhile (· = colon)).dropWhile (· ≠ colon) ≠ [] by
          rw [hrest]
          exact List.cons_ne_nil _ _)
      simp only [hrest, List.head_cons] at hhead
      simpa using hhead

/-! ## What is in the slots -/

variable {stale : StaleLocals} {addr : CString}

theorem FirstPieces.host_ne_nil (hpieces : FirstPieces text host second) : host ≠ [] := by
  obtain ⟨lead, gap, rest, -, -, hhost, -⟩ := hpieces
  exact hhost.1

theorem splitAddr_overlong (hlong : 100 ≤ addr.chars.length) : splitAddr stale addr = none := by
  have hnone : Memory.strcpy stale.addrArr 0 addr = none := by
    apply Memory.store_eq_none.mpr
    rw [stale.addrArr_length, List.length_append, List.length_singleton]
    omega
  rw [splitAddr, hnone]
  rfl

theorem splitAddr_eq (hshort : addr.chars.length < 100) : ∃ first second,
    splitAddr stale addr = splitLoop 2 0 (strtok addr.chars).1 (strtok addr.chars).2
      [⟨first, false⟩, ⟨second, false⟩] := by
  obtain ⟨first, second, hstale⟩ := List.length_eq_two.mp stale.splitRet_length
  obtain ⟨addrArr, hcopy⟩ := @Memory.exists_store stale.addrArr (addr.chars ++ [0]) 0 (by
    rw [stale.addrArr_length, List.length_append, List.length_singleton]
    omega)
  refine ⟨first, second, ?_⟩
  rw [splitAddr, Memory.strcpy, hcopy, Option.bind_eq_bind, Option.bind_some,
    Memory.readString_strcpy hcopy, Option.bind_eq_bind, Option.bind_some, hstale]
  rfl

theorem splitAddr_pieces (hshort : addr.chars.length < 100)
    (hpieces : FirstPieces addr.chars host second) :
    splitAddr stale addr = some [⟨some host, true⟩, ⟨some second, true⟩] := by
  obtain ⟨lead, gap, rest, htext, hlead, hhost, hgap, hcolons, hsecond, hrest⟩ := hpieces
  obtain ⟨stray, other, hsplit⟩ := @splitAddr_eq stale addr hshort
  obtain ⟨head, seps, rfl⟩ := List.exists_cons_of_ne_nil hgap
  obtain ⟨rfl, hseps⟩ := List.forall_mem_cons.mp hcolons
  have hfirst : strtok addr.chars = (some host, seps ++ (second ++ rest)) := by
    have hpiece := @strtok_piece lead host (colon :: (seps ++ (second ++ rest))) hlead hhost
      (Or.inr rfl)
    rw [List.tail_cons] at hpiece
    rw [htext, ← hpiece]
    simp
  have hnext : strtok (seps ++ (second ++ rest)) = (some second, rest.tail) :=
    strtok_piece hseps hsecond hrest
  rw [hsplit, hfirst]
  simp only [splitLoop, hnext, List.length_cons, List.length_nil, List.set_cons_zero,
    List.set_cons_succ, reduceCtorEq, if_false]
  by_cases hlast : (strtok rest.tail).1 = none
  · simp [hlast]
  · simp [hlast]

/-- With one piece or none, the second slot stays unset. -/
theorem splitAddr_unset (hshort : addr.chars.length < 100)
    (hfew : (strtok (strtok addr.chars).2).1 = none) :
    ∃ stray, splitAddr stale addr = some [⟨(strtok addr.chars).1, true⟩, ⟨stray, false⟩] := by
  obtain ⟨first, stray, hsplit⟩ := @splitAddr_eq stale addr hshort
  refine ⟨stray, ?_⟩
  rw [hsplit]
  simp [splitLoop, hfew]

/-- A text has two pieces, or the second call finds nothing. -/
theorem firstPieces_or_none (text : List UInt8) :
    (∃ host second, FirstPieces text host second) ∨ (strtok (strtok text).2).1 = none := by
  by_cases hsome : ∃ char ∈ text, char ≠ colon
  · obtain ⟨lead, host, tail, rfl, hlead, hhost, htail⟩ := exists_piece hsome
    rw [strtok_piece hlead hhost htail]
    by_cases hmore : ∃ char ∈ tail.tail, char ≠ colon
    · left
      obtain ⟨seps, second, rest, hrest, hseps, hsecond, hend⟩ := exists_piece hmore
      rcases htail with rfl | hhead
      · obtain ⟨char, hchar, -⟩ := hmore
        cases hchar
      · obtain ⟨behind, rfl⟩ := List.head?_eq_some_iff.mp hhead
        rw [List.tail_cons] at hrest
        refine ⟨host, second, lead, colon :: seps, rest, ?_, hlead, hhost, List.cons_ne_nil _ _,
          List.forall_mem_cons.mpr ⟨rfl, hseps⟩, hsecond, hend⟩
        rw [hrest]
        simp
    · right
      push Not at hmore
      rw [strtok_colons hmore]
  · right
    push Not at hsome
    rw [strtok_colons hsome]
    rfl

/-! ## Numbers -/

variable {digits : List UInt8} {port : Nat}

theorem decimalValue_concat (digits : List UInt8) (char : UInt8) :
    decimalValue (digits ++ [char]) = 10 * decimalValue digits + (char.toNat - 48) := by
  simp [decimalValue, List.foldl_append]

theorem decimalValue_eq_zero (hdigits : ∀ char ∈ digits, isdigit char = true) :
    decimalValue digits = 0 ↔ ∀ char ∈ digits, char = 48 := by
  induction digits using List.reverseRecOn with
  | nil => simp [decimalValue]
  | append_singleton digits char ih =>
      have hfront : ∀ other ∈ digits, isdigit other = true :=
        fun other hother => hdigits other (List.mem_append_left _ hother)
      have hlast : isdigit char = true := hdigits char (by simp)
      have hzero : char.toNat - 48 = 0 ↔ char = 48 := by
        have hlow : 48 ≤ char.toNat := by
          simp only [isdigit, Bool.and_eq_true, decide_eq_true_eq] at hlast
          exact hlast.1
        rw [← UInt8.toNat_inj]
        change _ ↔ char.toNat = 48
        omega
      rw [decimalValue_concat, Nat.add_eq_zero_iff, hzero, List.forall_mem_append,
        List.forall_mem_singleton, ← ih hfront]
      simp

/-- Digits alone are taken as they are. -/
theorem leadingDigits_digits (hdigits : ∀ char ∈ digits, isdigit char = true) :
    leadingDigits digits = digits ∧ (splitSign (digits.dropWhile isspace)).1 = false := by
  have hunspaced : digits.dropWhile isspace = digits ∧ splitSign digits = (false, digits) := by
    cases digits with
    | nil => exact ⟨rfl, rfl⟩
    | cons head chars =>
        have hhead := hdigits head List.mem_cons_self
        simp only [isdigit, Bool.and_eq_true, decide_eq_true_eq, UInt8.le_iff_toNat_le] at hhead
        change 48 ≤ head.toNat ∧ head.toNat ≤ 57 at hhead
        have hspace : isspace head = false := by
          simp only [isspace, Bool.or_eq_false_iff, Bool.and_eq_false_iff, decide_eq_false_iff_not,
            UInt8.le_iff_toNat_le, ← UInt8.toNat_inj]
          change ¬ head.toNat = 32 ∧ (¬ 9 ≤ head.toNat ∨ ¬ head.toNat ≤ 13)
          omega
        have hsign : head ≠ 45 ∧ head ≠ 43 := by
          constructor <;> rintro rfl <;> exact absurd hhead (by decide)
        refine ⟨List.dropWhile_cons_of_neg (by simp [hspace]), ?_⟩
        simp [splitSign, hsign]
  rw [leadingDigits, hunspaced.1, hunspaced.2]
  exact ⟨List.takeWhile_eq_self_iff.mpr hdigits, rfl⟩

theorem atoi_digits (hdigits : ∀ char ∈ digits, isdigit char = true)
    (hsmall : decimalValue digits ≤ intMax) : atoi digits = some (decimalValue digits) := by
  obtain ⟨hleading, hsign⟩ := leadingDigits_digits hdigits
  unfold atoi
  simp only [hleading, hsign, Bool.false_eq_true, if_false]
  exact if_pos ⟨by omega, hsmall⟩

/-- `atoi` gives 0 for a text without a number too. -/
theorem atoi_eq_zero : atoi text = some 0 ↔ LeadsWithZero text := by
  have hdigits : ∀ char ∈ leadingDigits text, isdigit char = true :=
    fun char hchar => List.mem_takeWhile_imp hchar
  rw [LeadsWithZero, ← decimalValue_eq_zero hdigits]
  unfold atoi
  simp only [Option.ite_none_right_eq_some, Option.some.injEq]
  cases (splitSign (text.dropWhile isspace)).1 with
  | false =>
      simp only [Bool.false_eq_true, if_false]
      unfold intMax
      omega
  | true =>
      simp only [if_true]
      unfold intMax
      omega

theorem atoi_range {value : Int} (hatoi : atoi text = some value) :
    -2147483648 ≤ value ∧ value ≤ intMax := by
  unfold atoi at hatoi
  simp only [Option.ite_none_right_eq_some, Option.some.injEq] at hatoi
  obtain ⟨hrange, rfl⟩ := hatoi
  exact hrange

/-! ## Exactly when the parser does what is claimed -/

theorem parseHostPort_pieces (hshort : addr.chars.length < 100)
    (hpieces : FirstPieces addr.chars host second) :
    parseHostPort stale addr = (atoi second).map fun value => ⟨host, uint32 value, false⟩ := by
  rw [parseHostPort, splitAddr_pieces hshort hpieces]
  cases hatoi : atoi second with
  | none => simp [hatoi]
  | some value => simp [hatoi]

theorem WellFormed.firstPieces (hformed : WellFormed text host port) : ∃ digits,
    FirstPieces text host digits ∧ atoi digits = some (port : Int) ∧ 1 ≤ port ∧ port ≤ 65535 := by
  obtain ⟨digits, rfl, hhost, hcolon, hne, hdigits, rfl, hpos, hmax⟩ := hformed
  refine ⟨digits, ⟨[], [colon], [], by simp, by simp, ⟨hhost, hcolon⟩, by simp, by simp,
    ⟨hne, ?_⟩, Or.inl rfl⟩, atoi_digits hdigits (by unfold intMax; omega), hpos, hmax⟩
  intro hmem
  exact absurd (hdigits colon hmem) (by decide)

theorem parseHostPort_wellFormed (hshort : addr.chars.length < 100)
    (hformed : WellFormed addr.chars host port) :
    parseHostPort stale addr = some ⟨host, port, false⟩ := by
  obtain ⟨digits, hpieces, hatoi, -, hmax⟩ := hformed.firstPieces
  rw [parseHostPort_pieces hshort hpieces, hatoi, Option.map_some]
  have hport : uint32 port = port := by
    unfold uint32
    omega
  rw [hport]

/-- Accepted is what is well formed, once the parser's result is known for such a text. -/
theorem accepts_iff_wellFormed {parsed : HostPort}
    (hparsed : ∀ host port, WellFormed text host port → parsed = ⟨host, port, false⟩)
    (haccepts : MainAccepts parsed → WellFormed text parsed.host parsed.port) (host : List UInt8)
    (port : Nat) :
    MainAccepts parsed ∧ parsed.host = host ∧ parsed.port = port ↔ WellFormed text host port := by
  constructor
  · rintro ⟨haccepted, rfl, rfl⟩
    exact haccepts haccepted
  · intro hformed
    obtain rfl := hparsed host port hformed
    obtain ⟨digits, -, hhost, -, -, -, -, hpos, -⟩ := hformed
    refine ⟨?_, rfl, rfl⟩
    rintro (hnil | hzero)
    · exact hhost hnil
    · exact absurd hzero (Nat.ne_of_gt hpos)

/-- The addresses that are short enough and either well formed or have a second piece
without a number are exactly those that the parser treats as it should. -/
theorem parsesExactly_iff (addr : CString) :
    ParsesExactly addr ↔ addr.chars.length < 100 ∧
      ((∃ host port, WellFormed addr.chars host port) ∨
        ∃ host second, FirstPieces addr.chars host second ∧ LeadsWithZero second) := by
  constructor
  · intro hexact
    let stale : StaleLocals := ⟨List.replicate 100 0, [none, none], by simp, by simp⟩
    obtain ⟨parsed, hparse, hset, haccepts, -⟩ := hexact stale
    have hshort : addr.chars.length < 100 := by
      by_contra hlong
      rw [parseHostPort, splitAddr_overlong (Nat.not_lt.mp hlong)] at hparse
      cases hparse
    refine ⟨hshort, ?_⟩
    rcases firstPieces_or_none addr.chars with ⟨host, second, hpieces⟩ | hfew
    · rw [parseHostPort_pieces hshort hpieces] at hparse
      obtain ⟨value, hatoi, rfl⟩ := Option.map_eq_some_iff.mp hparse
      by_cases haccepted : MainAccepts ⟨host, uint32 value, false⟩
      · exact Or.inl ⟨host, uint32 value, (haccepts host _).mp ⟨haccepted, rfl, rfl⟩⟩
      · right
        have hzero : uint32 value = 0 := by
          rcases not_not.mp haccepted with hnil | hzero
          · exact absurd hnil hpieces.host_ne_nil
          · exact hzero
        have hrange := atoi_range hatoi
        obtain rfl : value = 0 := by
          unfold uint32 intMax at *
          omega
        exact ⟨host, second, hpieces, atoi_eq_zero.mp hatoi⟩
    · -- the number is read through the slot that was never set
      obtain ⟨stray, hslots⟩ := @splitAddr_unset stale addr hshort hfew
      rw [parseHostPort, hslots] at hparse
      simp only [Option.bind_eq_bind, Option.bind_some, List.getElem?_cons_zero,
        List.getElem?_cons_succ, Option.bind_eq_some_iff, Option.some.injEq] at hparse
      obtain ⟨host, -, number, -, value, -, rfl⟩ := hparse
      cases hset
  · rintro ⟨hshort, ⟨host, port, hformed⟩ | ⟨host, second, hpieces, hzero⟩⟩ stale
    · have hport : htonsArg port = port := by
        obtain ⟨digits, -, -, -, hmax⟩ := hformed.firstPieces
        exact Nat.mod_eq_of_lt (Nat.lt_succ_of_le hmax)
      refine ⟨_, parseHostPort_wellFormed hshort hformed, rfl, ?_, fun _ => hport⟩
      apply accepts_iff_wellFormed
      · intro host' port' hformed'
        exact Option.some.inj ((@parseHostPort_wellFormed _ stale _ _ hshort hformed).symm.trans
          (parseHostPort_wellFormed hshort hformed'))
      · exact fun _ => hformed
    · have hparse : parseHostPort stale addr = some ⟨host, 0, false⟩ := by
        rw [parseHostPort_pieces hshort hpieces, atoi_eq_zero.mpr hzero]
        rfl
      have hrejected : ¬ MainAccepts ⟨host, 0, false⟩ := not_not.mpr (Or.inr rfl)
      refine ⟨_, hparse, rfl, ?_, fun haccepted => absurd haccepted hrejected⟩
      apply accepts_iff_wellFormed
      · intro host' port' hformed'
        exact Option.some.inj (hparse.symm.trans (parseHostPort_wellFormed hshort hformed'))
      · exact fun haccepted => absurd haccepted hrejected

/-- A host without a port: the number is read through a pointer that was never set. -/
def sampleAddr : CString := ⟨[108, 111, 99, 97, 108, 104, 111, 115, 116], by simp⟩

theorem not_parsesExactly : ¬ ∀ addr, ParsesExactly addr := by
  intro hall
  let stale : StaleLocals :=
    ⟨List.replicate 100 0, [none, some [56, 48]], by simp, by simp⟩
  obtain ⟨parsed, hparse, hset, -⟩ := hall sampleAddr stale
  have hstale : parseHostPort stale sampleAddr = some ⟨sampleAddr.chars, 80, true⟩ := by decide
  obtain rfl := Option.some.inj (hstale.symm.trans hparse)
  cases hset

end CProxy.Address
