import Yaog.Data.Lines
import Mathlib.Data.Finset.Card

/-!
# The newest lines of a history file

The file is read backwards in blocks. Each line break met on the way is the start of one more line, until a
limit is reached.
-/

namespace Yaog.Controller

open Data (newline)

/-- The variables that the blocks share. -/
structure Tail where
  start : Nat
  lineEnd : Nat
  lines : Nat

def historyIOChunkBytes : Nat := 65536

section

variable (content : List UInt8) (maxLines maxBytes : Int)

/-- The closure `admit`. -/
def admitLine (tail : Tail) (lineStart : Nat) : Option Tail :=
  if maxLines ≤ tail.lines ∨ maxBytes < content.length - (lineStart : Int) then none
  else some { tail with start := lineStart, lines := tail.lines + 1 }

/-- The loop over a block. An error is a tail that ends the scan. -/
def scanBlock (buf : List UInt8) (blockStart : Nat) : Nat → Tail → Except Tail Tail
  | 0, tail => .ok tail
  | i + 1, tail =>
    if buf[i]? ≠ some newline then scanBlock buf blockStart i tail
    else
      let lineStart := blockStart + i + 1
      if tail.lineEnd < lineStart then scanBlock buf blockStart i tail
      else
        match admitLine content maxLines maxBytes tail lineStart with
        | none => .error tail
        | some next => scanBlock buf blockStart i { next with lineEnd := blockStart + i }

/-- The loop over the blocks, on fuel. -/
def scanBlocks (chunk : Nat) : Nat → Nat → Tail → Except Tail Tail
  | 0, _, tail => .ok tail
  | fuel + 1, cursor, tail =>
    if cursor = 0 then .ok tail
    else do
      let blockStart := cursor - chunk
      let want := cursor - blockStart
      let tail ← scanBlock content maxLines maxBytes ((content.drop blockStart).take want) blockStart want tail
      scanBlocks chunk fuel blockStart tail

/-- The scan begins before the line break at the end of the file. -/
def scanEnd : Nat := if content.getLast? = some newline then content.length - 1 else content.length

def scanTail (chunk : Nat) : Tail :=
  let init : Tail := { start := content.length, lineEnd := scanEnd content, lines := 0 }
  match scanBlocks content maxLines maxBytes chunk (scanEnd content) (scanEnd content) init with
  | .error tail => tail
  | .ok tail => (admitLine content maxLines maxBytes tail 0).getD tail

/-- `historyTailBounds` with blocks of any size: the start, the end and the number of lines. -/
def historyTailBounds (chunk : Nat) : Nat × Nat × Nat :=
  let size := content.length
  if size = 0 ∨ maxLines ≤ 0 ∨ maxBytes ≤ 0 ∨ scanEnd content = 0 then (size, size, 0)
  else
    let tail := scanTail content maxLines maxBytes chunk
    (tail.start, size, tail.lines)

def LineStart (place : Nat) : Prop :=
  place < content.length ∧ (place = 0 ∨ content[place - 1]? = some newline)

instance (place : Nat) : Decidable (LineStart content place) := inferInstanceAs (Decidable (_ ∧ _))

/-- The number of lines that start at this place or after it. -/
def linesFrom (place : Nat) : Nat :=
  ((Finset.range content.length).filter fun start => place ≤ start ∧ LineStart content start).card

/-- The rest of the file from here on is made of whole lines and within the limits. -/
structure Fits (start : Nat) : Prop where
  whole : start = content.length ∨ LineStart content start
  lines : linesFrom content start ≤ maxLines.toNat
  bytes : content.length - start ≤ maxBytes.toNat

structure Longest (start : Nat) : Prop where
  fits : Fits content maxLines maxBytes start
  least : ∀ other, Fits content maxLines maxBytes other → start ≤ other

/-- The tail accounts for the lines that start at this place or after it. -/
structure Scanned (place : Nat) (tail : Tail) : Prop where
  fits : Fits content maxLines maxBytes tail.start
  covers : ∀ start, LineStart content start → (place ≤ start ↔ tail.start ≤ start)
  lines : tail.lines = linesFrom content place

structure Ended (tail : Tail) : Prop where
  longest : Longest content maxLines maxBytes tail.start
  lines : tail.lines = linesFrom content tail.start

/-- The scan has ended, or accounts for the lines after this place. -/
def Outcome (place : Nat) : Except Tail Tail → Prop
  | .error last => Ended content maxLines maxBytes last
  | .ok next => Scanned content maxLines maxBytes (place + 1) next ∧ place ≤ next.lineEnd

end

section

variable {content : List UInt8} {maxLines maxBytes : Int} {place : Nat} {tail : Tail} {other chunk : Nat}

theorem linesFrom_start (start : LineStart content place) :
    linesFrom content place = linesFrom content (place + 1) + 1 := by
  have grows : ((Finset.range content.length).filter fun start => place ≤ start ∧ LineStart content start) =
      insert place ((Finset.range content.length).filter fun start => place + 1 ≤ start ∧ LineStart content start) := by
    ext other
    simp only [Finset.mem_insert, Finset.mem_filter, Finset.mem_range]
    constructor
    · rintro ⟨inside, le, isStart⟩
      rcases Nat.eq_or_lt_of_le le with rfl | lt
      · exact .inl rfl
      · exact .inr ⟨inside, lt, isStart⟩
    · rintro (rfl | ⟨inside, lt, isStart⟩)
      · exact ⟨start.1, le_rfl, start⟩
      · exact ⟨inside, Nat.le_of_succ_le lt, isStart⟩
  rw [linesFrom, grows, Finset.card_insert_of_notMem (by simp)]
  rfl

theorem linesFrom_congr (same : ∀ start, LineStart content start → (place ≤ start ↔ other ≤ start)) :
    linesFrom content place = linesFrom content other :=
  congrArg Finset.card (Finset.filter_congr fun start _ => and_congr_left (same start))

theorem linesFrom_anti (le : place ≤ other) : linesFrom content other ≤ linesFrom content place :=
  Finset.card_le_card (Finset.monotone_filter_right _ fun _ _ within => ⟨le.trans within.1, within.2⟩)

theorem linesFrom_length : linesFrom content content.length = 0 := by
  rw [linesFrom, Finset.card_eq_zero, Finset.filter_eq_empty_iff]
  rintro place inside ⟨beyond, -⟩
  exact absurd (Finset.mem_range.mp inside) (by omega)

theorem Fits.le (fits : Fits content maxLines maxBytes place) : place ≤ content.length := by
  rcases fits.whole with whole | whole
  · exact whole.le
  · exact whole.1.le

theorem Scanned.lines_start (scanned : Scanned content maxLines maxBytes place tail) :
    tail.lines = linesFrom content tail.start :=
  scanned.lines.trans (linesFrom_congr scanned.covers)

section

variable (scanned : Scanned content maxLines maxBytes (place + 1) tail)

include scanned

theorem Scanned.skip (inside : ¬LineStart content place) : Scanned content maxLines maxBytes place tail := by
  have same : ∀ start, LineStart content start → (place + 1 ≤ start ↔ place ≤ start) := by
    intro start isStart
    have other : start ≠ place := fun same => inside (same ▸ isStart)
    omega
  exact ⟨scanned.fits, fun start isStart => (same start isStart).symm.trans (scanned.covers start isStart),
    scanned.lines.trans (linesFrom_congr same)⟩

theorem Scanned.admits {next : Tail}
    (start : LineStart content place) (admitted : admitLine content maxLines maxBytes tail place = some next) :
    Scanned content maxLines maxBytes place next := by
  rw [admitLine] at admitted
  split at admitted
  · cases admitted
  · next within =>
    cases admitted
    have lines := linesFrom_start start
    have counted := scanned.lines
    have few : linesFrom content place ≤ maxLines.toNat := by omega
    have short : content.length - place ≤ maxBytes.toNat := by omega
    have total : tail.lines + 1 = linesFrom content place := by omega
    exact ⟨⟨.inr start, few, short⟩, fun _ _ => Iff.rfl, total⟩

theorem Scanned.refused
    (start : LineStart content place) (refused : admitLine content maxLines maxBytes tail place = none) :
    Ended content maxLines maxBytes tail := by
  refine ⟨⟨scanned.fits, fun other fits => ?_⟩, scanned.lines_start⟩
  by_contra below
  have beyond := scanned.fits.le
  -- a suffix that begins before the tail has the refused line too
  have earlier : other ≤ place := by
    rcases fits.whole with whole | whole
    · omega
    · have covered := scanned.covers other whole
      omega
  have more := @linesFrom_anti content _ _ earlier
  have lines := linesFrom_start start
  have counted := scanned.lines
  have few := fits.lines
  have short := fits.bytes
  rw [admitLine] at refused
  split at refused
  · omega
  · cases refused

end

theorem Scanned.complete (scanned : Scanned content maxLines maxBytes 0 tail) :
    Ended content maxLines maxBytes tail := by
  refine ⟨⟨scanned.fits, fun other fits => ?_⟩, scanned.lines_start⟩
  rcases fits.whole with rfl | whole
  · exact scanned.fits.le
  · exact (scanned.covers other whole).mp (Nat.zero_le _)

theorem scanBlock_spec {buf : List UInt8} {blockStart : Nat} (count : Nat)
    (reads : ∀ i < count, buf[i]? = content[blockStart + i]?)
    (inside : ∀ i < count, content[blockStart + i]? = some newline → blockStart + i + 1 < content.length)
    (scanned : Scanned content maxLines maxBytes (blockStart + count + 1) tail)
    (before : blockStart + count ≤ tail.lineEnd) :
    Outcome content maxLines maxBytes blockStart (scanBlock content maxLines maxBytes buf blockStart count tail) := by
  induction count generalizing tail with
  | zero => exact ⟨scanned, before⟩
  | succ i ih =>
    have reads' : ∀ j < i, buf[j]? = content[blockStart + j]? := fun j lt => reads j (Nat.lt_succ_of_lt lt)
    have inside' : ∀ j < i, content[blockStart + j]? = some newline → blockStart + j + 1 < content.length :=
      fun j lt => inside j (Nat.lt_succ_of_lt lt)
    have here := reads i (Nat.lt_succ_self i)
    rw [scanBlock]
    by_cases broken : buf[i]? = some newline
    · rw [if_neg (not_not.mpr broken), if_neg (by omega)]
      have start : LineStart content (blockStart + i + 1) :=
        ⟨inside i (Nat.lt_succ_self i) (here ▸ broken), .inr (here ▸ broken)⟩
      cases admitted : admitLine content maxLines maxBytes tail (blockStart + i + 1) with
      | none => exact scanned.refused start admitted
      | some next =>
        have accounted := scanned.admits start admitted
        exact ih reads' inside' ⟨accounted.fits, accounted.covers, accounted.lines⟩ le_rfl
    · rw [if_pos broken]
      refine ih reads' inside' (scanned.skip fun start => ?_) (by omega)
      rcases start.2 with zero | newline
      · cases zero
      · exact broken (here.trans newline)

theorem Outcome.bind {result : Except Tail Tail} {rest : Tail → Except Tail Tail} {last : Nat}
    (first : Outcome content maxLines maxBytes place result)
    (next : ∀ tail, Scanned content maxLines maxBytes (place + 1) tail → place ≤ tail.lineEnd →
      Outcome content maxLines maxBytes last (rest tail)) :
    Outcome content maxLines maxBytes last (result >>= rest) := by
  cases result with
  | error tail => exact first
  | ok tail => exact next tail first.1 first.2

theorem scanBlocks_spec (positive : 0 < chunk) {fuel cursor : Nat} (enough : cursor ≤ fuel)
    (inside : ∀ i < cursor, content[i]? = some newline → i + 1 < content.length)
    (scanned : Scanned content maxLines maxBytes (cursor + 1) tail) (before : cursor ≤ tail.lineEnd) :
    Outcome content maxLines maxBytes 0 (scanBlocks content maxLines maxBytes chunk fuel cursor tail) := by
  induction fuel generalizing cursor tail with
  | zero =>
    obtain rfl := Nat.le_zero.mp enough
    exact ⟨scanned, before⟩
  | succ fuel ih =>
    rw [scanBlocks]
    split
    · next zero => exact ⟨zero ▸ scanned, Nat.zero_le _⟩
    · next more =>
      have split : cursor - chunk + (cursor - (cursor - chunk)) = cursor := by omega
      have block := @scanBlock_spec content maxLines maxBytes tail _ (cursor - chunk) (cursor - (cursor - chunk))
        (fun i lt => by rw [List.getElem?_take_of_lt lt, List.getElem?_drop]) (fun i lt => inside _ (by omega))
        (split.symm ▸ scanned) (split.symm ▸ before)
      exact block.bind fun next scanned before => ih (by omega) (fun i lt => inside i (by omega)) scanned before

theorem fits_length : Fits content maxLines maxBytes content.length :=
  ⟨.inl rfl, by simp [linesFrom_length], by simp⟩

theorem scanEnd_near : content.length - 1 ≤ scanEnd content ∧ scanEnd content ≤ content.length := by
  rw [scanEnd]
  split <;> omega

theorem scanned_init : Scanned content maxLines maxBytes (scanEnd content + 1) ⟨content.length, scanEnd content, 0⟩ := by
  have covers : ∀ start, LineStart content start → (scanEnd content + 1 ≤ start ↔ content.length ≤ start) := by
    intro start isStart
    have inside := isStart.1
    have near := @scanEnd_near content
    omega
  exact ⟨fits_length, covers, (linesFrom_congr covers ▸ linesFrom_length.symm)⟩

theorem inside_scanEnd {i : Nat} (lt : i < scanEnd content) (broken : content[i]? = some newline) :
    i + 1 < content.length := by
  rw [scanEnd] at lt
  split at lt
  · omega
  · next torn =>
    refine lt_of_le_of_ne lt fun last => torn ?_
    rw [List.getLast?_eq_getElem?, ← last, Nat.add_sub_cancel, broken]

theorem eq_of_scanEnd_eq_zero (some : content ≠ []) (none : scanEnd content = 0) : content = [newline] := by
  have size := List.length_pos_iff.mpr some
  rw [scanEnd] at none
  split at none
  · next last =>
    obtain ⟨byte, rfl⟩ := List.length_eq_one_iff.mp (show content.length = 1 by omega)
    simpa using last
  · omega

theorem scanTail_ended (positive : 0 < chunk) (some : content ≠ []) :
    Ended content maxLines maxBytes (scanTail content maxLines maxBytes chunk) := by
  have spec := @scanBlocks_spec content maxLines maxBytes _ _ positive _ _ le_rfl (fun _ => inside_scanEnd) scanned_init
    le_rfl
  rw [scanTail]
  split
  · next scan =>
    rw [scan] at spec
    exact spec
  · next tail scan =>
    have first : LineStart content 0 := ⟨List.length_pos_iff.mpr some, .inl rfl⟩
    rw [scan] at spec
    have scanned : Scanned content maxLines maxBytes (0 + 1) tail := spec.1
    cases admitted : admitLine content maxLines maxBytes tail 0 with
    | none => exact scanned.refused first admitted
    | some next => exact (scanned.admits first admitted).complete

end

/-- The bounds are those of the longest suffix of whole lines within the limits, whatever the size of the blocks.
A file of one line break has no line for the scan. -/
theorem historyTailBounds_longest (content : List UInt8) (maxLines maxBytes : Int) (chunk : Nat) (positive : 0 < chunk)
    (notBlank : content ≠ [newline]) :
    ∃ start, historyTailBounds content maxLines maxBytes chunk = (start, content.length, linesFrom content start) ∧
      Longest content maxLines maxBytes start := by
  rw [historyTailBounds]
  split
  · next stopped =>
    refine ⟨content.length, by rw [linesFrom_length], fits_length, fun other fits => ?_⟩
    rcases fits.whole with whole | whole
    · exact whole.ge
    -- one of the limits is zero, and a line would exceed it
    have lines := linesFrom_start whole
    have few := fits.lines
    have short := fits.bytes
    have near := whole.1
    rcases stopped with none | none | none | blank
    · omega
    · omega
    · omega
    · exact absurd (eq_of_scanEnd_eq_zero (List.ne_nil_of_length_pos (by omega)) blank) notBlank
  · next goes =>
    have ended := @scanTail_ended content maxLines maxBytes chunk positive (by rintro rfl; exact goes (.inl rfl))
    exact ⟨_, congrArg (fun lines => (_, _, lines)) ended.lines, ended.longest⟩

theorem sampleBlank_lost : historyTailBounds [newline] 1 1 historyIOChunkBytes = (1, 1, 0) ∧
    ¬Longest [newline] 1 1 1 := by
  refine ⟨rfl, fun longest => ?_⟩
  exact absurd (longest.least 0 ⟨by decide, by decide, by decide⟩) (by decide)

theorem sampleTail_longest :
    ∃ start, historyTailBounds [97, newline, newline, 98] 2 9 1 = (start, 4, linesFrom [97, newline, newline, 98] start) ∧
      Longest [97, newline, newline, 98] 2 9 start :=
  historyTailBounds_longest _ 2 9 1 (by decide) (by decide)

end Yaog.Controller

