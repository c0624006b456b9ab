import Yaog.Controller.AuditDurability

/-!
# What the audit chain shows

The text that is hashed separates the fields of an entry by line breaks and escapes none of them. A log
that is only appended to and rotated lists the last block of its sequence numbers.
-/

namespace Yaog.Controller

open Data List

section

variable {format : AuditFormat} {entry other : ChainedEntry} {entries : List ChainedEntry} {prev : String}

/-- Different texts have different hashes, and a time is told by its text, which is one line. -/
structure AuditFormat.Exact (format : AuditFormat) : Prop where
  sha256_inj : Function.Injective format.sha256
  formatTime_inj : Function.Injective format.formatTime
  formatTime_line : ∀ time, '\n' ∉ (format.formatTime time).toList

/-- The entry has no line break but at the end of its event. -/
def ChainedEntry.OneLine (entry : ChainedEntry) : Prop :=
  '\n' ∉ entry.actor.toList ∧ '\n' ∉ entry.action.toList ∧ '\n' ∉ entry.nodeID.toList ∧
    '\n' ∉ entry.eventID.toList.dropLast

/-- The lines of the content, the last one without the last character of the event. -/
def contentLines (format : AuditFormat) (entry : ChainedEntry) : List (List Char) :=
  [Nat.toDigits 10 entry.seq, (format.formatTime entry.timestamp).toList, entry.actor.toList,
    entry.action.toList, entry.nodeID.toList, entry.eventID.toList.dropLast]

theorem canonicalAuditBytes_older (format : AuditFormat) (older : entry.eventID = "") :
    (canonicalAuditBytes format entry).toList =
      ['\n'].intercalate (contentLines format entry) ++ (entry.prevHash.toList ++ ['\n']) := by
  simp [canonicalAuditBytes, contentLines, older, intercalate_cons_cons]

theorem canonicalAuditBytes_newer (format : AuditFormat) (newer : entry.eventID ≠ "") : ∃ last,
    entry.eventID.toList = entry.eventID.toList.dropLast ++ [last] ∧
    (canonicalAuditBytes format entry).toList = 'v' :: '2' :: '\n' ::
      (['\n'].intercalate (contentLines format entry) ++ (last :: '\n' :: (entry.prevHash.toList ++ ['\n']))) := by
  have nonempty : entry.eventID.toList ≠ [] := by simpa using newer
  obtain ⟨before, last, split⟩ := (eq_nil_or_concat' entry.eventID.toList).resolve_left nonempty
  exact ⟨last, by simp [split], by simp [canonicalAuditBytes, contentLines, newer, intercalate_cons_cons, split]⟩

theorem digits_inj {first second : Nat} (same : Nat.toDigits 10 first = Nat.toDigits 10 second) : first = second := by
  have numbers := congrArg (Nat.ofDigitChars 10 · 0) same
  rwa [Nat.ofDigitChars_toDigits (by decide) (by decide), Nat.ofDigitChars_toDigits (by decide) (by decide)] at numbers

theorem digits_line (number : Nat) : '\n' ∉ Nat.toDigits 10 number := fun member =>
  absurd (Nat.isDigit_of_mem_toDigits (by decide) (by decide) member) (by decide)

theorem contentLines_free (exact : format.Exact) (line : entry.OneLine) :
    ∀ field ∈ contentLines format entry, '\n' ∉ field := by
  obtain ⟨actor, action, nodeID, eventID⟩ := line
  simp [contentLines, digits_line, exact.formatTime_line, actor, action, nodeID, eventID]

/-- The lines start with a digit, so an entry of the older form is not taken for a newer one. -/
theorem contentLines_head (rest later : List Char) :
    ['\n'].intercalate (contentLines format entry) ++ rest ≠ 'v' :: later := by
  intro same
  have head := congrArg List.head? same
  cases text : Nat.toDigits 10 entry.seq with
  | nil => simp [contentLines, text, intercalate_cons_cons] at head
  | cons first digits =>
    obtain rfl : first = 'v' := by simpa [contentLines, text, intercalate_cons_cons] using head
    exact absurd (Nat.isDigit_of_mem_toDigits (by decide) (by decide) (text ▸ mem_cons_self)) (by decide)

theorem contentLines_inj (exact : format.Exact) (same : contentLines format entry = contentLines format other)
    (event : entry.eventID.toList.dropLast = other.eventID.toList.dropLast → entry.eventID = other.eventID) :
    entry.seq = other.seq ∧ entry.toAuditEntry = other.toAuditEntry := by
  simp only [contentLines, List.cons.injEq, String.toList_inj] at same
  obtain ⟨seq, time, actor, action, nodeID, before, -⟩ := same
  obtain ⟨⟨_, _, _, _, _⟩, _, _, _⟩ := entry
  obtain ⟨⟨_, _, _, _, _⟩, _, _, _⟩ := other
  refine ⟨digits_inj seq, ?_⟩
  rw [AuditEntry.mk.injEq]
  exact ⟨exact.formatTime_inj time, actor, action, nodeID, event before⟩

theorem content_inj (exact : format.Exact) (line : entry.OneLine) (prev : entry.prevHash = other.prevHash)
    (text : canonicalAuditBytes format entry = canonicalAuditBytes format other) :
    entry.seq = other.seq ∧ entry.toAuditEntry = other.toAuditEntry := by
  have chars := congrArg String.toList text
  have free := contentLines_free exact line
  by_cases older : entry.eventID = ""
  · rw [canonicalAuditBytes_older format older] at chars
    by_cases older' : other.eventID = ""
    · rw [canonicalAuditBytes_older format older', prev] at chars
      have lines : contentLines format entry = contentLines format other :=
        fields_inj rfl free (append_cancel_right chars)
      exact contentLines_inj exact lines fun _ => older.trans older'.symm
    · obtain ⟨last, -, form⟩ := canonicalAuditBytes_newer format older'
      exact (contentLines_head _ _ (chars.trans form)).elim
  · obtain ⟨last, split, form⟩ := canonicalAuditBytes_newer format older
    rw [form] at chars
    by_cases older' : other.eventID = ""
    · rw [canonicalAuditBytes_older format older'] at chars
      exact (contentLines_head _ _ chars.symm).elim
    · obtain ⟨last', split', form'⟩ := canonicalAuditBytes_newer format older'
      rw [form', prev] at chars
      simp only [List.cons.injEq, true_and] at chars
      obtain ⟨lines, rest⟩ := append_inj' chars rfl
      refine contentLines_inj exact (fields_inj rfl free lines) fun before => ?_
      rw [← String.toList_inj, split, split', before, (List.cons.inj rest).1]

theorem prevHash_inj (line : '\n' ∉ entry.prevHash.toList) (line' : '\n' ∉ other.prevHash.toList)
    (text : canonicalAuditBytes format entry = canonicalAuditBytes format other) :
    entry.prevHash = other.prevHash := by
  have ends (entry : ChainedEntry) : ∃ body : String,
      canonicalAuditBytes format entry = body ++ "\n" ++ entry.prevHash ++ "\n" := by
    unfold canonicalAuditBytes
    split
    · exact ⟨_, rfl⟩
    · exact ⟨_, rfl⟩
  obtain ⟨body, shape⟩ := ends entry
  obtain ⟨body', shape'⟩ := ends other
  have chars := congrArg String.toList (shape.symm.trans (text.trans shape'))
  simp only [String.toList_append] at chars
  have unended := append_cancel_right chars
  simp only [append_assoc] at unended
  exact String.toList_inj.mp (last_field_inj line line' unended)

/-- A line break may as well be the one between two fields. -/
theorem exists_ambiguous (format : AuditFormat) (broken : ¬ entry.OneLine) :
    ∃ other : ChainedEntry, other.prevHash = entry.prevHash ∧ other.hash = entry.hash ∧ other ≠ entry ∧
      canonicalAuditBytes format entry = canonicalAuditBytes format other := by
  have longer (before after : String) : before ++ "\n" ++ after ≠ before := by
    intro same
    have lengths := congrArg String.length same
    have one : "\n".length = 1 := rfl
    simp only [String.length_append] at lengths
    omega
  obtain ⟨⟨time, actor, action, nodeID, eventID⟩, seq, prevHash, hash⟩ := entry
  simp only [ChainedEntry.OneLine, not_and_or, not_not] at broken
  rcases broken with inside | inside | inside | inside
  · obtain ⟨before, after, rfl⟩ := exists_broken inside
    refine ⟨⟨⟨time, before, after ++ "\n" ++ action, nodeID, eventID⟩, seq, prevHash, hash⟩, rfl, rfl, ?_, ?_⟩
    · intro same
      exact longer _ _ (congrArg (·.actor) same).symm
    · simp [canonicalAuditBytes, String.append_assoc]
  · obtain ⟨before, after, rfl⟩ := exists_broken inside
    refine ⟨⟨⟨time, actor ++ "\n" ++ before, after, nodeID, eventID⟩, seq, prevHash, hash⟩, rfl, rfl, ?_, ?_⟩
    · intro same
      exact longer _ _ (congrArg (·.actor) same)
    · simp [canonicalAuditBytes, String.append_assoc]
  · obtain ⟨before, after, rfl⟩ := exists_broken inside
    refine ⟨⟨⟨time, actor, action ++ "\n" ++ before, after, eventID⟩, seq, prevHash, hash⟩, rfl, rfl, ?_, ?_⟩
    · intro same
      exact longer _ _ (congrArg (·.action) same)
    · simp [canonicalAuditBytes, String.append_assoc]
  · have nonempty : eventID.toList ≠ [] := by
      intro none
      simp [none] at inside
    obtain ⟨before, after, split⟩ := append_of_mem inside
    obtain ⟨last, whole⟩ : ∃ last, before ++ '\n' :: after ++ [last] = eventID.toList :=
      ⟨_, split ▸ dropLast_append_getLast nonempty⟩
    obtain rfl : eventID = String.ofList before ++ "\n" ++ String.ofList (after ++ [last]) := by
      rw [← String.toList_inj, ← whole]
      simp
    refine ⟨⟨⟨time, actor, action, nodeID ++ "\n" ++ String.ofList before, String.ofList (after ++ [last])⟩, seq,
      prevHash, hash⟩, rfl, rfl, ?_, ?_⟩
    · intro same
      exact longer _ _ (congrArg (·.nodeID) same)
    · simp [canonicalAuditBytes, String.append_assoc]

theorem verifyFrom_cons {index : Nat} (intact : verifyFrom format prev index (entry :: entries) = -1) :
    entry.prevHash = prev ∧ format.sha256 (canonicalAuditBytes format entry) = entry.hash ∧
      verifyFrom format entry.hash (index + 1) entries = -1 := by
  have apart : (index : Int) ≠ -1 := by omega
  unfold verifyFrom at intact
  by_cases linked : entry.prevHash = prev
  · subst linked
    rw [if_neg (not_not.mpr rfl)] at intact
    by_cases hashed : (chainAudit format entry entry.prevHash).hash = entry.hash
    · rw [if_neg (not_not.mpr hashed)] at intact
      exact ⟨rfl, hashed, intact⟩
    · rw [if_pos hashed] at intact
      exact absurd intact apart
  · rw [if_pos linked] at intact
    exact absurd intact apart

theorem verifyFrom_set (exact : format.Exact) {start index : Nat} (intact : verifyFrom format prev start entries = -1)
    (held : entries[index]? = some entry) (linked : other.prevHash = entry.prevHash) (hashed : other.hash = entry.hash)
    (apart : canonicalAuditBytes format entry ≠ canonicalAuditBytes format other) :
    verifyFrom format prev start (entries.set index other) = start + index := by
  induction entries generalizing prev start index with
  | nil => cases held
  | cons first later ih =>
    obtain ⟨link, hash, rest⟩ := verifyFrom_cons intact
    cases index with
    | zero =>
      obtain rfl : first = entry := by simpa using held
      have changed : (chainAudit format other prev).hash ≠ other.hash := by
        intro same
        apply apart
        apply exact.sha256_inj
        rw [hash, ← hashed, ← same, ← link, ← linked]
        rfl
      rw [set_cons_zero, verifyFrom, if_neg (not_not.mpr (linked.trans link)), if_pos changed]
      simp
    | succ index =>
      have same : (chainAudit format first prev).hash = first.hash := by
        rw [← link]
        exact hash
      rw [set_cons_succ, verifyFrom, if_neg (not_not.mpr link), if_neg (not_not.mpr same),
        ih rest (by simpa using held)]
      omega
end

/-- For an entry of an intact log: its content is told from any other by the text that is hashed, and any
other content under its hashes is reported at its place, exactly if it has no line break but at the end of its
event. The entries that the store appends chain to hashes in hex. -/
theorem content_unambiguous_iff (format : AuditFormat) (exact : format.Exact) (entries : List ChainedEntry)
    (intact : verifyAuditChain format entries = -1) (index : Nat) (entry : ChainedEntry)
    (held : entries[index]? = some entry) (line : '\n' ∉ entry.prevHash.toList) :
    ((∀ other : ChainedEntry, '\n' ∉ other.prevHash.toList →
        canonicalAuditBytes format entry = canonicalAuditBytes format other → { other with hash := entry.hash } = entry) ∧
      ∀ other : ChainedEntry, other.prevHash = entry.prevHash → other.hash = entry.hash → other ≠ entry →
        verifyAuditChain format (entries.set index other) = index) ↔ entry.OneLine := by
  constructor
  · rintro ⟨unique, -⟩
    by_contra broken
    obtain ⟨other, prev, hash, apart, text⟩ := exists_ambiguous format broken
    apply apart
    rw [← unique other (prev ▸ line) text, ← hash]
  · intro oneLine
    have same {other : ChainedEntry} (prev : other.prevHash = entry.prevHash)
        (text : canonicalAuditBytes format entry = canonicalAuditBytes format other) :
        { other with hash := entry.hash } = entry := by
      obtain ⟨seq, content⟩ := content_inj exact oneLine prev.symm text
      rw [← content, ← seq, prev]
    refine ⟨fun other line' text => same (prevHash_inj line line' text).symm text, ?_⟩
    intro other prev hash changed
    have apart : canonicalAuditBytes format entry ≠ canonicalAuditBytes format other := by
      intro text
      apply changed
      rw [← same prev text, ← hash]
    cases entries with
    | nil => cases held
    | cons first later =>
      have reported := verifyFrom_set exact intact held prev hash apart
      cases index with
      | zero =>
        obtain rfl : first = entry := by simpa using held
        rw [← prev] at reported
        simpa [verifyAuditChain] using reported
      | succ index => simpa [verifyAuditChain] using reported

/-- Two characters for each one, and no line break. -/
def sampleHash (text : String) : String :=
  String.ofList (text.toList.flatMap fun char => if char = '\n' then ['1', '.'] else ['0', char])

def sampleUnhash : List Char → List Char
  | mark :: char :: rest => (if mark = '1' then '\n' else char) :: sampleUnhash rest
  | _ => []

theorem sampleUnhash_hash (text : String) : sampleUnhash (sampleHash text).toList = text.toList := by
  rw [sampleHash, String.toList_ofList]
  induction text.toList with
  | nil => rfl
  | cons char rest ih => by_cases broken : char = '\n' <;> simp [sampleUnhash, broken, ih]

def sampleExactFormat : AuditFormat := { sampleFormat with sha256 := sampleHash }

theorem sampleExactFormat_exact : sampleExactFormat.Exact where
  sha256_inj first second same := by
    rw [← String.toList_inj, ← sampleUnhash_hash first, ← sampleUnhash_hash second]
    exact congrArg (fun hash => sampleUnhash hash.toList) same
  formatTime_inj first second same := by
    have chars : (toString first).toList = (toString second).toList := congrArg String.toList same
    rw [Nat.toString_eq_repr, Nat.toString_eq_repr, Nat.toList_repr, Nat.toList_repr] at chars
    exact digits_inj chars
  formatTime_line time := by
    show '\n' ∉ (toString time).toList
    rw [Nat.toString_eq_repr, Nat.toList_repr]
    exact digits_line time

def sampleLockout (actor action : String) : ChainedEntry :=
  { actor, action, seq := 1, hash := (chainAudit sampleExactFormat { actor, action, seq := 1 } "").hash }

/-- The log of two appends. -/
def sampleLockouts (first : String) : List ChainedEntry :=
  [first, "b"].foldl (fun log actor =>
    log ++ [chainedAfter sampleExactFormat log { actor, action := "login" }]) []

theorem sampleLockout_reported :
    ∃ entry, (sampleLockouts "a")[1]? = some entry ∧ '\n' ∉ entry.prevHash.toList ∧
      (∀ other : ChainedEntry, '\n' ∉ other.prevHash.toList →
        canonicalAuditBytes sampleExactFormat entry = canonicalAuditBytes sampleExactFormat other →
          { other with hash := entry.hash } = entry) ∧
      ∀ other : ChainedEntry, other.prevHash = entry.prevHash → other.hash = entry.hash → other ≠ entry →
        verifyAuditChain sampleExactFormat ((sampleLockouts "a").set 1 other) = (1 : Nat) := by
  refine ⟨_, rfl, by decide +kernel, (content_unambiguous_iff sampleExactFormat sampleExactFormat_exact
    (sampleLockouts "a") (by decide +kernel) 1 _ rfl (by decide +kernel)).mpr ?_⟩
  exact ⟨by decide +kernel, by decide +kernel, by decide +kernel, by decide +kernel⟩

/-- The name in a login request may carry a line break, and the break may be moved into the action. -/
theorem sampleLockout_forged :
    let entry := sampleLockout "operator:a\nb" "login-lockout"
    let other := sampleLockout "operator:a" "b\nlogin-lockout"
    other ≠ entry ∧ other.prevHash = entry.prevHash ∧ other.hash = entry.hash ∧
      canonicalAuditBytes sampleExactFormat entry = canonicalAuditBytes sampleExactFormat other ∧
      verifyAuditChain sampleExactFormat [entry] = -1 ∧ verifyAuditChain sampleExactFormat [other] = -1 := by
  decide +kernel

/-- The newest hash fixes the log behind it: two intact logs of one length that end in one hash are equal. -/
theorem newest_hash_fixes_log (format : AuditFormat) (exact : format.Exact) (log other : List ChainedEntry)
    (intact : verifyAuditChain format log = -1) (intact' : verifyAuditChain format other = -1)
    (lines : ∀ entry ∈ log, entry.OneLine) (hex : ∀ entry ∈ log ++ other, '\n' ∉ entry.prevHash.toList)
    (length : log.length = other.length) (newest : log.getLast?.map (·.hash) = other.getLast?.map (·.hash)) :
    log = other := by
  have loop (entries : List ChainedEntry) (intact : verifyAuditChain format entries = -1) :
      ∃ prev, verifyFrom format prev 0 entries = -1 := by
    cases entries with
    | nil => exact ⟨"", rfl⟩
    | cons entry rest => exact ⟨_, intact⟩
  obtain ⟨prev, first⟩ := loop log intact
  obtain ⟨prev', second⟩ := loop other intact'
  clear intact intact'
  generalize 0 = start at first second
  induction log generalizing other prev prev' start with
  | nil => exact (length_eq_zero_iff.mp length.symm).symm
  | cons entry later ih =>
    obtain ⟨entry', later', rfl⟩ := exists_cons_of_length_eq_add_one length.symm
    obtain ⟨-, hashed, rest⟩ := verifyFrom_cons first
    obtain ⟨-, hashed', rest'⟩ := verifyFrom_cons second
    rw [forall_mem_cons] at lines
    rw [forall_mem_append, forall_mem_cons, forall_mem_cons] at hex
    -- the newer entries are equal, so they follow on one hash
    have ⟨same, hashes⟩ : later = later' ∧ entry.hash = entry'.hash := by
      have length := Nat.succ.inj length
      cases later with
      | nil =>
        obtain rfl := length_eq_zero_iff.mp length.symm
        exact ⟨rfl, by simpa using newest⟩
      | cons next newer =>
        obtain ⟨next', newer', rfl⟩ := exists_cons_of_length_eq_add_one length.symm
        cases ih _ lines.2 (forall_mem_append.mpr ⟨hex.1.2, hex.2.2⟩) length newest _ _ _ rest rest'
        exact ⟨rfl, (verifyFrom_cons rest).1.symm.trans (verifyFrom_cons rest').1⟩
    have text := exact.sha256_inj (hashed.trans (hashes.trans hashed'.symm))
    have prev := prevHash_inj hex.1.1 hex.2.1 text
    obtain ⟨seq, content⟩ := content_inj exact lines.1 prev text
    cases entry
    cases entry'
    simp_all

/-- The same lockouts, chained by hand. -/
def sampleChained : List ChainedEntry :=
  let first := sampleLockout "a" "login"
  [first, chainAudit sampleExactFormat { actor := "b", action := "login", seq := 2 } first.hash]

theorem sampleLockout_fixed : sampleLockouts "a" = sampleChained ∧
    (sampleLockouts "a").getLast?.map (·.hash) ≠ (sampleLockouts "d").getLast?.map (·.hash) := by
  have intact : verifyAuditChain sampleExactFormat (sampleLockouts "a") = -1 := by decide +kernel
  have lines : ∀ entry ∈ sampleLockouts "a", entry.OneLine := by
    unfold ChainedEntry.OneLine
    decide +kernel
  constructor
  · have newest : (sampleLockouts "a").getLast?.map (·.hash) = sampleChained.getLast?.map (·.hash) :=
      @of_decide_eq_true _ ((inferInstance : DecidableEq (Option String)) _ _) (by decide +kernel)
    exact newest_hash_fixes_log sampleExactFormat sampleExactFormat_exact _ sampleChained intact (by decide +kernel)
      lines (by decide +kernel) (by decide +kernel) newest
  · intro newest
    have same := newest_hash_fixes_log sampleExactFormat sampleExactFormat_exact _ (sampleLockouts "d") intact
      (by decide +kernel) lines (by decide +kernel) (by decide +kernel) newest
    exact absurd same (by decide +kernel)

/-- A call that goes well: an append of an entry, or a reopened store. -/
def AuditEvent.unfailing : Option AuditEntry → AuditEvent
  | some entry => .append entry (.success true)
  | none => .reopen

section

variable {format : AuditFormat} {run : AuditRun} {appended : Nat} {dropped entries : List ChainedEntry}

/-- The acknowledged entries are numbered from one, and the log lists the last of them. -/
structure AuditRun.Numbered (format : AuditFormat) (run : AuditRun) (appended : Nat)
    (dropped entries : List ChainedEntry) : Prop where
  holds : run.file.Holds format entries []
  cached : ∀ tail, run.file.tail = some tail → run.file.Ready format entries
  history : History format run.acknowledged dropped entries
  whole : run.acknowledged = dropped ++ entries
  numbered : run.acknowledged.map (·.seq) = List.range' 1 appended
  bounded : entries.length ≤ auditRotateAt

section

variable (numbered : run.Numbered format appended dropped entries)

include numbered

theorem AuditRun.Numbered.length_eq : dropped.length + entries.length = appended := by
  have lengths := congrArg List.length numbered.numbered
  rw [numbered.whole] at lengths
  simpa using lengths

theorem AuditRun.Numbered.tail_seq : (tailOf entries).seq = appended := by
  have lengths := numbered.length_eq
  have seqs := numbered.numbered
  rw [numbered.whole] at seqs
  rcases eq_nil_or_concat' entries with rfl | ⟨earlier, last, rfl⟩
  · by_cases gone : dropped = []
    · simpa [gone, tailOf] using lengths
    · exact absurd (numbered.history.retained gone) (by decide)
  · have size : appended = (dropped ++ earlier).length + 1 := by
      simp at lengths ⊢
      omega
    rw [size, range'_concat, ← append_assoc, map_append] at seqs
    have same := (append_inj' seqs rfl).2
    rw [tailOf_concat, size]
    simpa [Nat.add_comm] using same

theorem AuditRun.Numbered.step (call : Option AuditEntry) : ∃ dropped entries,
      (run.step format (.unfailing call)).Numbered format (appended + call.toList.length) dropped entries := by
  cases call with
  | none => exact ⟨dropped, entries, { numbered with cached := nofun }⟩
  | some entry =>
    obtain ⟨loaded, next, ready⟩ := run.file.nextEntry_ready numbered.holds numbered.cached entry
    have acknowledged := numbered.history.acknowledge entry
    have written := ready.write_acknowledged entry
    have seqs : (run.acknowledged ++ [chainedAfter format entries entry]).map (·.seq) =
        List.range' 1 (appended + 1) := by
      have last : (chainedAfter format entries entry).seq = appended + 1 := congrArg (· + 1) numbered.tail_seq
      rw [map_append, numbered.numbered, range'_concat, map_singleton, last, Nat.one_mul, Nat.add_comm 1]
    have whole : run.acknowledged ++ [chainedAfter format entries entry] =
        dropped ++ (entries ++ [chainedAfter format entries entry]) := by
      rw [numbered.whole, append_assoc]
    simp only [AuditEvent.unfailing, AuditRun.step, AuditFile.appendAudit, next]
    split
    · obtain ⟨gone, kept, ready, history, same, short⟩ := written.rotateAudit acknowledged
      rw [tailOf_concat, ← tailOf_count] at ready
      exact ⟨gone, kept, ready.holds, fun _ _ => ready, history, whole.trans same.symm, seqs,
        Nat.le_trans short (by decide)⟩
    · next unrotated =>
      refine ⟨dropped, _, written.holds, fun _ _ => written, acknowledged, whole, seqs, ?_⟩
      rw [← tailOf_count, tailOf_concat, ← tailOf_count]
      exact Nat.le_of_not_lt fun above => unrotated ⟨above, trivial⟩

theorem AuditRun.Numbered.after (calls : List (Option AuditEntry)) : ∃ dropped entries,
      (run.after format (calls.map .unfailing)).Numbered format (appended + calls.reduceOption.length)
        dropped entries := by
  induction calls generalizing run appended dropped entries with
  | nil => exact ⟨dropped, entries, numbered⟩
  | cons call calls ih =>
    obtain ⟨gone, kept, stepped⟩ := numbered.step call
    obtain ⟨gone, kept, reached⟩ := ih stepped
    refine ⟨gone, kept, ?_⟩
    cases call with
    | none => exact reached
    | some entry =>
      have size : (some entry :: calls).reduceOption.length = calls.reduceOption.length + 1 := rfl
      rw [size, Nat.add_comm _ 1, ← Nat.add_assoc]
      exact reached

end

end

/-- Whatever the number of appends, and wherever the store was reopened: the log lists the last block of
the sequence numbers, not more than a rotation leaves room for, its chain verifies, and a store that is
reopened now numbers and chains the next entry as the open one does. -/
theorem rotated_log_verifies (format : AuditFormat) (calls : List (Option AuditEntry)) :
    let run := AuditRun.after format {} (calls.map .unfailing)
    let appended := calls.reduceOption.length
    ∃ listed, run.file.listAudit format = .ok listed ∧
      listed.map (·.seq) = List.range' (appended + 1 - listed.length) listed.length ∧
      min appended auditRetain ≤ listed.length ∧ listed.length ≤ auditRotateAt ∧
      verifyAuditChain format listed = -1 ∧
      ∀ entry, ∃ loaded reloaded tail next, next.seq = appended + 1 ∧
        run.file.nextEntry format entry = .ok (loaded, tail, next) ∧
        { run.file with tail := none }.nextEntry format entry = .ok (reloaded, tail, next) := by
  have start : AuditRun.Numbered format {} 0 [] [] :=
    ⟨⟨.inl rfl, rfl, rfl⟩, nofun, ⟨⟨"", trivial⟩, .nil, .slnil, (absurd rfl ·)⟩, rfl, rfl, Nat.zero_le _⟩
  obtain ⟨dropped, listed, numbered⟩ := start.after calls
  rw [Nat.zero_add] at numbered
  have lengths := numbered.length_eq
  obtain ⟨prev, links⟩ := numbered.history.links
  refine ⟨listed, numbered.holds.listAudit, ?_, ?_, numbered.bounded, verifyAuditChain_eq links, fun entry => ?_⟩
  · have seqs := congrArg (List.drop dropped.length) numbered.numbered
    rw [numbered.whole, map_append, drop_left' (length_map ..), drop_range'] at seqs
    rw [seqs]
    congr 1 <;> omega
  · by_cases gone : dropped = []
    · simp only [gone, length_nil, Nat.zero_add] at lengths
      omega
    · have retained := numbered.history.retained gone
      omega
  · obtain ⟨loaded, next, -⟩ := AuditFile.nextEntry_ready numbered.holds numbered.cached entry
    have reopened (file : AuditFile) (holds : file.Holds format listed []) :
        AuditFile.Holds format listed [] { file with tail := none } := holds
    obtain ⟨reloaded, again, -⟩ := AuditFile.nextEntry_ready (reopened _ numbered.holds) (by simp) entry
    exact ⟨loaded, reloaded, _, _, congrArg (· + 1) numbered.tail_seq, next, again⟩

end Yaog.Controller
