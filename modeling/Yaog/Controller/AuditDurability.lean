import Yaog.Controller.AuditLog

/-!
# Acknowledged audit entries are kept

What a run of appends, crashes and reopened stores leaves on disk, as long as a failed append is
followed by a reopened store and no append stops right before its line break.
-/

namespace Yaog.Controller

open Data List

variable {prev : String} {entries : List ChainedEntry} {rest : List UInt8} {file : AuditFile} {count : Nat}

section

variable {format : AuditFormat} {written : Nat}

def Links (format : AuditFormat) : String → List ChainedEntry → Prop
  | _, [] => True
  | prev, entry :: rest => entry.prevHash = prev ∧ (chainAudit format entry prev).hash = entry.hash ∧
      Links format entry.hash rest

theorem verifyFrom_eq {index : Nat}
    (links : Links format prev entries) : verifyFrom format prev index entries = -1 := by
  induction entries generalizing prev index with
  | nil => rfl
  | cons entry rest ih =>
    obtain ⟨linked, hashed, later⟩ := links
    rw [verifyFrom, if_neg (not_not.mpr linked), if_neg (not_not.mpr hashed)]
    exact ih later

theorem verifyAuditChain_eq (links : Links format prev entries) : verifyAuditChain format entries = -1 := by
  cases entries with
  | nil => rfl
  | cons entry rest =>
    show verifyFrom format entry.prevHash 0 (entry :: rest) = -1
    rw [links.1]
    exact verifyFrom_eq links

theorem Links.drop (links : Links format prev entries)
    (count : Nat) : ∃ prev, Links format prev (entries.drop count) := by
  induction count generalizing prev entries with
  | zero => exact ⟨prev, links⟩
  | succ count ih =>
    cases entries with
    | nil => exact ⟨prev, trivial⟩
    | cons entry rest => exact ih links.2.2

def chainedAfter (format : AuditFormat) (entries : List ChainedEntry) (entry : AuditEntry) : ChainedEntry :=
  chainAudit format { entry with seq := (tailOf entries).seq + 1 } (tailOf entries).hash

theorem tailOf_concat (entries : List ChainedEntry) (entry : ChainedEntry) :
    tailOf (entries ++ [entry]) = { seq := entry.seq, hash := entry.hash, count := entries.length + 1 } := by
  simp [tailOf]

theorem tailOf_hash_cons (first second : ChainedEntry) (later : List ChainedEntry) :
    (tailOf (first :: second :: later)).hash = (tailOf (second :: later)).hash := by
  simp only [tailOf, getLast?_cons_cons]
  split
  · rfl
  · rfl

theorem Links.concat (links : Links format prev entries)
    {entry : ChainedEntry} (linked : entry.prevHash = if entries = [] then prev else (tailOf entries).hash)
    (hashed : (chainAudit format entry entry.prevHash).hash = entry.hash) :
    Links format prev (entries ++ [entry]) := by
  induction entries generalizing prev with
  | nil =>
    rw [if_pos rfl] at linked
    exact ⟨linked, linked ▸ hashed, trivial⟩
  | cons first rest ih =>
    refine ⟨links.1, links.2.1, ih links.2.2 ?_⟩
    rw [linked, if_neg (cons_ne_nil first rest)]
    cases rest with
    | nil => simp [tailOf]
    | cons second later =>
      rw [if_neg (cons_ne_nil second later), tailOf_hash_cons]

theorem links_chainedAfter (entry : AuditEntry) (links : ∃ prev, Links format prev entries) :
    ∃ prev, Links format prev (entries ++ [chainedAfter format entries entry]) := by
  obtain ⟨prev, links⟩ := links
  cases entries with
  | nil => exact ⟨(tailOf []).hash, rfl, rfl, trivial⟩
  | cons first rest => exact ⟨prev, links.concat (if_neg (cons_ne_nil first rest)).symm rfl⟩

theorem blank_of_opens {bytes : List UInt8} (opens : bytes.head? = some 123) : blank bytes = false := by
  cases bytes with
  | nil => cases opens
  | cons first rest =>
    cases opens
    rfl

theorem readAuditJSONL_lines (entries : List ChainedEntry) (tail : rest = [] ∨ format.json.Torn rest) :
    readAuditJSONL format (format.json.lines entries ++ rest) = .ok (entries, decide (rest ≠ [])) := by
  have free : newline ∉ rest := by
    rcases tail with rfl | torn
    · exact not_mem_nil
    · exact torn.newline_free
  rw [readAuditJSONL, LineCodec.splitOn_lines entries free]
  induction entries with
  | nil =>
    rcases tail with rfl | torn
    · rfl
    · have nonempty : rest ≠ [] := by
        rintro rfl
        cases torn.opens
      simp [parseLines, blank_of_opens torn.opens, torn.decode, nonempty]
  | cons entry entries ih =>
    have read := format.json.decode_encode entry
    have present := blank_of_opens (format.json.opens entry)
    rw [map_cons, cons_append, parseLines, present, read, ih]
    rfl

def AuditFile.Holds (format : AuditFormat) (entries : List ChainedEntry) (rest : List UInt8)
    (file : AuditFile) : Prop :=
  (rest = [] ∨ format.json.Torn rest) ∧
    match file.log with
    | some data => data = format.json.lines entries ++ rest
    | none => rest = [] ∧ entries = file.legacy.getD []

theorem AuditFile.Holds.listAudit (holds : file.Holds format entries rest) : file.listAudit format = .ok entries := by
  obtain ⟨tail, content⟩ := holds
  unfold AuditFile.listAudit
  cases held : file.log with
  | some data =>
    rw [held] at content
    have written : data = format.json.lines entries ++ rest := content
    change (readAuditJSONL format data).map (·.1) = _
    rw [written, readAuditJSONL_lines entries tail]
    rfl
  | none =>
    rw [held] at content
    exact congrArg Except.ok content.2.symm

/-- The cached tail belongs to the entries on disk, and the last line is complete. -/
structure AuditFile.Ready (format : AuditFormat) (entries : List ChainedEntry) (file : AuditFile) : Prop where
  holds : file.Holds format entries []
  cached : file.tail = some (tailOf entries)
  fresh : file.log = none → entries = []

theorem AuditFile.loadAuditTail_ready (holds : file.Holds format entries rest) (uncached : file.tail = none) :
    ∃ loaded, file.loadAuditTail format = .ok (loaded, tailOf entries) ∧ loaded.Ready format entries := by
  obtain ⟨log, legacy, cache⟩ := file
  obtain ⟨tail, content⟩ := holds
  obtain rfl : cache = none := uncached
  cases log with
  | some data =>
    obtain rfl : data = format.json.lines entries ++ rest := content
    have read := readAuditJSONL_lines entries tail
    simp only [AuditFile.loadAuditTail, AuditFile.migrate, read, bind, Except.bind]
    refine ⟨_, rfl, ⟨.inl rfl, ?_⟩, rfl, ?_⟩
    · by_cases clean : rest = []
      · simp [clean]
      · simp [clean]
    · by_cases clean : rest = []
      · simp [clean]
      · simp [clean]
  | none =>
    obtain ⟨rfl, rfl⟩ := content
    cases legacy with
    | none => exact ⟨_, rfl, ⟨.inl rfl, rfl, rfl⟩, rfl, fun _ => rfl⟩
    | some older =>
      have read := @readAuditJSONL_lines [] format older (.inl rfl)
      rw [append_nil] at read
      simp only [AuditFile.loadAuditTail, AuditFile.migrate, read, bind, Except.bind]
      refine ⟨_, rfl, ⟨.inl rfl, ?_⟩, rfl, fun impossible => ?_⟩
      · simp
      · simp at impossible

theorem AuditFile.nextEntry_ready (holds : file.Holds format entries rest)
    (cached : ∀ tail, file.tail = some tail → file.Ready format entries) (entry : AuditEntry) :
    ∃ loaded, file.nextEntry format entry = .ok (loaded, tailOf entries, chainedAfter format entries entry) ∧
      loaded.Ready format entries := by
  have load : ∃ loaded, file.loadAuditTail format = .ok (loaded, tailOf entries) ∧
      loaded.Ready format entries := by
    cases held : file.tail with
    | none => exact file.loadAuditTail_ready holds held
    | some tail =>
      have ready := cached tail held
      refine ⟨file, ?_, ready⟩
      rw [AuditFile.loadAuditTail, ready.cached]
  obtain ⟨loaded, loads, ready⟩ := load
  refine ⟨loaded, ?_, ready⟩
  rw [AuditFile.nextEntry, loads]
  rfl

theorem AuditFile.Ready.log_eq (ready : file.Ready format entries) : file.log.getD [] = format.json.lines entries := by
  obtain ⟨-, content⟩ := ready.holds
  cases held : file.log with
  | some data =>
    rw [held] at content
    rw [Option.getD_some, content, append_nil]
  | none =>
    rw [ready.fresh held]
    rfl

theorem AuditFile.Ready.write_holds (ready : file.Ready format entries) (tail : Option AuditTail)
    (torn : rest = [] ∨ format.json.Torn rest) :
    AuditFile.Holds format entries rest { file.write rest with tail } :=
  ⟨torn, show file.log.getD [] ++ rest = _ by rw [ready.log_eq]⟩

theorem AuditFile.Ready.write_line_holds
    (ready : file.Ready format entries) (tail : Option AuditTail) (chained : ChainedEntry) :
    AuditFile.Holds format (entries ++ [chained]) []
      { file.write (format.json.line chained) with tail } :=
  ⟨.inl rfl, show file.log.getD [] ++ format.json.line chained = _ by
    rw [ready.log_eq, LineCodec.lines_concat, append_nil]⟩

theorem take_line (chained : ChainedEntry) (apart : written ≠ (format.json.encode chained).length) :
    written = 0 ∨ format.json.Torn ((format.json.line chained).take written) ∨
      (format.json.line chained).take written = format.json.line chained := by
  rcases Nat.lt_trichotomy written (format.json.encode chained).length with short | same | long
  · rcases Nat.eq_zero_or_pos written with rfl | positive
    · exact .inl rfl
    · exact .inr (.inl ⟨chained, written, positive, short, take_append_of_le_length (Nat.le_of_lt short)⟩)
  · exact absurd same apart
  · refine .inr (.inr (take_of_length_le ?_))
    rw [LineCodec.line, length_append]
    exact long

/-- The log keeps the acknowledged entries: the ones that a rotation dropped came before `auditRetain`
others. -/
structure History (format : AuditFormat) (acknowledged dropped entries : List ChainedEntry) : Prop where
  links : ∃ prev, Links format prev entries
  ordered : (dropped ++ entries).Pairwise (·.seq < ·.seq)
  kept : acknowledged.Sublist (dropped ++ entries)
  retained : dropped ≠ [] → auditRetain ≤ entries.length

theorem seq_le_tailOf (ordered : entries.Pairwise (·.seq < ·.seq)) :
    ∀ entry ∈ entries, entry.seq ≤ (tailOf entries).seq := by
  induction entries using List.reverseRecOn with
  | nil => exact nofun
  | append_singleton entries last ih =>
    intro entry member
    rw [tailOf_concat]
    rcases mem_append.mp member with earlier | same
    · exact Nat.le_of_lt ((pairwise_append.mp ordered).2.2 entry earlier last mem_cons_self)
    · rw [mem_singleton.mp same]

variable {acknowledged dropped entries : List ChainedEntry} {run : AuditRun} {damaged : Bool}

section

variable (history : History format acknowledged dropped entries)

include history

theorem History.seq_le : ∀ entry ∈ dropped ++ entries, entry.seq ≤ (tailOf entries).seq := by
  intro entry member
  obtain ⟨-, ordered, apart⟩ := pairwise_append.mp history.ordered
  rcases mem_append.mp member with gone | present
  · have long := history.retained (ne_nil_of_mem gone)
    obtain ⟨last, present⟩ := exists_mem_of_length_pos (Nat.lt_of_lt_of_le (by decide) long)
    exact Nat.le_trans (Nat.le_of_lt (apart entry gone last present)) (seq_le_tailOf ordered last present)
  · exact seq_le_tailOf ordered entry present

theorem History.extend (entry : AuditEntry) :
    History format acknowledged dropped (entries ++ [chainedAfter format entries entry]) where
  links := links_chainedAfter entry history.links
  ordered := by
    rw [← append_assoc, pairwise_append]
    refine ⟨history.ordered, pairwise_singleton .., fun earlier member last same => ?_⟩
    rw [mem_singleton.mp same]
    exact Nat.lt_succ_of_le (history.seq_le earlier member)
  kept := by
    rw [← append_assoc]
    exact history.kept.trans (sublist_append_left ..)
  retained gone := by
    rw [length_append]
    exact Nat.le_add_right_of_le (history.retained gone)

theorem History.acknowledge (entry : AuditEntry) :
    History format (acknowledged ++ [chainedAfter format entries entry]) dropped
      (entries ++ [chainedAfter format entries entry]) :=
  { history.extend entry with
    kept := by
      rw [← append_assoc]
      exact history.kept.append (List.Sublist.refl _) }

theorem History.rotate (long : auditRetain ≤ entries.length - count) :
    History format acknowledged (dropped ++ entries.take count) (entries.drop count) := by
  have same : dropped ++ entries.take count ++ entries.drop count = dropped ++ entries := by
    rw [append_assoc, take_append_drop]
  obtain ⟨prev, links⟩ := history.links
  refine ⟨links.drop count, same ▸ history.ordered, same ▸ history.kept, fun _ => ?_⟩
  rw [length_drop]
  exact long

end

theorem tailOf_count (entries : List ChainedEntry) : (tailOf entries).count = entries.length := by
  induction entries using List.reverseRecOn with
  | nil => rfl
  | append_singleton entries last ih => rw [tailOf_concat, length_append, length_singleton]

theorem tailOf_drop (short : count < entries.length) :
    tailOf (entries.drop count) = { tailOf entries with count := (entries.drop count).length } := by
  have last : (entries.drop count).getLast? = entries.getLast? := by
    rw [getLast?_drop, if_neg (Nat.not_le_of_lt short)]
  unfold tailOf
  rw [last]
  split
  · next empty =>
    rw [getLast?_eq_none_iff.mp empty, drop_nil]
    rfl
  · rfl

theorem AuditFile.Ready.rotateAudit (ready : file.Ready format entries)
    (history : History format acknowledged dropped entries) :
    ∃ gone kept, (file.rotateAudit format (tailOf entries)).Ready format kept ∧
      History format acknowledged gone kept ∧ gone ++ kept = dropped ++ entries ∧ kept.length ≤ auditRetain := by
  have read := @readAuditJSONL_lines [] format entries (.inl rfl)
  rw [append_nil] at read
  simp only [AuditFile.rotateAudit, ready.log_eq, read]
  by_cases short : entries.length ≤ auditRetain
  · refine ⟨dropped, entries, ?_, history, rfl, short⟩
    rw [if_pos short]
    refine ⟨ready.holds, ?_, ready.fresh⟩
    rw [← tailOf_count]
  · have cut : entries.length - auditRetain < entries.length := by
      have positive : 0 < auditRetain := by decide
      omega
    refine ⟨_, entries.drop (entries.length - auditRetain), ?_, history.rotate (by omega), ?_, ?_⟩
    · rw [if_neg short]
      refine ⟨⟨.inl rfl, ?_⟩, ?_, nofun⟩
      · rw [append_nil]
      · rw [tailOf_drop cut]
    · rw [append_assoc, take_append_drop]
    · rw [length_drop]
      omega

/-- The event may come now. After an append that failed with a part of its line written, the store has to
be reopened; and no write stops between the text of its entry and the line break. -/
def AuditEvent.admissible (format : AuditFormat) (file : AuditFile) (damaged : Bool) : AuditEvent → Bool
  | .reopen => true
  | .append entry outcome =>
    !damaged && match outcome with
      | .success _ => true
      | .failed written | .crashed written =>
        match file.nextEntry format entry with
        | .error _ => true
        | .ok (_, _, chained) => written ≠ (format.json.encode chained).length

def AuditEvent.damages : AuditEvent → Bool
  | .append _ (.failed written) => 0 < written
  | _ => false

def AuditRun.tame (format : AuditFormat) (run : AuditRun) (damaged : Bool) : List AuditEvent → Bool
  | [] => true
  | event :: later =>
    event.admissible format run.file damaged && (run.step format event).tame format event.damages later

def AuditRun.Sound (format : AuditFormat) (damaged : Bool) (run : AuditRun) : Prop :=
  ∃ dropped entries rest, run.file.Holds format entries rest ∧
    History format run.acknowledged dropped entries ∧
    (damaged = false → ∀ tail, run.file.tail = some tail → run.file.Ready format entries)

theorem AuditFile.Ready.write_cut (ready : file.Ready format entries)
    (history : History format acknowledged dropped entries) (tail : Option AuditTail) (entry : AuditEntry)
    (apart : written ≠ (format.json.encode (chainedAfter format entries entry)).length) :
    ∃ entries' rest, History format acknowledged dropped entries' ∧ AuditFile.Holds format entries' rest
      { file.write ((format.json.line (chainedAfter format entries entry)).take written) with tail } := by
  rcases take_line (chainedAfter format entries entry) apart with rfl | torn | whole
  · exact ⟨entries, [], history, ready.write_holds tail (.inl rfl)⟩
  · exact ⟨entries, _, history, ready.write_holds tail (.inr torn)⟩
  · rw [whole]
    exact ⟨_, [], history.extend entry, ready.write_line_holds tail _⟩

theorem AuditFile.Ready.write_acknowledged (ready : file.Ready format entries) (entry : AuditEntry) :
    let chained := chainedAfter format entries entry
    AuditFile.Ready format (entries ++ [chained]) { file.write (format.json.line chained) with
      tail := some { seq := chained.seq, hash := chained.hash, count := (tailOf entries).count + 1 } } where
  holds := ready.write_line_holds _ _
  cached := by rw [tailOf_concat, tailOf_count]
  fresh impossible := nomatch impossible

theorem AuditRun.step_sound {event : AuditEvent}
    (sound : run.Sound format damaged) (admissible : event.admissible format run.file damaged = true) :
    (run.step format event).Sound format event.damages := by
  obtain ⟨dropped, entries, rest, holds, history, cached⟩ := sound
  cases event with
  | reopen => exact ⟨dropped, entries, rest, holds, history, nofun⟩
  | append entry outcome =>
    obtain ⟨fit, apart⟩ := (Bool.and_eq_true ..).mp admissible
    have undamaged : damaged = false := by simpa using fit
    obtain ⟨loaded, next, ready⟩ := run.file.nextEntry_ready holds (cached undamaged) entry
    simp only [AuditRun.step, AuditFile.appendAudit, next] at apart ⊢
    cases outcome with
    | success rotates =>
      have acknowledged := history.acknowledge entry
      have written := ready.write_acknowledged entry
      simp only
      split
      · next rotated =>
        obtain ⟨gone, kept, ready, history, -, -⟩ := written.rotateAudit acknowledged
        rw [tailOf_concat, ← tailOf_count] at ready
        exact ⟨gone, kept, [], ready.holds, history, fun _ _ _ => ready⟩
      · exact ⟨dropped, _, [], written.holds, acknowledged, fun _ _ _ => written⟩
    | crashed written =>
      obtain ⟨entries', rest, history, holds⟩ := ready.write_cut history none entry (of_decide_eq_true apart)
      refine ⟨dropped, entries', rest, holds, ?_, nofun⟩
      simpa using history
    | failed written =>
      rcases Nat.eq_zero_or_pos written with rfl | positive
      · have same := ready.write_holds loaded.tail (.inl rfl)
        refine ⟨dropped, entries, [], same, ?_, fun _ _ _ => ⟨same, ready.cached, nofun⟩⟩
        simpa using history
      · obtain ⟨entries', rest, history, holds⟩ :=
          ready.write_cut history loaded.tail entry (of_decide_eq_true apart)
        refine ⟨dropped, entries', rest, holds, ?_, fun unhurt => ?_⟩
        · simpa using history
        · exact absurd (decide_eq_true positive) (by simpa [AuditEvent.damages] using unhurt)

theorem AuditRun.after_sound {events : List AuditEvent}
    (sound : run.Sound format damaged) (tame : run.tame format damaged events = true) :
    ∃ damaged, (run.after format events).Sound format damaged := by
  induction events generalizing run damaged with
  | nil => exact ⟨damaged, sound⟩
  | cons event later ih =>
    obtain ⟨admissible, later⟩ := (Bool.and_eq_true ..).mp tame
    exact ih (AuditRun.step_sound sound admissible) later

theorem AuditRun.Sound.start : AuditRun.Sound format false {} :=
  ⟨[], [], [], ⟨.inl rfl, rfl, rfl⟩, ⟨⟨"", trivial⟩, .nil, .slnil, (absurd rfl ·)⟩, nofun⟩

/-- In a tame run the log stays readable. It lists the acknowledged entries in their order, without the
ones that a rotation dropped, and the chain verifies. -/
theorem acknowledged_entries_kept (format : AuditFormat) (events : List AuditEvent)
    (tame : AuditRun.tame format {} false events = true) :
    ∃ dropped listed, ((AuditRun.after format {} events).file.listAudit format) = .ok listed ∧
      (AuditRun.after format {} events).acknowledged.Sublist (dropped ++ listed) ∧
      (dropped ++ listed).Pairwise (·.seq < ·.seq) ∧
      (dropped ≠ [] → auditRetain ≤ listed.length) ∧
      verifyAuditChain format listed = -1 := by
  obtain ⟨damaged, dropped, listed, rest, holds, history, -⟩ := AuditRun.after_sound .start tame
  obtain ⟨prev, links⟩ := history.links
  exact ⟨dropped, listed, holds.listAudit, history.kept, history.ordered, history.retained,
    verifyAuditChain_eq links⟩

end

/-- Numbers in unary between braces. -/
def sampleBytes (numbers : List Nat) : List UInt8 :=
  123 :: (numbers.flatMap (fun number => List.replicate number 49 ++ [44]) ++ [125])

/-- Reads the numbers up to the closing brace, which has to be the end. -/
def sampleNumbers (current : Nat) : List UInt8 → Option (List Nat)
  | [125] => if current = 0 then some [] else none
  | 49 :: rest => sampleNumbers (current + 1) rest
  | 44 :: rest => (sampleNumbers 0 rest).map (current :: ·)
  | _ => none

def sampleText (text : String) : List Nat := text.toList.length :: text.toList.map Char.toNat

def sampleReadText : List Nat → Option (String × List Nat)
  | [] => none
  | length :: rest => some (String.ofList ((rest.take length).map Char.ofNat), rest.drop length)

def sampleWrite (entry : ChainedEntry) : List Nat :=
  entry.seq :: entry.timestamp :: (sampleText entry.actor ++ (sampleText entry.action ++
    (sampleText entry.nodeID ++ (sampleText entry.eventID ++ (sampleText entry.prevHash ++
      (sampleText entry.hash ++ []))))))

def sampleRead : List Nat → Option ChainedEntry
  | seq :: timestamp :: rest => do
      let (actor, rest) ← sampleReadText rest
      let (action, rest) ← sampleReadText rest
      let (nodeID, rest) ← sampleReadText rest
      let (eventID, rest) ← sampleReadText rest
      let (prevHash, rest) ← sampleReadText rest
      let (hash, _) ← sampleReadText rest
      some { seq, timestamp, actor, action, nodeID, eventID, prevHash, hash }
  | _ => none

def sampleDecode : List UInt8 → Option ChainedEntry
  | 123 :: rest => (sampleNumbers 0 rest).bind sampleRead
  | _ => none

theorem sampleReadText_append (text : String) (rest : List Nat) :
    sampleReadText (sampleText text ++ rest) = some (text, rest) := by
  have chars : (text.toList.map Char.toNat).map Char.ofNat = text.toList := by
    rw [map_map]
    exact map_id'' (fun char => Char.ofNat_toNat char) _
  have shape : sampleReadText (sampleText text ++ rest) =
      some (String.ofList (((text.toList.map Char.toNat ++ rest).take text.toList.length).map Char.ofNat),
        (text.toList.map Char.toNat ++ rest).drop text.toList.length) := rfl
  rw [shape, take_left' (length_map ..), drop_left' (length_map ..), chars, String.ofList_toList]

theorem sampleRead_write (entry : ChainedEntry) : sampleRead (sampleWrite entry) = some entry := by
  simp only [sampleWrite, sampleRead, sampleReadText_append, Option.bind_eq_bind, Option.bind_some]

theorem sampleNumbers_replicate (current number : Nat) (rest : List UInt8) :
    sampleNumbers current (List.replicate number 49 ++ rest) = sampleNumbers (current + number) rest := by
  induction number generalizing current with
  | zero => rfl
  | succ number ih =>
    show sampleNumbers (current + 1) (List.replicate number 49 ++ rest) = _
    rw [ih, Nat.add_right_comm, Nat.add_assoc]

theorem sampleNumbers_bytes (numbers : List Nat) :
    sampleNumbers 0 (numbers.flatMap (fun number => List.replicate number 49 ++ [44]) ++ [125]) =
      some numbers := by
  induction numbers with
  | nil => rfl
  | cons number numbers ih =>
    rw [flatMap_cons, append_assoc, append_assoc, sampleNumbers_replicate]
    rw [singleton_append, sampleNumbers, ih, Nat.zero_add]
    rfl

theorem sampleNumbers_open {bytes : List UInt8} (unclosed : 125 ∉ bytes) (current : Nat) :
    sampleNumbers current bytes = none := by
  induction bytes generalizing current with
  | nil => rfl
  | cons byte rest ih =>
    have later := fun current => ih (not_mem_of_not_mem_cons unclosed) current
    unfold sampleNumbers
    split
    · next same => exact absurd ((List.cons.inj same).1 ▸ mem_cons_self) unclosed
    · next same => exact (List.cons.inj same).2 ▸ later _
    · next same => rw [← (List.cons.inj same).2, later]; rfl
    · rfl

theorem mem_sampleBody {numbers : List Nat} {byte : UInt8}
    (member : byte ∈ numbers.flatMap fun number => List.replicate number 49 ++ [44]) : byte = 49 ∨ byte = 44 := by
  obtain ⟨number, -, member⟩ := mem_flatMap.mp member
  rcases mem_append.mp member with digit | comma
  · exact .inl (eq_of_mem_replicate digit)
  · exact .inr (mem_singleton.mp comma)

theorem sampleDecode_cut (numbers : List Nat) (short : count < (sampleBytes numbers).length) :
    sampleDecode ((sampleBytes numbers).take count) = none := by
  cases count with
  | zero => rfl
  | succ count =>
    rw [sampleBytes, length_cons, length_append, length_singleton] at short
    have within := Nat.le_of_lt_succ (Nat.lt_of_succ_lt_succ short)
    rw [sampleBytes, take_succ_cons, take_append_of_le_length within]
    show (sampleNumbers 0 _).bind sampleRead = none
    rw [sampleNumbers_open fun closing => absurd (mem_sampleBody (mem_of_mem_take closing)) (by decide)]
    rfl

def sampleFormat : AuditFormat where
  json := {
    encode entry := sampleBytes (sampleWrite entry)
    decode := sampleDecode
    decode_encode entry := by
      show (sampleNumbers 0 _).bind sampleRead = some entry
      rw [sampleNumbers_bytes]
      exact sampleRead_write entry
    newline_free entry := by
      intro member
      rcases mem_cons.mp member with opening | later
      · exact absurd opening (by decide)
      · rcases mem_append.mp later with body | closing
        · exact absurd (mem_sampleBody body) (by decide)
        · exact absurd (mem_singleton.mp closing) (by decide)
    opens _ := rfl
    cut entry _ short := sampleDecode_cut (sampleWrite entry) short }
  sha256 text := toString text.length
  formatTime := toString

def sampleDeploy : AuditEntry := { actor := "operator", action := "deploy" }

/-- A torn append, a failed one and a reopened store between acknowledged appends. -/
def sampleTameEvents : List AuditEvent :=
  [.append sampleDeploy (.success true), .append sampleDeploy (.crashed 5), .append sampleDeploy (.success true),
    .append sampleDeploy (.failed 7), .reopen, .append sampleDeploy (.success true)]

theorem sampleTameEvents_kept :
    let run := AuditRun.after sampleFormat {} sampleTameEvents
    (run.acknowledged.map (·.seq)) = [1, 2, 3] ∧
      ∃ dropped listed, (run.file.listAudit sampleFormat) = .ok listed ∧
        run.acknowledged.Sublist (dropped ++ listed) ∧
        (dropped ++ listed).Pairwise (·.seq < ·.seq) ∧
        (dropped ≠ [] → auditRetain ≤ listed.length) ∧
        verifyAuditChain sampleFormat listed = -1 :=
  ⟨by decide +kernel, acknowledged_entries_kept sampleFormat sampleTameEvents (by decide +kernel)⟩

/-- The size of the first entry's text without its line break. -/
def sampleCut : Nat := (sampleFormat.json.encode (chainedAfter sampleFormat [] sampleDeploy)).length

/-- The process dies right before the line break. The reopened store takes the text for a complete
line and appends to it: the entry that it acknowledges is not in the log. -/
theorem sampleUnbroken_lost :
    let run := AuditRun.after sampleFormat {}
      [.append sampleDeploy (.crashed sampleCut), .append sampleDeploy (.success true)]
    run.acknowledged.map (·.seq) = [2] ∧
      (run.file.listAudit sampleFormat).toOption = some [] := by
  decide +kernel

end Yaog.Controller
