import Mathlib.Tactic

/-!
# Quoting for the shells

The deploy and install scripts carry texts of the operator between quotes. What a shell makes of them is
said by the token recognition of POSIX and by PowerShell's expandable strings.
-/

namespace Yaog.Renderer

open List

/-- `strings.ReplaceAll` of one character. -/
def replaceAll (old : Char) (new : String) (text : List Char) : List Char :=
  text.flatMap fun c => if c = old then new.toList else [c]

def bashSingleQuote (text : String) : List Char :=
  '\x27' :: replaceAll '\x27' "'\\''" text.toList ++ ['\x27']

def powerShellArgQuote (text : String) : List Char :=
  let escaped := replaceAll '\x60' "``" text.toList
  let escaped := replaceAll '"' "`\"" escaped
  let escaped := replaceAll '$' "`$" escaped
  '"' :: escaped ++ ['"']

/-- A character of a word. Those that are not quoted may still be expanded. -/
structure WordChar where
  char : Char
  quoted : Bool

inductive ShellToken where
  | word (chars : List WordChar)
  | operator (c : Char)

inductive Quotes where
  | unquoted | escaped | single | double | doubleEscaped | comment

def isOperator (c : Char) : Bool := ['\n', ';', '&', '|', '<', '>', '(', ')'].contains c

/-- The word begun so far, one character longer. -/
def put (word : Option (List WordChar)) (char : Char) (quoted : Bool) : Option (List WordChar) :=
  some (word.getD [] ++ [⟨char, quoted⟩])

def endWord (word : Option (List WordChar)) : List ShellToken := (word.map ShellToken.word).toList

/-- Token recognition, or `none` where a quote is not closed. -/
def shellTokens : Quotes → Option (List WordChar) → List Char → Option (List ShellToken)
  | .unquoted, word, [] => some (endWord word)
  | .escaped, word, [] => some (endWord (put word '\\' true))
  | .comment, _, [] => some []
  | _, _, [] => none
  | .unquoted, word, c :: rest =>
    if c = '\x27' then shellTokens .single (some (word.getD [])) rest
    else if c = '"' then shellTokens .double (some (word.getD [])) rest
    else if c = '\\' then shellTokens .escaped word rest
    else if c = ' ' ∨ c = '\t' then (shellTokens .unquoted none rest).map (endWord word ++ ·)
    else if c = '#' ∧ word = none then shellTokens .comment none rest
    else if isOperator c then (shellTokens .unquoted none rest).map (endWord word ++ .operator c :: ·)
    else shellTokens .unquoted (put word c false) rest
  | .escaped, word, c :: rest => shellTokens .unquoted (if c = '\n' then word else put word c true) rest
  | .single, word, c :: rest =>
    if c = '\x27' then shellTokens .unquoted word rest else shellTokens .single (put word c true) rest
  | .double, word, c :: rest =>
    if c = '"' then shellTokens .unquoted word rest
    else if c = '\\' then shellTokens .doubleEscaped word rest
    -- parameters and commands are expanded between double quotes too
    else shellTokens .double (put word c (c ≠ '$' && c ≠ '\x60')) rest
  | .doubleEscaped, word, c :: rest =>
    if c = '\n' then shellTokens .double word rest
    else if ['$', '\x60', '"', '\\'].contains c then shellTokens .double (put word c true) rest
    else shellTokens .double (put (put word '\\' true) c true) rest
  | .comment, word, c :: rest =>
    if c = '\n' then (shellTokens .unquoted none rest).map (.operator c :: ·) else shellTokens .comment word rest

theorem shellTokens_single (text : List Char) (word : List WordChar) :
    shellTokens .single (some word) (replaceAll '\x27' "'\\''" text ++ ['\x27']) =
      some [.word (word ++ text.map fun char => ⟨char, true⟩)] := by
  induction text generalizing word with
  | nil => simp [replaceAll, shellTokens, endWord]
  | cons c text ih =>
    rw [replaceAll, flatMap_cons, append_assoc, ← replaceAll]
    by_cases quote : c = '\x27'
    · -- the quote is closed, one character is escaped, and the quote is opened again
      simp [quote, shellTokens, put, ih]
    · simp [quote, shellTokens, put, ih]

/-- The quotation marks that PowerShell takes for the double quote besides the one of ASCII. -/
def isTypographic (c : Char) : Bool := c = '“' || c = '”' || c = '„'

def isDoubleQuote (c : Char) : Bool := c = '"' || isTypographic c

/-- The character that a backtick and this one stand for. -/
def backtick (c : Char) : Char :=
  if c = '0' then '\x00' else if c = 'a' then '\x07' else if c = 'b' then '\x08' else if c = 'f' then '\x0c'
  else if c = 'n' then '\n' else if c = 'r' then '\x0d' else if c = 't' then '\t' else if c = 'v' then '\x0b' else c

inductive Reading where
  | text (value rest : List Char)
  | expands
  | unclosed
  deriving DecidableEq, Repr

def Reading.cons (c : Char) : Reading → Reading
  | .text value rest => .text (c :: value) rest
  | other => other

inductive StringState where
  | inside | quote | tick
  deriving DecidableEq, Repr

/-- An expandable string after its opening quote: its value and what follows it. -/
def readExpandable : StringState → List Char → Reading
  | .quote, [] => .text [] []
  | _, [] => .unclosed
  | .inside, c :: rest =>
    if isDoubleQuote c then readExpandable .quote rest
    else if c = '$' then .expands
    else if c = '\x60' then readExpandable .tick rest
    else (readExpandable .inside rest).cons c
  -- a quote ends the string, unless another one follows it
  | .quote, c :: rest => if isDoubleQuote c then (readExpandable .inside rest).cons c else .text [] (c :: rest)
  | .tick, c :: rest => (readExpandable .inside rest).cons (backtick c)

def expandableString : List Char → Option Reading
  | [] => none
  | c :: rest => if isDoubleQuote c then some (readExpandable .inside rest) else none

/-- The three replacements in one: each character that has a meaning gets a backtick. -/
def escape (c : Char) : List Char := if c = '\x60' ∨ c = '"' ∨ c = '$' then ['\x60', c] else [c]

section

variable {c : Char} {text : List Char}

theorem escape_cases (c : Char) :
    (escape c = ['\x60', c] ∧ (c = '\x60' ∨ c = '"' ∨ c = '$')) ∨
      (escape c = [c] ∧ c ≠ '\x60' ∧ c ≠ '"' ∧ c ≠ '$') := by
  by_cases marked : c = '\x60' ∨ c = '"' ∨ c = '$'
  · exact .inl ⟨if_pos marked, marked⟩
  · exact .inr ⟨if_neg marked, by simpa using marked⟩

theorem powerShellArgQuote_eq (text : String) :
    powerShellArgQuote text = '"' :: (text.toList.flatMap escape ++ ['"']) := by
  have all : ∀ chars : List Char, replaceAll '$' "`$" (replaceAll '"' "`\"" (replaceAll '\x60' "``" chars)) =
      chars.flatMap escape := by
    intro chars
    induction chars with
    | nil => rfl
    | cons c chars ih =>
      rw [flatMap_cons, ← ih]
      rcases escape_cases c with ⟨escaped, rfl | rfl | rfl⟩ | ⟨escaped, tick, quote, dollar⟩
      · simp [replaceAll, escaped]
      · simp [replaceAll, escaped]
      · simp [replaceAll, escaped]
      · simp [replaceAll, escaped, tick, quote, dollar]
  rw [powerShellArgQuote, all]
  rfl

/-- A character that is no typographic quote is read back. -/
theorem readExpandable_escape (plain : isTypographic c = false) (rest : List Char) :
    readExpandable .inside (escape c ++ rest) = (readExpandable .inside rest).cons c := by
  rcases escape_cases c with ⟨escaped, rfl | rfl | rfl⟩ | ⟨escaped, tick, quote, dollar⟩
  · rfl
  · rfl
  · rfl
  · simp [escaped, readExpandable, isDoubleQuote, tick, quote, dollar, plain]

theorem readExpandable_plain (plain : ∀ c ∈ text, isTypographic c = false) :
    readExpandable .inside (text.flatMap escape ++ ['"']) = .text text [] := by
  induction text with
  | nil => rfl
  | cons c text ih =>
    rw [flatMap_cons, append_assoc, readExpandable_escape (plain c mem_cons_self),
      ih fun c member => plain c (mem_cons_of_mem _ member)]
    rfl

theorem escape_typographic (typographic : isTypographic c = true) : escape c = [c] := by
  rcases escape_cases c with ⟨-, rfl | rfl | rfl⟩ | ⟨escaped, -⟩
  · cases typographic
  · cases typographic
  · cases typographic
  · exact escaped

end

theorem Reading.cons_eq_text {c : Char} {reading : Reading} {value rest : List Char}
    (reads : reading.cons c = .text value rest) : ∃ tail, reading = .text tail rest ∧ value = c :: tail := by
  cases reading with
  | text tail rest =>
    cases reads
    exact ⟨tail, rfl, rfl⟩
  | expands => cases reads
  | unclosed => cases reads

/-- A reading is no longer than the text, since of two quotes one is left. -/
theorem readExpandable_length (text : List Char) {state : StringState} {value rest : List Char} (notTick : state ≠ .tick)
    (reads : readExpandable state (text.flatMap escape ++ ['"']) = .text value rest) : value.length ≤ text.length := by
  induction text generalizing state value with
  | nil =>
    cases state with
    | inside =>
      cases reads
      exact le_rfl
    | quote => cases reads
    | tick => cases reads
  | cons c text ih =>
    rw [flatMap_cons, append_assoc] at reads
    cases typographic : isTypographic c with
    | false =>
      cases state with
      | inside =>
        rw [readExpandable_escape typographic] at reads
        obtain ⟨tail, inner, rfl⟩ := Reading.cons_eq_text reads
        exact Nat.succ_le_succ (ih notTick inner)
      | quote =>
        rcases escape_cases c with ⟨escaped, -⟩ | ⟨escaped, -, ascii, -⟩
        · rw [escaped] at reads
          cases reads
          exact Nat.zero_le _
        · rw [escaped, singleton_append, readExpandable, if_neg (by simp [isDoubleQuote, typographic, ascii])] at reads
          cases reads
          exact Nat.zero_le _
      | tick => exact absurd rfl notTick
    | true =>
      rw [escape_typographic typographic] at reads
      cases state with
      | inside =>
        rw [singleton_append, readExpandable, if_pos (by simp [isDoubleQuote, typographic])] at reads
        exact (ih (by decide) reads).trans (Nat.le_succ _)
      | quote =>
        rw [singleton_append, readExpandable, if_pos (by simp [isDoubleQuote, typographic])] at reads
        obtain ⟨tail, inner, rfl⟩ := Reading.cons_eq_text reads
        exact Nat.succ_le_succ (ih (by decide) inner)
      | tick => exact absurd rfl notTick

theorem readExpandable_only {text : List Char}
    (reads : readExpandable .inside (text.flatMap escape ++ ['"']) = .text text []) :
    ∀ c ∈ text, isTypographic c = false := by
  induction text with
  | nil => simp
  | cons c text ih =>
    rw [flatMap_cons, append_assoc] at reads
    cases typographic : isTypographic c with
    | false =>
      rw [readExpandable_escape typographic] at reads
      obtain ⟨tail, inner, same⟩ := Reading.cons_eq_text reads
      obtain rfl := (List.cons.inj same).2
      exact forall_mem_cons.mpr ⟨typographic, ih inner⟩
    | true =>
      rw [escape_typographic typographic, singleton_append, readExpandable,
        if_pos (by simp [isDoubleQuote, typographic])] at reads
      exact absurd (readExpandable_length text (by decide) reads) (by simp)

/-- Between its quotes a text means itself in both shells if and only if it has no typographic quote. -/
theorem quoting_inert_iff (text : String) :
    (shellTokens .unquoted none (bashSingleQuote text) = some [.word (text.toList.map fun char => ⟨char, true⟩)] ∧
      expandableString (powerShellArgQuote text) = some (.text text.toList [])) ↔
      ∀ c ∈ text.toList, isTypographic c = false := by
  have posix : shellTokens .unquoted none (bashSingleQuote text) =
      some [.word (text.toList.map fun char => ⟨char, true⟩)] := shellTokens_single text.toList []
  have quoted : expandableString (powerShellArgQuote text) =
      some (readExpandable .inside (text.toList.flatMap escape ++ ['"'])) := by
    rw [powerShellArgQuote_eq]
    rfl
  rw [quoted, Option.some.injEq]
  exact ⟨fun both => readExpandable_only both.2, fun plain => ⟨posix, readExpandable_plain plain⟩⟩

/-- What follows a typographic quote is outside of the string. -/
theorem sampleTypographic_escapes :
    '\x00' ∉ "a”; reboot #".toList ∧
      expandableString (powerShellArgQuote "a”; reboot #") = some (.text "a".toList "; reboot #\"".toList) := by
  decide

end Yaog.Renderer
