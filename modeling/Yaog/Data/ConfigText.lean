import Mathlib.Data.List.TakeWhile
import Mathlib.Tactic

/-!
# Configuration files of lines and words

A line carries a key, an equals sign and a value; a number sign opens a comment.
-/

namespace Yaog.Data

open List

theorem chars_of_all {text : String} {good : Char → Prop} [DecidablePred good]
    (all : text.toList.all (fun c => decide (good c)) = true) : ∀ c ∈ text.toList, good c := by
  simpa using all

def isBlank (c : Char) : Bool := c = ' ' || c = '\t'

def words (text : List Char) : List String := ((text.splitOnP isBlank).filter (· ≠ [])).map String.ofList

structure Directive where
  key : List String
  value : List String
  deriving DecidableEq, Repr

def readLine (line : String) : Option Directive :=
  let stripped := line.toList.takeWhile (· ≠ '#')
  let key := words (stripped.takeWhile (· ≠ '='))
  if key = [] then none else some ⟨key, words ((stripped.dropWhile (· ≠ '=')).drop 1)⟩

def fileLines (text : String) : List String := (text.toList.splitOnP (· = '\n')).map String.ofList

abbrev Unbroken (text : String) : Prop := ∀ c ∈ text.toList, c ≠ '\n'

theorem Unbroken.append {first second : String} (left : Unbroken first) (right : Unbroken second) :
    Unbroken (first ++ second) := by
  intro c member
  rw [String.toList_append, mem_append] at member
  exact member.elim (left c) (right c)

def readConfig (text : String) : List Directive := (fileLines text).filterMap readLine

def unlines (lines : List String) : String := String.join (lines.map (· ++ "\n"))

structure Word (text : String) : Prop where
  nonempty : text ≠ ""
  solid : ∀ c ∈ text.toList, isBlank c = false

theorem words_nil : words [] = [] := rfl

theorem words_blank (front back : List Char) : words (front ++ ' ' :: back) = words front ++ words back := by
  rw [words, splitOnP_append_cons front back (by decide), filter_append, map_append]
  rfl

theorem words_of_word {text : String} (word : Word text) : words text.toList = [text] := by
  have alone := splitOnP_eq_singleton word.solid
  have nonempty : text.toList ≠ [] := by simpa using word.nonempty
  simp [words, alone, nonempty]

theorem words_cons {text : String} (word : Word text) (back : List Char) :
    words (text.toList ++ ' ' :: back) = text :: words back := by
  rw [words_blank, words_of_word word, singleton_append]

theorem readLine_comment {line : String} (opens : line.toList.head? = some '#') : readLine line = none := by
  obtain ⟨rest, shape⟩ : ∃ rest, line.toList = '#' :: rest := by
    cases chars : line.toList with
    | nil => simp [chars] at opens
    | cons c rest => exact ⟨rest, by simpa [chars] using opens⟩
  simp [readLine, shape, words]

def settingLine (key value : String) : String := key ++ " = " ++ value

theorem readLine_setting {key value : String} (word : Word key) (plain : ∀ c ∈ key.toList, c ≠ '#' ∧ c ≠ '=')
    (clear : ∀ c ∈ value.toList, c ≠ '#') : readLine (settingLine key value) = some ⟨[key], words value.toList⟩ := by
  rw [settingLine]
  have chars : (key ++ " = " ++ value).toList = (key.toList ++ [' ']) ++ '=' :: ' ' :: value.toList := by simp
  have stripped : (key ++ " = " ++ value).toList.takeWhile (· ≠ '#') = (key ++ " = " ++ value).toList := by
    rw [takeWhile_eq_self_iff, chars]
    intro c member
    simp only [mem_append, mem_cons, not_mem_nil, or_false] at member
    rcases member with (inKey | rfl) | rfl | rfl | inValue
    · simpa using (plain c inKey).1
    · decide
    · decide
    · decide
    · simpa using clear c inValue
  have front : ∀ c ∈ key.toList ++ [' '], decide (c ≠ '=') = true := by
    intro c member
    rcases mem_append.mp member with inKey | blank
    · simpa using (plain c inKey).2
    · rw [mem_singleton.mp blank]
      decide
  have before : (key ++ " = " ++ value).toList.takeWhile (· ≠ '=') = key.toList ++ [' '] := by
    rw [chars, takeWhile_append_of_pos front]
    simp
  have after : (key ++ " = " ++ value).toList.dropWhile (· ≠ '=') = '=' :: ' ' :: value.toList := by
    rw [chars, dropWhile_append_of_pos front]
    simp
  have keyWords : words (key.toList ++ [' ']) = [key] := words_cons word []
  have valueWords : words (' ' :: value.toList) = words value.toList := words_blank [] _
  simp only [readLine, stripped, before, after, keyWords, drop_succ_cons, drop_zero, valueWords]
  rfl

theorem readLine_header {key : String} (word : Word key) (plain : ∀ c ∈ key.toList, c ≠ '#' ∧ c ≠ '=') :
    readLine key = some ⟨[key], []⟩ := by
  have stripped : key.toList.takeWhile (· ≠ '#') = key.toList :=
    takeWhile_eq_self_iff.mpr fun c member => by simpa using (plain c member).1
  have whole : key.toList.takeWhile (· ≠ '=') = key.toList :=
    takeWhile_eq_self_iff.mpr fun c member => by simpa using (plain c member).2
  have none : key.toList.dropWhile (· ≠ '=') = [] :=
    dropWhile_eq_nil_iff.mpr fun c member => by simpa using (plain c member).2
  simp only [readLine, stripped, whole, none, words_of_word word, drop_nil, words_nil]
  rfl

theorem fileLines_break (front back : String) : fileLines (front ++ "\n" ++ back) = fileLines front ++ fileLines back := by
  have chars : (front ++ "\n" ++ back).toList = front.toList ++ '\n' :: back.toList := by simp
  rw [fileLines, chars, splitOnP_append_cons front.toList back.toList (by decide), map_append]
  rfl

theorem fileLines_unbroken {line : String} (unbroken : Unbroken line) : fileLines line = [line] := by
  have alone : ∀ c ∈ line.toList, decide (c = '\n') = false := fun c member => by simpa using unbroken c member
  rw [fileLines, splitOnP_eq_singleton alone, map_singleton, String.ofList_toList]

theorem fileLines_unlines_cons (line : String) (rest : List String) :
    fileLines (unlines (line :: rest)) = fileLines line ++ fileLines (unlines rest) := by
  have shape : unlines (line :: rest) = line ++ "\n" ++ unlines rest := by rw [unlines, map_cons, String.join_cons]; rfl
  rw [shape, fileLines_break]

theorem fileLines_unlines {lines : List String} (whole : ∀ line ∈ lines, Unbroken line) :
    fileLines (unlines lines) = lines ++ [""] := by
  induction lines with
  | nil => rfl
  | cons line rest ih =>
    obtain ⟨unbroken, later⟩ := forall_mem_cons.mp whole
    rw [fileLines_unlines_cons, fileLines_unbroken unbroken, ih later, singleton_append, cons_append]

theorem readConfig_broken {lines : List String} {front back : String} {directive : Directive}
    (member : front ++ "\n" ++ back ∈ lines) (unbroken : Unbroken back)
    (reads : readLine back = some directive) : directive ∈ readConfig (unlines lines) := by
  refine mem_filterMap.mpr ⟨back, ?_, reads⟩
  induction lines with
  | nil => cases member
  | cons line rest ih =>
    rw [fileLines_unlines_cons]
    rcases mem_cons.mp member with rfl | later
    · rw [fileLines_break, fileLines_unbroken unbroken]
      simp
    · exact mem_append_right _ (ih later)

/-- The lines stay lines, and read as the directives. -/
structure ReadAs (lines : List String) (directives : List Directive) : Prop where
  unbroken : ∀ line ∈ lines, Unbroken line
  read : lines.filterMap readLine = directives

namespace ReadAs

variable {lines lines' : List String} {directives directives' : List Directive} {line : String}

theorem nil : ReadAs [] [] := ⟨by simp, rfl⟩

theorem skip (unbroken : Unbroken line) (none : readLine line = none) (rest : ReadAs lines directives) :
    ReadAs (line :: lines) directives :=
  ⟨forall_mem_cons.mpr ⟨unbroken, rest.unbroken⟩, by rw [filterMap_cons_none none, rest.read]⟩

theorem take {directive : Directive} (unbroken : Unbroken line) (some : readLine line = some directive)
    (rest : ReadAs lines directives) : ReadAs (line :: lines) (directive :: directives) :=
  ⟨forall_mem_cons.mpr ⟨unbroken, rest.unbroken⟩, by rw [filterMap_cons_some some, rest.read]⟩

theorem append (first : ReadAs lines directives) (second : ReadAs lines' directives') :
    ReadAs (lines ++ lines') (directives ++ directives') :=
  ⟨forall_mem_append.mpr ⟨first.unbroken, second.unbroken⟩, by
    rw [filterMap_append, first.read, second.read]⟩

theorem ite {condition : Prop} [Decidable condition] (holds : condition → ReadAs lines directives) :
    ReadAs (if condition then lines else []) (if condition then directives else []) := by
  split
  case isTrue met => exact holds met
  case isFalse => exact nil

theorem readConfig (whole : ReadAs lines directives) : readConfig (unlines lines) = directives := by
  rw [Data.readConfig, fileLines_unlines whole.unbroken, filterMap_append, whole.read]
  simp [readLine, words]

end ReadAs

end Yaog.Data
