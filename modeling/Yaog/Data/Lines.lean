import Mathlib.Tactic

/-!
# Records in lines

A file of records, one in a line. An append that is cut leaves a part of its line at the end, and the
part of a record is not a record.
-/

namespace Yaog.Data

open List

def newline : UInt8 := 10

/-- Lines that end in a newline, and what follows the last of them. -/
theorem splitOn_flatMap {parts : List (List UInt8)} (whole : ∀ part ∈ parts, newline ∉ part) {rest : List UInt8}
    (free : newline ∉ rest) : (parts.flatMap (· ++ [newline]) ++ rest).splitOn newline = parts ++ [rest] := by
  have apart {bytes : List UInt8} (free : newline ∉ bytes) : ∀ byte ∈ bytes, (byte == newline) = false := by
    intro byte member
    rw [beq_eq_false_iff_ne]
    rintro rfl
    exact free member
  induction parts with
  | nil => exact splitOnP_eq_singleton (apart free)
  | cons part parts ih =>
    rw [flatMap_cons, append_assoc, append_assoc, singleton_append, List.splitOn,
      splitOnP_append_cons_of_forall_mem (apart (whole part mem_cons_self)) _ (beq_self_eq_true _)]
    exact congrArg (part :: ·) (ih fun part member => whole part (mem_cons_of_mem _ member))

/-- How records are written: without line breaks, after an opening brace, and such that a record that
was cut is not a record. -/
structure LineCodec (ρ : Type) where
  encode : ρ → List UInt8
  decode : List UInt8 → Option ρ
  decode_encode : ∀ record, decode (encode record) = some record
  newline_free : ∀ record, newline ∉ encode record
  opens : ∀ record, (encode record).head? = some 123
  cut : ∀ record (count : Nat), count < (encode record).length → decode ((encode record).take count) = none

namespace LineCodec

variable {ρ : Type} (codec : LineCodec ρ)

def line (record : ρ) : List UInt8 := codec.encode record ++ [newline]

def lines (records : List ρ) : List UInt8 := records.flatMap codec.line

def Torn (rest : List UInt8) : Prop :=
  ∃ record count, 0 < count ∧ count < (codec.encode record).length ∧ rest = (codec.encode record).take count

variable {codec} {rest : List UInt8}

theorem lines_append (first second : List ρ) :
    codec.lines (first ++ second) = codec.lines first ++ codec.lines second :=
  flatMap_append

theorem lines_concat (records : List ρ) (record : ρ) :
    codec.lines (records ++ [record]) = codec.lines records ++ codec.line record := by
  rw [lines_append, lines, lines, flatMap_singleton]

theorem Torn.newline_free (torn : codec.Torn rest) : newline ∉ rest := by
  obtain ⟨record, count, -, -, rfl⟩ := torn
  exact fun member => codec.newline_free record (mem_of_mem_take member)

theorem Torn.decode (torn : codec.Torn rest) : codec.decode rest = none := by
  obtain ⟨record, count, -, short, rfl⟩ := torn
  exact codec.cut record count short

theorem Torn.opens (torn : codec.Torn rest) : rest.head? = some 123 := by
  obtain ⟨record, count, positive, -, rfl⟩ := torn
  rw [head?_take, if_neg (Nat.ne_of_gt positive)]
  exact codec.opens record

theorem splitOn_lines (records : List ρ) (free : newline ∉ rest) :
    (codec.lines records ++ rest).splitOn newline = records.map codec.encode ++ [rest] := by
  rw [← splitOn_flatMap (by simpa using fun record _ => codec.newline_free record) free, flatMap_map]
  rfl

end LineCodec

variable {α : Type} {sep : α}

theorem count_intercalate [DecidableEq α] (first : List α) (fields : List (List α)) :
    ([sep].intercalate (first :: fields)).count sep =
      ((first :: fields).map (List.count sep)).sum + fields.length := by
  induction fields generalizing first with
  | nil => simp
  | cons second fields ih =>
    rw [intercalate_cons_cons, count_append, count_append, ih]
    simp
    omega

/-- Fields without separators are told apart from any others of their number. -/
theorem fields_inj [DecidableEq α] {first second : List (List α)} (same : first.length = second.length)
    (free : ∀ field ∈ first, sep ∉ field) (text : [sep].intercalate first = [sep].intercalate second) :
    first = second := by
  cases first with
  | nil => exact (length_eq_zero_iff.mp same.symm).symm
  | cons field fields =>
    cases second with
    | nil => cases same
    | cons other others =>
      have counts := congrArg (List.count sep) text
      have none : ((field :: fields).map (List.count sep)).sum = 0 :=
        sum_eq_zero (by simpa [count_eq_zero] using free)
      rw [count_intercalate, count_intercalate, none, Nat.succ.inj same, Nat.add_right_cancel_iff] at counts
      have others_free : ∀ field ∈ other :: others, sep ∉ field := fun field member =>
        count_eq_zero.mp (sum_eq_zero_iff.mp counts.symm _ (mem_map_of_mem member))
      rw [← splitOn_intercalate sep free (cons_ne_nil _ _), text,
        splitOn_intercalate sep others_free (cons_ne_nil _ _)]

theorem last_field_inj {before before' last last' : List α} (free : sep ∉ last) (free' : sep ∉ last')
    (text : before ++ sep :: last = before' ++ sep :: last') : last = last' := by
  rcases append_eq_append_iff.mp text with ⟨between, -, same⟩ | ⟨between, -, same⟩
  · cases between with
    | nil => exact (List.cons.inj same).2
    | cons first rest => exact absurd ((List.cons.inj same).2 ▸ by simp) free
  · cases between with
    | nil => exact (List.cons.inj same).2.symm
    | cons first rest => exact absurd ((List.cons.inj same).2 ▸ by simp) free'

theorem exists_broken {text : String} (broken : '\n' ∈ text.toList) : ∃ before after, text = before ++ "\n" ++ after := by
  obtain ⟨before, after, split⟩ := append_of_mem broken
  refine ⟨String.ofList before, String.ofList after, ?_⟩
  rw [← String.toList_inj, split]
  simp

end Yaog.Data
