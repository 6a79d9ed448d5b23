import BroadcastAudit.Config.Format
import BroadcastAudit.Proofs.BlankLines

set_option autoImplicit false

namespace BroadcastAudit.Config

open Text

theorem NumberList.ne_nil {numbers : List Nat} {line : List Char}
    (list : NumberList numbers line) : numbers ≠ [] := by
  cases list <;> exact List.cons_ne_nil _ _

theorem NumberList.lt_limit {numbers : List Nat} {line : List Char}
    (list : NumberList numbers line) : ∀ n ∈ numbers, n < Numeral.limit := by
  induction list with
  | last n lead digits trail before denotes after => exact List.forall_mem_singleton.2 denotes.2.2
  | more n numbers lead digits gap rest before denotes nonempty spaces _ ih =>
    exact List.forall_mem_cons.2 ⟨denotes.2.2, ih⟩

theorem NumberList.fields_eq {numbers : List Nat} {line : List Char}
    (list : NumberList numbers line) :
    List.Forall₂ (fun field n => Numeral.Denotes field n) (fields line) numbers := by
  induction list with
  | last n lead digits trail before denotes after =>
    rw [fields_spaces_append before, fields_word_append denotes.isWord after.bounded,
      fields_spaces after]
    exact .cons denotes .nil
  | more n numbers lead digits gap rest before denotes nonempty spaces _ ih =>
    rw [fields_spaces_append before, fields_word_gap denotes.isWord nonempty spaces]
    exact .cons denotes ih

theorem numberList_of_fields {numbers : List Nat} {line : List Char} (nonempty : numbers ≠ [])
    (read : List.Forall₂ (fun field n => Numeral.Denotes field n) (fields line) numbers) :
    NumberList numbers line := by
  induction numbers generalizing line with
  | nil => exact absurd rfl nonempty
  | cons n numbers ih =>
    obtain ⟨digits, others, denotes, restRead, split⟩ := List.forall₂_cons_right_iff.1 read
    obtain ⟨lead, rest, rfl, before, -, bounded, rfl⟩ := (fields_eq_cons_iff ..).1 split
    cases numbers with
    | nil =>
      have none := List.forall₂_nil_right_iff.1 restRead
      exact .last n lead digits rest before denotes ((fields_eq_nil_iff rest).1 none)
    | cons m numbers =>
      obtain ⟨next, words, -, -, split⟩ := List.forall₂_cons_right_iff.1 restRead
      obtain ⟨gap, more, rfl, gapNonempty, spaces, -, -, -⟩ := exists_gap bounded split
      rw [fields_spaces_append spaces] at restRead
      exact .more n (m :: numbers) lead digits gap (next ++ more) before denotes gapNonempty spaces
        (ih (List.cons_ne_nil m numbers) restRead)

theorem numbers?_eq_some_iff_numberList (line : Line) (numbers : List Nat) :
    numbers? line = some numbers ↔ NumberList numbers line.text := by
  simp only [numbers?_eq_some_iff, Numeral.read?_eq_some_iff_denotes]
  constructor
  next => exact fun ⟨nonempty, read⟩ => numberList_of_fields nonempty read
  next => exact fun list => ⟨list.ne_nil, list.fields_eq⟩

theorem isNumberList_iff (line : Line) :
    IsNumberList line.text ↔ ∃ numbers, numbers? line = some numbers := by
  simp only [IsNumberList, numbers?_eq_some_iff_numberList]

theorem numbers?_eq_none_iff (line : Line) :
    numbers? line = none ↔ ¬ IsNumberList line.text := by
  rw [isNumberList_iff, ← Option.isSome_iff_exists, Option.not_isSome_iff_eq_none]

theorem IsNumberList.not_blank {line : Line} (list : IsNumberList line.text) :
    ¬ Blank line.text := by
  obtain ⟨numbers, read⟩ := (isNumberList_iff line).1 list
  exact not_blank_of_numbers? read

end BroadcastAudit.Config
