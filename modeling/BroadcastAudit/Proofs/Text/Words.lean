import BroadcastAudit.Text.Blank
import BroadcastAudit.Text.Fields
import Mathlib.Data.List.TakeWhile

set_option autoImplicit false

namespace BroadcastAudit.Text

theorem isBlank_of_isFieldSeparator {c : Char} (separator : isFieldSeparator c = true) :
    isBlank c = true := by
  simp only [isFieldSeparator, Bool.or_eq_true, beq_iff_eq] at separator
  rcases separator with rfl | rfl <;> decide

theorem spaces_nil : Spaces [] :=
  fun _ member => absurd member List.not_mem_nil

theorem Spaces.blank {text : List Char} (spaces : Spaces text) : Blank text :=
  fun c member => isBlank_of_isFieldSeparator (spaces c member)

structure IsWord (word : List Char) : Prop where
  nonempty : word ≠ []
  solid : ∀ c ∈ word, isFieldSeparator c = false

def Bounded (rest : List Char) : Prop :=
  ∀ c ∈ rest.head?, isFieldSeparator c = true

theorem Spaces.bounded {rest : List Char} (spaces : Spaces rest) : Bounded rest :=
  fun c first => spaces c (List.mem_of_mem_head? first)

theorem fields_separator_cons (c : Char) (rest : List Char) (h : isFieldSeparator c = true) :
    fields (c :: rest) = fields rest :=
  fields_append_separator [] rest c h

theorem fields_spaces_append {lead : List Char} (spaces : Spaces lead) (rest : List Char) :
    fields (lead ++ rest) = fields rest := by
  induction lead with
  | nil => rfl
  | cons c lead ih =>
    rw [List.cons_append, fields_separator_cons c _ (spaces c List.mem_cons_self)]
    exact ih fun d member => spaces d (List.mem_cons_of_mem c member)

theorem fields_spaces {line : List Char} (spaces : Spaces line) : fields line = [] := by
  simpa using fields_spaces_append spaces []

theorem fields_word_append {word rest : List Char} (isWord : IsWord word)
    (bounded : Bounded rest) : fields (word ++ rest) = word :: fields rest := by
  have alone := fields_of_none word isWord.nonempty isWord.solid
  cases rest with
  | nil => simpa using alone
  | cons c rest =>
    have separator : isFieldSeparator c = true := bounded c rfl
    rw [fields_append_separator word rest c separator, alone,
      fields_separator_cons c rest separator]
    rfl

theorem spaces_or_word (line : List Char) :
    Spaces line ∨ ∃ lead word rest, line = lead ++ (word ++ rest) ∧ Spaces lead ∧ IsWord word ∧
      Bounded rest := by
  have cut := List.takeWhile_append_dropWhile (p := isFieldSeparator) (l := line)
  have spaces : Spaces (line.takeWhile isFieldSeparator) := fun c => List.mem_takeWhile_imp
  cases tail : line.dropWhile isFieldSeparator with
  | nil =>
    rw [tail, List.append_nil] at cut
    exact .inl (cut ▸ spaces)
  | cons first more =>
    have solid : isFieldSeparator first = false := by
      have stop := List.head?_dropWhile_not isFieldSeparator line
      rwa [tail] at stop
    have inner := List.takeWhile_append_dropWhile (p := (!isFieldSeparator ·)) (l := first :: more)
    refine .inr ⟨_, (first :: more).takeWhile (!isFieldSeparator ·),
      (first :: more).dropWhile (!isFieldSeparator ·), ?_, spaces, ⟨?_, ?_⟩, ?_⟩
    next => rw [inner, ← tail, cut]
    next => simp [solid]
    next => exact fun c member => by simpa using List.mem_takeWhile_imp member
    next =>
      intro c stop
      have boundary := List.head?_dropWhile_not (!isFieldSeparator ·) (first :: more)
      rw [Option.mem_def.1 stop] at boundary
      simpa using boundary

theorem fields_eq_nil_iff (line : List Char) : fields line = [] ↔ Spaces line := by
  constructor
  next =>
    intro none
    rcases spaces_or_word line with spaces | ⟨lead, word, rest, rfl, spaces, isWord, bounded⟩
    next => exact spaces
    next =>
      rw [fields_spaces_append spaces, fields_word_append isWord bounded] at none
      cases none
  next => exact fields_spaces

theorem fields_eq_cons_iff (line word : List Char) (words : List (List Char)) :
    fields line = word :: words ↔
      ∃ lead rest, line = lead ++ (word ++ rest) ∧ Spaces lead ∧ IsWord word ∧ Bounded rest ∧
        fields rest = words := by
  constructor
  next =>
    intro read
    rcases spaces_or_word line with spaces | ⟨lead, first, rest, rfl, spaces, isWord, bounded⟩
    next =>
      rw [fields_spaces spaces] at read
      cases read
    next =>
      rw [fields_spaces_append spaces, fields_word_append isWord bounded] at read
      cases read
      exact ⟨lead, rest, rfl, spaces, isWord, bounded, rfl⟩
  next =>
    rintro ⟨lead, rest, rfl, spaces, isWord, bounded, rfl⟩
    rw [fields_spaces_append spaces, fields_word_append isWord bounded]

theorem exists_gap {rest next : List Char} {words : List (List Char)} (bounded : Bounded rest)
    (read : fields rest = next :: words) :
    ∃ gap more, rest = gap ++ (next ++ more) ∧ gap ≠ [] ∧ Spaces gap ∧ IsWord next ∧
      Bounded more ∧ fields more = words := by
  obtain ⟨gap, more, rfl, spaces, isWord, ends, others⟩ := (fields_eq_cons_iff ..).1 read
  refine ⟨gap, more, rfl, ?_, spaces, isWord, ends, others⟩
  rintro rfl
  obtain ⟨c, solid, rfl⟩ := List.exists_cons_of_ne_nil isWord.nonempty
  have separator := bounded c rfl
  rw [isWord.solid c List.mem_cons_self] at separator
  cases separator

theorem fields_word_gap {word gap : List Char} (isWord : IsWord word) (nonempty : gap ≠ [])
    (spaces : Spaces gap) (rest : List Char) :
    fields (word ++ (gap ++ rest)) = word :: fields rest := by
  obtain ⟨c, more, rfl⟩ := List.exists_cons_of_ne_nil nonempty
  have bounded : Bounded (c :: more ++ rest) := by
    intro d first
    cases first
    exact spaces c List.mem_cons_self
  rw [fields_word_append isWord bounded, fields_spaces_append spaces]

end BroadcastAudit.Text
