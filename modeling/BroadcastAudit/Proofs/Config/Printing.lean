import BroadcastAudit.Proofs.AppendedLines
import BroadcastAudit.Proofs.Config.NumberLists

set_option autoImplicit false

namespace BroadcastAudit

open Text

namespace Config

def printed (numbers : List Nat) : List Char :=
  [' '].intercalate (numbers.map fun n => (toString n).toList)

structure Printable (numbers : List Nat) : Prop where
  nonempty : numbers ≠ []
  small : ∀ n ∈ numbers, n < Numeral.limit

theorem printed_cons_cons (n m : Nat) (numbers : List Nat) :
    printed (n :: m :: numbers) = (toString n).toList ++ ([' '] ++ printed (m :: numbers)) := by
  simp [printed, List.intercalate_cons_cons]

theorem Printable.tail {n m : Nat} {numbers : List Nat}
    (printable : Printable (n :: m :: numbers)) :
    Printable (m :: numbers) where
  nonempty := List.cons_ne_nil m numbers
  small := (List.forall_mem_cons.1 printable.small).2

theorem Printable.denotes_head {n : Nat} {numbers : List Nat}
    (printable : Printable (n :: numbers)) :
    Numeral.Denotes (toString n).toList n :=
  Numeral.denotes_toString (printable.small n List.mem_cons_self)

theorem Printable.numberList {numbers : List Nat} (printable : Printable numbers) :
    NumberList numbers (printed numbers) := by
  induction numbers with
  | nil => exact absurd rfl printable.nonempty
  | cons n numbers ih =>
    cases numbers with
    | nil =>
      have list := NumberList.last n [] _ [] spaces_nil printable.denotes_head spaces_nil
      simpa [printed] using list
    | cons m numbers =>
      rw [printed_cons_cons]
      exact .more n _ [] _ [' '] _ spaces_nil printable.denotes_head (List.cons_ne_nil _ _)
        (by decide) (ih printable.tail)

theorem Printable.trimEnd_eq {numbers : List Nat} (printable : Printable numbers)
    (before : List Char) : trimEnd (before ++ printed numbers) = before ++ printed numbers := by
  induction numbers generalizing before with
  | nil => exact absurd rfl printable.nonempty
  | cons n numbers ih =>
    cases numbers with
    | nil => simpa [printed] using printable.denotes_head.trimEnd_append before
    | cons m numbers =>
      rw [printed_cons_cons, ← List.append_assoc, ← List.append_assoc, ih printable.tail]

theorem NumberList.inline {numbers : List Nat} {line : List Char}
    (list : NumberList numbers line) : Inline line := by
  induction list with
  | last n lead digits trail before denotes after =>
    have word := (inline_append_iff ..).2 ⟨denotes.inline, .of_spaces after⟩
    exact (inline_append_iff ..).2 ⟨.of_spaces before, word⟩
  | more n numbers lead digits gap rest before denotes nonempty spaces _ ih =>
    have tail := (inline_append_iff ..).2 ⟨.of_spaces spaces, ih⟩
    have middle := (inline_append_iff ..).2 ⟨denotes.inline, tail⟩
    exact (inline_append_iff ..).2 ⟨.of_spaces before, middle⟩

theorem Printable.not_blank {numbers : List Nat} (printable : Printable numbers) :
    ¬ Blank (printed numbers) := by
  have list : IsNumberList (Line.text ⟨1, 0, printed numbers⟩) := ⟨numbers, printable.numberList⟩
  exact list.not_blank

theorem map_text_lines_of_printed {text : String} {lists : List (List Nat)}
    (printable : ∀ numbers ∈ lists, Printable numbers)
    (whole : text.toList = lists.flatMap fun numbers => printed numbers ++ ['\n']) :
    (lines text).map Line.text = lists.map printed := by
  have terminated : Terminated text (lists.map printed) := by
    refine ⟨by rw [whole, List.flatMap_map], List.forall_mem_map.2 fun numbers member => ?_⟩
    exact (printable numbers member).numberList.inline.single
  have raws : rawLines text.toList = lists.map printed := by
    rcases List.eq_nil_or_concat lists with rfl | ⟨before, last, rfl⟩
    next => rw [whole]; rfl
    next =>
      have ends := printable last (by simp)
      rw [List.concat_eq_append, List.map_append] at terminated ⊢
      have trimmed := ends.trimEnd_eq []
      rw [List.nil_append] at trimmed
      rw [terminated.rawLines_eq ends.not_blank, trimmed]
      rfl
  rw [lines_eq_numbered, map_text_numbered, raws, List.map_map]
  refine List.map_congr_left fun numbers member => ?_
  exact (printable numbers member).numberList.inline.dropReturns_eq

end Config

end BroadcastAudit
