import BroadcastAudit.Proofs.Text.Lines

set_option autoImplicit false

namespace BroadcastAudit.Text

def EndsLine (text : String) : Prop :=
  ∃ before, text = before ++ "\n"

theorem EndsLine.append (before : String) {text : String} (ends : EndsLine text) :
    EndsLine (before ++ text) := by
  obtain ⟨start, rfl⟩ := ends
  exact ⟨before ++ start, (String.append_assoc ..).symm⟩

theorem EndsLine.ne_empty {text : String} (ends : EndsLine text) : text ≠ "" := by
  rintro rfl
  obtain ⟨before, same⟩ := ends
  simpa using congrArg String.toList same

def lastLine? (text : String) : Option String :=
  (pieces (· == '\n') text.toList).dropLast.getLast?.map String.ofList

theorem lastLine?_of_endsLine {before : String} (ends : EndsLine before) (line : String)
    (single : '\n' ∉ line.toList) : lastLine? (before ++ line ++ "\n") = some line := by
  obtain ⟨start, rfl⟩ := ends
  have chars : (start ++ "\n" ++ line ++ "\n").toList =
      start.toList ++ '\n' :: (line.toList ++ '\n' :: []) := by simp
  rw [lastLine?, chars, pieces_append_separator _ _ _ _ rfl, pieces_line single, pieces_nil]
  simp

end BroadcastAudit.Text
