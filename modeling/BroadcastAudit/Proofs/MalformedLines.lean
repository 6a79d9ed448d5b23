import BroadcastAudit.LogFile
import BroadcastAudit.Proofs.Events
import BroadcastAudit.Proofs.Replays

set_option autoImplicit false

namespace BroadcastAudit

open Replays

def Text.Line.Malformed (line : Line) : Prop :=
  ¬ ∃ event, line.Tells event

theorem Text.Line.malformed_iff (line : Line) : line.Malformed ↔ Event.read? line.text = none := by
  simp only [Malformed, tells_iff, ← Option.isSome_iff_exists, Option.not_isSome_iff_eq_none]

namespace LogFile

variable (log : LogFile)

def FirstMalformed (line : Text.Line) : Prop :=
  line.Malformed ∧ ∃ before after, log.lines = before ++ line :: after ∧
    ∀ earlier ∈ before, ¬ earlier.Malformed

theorem readLine_eq_error_iff (line : Text.Line) (fault : Fault) :
    log.readLine line = .error fault ↔
      line.Malformed ∧ .notAnEvent (log.place line) line.span = fault := by
  rw [Text.Line.malformed_iff, readLine]
  cases Event.read? line.text <;> simp

theorem exists_readLine_iff (line : Text.Line) :
    (∃ entry, log.readLine line = .ok entry) ↔ ¬ line.Malformed := by
  rw [Text.Line.malformed_iff, readLine]
  cases Event.read? line.text <;> simp

theorem parse_eq_error_iff (fault : Fault) :
    log.parse = .error fault ↔
      ∃ line, log.FirstMalformed line ∧ .notAnEvent (log.place line) line.span = fault := by
  simp only [parse, mapM_eq_error_iff, readLine_eq_error_iff, exists_readLine_iff, FirstMalformed]
  constructor
  next =>
    rintro ⟨before, line, after, split, ⟨malformed, same⟩, earlier⟩
    exact ⟨line, ⟨malformed, before, after, split, earlier⟩, same⟩
  next =>
    rintro ⟨line, ⟨malformed, before, after, split, earlier⟩, same⟩
    exact ⟨before, line, after, split, ⟨malformed, same⟩, earlier⟩

theorem exists_parse_iff :
    (∃ entries, log.parse = .ok entries) ↔ ∀ line ∈ log.lines, ¬ line.Malformed := by
  simp only [parse, exists_mapM_eq_ok_iff, exists_readLine_iff]

end LogFile

end BroadcastAudit
