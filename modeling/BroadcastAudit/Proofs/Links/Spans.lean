import BroadcastAudit.Proofs.Links.Readers
import BroadcastAudit.Proofs.Text.Bytes

set_option autoImplicit false

namespace BroadcastAudit.LogFile

variable (log : LogFile)

theorem parse_eq_error_iff_span (fault : Fault) :
    log.parse = .error fault ↔
      ∃ line, log.FirstMalformed line ∧ fault = .notAnEvent ⟨log.name, line.number⟩ line.span := by
  rw [parse_eq_error_iff]
  exact exists_congr fun line => and_congr_right fun _ => eq_comm

theorem readSent_eq_error_iff_span (fault : Fault) :
    log.readSent = .error fault ↔
      ∃ line, log.StopsAt log.SenderFlaw line fault ∧
        fault = .notABroadcast ⟨log.name, line.number⟩ line.span := by
  rw [readSent_eq_error_iff]
  refine exists_congr fun line => (and_iff_left_of_imp ?_).symm
  rintro ⟨past, -, -, flaw⟩
  cases flaw
  rfl

theorem readDelivered_eq_error_iff_span (place : Place) (span : Text.Span) :
    log.readDelivered = .error (.notADelivery place span) ↔
      ∃ line, log.StopsAt log.ReceiverFlaw line (.notADelivery place span) ∧
        place = ⟨log.name, line.number⟩ ∧ span = line.span := by
  rw [readDelivered_eq_error_iff]
  refine exists_congr fun line => (and_iff_left_of_imp ?_).symm
  rintro ⟨past, -, -, flaw⟩
  cases flaw
  exact ⟨rfl, rfl⟩

/-- The lines of a log are found in its bytes where they say, and a line that the parser or a reader
refuses is reported with its number and its span. -/
theorem refused_lines_at_bytes :
    Text.LinesOf log.text log.lines ∧
      (∀ fault, log.parse = .error fault ↔
        ∃ line, log.FirstMalformed line ∧
          fault = .notAnEvent ⟨log.name, line.number⟩ line.span) ∧
      (∀ fault, log.readSent = .error fault ↔
        ∃ line, log.StopsAt log.SenderFlaw line fault ∧
          fault = .notABroadcast ⟨log.name, line.number⟩ line.span) ∧
      ∀ place span, log.readDelivered = .error (.notADelivery place span) ↔
        ∃ line, log.StopsAt log.ReceiverFlaw line (.notADelivery place span) ∧
          place = ⟨log.name, line.number⟩ ∧ span = line.span :=
  ⟨Text.linesOf_lines log.text, log.parse_eq_error_iff_span, log.readSent_eq_error_iff_span,
    log.readDelivered_eq_error_iff_span⟩

end BroadcastAudit.LogFile
