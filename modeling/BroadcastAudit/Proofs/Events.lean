import BroadcastAudit.Proofs.Text.Lines
import BroadcastAudit.Proofs.Text.Numerals

set_option autoImplicit false

namespace BroadcastAudit

open Text

def Inline (text : List Char) : Prop :=
  ∀ c ∈ text, c ≠ '\n' ∧ c ≠ '\r'

theorem inline_append_iff (before after : List Char) :
    Inline (before ++ after) ↔ Inline before ∧ Inline after :=
  List.forall_mem_append

theorem Inline.single {text : List Char} (inline : Inline text) : '\n' ∉ text :=
  fun member => (inline _ member).1 rfl

theorem Inline.dropReturns_eq {text : List Char} (inline : Inline text) : dropReturns text = text :=
  dropReturns_of_not_mem fun member => (inline _ member).2 rfl

theorem Inline.of_spaces {text : List Char} (spaces : Spaces text) : Inline text := by
  intro c member
  have separator := spaces c member
  constructor <;> rintro rfl <;> cases separator

theorem Numeral.Denotes.inline {digits : List Char} {n : Nat} (denotes : Denotes digits n) :
    Inline digits := by
  intro c member
  have digit := denotes.isDigit c member
  constructor <;> rintro rfl <;> cases digit

theorem Numeral.Denotes.trimEnd_append {digits : List Char} {n : Nat} (denotes : Denotes digits n)
    (before : List Char) : trimEnd (before ++ digits) = before ++ digits := by
  have last := denotes.isDigit _ (List.getLast_mem denotes.nonempty)
  rw [← List.dropLast_append_getLast denotes.nonempty, ← List.append_assoc]
  exact trimEnd_append_singleton_of_not_blank _ (isBlank_of_isDigit last)

namespace Event

variable {event : Event} {words : List Char}

theorem isWord_letter {letter : Char} (solid : isFieldSeparator letter = false) :
    IsWord [letter] where
  nonempty := List.cons_ne_nil letter []
  solid := by simpa using solid

theorem read?_of_spelled {lead trail : List Char} (before : Spaces lead)
    (spelled : event.Spelled words) (after : Spaces trail) :
    read? (lead ++ (words ++ trail)) = some event := by
  cases spelled with
  | broadcast seq gap digits nonempty spaces denotes =>
    have letter : IsWord ['b'] := isWord_letter rfl
    have split : fields (lead ++ ('b' :: (gap ++ digits) ++ trail)) = [['b'], digits] := by
      rw [fields_spaces_append before, List.cons_append, List.append_assoc,
        ← List.singleton_append, fields_word_gap letter nonempty spaces,
        fields_word_append denotes.isWord after.bounded, fields_spaces after]
    have seqRead := (Numeral.read?_eq_some_iff_denotes ..).2 denotes
    rw [read?, split]
    simp [seqRead]
  | deliver message gap senderDigits between seqDigits nonempty spaces sender betweenNonempty
      betweenSpaces seq =>
    have letter : IsWord ['d'] := isWord_letter rfl
    have split : fields (lead ++ ('d' :: (gap ++ (senderDigits ++ (between ++ seqDigits))) ++
        trail)) = [['d'], senderDigits, seqDigits] := by
      rw [fields_spaces_append before, List.cons_append, List.append_assoc, List.append_assoc,
        List.append_assoc, ← List.singleton_append, fields_word_gap letter nonempty spaces,
        fields_word_gap sender.isWord betweenNonempty betweenSpaces,
        fields_word_append seq.isWord after.bounded, fields_spaces after]
    have senderRead := (Numeral.read?_eq_some_iff_denotes ..).2 sender
    have seqRead := (Numeral.read?_eq_some_iff_denotes ..).2 seq
    have process := (ProcessId.ofNat?_eq_some_iff message.sender.val message.sender).2 rfl
    rw [read?, split]
    simp [senderRead, seqRead, process]

theorem spelled_of_read? {line : List Char} (read : read? line = some event) :
    ∃ lead words trail, line = lead ++ (words ++ trail) ∧ Spaces lead ∧ event.Spelled words ∧
      Spaces trail := by
  unfold read? at read
  split at read
  next digits split =>
    obtain ⟨seq, seqRead, rfl⟩ := Option.map_eq_some_iff.1 read
    obtain ⟨lead, rest, rfl, before, -, bounded, split⟩ := (fields_eq_cons_iff ..).1 split
    obtain ⟨gap, trail, rfl, nonempty, spaces, -, -, none⟩ := exists_gap bounded split
    have denotes := (Numeral.read?_eq_some_iff_denotes ..).1 seqRead
    exact ⟨lead, _, trail, by simp, before, .broadcast seq gap digits nonempty spaces denotes,
      (fields_eq_nil_iff trail).1 none⟩
  next senderDigits seqDigits split =>
    simp only [bind, Option.bind_eq_some_iff, pure, Option.some.injEq] at read
    obtain ⟨sender, ⟨_, senderRead, process⟩, seq, seqRead, rfl⟩ := read
    obtain rfl := (ProcessId.ofNat?_eq_some_iff ..).1 process
    obtain ⟨lead, rest, rfl, before, -, bounded, split⟩ := (fields_eq_cons_iff ..).1 split
    obtain ⟨gap, rest, rfl, nonempty, spaces, -, bounded, split⟩ := exists_gap bounded split
    obtain ⟨between, trail, rfl, betweenNonempty, betweenSpaces, -, -, none⟩ :=
      exists_gap bounded split
    have senderDenotes := (Numeral.read?_eq_some_iff_denotes ..).1 senderRead
    have seqDenotes := (Numeral.read?_eq_some_iff_denotes ..).1 seqRead
    exact ⟨lead, _, trail, by simp, before,
      .deliver ⟨sender, seq⟩ gap senderDigits between seqDigits nonempty spaces senderDenotes
        betweenNonempty betweenSpaces seqDenotes,
      (fields_eq_nil_iff trail).1 none⟩
  next => cases read

theorem read?_eq_some_iff_spelled (line : List Char) (event : Event) :
    read? line = some event ↔
      ∃ lead words trail, line = lead ++ (words ++ trail) ∧ Spaces lead ∧ event.Spelled words ∧
        Spaces trail := by
  constructor
  next => exact spelled_of_read?
  next =>
    rintro ⟨lead, words, trail, rfl, before, spelled, after⟩
    exact read?_of_spelled before spelled after

theorem Spelled.inline (spelled : event.Spelled words) : Inline words := by
  cases spelled with
  | broadcast seq gap digits nonempty spaces denotes =>
    refine List.forall_mem_cons.2 ⟨by decide, ?_⟩
    exact (inline_append_iff ..).2 ⟨.of_spaces spaces, denotes.inline⟩
  | deliver message gap senderDigits between seqDigits nonempty spaces sender betweenNonempty
      betweenSpaces seq =>
    refine List.forall_mem_cons.2 ⟨by decide, ?_⟩
    have last := (inline_append_iff ..).2 ⟨.of_spaces betweenSpaces, seq.inline⟩
    have middle := (inline_append_iff ..).2 ⟨sender.inline, last⟩
    exact (inline_append_iff ..).2 ⟨.of_spaces spaces, middle⟩

theorem Spelled.ends_with_digits (spelled : event.Spelled words) :
    ∃ before digits n, words = before ++ digits ∧ Numeral.Denotes digits n := by
  cases spelled with
  | broadcast seq gap digits nonempty spaces denotes =>
    exact ⟨'b' :: gap, digits, seq, rfl, denotes⟩
  | deliver message gap senderDigits between seqDigits nonempty spaces sender betweenNonempty
      betweenSpaces seq =>
    exact ⟨'d' :: (gap ++ (senderDigits ++ between)), seqDigits, message.seq, by simp, seq⟩

theorem Spelled.representable (spelled : event.Spelled words) : event.Representable := by
  cases spelled with
  | broadcast seq gap digits nonempty spaces denotes => exact denotes.2.2
  | deliver message gap senderDigits between seqDigits nonempty spaces sender betweenNonempty
      betweenSpaces seq => exact ⟨sender.2.2, seq.2.2⟩

theorem Spelled.trimEnd_eq (spelled : event.Spelled words) (lead : List Char) :
    trimEnd (lead ++ words) = lead ++ words := by
  obtain ⟨before, digits, n, rfl, denotes⟩ := spelled.ends_with_digits
  rw [← List.append_assoc, denotes.trimEnd_append]

theorem Spelled.trimEnd_append (spelled : event.Spelled words) (lead : List Char)
    {blank : List Char} (h : Blank blank) : trimEnd (lead ++ (words ++ blank)) = lead ++ words := by
  rw [← List.append_assoc, trimEnd_append_blank _ h, spelled.trimEnd_eq]

theorem Spelled.not_blank (spelled : event.Spelled words) (lead : List Char) :
    ¬ Blank (lead ++ words) := by
  rw [← trimEnd_eq_nil_iff, spelled.trimEnd_eq lead]
  obtain ⟨before, digits, n, rfl, denotes⟩ := spelled.ends_with_digits
  simp [denotes.nonempty]

theorem inline_of_read? {line : List Char} (read : read? line = some event) : Inline line := by
  obtain ⟨lead, words, trail, rfl, before, spelled, after⟩ := spelled_of_read? read
  exact (inline_append_iff ..).2 ⟨.of_spaces before,
    (inline_append_iff ..).2 ⟨spelled.inline, .of_spaces after⟩⟩

theorem not_blank_of_read? {line : List Char} (read : read? line = some event) : ¬ Blank line := by
  obtain ⟨lead, words, trail, rfl, -, spelled, -⟩ := spelled_of_read? read
  rw [← List.append_assoc]
  exact fun blank => spelled.not_blank lead (List.forall_mem_append.1 blank).1

theorem read?_trimEnd {line : List Char} (read : read? line = some event) :
    read? (trimEnd line) = some event := by
  obtain ⟨lead, words, trail, rfl, before, spelled, after⟩ := spelled_of_read? read
  have words := read?_of_spelled before spelled spaces_nil
  rw [spelled.trimEnd_append lead after.blank]
  rwa [List.append_nil] at words

end Event

def Text.Line.Tells (line : Line) (event : Event) : Prop :=
  ∃ lead words trail, line.text = lead ++ (words ++ trail) ∧ Spaces lead ∧
    event.Spelled words ∧ Spaces trail

theorem Text.Line.tells_iff (line : Line) (event : Event) :
    line.Tells event ↔ Event.read? line.text = some event :=
  (Event.read?_eq_some_iff_spelled line.text event).symm

instance (line : Line) (event : Event) : Decidable (line.Tells event) :=
  decidable_of_iff' _ (line.tells_iff event)

end BroadcastAudit
