import BroadcastAudit.LogFile
import BroadcastAudit.Proofs.Events
import BroadcastAudit.Proofs.Replays

set_option autoImplicit false

namespace BroadcastAudit

open Replays Text

namespace Text

structure Terminated (text : String) (raws : List (List Char)) : Prop where
  toList_eq : text.toList = raws.flatMap (· ++ ['\n'])
  single : ∀ raw ∈ raws, '\n' ∉ raw

-- The blank characters at the end of the line are spaces and tabs, and carriage returns after them.
def PlainEnd (raw : List Char) : Prop :=
  ∃ spaces returns, raw = trimEnd raw ++ (spaces ++ returns) ∧ Spaces spaces ∧
    ∀ c ∈ returns, c = '\r'

theorem Terminated.append {text line : String} {raws : List (List Char)}
    (terminated : Terminated text raws) (single : '\n' ∉ line.toList) :
    Terminated (text ++ line ++ "\n") (raws ++ [line.toList]) where
  toList_eq := by simp [terminated.toList_eq]
  single := List.forall_mem_append.2 ⟨terminated.single, List.forall_mem_singleton.2 single⟩

theorem Terminated.rawLines_eq {text : String} {before : List (List Char)} {last : List Char}
    (terminated : Terminated text (before ++ [last])) (solid : ¬ Blank last) :
    rawLines text.toList = before ++ [trimEnd last] := by
  obtain ⟨singles, single⟩ := List.forall_mem_append.1 terminated.single
  have more : ¬ Blank (last ++ ['\n']) := fun blank => solid (List.forall_mem_append.1 blank).1
  rw [terminated.toList_eq, List.flatMap_append, List.flatMap_singleton,
    rawLines_flatMap_append singles more, rawLines_append_blank last (by decide),
    rawLines_single (single last List.mem_cons_self) solid]

def offsetAfter (raws : List (List Char)) : Nat :=
  utf8Length (raws.flatMap (· ++ ['\n']))

theorem numbered_start_append_singleton (before : List (List Char)) (raw : List Char) :
    numbered .start (before ++ [raw]) =
      numbered .start before ++ [⟨before.length + 1, offsetAfter before, dropReturns raw⟩] := by
  rw [numbered_append, numbered_cons, numbered_nil, offsetAfter, Cursor.start, Nat.zero_add,
    Nat.add_comm 1]

section Terminated

variable {text : String} {before : List (List Char)} {last : List Char}

theorem Terminated.lines_eq (terminated : Terminated text (before ++ [last]))
    (solid : ¬ Blank last) :
    lines text =
      numbered .start before ++ [⟨before.length + 1, offsetAfter before, trimEnd last⟩] := by
  rw [lines_eq_numbered, terminated.rawLines_eq solid, numbered_start_append_singleton,
    dropReturns_trimEnd]

theorem Terminated.lines_append_line (terminated : Terminated text (before ++ [last]))
    {line : String} (single : '\n' ∉ line.toList) (solid : ¬ Blank line.toList) :
    lines (text ++ line ++ "\n") =
      numbered .start before ++
        [⟨before.length + 1, offsetAfter before, dropReturns last⟩,
          ⟨before.length + 2, offsetAfter (before ++ [last]), trimEnd line.toList⟩] := by
  rw [(terminated.append single).lines_eq solid, numbered_start_append_singleton,
    List.append_assoc, List.singleton_append, List.length_append, List.length_singleton]

end Terminated

end Text

namespace Event

variable {event : Event} {raw : List Char}

theorem read?_dropReturns_of_plainEnd (read : read? (trimEnd raw) = some event)
    (plain : PlainEnd raw) : read? (dropReturns raw) = some event := by
  obtain ⟨spaces, returns, whole, separators, carriage⟩ := plain
  obtain ⟨lead, words, trail, cut, before, spelled, after⟩ := spelled_of_read? read
  have kept := read?_of_spelled before spelled (List.forall_mem_append.2 ⟨after, separators⟩)
  have split : raw = lead ++ (words ++ (trail ++ spaces)) ++ returns := by
    rw [whole, cut]
    simp
  rw [split, dropReturns_append_returns _ carriage, (inline_of_read? kept).dropReturns_eq, kept]

theorem plainEnd_of_read? (read : read? (dropReturns raw) = some event) : PlainEnd raw := by
  obtain ⟨lead, words, trail, line, before, spelled, after⟩ := spelled_of_read? read
  obtain ⟨returns, carriage, whole⟩ := exists_returns raw
  rw [line, List.append_assoc, List.append_assoc] at whole
  have tail : Blank (trail ++ returns) :=
    List.forall_mem_append.2 ⟨after.blank, blank_of_returns carriage⟩
  refine ⟨trail, returns, ?_, after, carriage⟩
  rw [← whole, spelled.trimEnd_append lead tail, List.append_assoc]

end Event

namespace LogFile

variable {name text line : String} {before : List (List Char)} {last : List Char}
  {entries : List LogEntry} {event : Event}

theorem readLast_of_parse (terminated : Terminated text (before ++ [last])) (solid : ¬ Blank last)
    (parsed : parse ⟨name, text⟩ = .ok entries) :
    ∃ front event, (numbered .start before).mapM (readLine ⟨name, text⟩) = .ok front ∧
      Event.read? (trimEnd last) = some event ∧ entries = front ++ [⟨before.length + 1, event⟩] ∧
        entries.length = before.length + 1 := by
  rw [parse, lines, terminated.lines_eq solid] at parsed
  obtain ⟨front, back, others, one, rfl⟩ := (mapM_append_eq_ok_iff ..).1 parsed
  have length := ((mapM_eq_ok_iff ..).1 others).length_eq
  obtain ⟨⟨number, event⟩, _, head, none, rfl⟩ :=
    List.forall₂_cons_left_iff.1 ((mapM_eq_ok_iff ..).1 one)
  cases none
  obtain ⟨rfl, read⟩ := (readLine_eq_ok_iff ..).1 head
  rw [length_numbered] at length
  exact ⟨front, event, others, read, rfl, by simp [length]⟩

/-- A log of complete lines is read as before when a line is appended, and the new line after them,
unless its last line ends in blank characters that no line but the last one may end in. Then that
line is the one reported. -/
theorem parse_append_line (terminated : Terminated text (before ++ [last])) (solid : ¬ Blank last)
    (parsed : parse ⟨name, text⟩ = .ok entries) (read : Event.read? line.toList = some event) :
    (PlainEnd last →
        parse ⟨name, text ++ line ++ "\n"⟩ = .ok (entries ++ [⟨entries.length + 1, event⟩])) ∧
      (¬ PlainEnd last →
        parse ⟨name, text ++ line ++ "\n"⟩ =
          .error (.notAnEvent ⟨name, entries.length⟩
            ⟨offsetAfter before, utf8Length (dropReturns last)⟩)) := by
  obtain ⟨front, lastEvent, others, lastRead, rfl, length⟩ :=
    readLast_of_parse terminated solid parsed
  have single := (Event.inline_of_read? read).single
  have split := terminated.lines_append_line single (Event.not_blank_of_read? read)
  rw [parse, lines, split, length]
  constructor
  next =>
    intro plain
    have stillRead := Event.read?_dropReturns_of_plainEnd lastRead plain
    rw [List.append_assoc, List.singleton_append]
    refine (mapM_append_eq_ok_iff ..).2 ⟨front, _, others, (mapM_eq_ok_iff ..).2 ?_, rfl⟩
    refine .cons ?_ (.cons ?_ .nil)
    next => exact (readLine_eq_ok_iff ..).2 ⟨rfl, stillRead⟩
    next => exact (readLine_eq_ok_iff ..).2 ⟨rfl, Event.read?_trimEnd read⟩
  next =>
    intro notPlain
    have unread : Event.read? (dropReturns last) = none := by
      rw [Option.eq_none_iff_forall_ne_some]
      exact fun event found => notPlain (Event.plainEnd_of_read? found)
    refine (mapM_eq_error_iff ..).2 ⟨_, _, _, rfl, ?_, (exists_mapM_eq_ok_iff ..).1 ⟨front, others⟩⟩
    simp [readLine, unread, place, Text.Line.span]

theorem parse_append_line_spaces :
    Event.read? " b 2".toList = some (.broadcast 2) ∧
      LogFile.parse ⟨"1.output", "d 2 1\nb 1 \t\r\n" ++ " b 2" ++ "\n"⟩ =
        .ok [⟨1, .deliver ⟨.ofIndex 1, 1⟩⟩, ⟨2, .broadcast 1⟩, ⟨3, .broadcast 2⟩] := by
  have terminated : Terminated "d 2 1\nb 1 \t\r\n" (["d 2 1".toList] ++ ["b 1 \t\r".toList]) :=
    ⟨by decide, by decide⟩
  have plain : PlainEnd "b 1 \t\r".toList :=
    ⟨" \t".toList, ['\r'], by decide, by decide, by simp⟩
  have read : Event.read? " b 2".toList = some (.broadcast 2) := by decide +kernel
  have parsed : LogFile.parse ⟨"1.output", "d 2 1\nb 1 \t\r\n"⟩ =
      .ok [⟨1, .deliver ⟨.ofIndex 1, 1⟩⟩, ⟨2, .broadcast 1⟩] := by decide +kernel
  exact ⟨read, (parse_append_line terminated (by decide) parsed read).1 plain⟩

theorem line_lost_by_appending :
    Event.read? "b 2".toList = some (.broadcast 2) ∧
      LogFile.parse ⟨"1.output", "b 1\u00a0\n"⟩ = .ok [⟨1, .broadcast 1⟩] ∧
      LogFile.parse ⟨"1.output", "b 1\u00a0\n" ++ "b 2" ++ "\n"⟩ =
        .error (.notAnEvent ⟨"1.output", 1⟩ ⟨0, 5⟩) := by
  decide +kernel

end LogFile

end BroadcastAudit
