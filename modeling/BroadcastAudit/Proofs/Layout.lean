import BroadcastAudit.LogFile
import BroadcastAudit.Proofs.Events
import BroadcastAudit.Proofs.Replays

set_option autoImplicit false

namespace BroadcastAudit

open Replays Text

def LineByLine (text : List Char) (events : List Event) : Prop :=
  List.Forall₂ (fun raw event => Event.read? (dropReturns raw) = some event) (rawLines text) events

theorem Layout.lineByLine {events : List Event} {text : List Char} (layout : Layout events text) :
    LineByLine text events := by
  induction layout with
  | blank text blank =>
    rw [LineByLine, (rawLines_eq_nil_iff text).2 blank]
    exact .nil
  | last event lead words blank before spelled after =>
    have inline : Inline (lead ++ words) :=
      (inline_append_iff ..).2 ⟨.of_spaces before, spelled.inline⟩
    have read := Event.read?_of_spelled before spelled spaces_nil
    rw [List.append_nil] at read
    rw [LineByLine, ← List.append_assoc, rawLines_append_blank _ after,
      rawLines_single inline.single (spelled.not_blank lead), spelled.trimEnd_eq]
    refine .cons ?_ .nil
    rw [inline.dropReturns_eq, read]
  | line event next events lead words trail returns rest before spelled after carriage layout ih =>
    have inline : Inline (lead ++ (words ++ trail)) :=
      (inline_append_iff ..).2 ⟨.of_spaces before,
        (inline_append_iff ..).2 ⟨spelled.inline, .of_spaces after⟩⟩
    have single : '\n' ∉ lead ++ (words ++ trail) ++ returns := by
      rw [List.mem_append, not_or]
      exact ⟨inline.single, fun member => absurd (carriage _ member) (by decide)⟩
    have more : ¬ Blank rest := by
      rw [← rawLines_eq_nil_iff]
      intro none
      rw [LineByLine, none] at ih
      cases ih
    have split : lead ++ (words ++ (trail ++ (returns ++ '\n' :: rest))) =
        lead ++ (words ++ trail) ++ returns ++ '\n' :: rest := by simp
    rw [LineByLine, split, rawLines_line single more]
    refine .cons ?_ ih
    rw [dropReturns_append_returns _ carriage, inline.dropReturns_eq]
    exact Event.read?_of_spelled before spelled after

theorem layout_of_lineByLine {events : List Event} {text : List Char}
    (read : LineByLine text events) : Layout events text := by
  induction events generalizing text with
  | nil =>
    rw [LineByLine, List.forall₂_nil_right_iff, rawLines_eq_nil_iff] at read
    exact .blank text read
  | cons event events ih =>
    obtain ⟨raw, raws, first, others, lines⟩ := List.forall₂_cons_right_iff.1 read
    obtain ⟨lead, words, trail, line, before, spelled, after⟩ := Event.spelled_of_read? first
    obtain ⟨returns, carriage, whole⟩ := exists_returns raw
    rw [line, List.append_assoc, List.append_assoc] at whole
    obtain ⟨-, ⟨rfl, trimmed, blank, tail, rfl⟩ | ⟨rest, rfl, more, rfl⟩⟩ := rawLines_eq_cons lines
    next =>
      cases others
      have cut : Blank (trail ++ returns) :=
        List.forall_mem_append.2 ⟨after.blank, blank_of_returns carriage⟩
      rw [← whole, spelled.trimEnd_append lead cut] at trimmed
      rw [← whole, ← trimmed, List.append_assoc]
      exact .last event lead words blank before spelled tail
    next =>
      cases events with
      | nil =>
        rw [List.forall₂_nil_right_iff, rawLines_eq_nil_iff] at others
        exact absurd others more
      | cons next events =>
        have split : raw ++ '\n' :: rest =
            lead ++ (words ++ (trail ++ (returns ++ '\n' :: rest))) := by
          rw [← whole]
          simp
        rw [split]
        exact .line event next events lead words trail returns rest before spelled after carriage
          (ih others)

theorem layout_iff_lineByLine (events : List Event) (text : List Char) :
    Layout events text ↔ LineByLine text events :=
  ⟨Layout.lineByLine, layout_of_lineByLine⟩

namespace LogFile

theorem parse_eq_ok_iff_lineByLine (name text : String) (entries : List LogEntry) :
    parse ⟨name, text⟩ = .ok entries ↔
      entries.map (·.line) = List.range' 1 entries.length ∧
        LineByLine text.toList (entries.map (·.event)) := by
  have numbers : (lines ⟨name, text⟩).map Text.Line.number =
      List.range' 1 (rawLines text.toList).length := by
    rw [lines, lines_eq_numbered, map_number_numbered]
    rfl
  have texts : (lines ⟨name, text⟩).map Text.Line.text =
      (rawLines text.toList).map dropReturns := by
    rw [lines, lines_eq_numbered, map_text_numbered]
  have read : parse ⟨name, text⟩ = .ok entries ↔
      (lines ⟨name, text⟩).map Text.Line.number = entries.map (·.line) ∧
        List.Forall₂ (fun raw event => Event.read? raw = some event)
          ((lines ⟨name, text⟩).map Text.Line.text) (entries.map (·.event)) := by
    simp only [parse, mapM_eq_ok_iff, readLine_eq_ok_iff, forall₂_and_iff,
      ← List.forall₂_eq_eq_eq, List.forall₂_map_left_iff, List.forall₂_map_right_iff]
  rw [read, numbers, texts, List.forall₂_map_left_iff, eq_comm]
  refine and_congr_left fun lineByLine => ?_
  rw [lineByLine.length_eq, List.length_map]

theorem toList_ofEvents (name : String) (events : List Event) :
    (ofEvents name events).text.toList =
      events.flatMap fun event => event.text.toList ++ ['\n'] := by
  simp [ofEvents, String.toList_join, List.flatMap_map]

end LogFile

theorem Event.toList_text (event : Event) :
    event.text.toList =
      match event with
      | .broadcast seq => 'b' :: ' ' :: (toString seq).toList
      | .deliver message =>
        'd' :: ' ' ::
          ((toString message.sender.val).toList ++ ' ' :: (toString message.seq).toList) := by
  cases event with
  | broadcast seq =>
    have words : (broadcast seq).text = "b " ++ toString seq := rfl
    rw [words, String.toList_append]
    rfl
  | deliver message =>
    have words : (deliver message).text =
        "d " ++ (toString message.sender.val ++ (" " ++ toString message.seq)) := by
      rw [← String.append_assoc, ← String.append_assoc]
      rfl
    rw [words, String.toList_append, String.toList_append, String.toList_append]
    rfl

theorem Event.spelled_text {event : Event} (representable : event.Representable) :
    event.Spelled event.text.toList := by
  have space : Spaces [' '] := by decide
  have nonempty : [' '] ≠ [] := List.cons_ne_nil ' ' []
  rw [toList_text]
  cases event with
  | broadcast seq =>
    have seqDenotes := Numeral.denotes_toString representable
    exact .broadcast seq [' '] _ nonempty space seqDenotes
  | deliver message =>
    have senderDenotes := Numeral.denotes_toString representable.1
    have seqDenotes := Numeral.denotes_toString representable.2
    exact .deliver message [' '] _ [' '] _ nonempty space senderDenotes nonempty space seqDenotes

theorem layout_ofEvents (name : String) {events : List Event}
    (representable : ∀ event ∈ events, event.Representable) :
    Layout events (LogFile.ofEvents name events).text.toList := by
  rw [LogFile.toList_ofEvents]
  induction events with
  | nil => exact .blank [] (by decide)
  | cons event events ih =>
    have spelled := Event.spelled_text (representable event List.mem_cons_self)
    have others := ih fun other member => representable other (List.mem_cons_of_mem event member)
    cases events with
    | nil =>
      have last := Layout.last event [] event.text.toList ['\n'] spaces_nil spelled (by decide)
      simpa using last
    | cons next events =>
      have line := Layout.line event next events [] event.text.toList [] [] _ spaces_nil spelled
        spaces_nil (by simp) others
      simpa using line

theorem exists_numbered (events : List Event) :
    ∃ entries : List LogEntry, entries.map (·.line) = List.range' 1 entries.length ∧
      entries.map (·.event) = events := by
  refine ⟨(events.zipIdx 1).map fun (event, line) => ⟨line, event⟩, ?_, ?_⟩
  next => simp [Function.comp_def]
  next => simp [Function.comp_def]

theorem Layout.representable {events : List Event} {text : List Char}
    (layout : Layout events text) : ∀ event ∈ events, event.Representable := by
  induction layout with
  | blank => simp
  | last event lead words blank before spelled after => simpa using spelled.representable
  | line event next events lead words trail returns rest before spelled after carriage layout ih =>
    exact List.forall_mem_cons.2 ⟨spelled.representable, ih⟩

/-- A log is read as the events that its text is a layout of, numbered from 1. The log that lists
events is read as these events unless one of their numbers is too large for a numeral. -/
theorem parse_eq_ok_iff_layout (name : String) :
    (∀ text entries, LogFile.parse ⟨name, text⟩ = .ok entries ↔
        entries.map (·.line) = List.range' 1 entries.length ∧
          Layout (entries.map (·.event)) text.toList) ∧
      ∀ events,
        (∃ entries, (LogFile.ofEvents name events).parse = .ok entries ∧
            entries.map (·.event) = events) ↔
          ∀ event ∈ events, event.Representable := by
  have format (text : String) (entries : List LogEntry) :
      LogFile.parse ⟨name, text⟩ = .ok entries ↔
        entries.map (·.line) = List.range' 1 entries.length ∧
          Layout (entries.map (·.event)) text.toList := by
    rw [LogFile.parse_eq_ok_iff_lineByLine, layout_iff_lineByLine]
  refine ⟨format, fun events => ⟨?_, fun representable => ?_⟩⟩
  next =>
    rintro ⟨entries, parsed, rfl⟩
    exact ((format _ entries).1 parsed).2.representable
  next =>
    obtain ⟨entries, lines, same⟩ := exists_numbered events
    refine ⟨entries, (format _ entries).2 ⟨lines, ?_⟩, same⟩
    rw [same]
    exact layout_ofEvents name representable

example : LogFile.parse ⟨"1.output", "\tb  007 \r\r\nd 1 2\n \n"⟩ =
    .ok [⟨1, .broadcast 7⟩, ⟨2, .deliver ⟨.ofIndex 0, 2⟩⟩] := by
  decide +kernel

end BroadcastAudit
