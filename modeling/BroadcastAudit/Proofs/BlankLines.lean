import BroadcastAudit.Config.Hosts
import BroadcastAudit.Config.Links
import BroadcastAudit.Proofs.Config.Rows
import BroadcastAudit.Proofs.Events
import BroadcastAudit.Proofs.Links.Logs

set_option autoImplicit false

namespace BroadcastAudit

open Replays Text

def InteriorBlank (text : String) : Prop :=
  ∃ before line after, pieces (· == '\n') text.toList = before ++ line :: after ∧ Blank line ∧
    ∃ later ∈ after, ¬ Blank later

namespace Text

theorem not_blank_of_mem_pieces {text piece : List Char} (member : piece ∈ pieces (· == '\n') text)
    (solid : ¬ Blank piece) : ¬ Blank text :=
  fun blank => solid fun c inside => blank c (mem_of_mem_pieces _ _ piece member c inside)

theorem mem_rawLines_of_split {text line : List Char} {before after : List (List Char)}
    (split : pieces (· == '\n') text = before ++ line :: after)
    (more : ∃ later ∈ after, ¬ Blank later) : line ∈ rawLines text := by
  obtain ⟨later, member, solid⟩ := more
  induction before generalizing text with
  | nil =>
    obtain ⟨single, ⟨-, rfl⟩ | ⟨tail, rfl, rest⟩⟩ := pieces_eq_cons split
    next => cases member
    next =>
      have tailSolid := not_blank_of_mem_pieces (rest ▸ member) solid
      rw [rawLines_line single tailSolid]
      exact List.mem_cons_self
  | cons first before ih =>
    obtain ⟨single, ⟨-, none⟩ | ⟨tail, rfl, rest⟩⟩ := pieces_eq_cons split
    next => simp at none
    next =>
      have inside : later ∈ pieces (· == '\n') tail := by
        rw [rest]
        exact List.mem_append_right _ (List.mem_cons_of_mem line member)
      rw [rawLines_line single (not_blank_of_mem_pieces inside solid)]
      exact List.mem_cons_of_mem first (ih rest)

theorem blank_dropReturns {raw : List Char} (blank : Blank raw) : Blank (dropReturns raw) := by
  obtain ⟨returns, -, whole⟩ := exists_returns raw
  rw [← whole] at blank
  exact (List.forall_mem_append.1 blank).1

theorem not_blank_of_numeral {line field : List Char} {n : Nat} (member : field ∈ fields line)
    (read : Numeral.read? field = some n) : ¬ Blank line := by
  intro blank
  have denotes := (Numeral.read?_eq_some_iff_denotes field n).1 read
  obtain ⟨c, inside⟩ := List.exists_mem_of_ne_nil field denotes.nonempty
  have solid := Numeral.isBlank_of_isDigit (denotes.isDigit c inside)
  rw [blank c (mem_of_mem_fields member c inside)] at solid
  cases solid

end Text

theorem InteriorBlank.exists_line {text : String} (interior : InteriorBlank text) :
    ∃ line ∈ Text.lines text, Blank line.text := by
  obtain ⟨before, line, after, split, blank, more⟩ := interior
  have member : dropReturns line ∈ (Text.lines text).map Line.text := by
    rw [lines_eq_numbered, map_text_numbered]
    exact List.mem_map_of_mem (mem_rawLines_of_split split more)
  obtain ⟨read, inside, same⟩ := List.mem_map.1 member
  exact ⟨read, inside, same ▸ blank_dropReturns blank⟩

theorem InteriorBlank.refused {α : Type} {text : String} (interior : InteriorBlank text)
    {read : Except Fault α}
    (solid : ∀ result, read = .ok result → ∀ line ∈ Text.lines text, ¬ Blank line.text) :
    ∃ fault, read = .error fault := by
  obtain ⟨line, member, blank⟩ := interior.exists_line
  cases found : read with
  | error fault => exact ⟨fault, rfl⟩
  | ok result => exact absurd blank (solid result found line member)

theorem Config.not_blank_of_numbers? {line : Text.Line} {numbers : List Nat}
    (read : numbers? line = some numbers) : ¬ Blank line.text := by
  obtain ⟨nonempty, numerals⟩ := (numbers?_eq_some_iff line numbers).1 read
  obtain ⟨first, rest, rfl⟩ := List.exists_cons_of_ne_nil nonempty
  obtain ⟨field, fields, numeral, -, split⟩ := List.forall₂_cons_right_iff.1 numerals
  exact not_blank_of_numeral (split ▸ List.mem_cons_self) numeral

theorem Hosts.not_blank_of_readId? {line : List Char} {id : ProcessId}
    (read : readId? line = some id) : ¬ Blank line := by
  obtain ⟨field, first, numeral⟩ := Option.bind_eq_some_iff.1 read
  obtain ⟨n, value, -⟩ := Option.bind_eq_some_iff.1 numeral
  exact not_blank_of_numeral (List.mem_of_mem_head? first) value

section Readers

variable {file text : String}

theorem LogFile.not_blank_of_parse {entries : List LogEntry}
    (parsed : LogFile.parse ⟨file, text⟩ = .ok entries) :
    ∀ line ∈ Text.lines text, ¬ Blank line.text := by
  intro line member
  obtain ⟨entry, read⟩ := (exists_mapM_eq_ok_iff ..).1 ⟨entries, parsed⟩ line member
  exact Event.not_blank_of_read? ((LogFile.readLine_eq_ok_iff ..).1 read).2

theorem LogFile.not_blank_of_readSent {sent : Std.ExtTreeSet Nat}
    (parsed : LogFile.readSent ⟨file, text⟩ = .ok sent) :
    ∀ line ∈ Text.lines text, ¬ Blank line.text := by
  intro line member
  obtain ⟨seq, tells⟩ := ((readSent_eq_ok_iff ..).1 parsed).1 line member
  exact Event.not_blank_of_read? ((line.tells_iff _).1 tells)

theorem LogFile.not_blank_of_readDelivered {delivered : MessageSets}
    (parsed : LogFile.readDelivered ⟨file, text⟩ = .ok delivered) :
    ∀ line ∈ Text.lines text, ¬ Blank line.text := by
  intro line member
  obtain ⟨message, tells⟩ := ((readDelivered_eq_ok_iff ..).1 parsed).1.delivery line member
  exact Event.not_blank_of_read? ((line.tells_iff _).1 tells)

theorem Dependencies.not_blank_of_parse {config : Dependencies}
    (parsed : Dependencies.parse file text = .ok config) :
    ∀ line ∈ Text.lines text, ¬ Blank line.text := by
  obtain ⟨header, rows, count, numbers, _, split, counted, read, -⟩ :=
    (parse_eq_ok_iff file text config).1 parsed
  rw [split, List.forall_mem_cons]
  constructor
  next =>
    unfold readMessageCount at counted
    split at counted
    next found => exact Config.not_blank_of_numbers? found
    next => cases counted
  next =>
    intro line member
    obtain ⟨row, found⟩ :=
      (exists_mapM_eq_ok_iff ..).1 ⟨numbers, (mapM_eq_ok_iff ..).2 read⟩ line member
    exact Config.not_blank_of_numbers? ((readRow_eq_ok_iff file line row).1 found).2.2

theorem Hosts.not_blank_of_parse {hosts : Hosts} (parsed : Hosts.parse file text = .ok hosts) :
    ∀ line ∈ Text.lines text, ¬ Blank line.text := by
  intro line member
  obtain ⟨before, after, added⟩ := exists_step_of_foldlM_eq_ok parsed line member
  unfold add at added
  split at added
  next => cases added
  next id read => exact not_blank_of_readId? read

end Readers

theorem LinksConfig.parse_eq_ok_iff (file text : String) (config : LinksConfig) :
    LinksConfig.parse file text = .ok config ↔
      ∃ header rest, Text.lines text = header :: rest ∧
        Config.numbers? header = some [config.messageCount, config.receiver.val] := by
  unfold LinksConfig.parse
  cases Text.lines text with
  | nil => simp
  | cons header rest =>
    simp only [List.cons.injEq, exists_eq_left', ↓existsAndEq, and_true]
    constructor
    next =>
      intro read
      split at read
      next count id numbers =>
        split at read
        next receiver positive =>
          cases read
          rw [numbers, (ProcessId.ofNat?_eq_some_iff id receiver).1 positive]
        next => cases read
      next => cases read
    next =>
      intro numbers
      have positive := (ProcessId.ofNat?_eq_some_iff config.receiver.val config.receiver).2 rfl
      simp only [numbers, positive]

/-- A blank line before the last one that is not blank makes the readers fail. Only that of links
configurations does not see it: the first line settles what it returns. -/
theorem interior_blank_refused {text : String} (interior : InteriorBlank text) (file : String) :
    (∃ fault, LogFile.parse ⟨file, text⟩ = .error fault) ∧
      (∃ fault, LogFile.readSent ⟨file, text⟩ = .error fault) ∧
      (∃ fault, LogFile.readDelivered ⟨file, text⟩ = .error fault) ∧
      (∃ fault, Dependencies.parse file text = .error fault) ∧
      (∃ fault, Hosts.parse file text = .error fault) ∧
      ∀ config, LinksConfig.parse file text = .ok config ↔
        ∃ header rest, Text.lines text = header :: rest ∧
          Config.numbers? header = some [config.messageCount, config.receiver.val] :=
  ⟨interior.refused fun _ => LogFile.not_blank_of_parse,
    interior.refused fun _ => LogFile.not_blank_of_readSent,
    interior.refused fun _ => LogFile.not_blank_of_readDelivered,
    interior.refused fun _ => Dependencies.not_blank_of_parse,
    interior.refused fun _ => Hosts.not_blank_of_parse,
    LinksConfig.parse_eq_ok_iff file text⟩

theorem interior_blank_refused_log :
    InteriorBlank "b 1\n \nb 2\n" ∧
      ∃ fault, LogFile.parse ⟨"1.output", "b 1\n \nb 2\n"⟩ = .error fault := by
  have interior : InteriorBlank "b 1\n \nb 2\n" :=
    ⟨["b 1".toList], " ".toList, ["b 2".toList, []], by decide, by decide, "b 2".toList, by decide,
      by decide⟩
  exact ⟨interior, (interior_blank_refused interior "1.output").1⟩

theorem links_configuration_with_interior_blank :
    InteriorBlank "1 1\n\n2\n" ∧
      LinksConfig.parse "config" "1 1\n\n2\n" = .ok ⟨1, .ofIndex 0⟩ := by
  constructor
  next =>
    exact ⟨["1 1".toList], [], ["2".toList, []], by decide, by decide, "2".toList, by decide,
      by decide⟩
  next => decide +kernel

end BroadcastAudit
