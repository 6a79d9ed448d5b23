import BroadcastAudit.Proofs.Config.Flaws
import BroadcastAudit.Proofs.Config.Printing
import BroadcastAudit.Proofs.Files.Enumeration

set_option autoImplicit false

namespace BroadcastAudit

open Replays Text Config

namespace Dependencies

section Accepted

variable {messageCount : Nat} {rows : List (List Nat)} {header : Line} {lines : List Line}

theorem written_iff (file : String) :
    Written messageCount rows header lines ↔
      readMessageCount file header = .ok messageCount ∧
        lines.zipIdx.mapM (checkLine file lines.length) = .ok rows := by
  simp only [readMessageCount_eq_ok_iff, mapM_eq_ok_iff, checkLine_eq_ok_iff, forall₂_zipIdx_iff]
  constructor
  next => exact fun written => ⟨written.header, written.size, written.rowOf⟩
  next => exact fun ⟨list, size, rowOf⟩ => ⟨list, size, rowOf⟩

theorem Written.isNumberList (written : Written messageCount rows header lines) :
    ∀ line ∈ lines, IsNumberList line.text := by
  intro line member
  obtain ⟨index, inside, rfl⟩ := List.getElem_of_mem member
  have within : index < rows.length := by rw [← written.size]; exact inside
  exact ⟨_, (written.rowOf index _ _ (List.getElem?_eq_getElem inside)
    (List.getElem?_eq_getElem within)).numbers⟩

theorem Written.inRun (written : Written messageCount rows header lines) :
    ∀ row ∈ rows, ∀ n ∈ row, InRun rows.length n := by
  intro row member
  obtain ⟨index, within, rfl⟩ := List.getElem_of_mem member
  have inside : index < lines.length := by rw [written.size]; exact within
  rw [← written.size]
  exact (written.rowOf index _ _ (List.getElem?_eq_getElem inside)
    (List.getElem?_eq_getElem within)).inRun

theorem parse_eq_ok_iff_ofNumbers (file text : String) (config : Dependencies) :
    parse file text = .ok config ↔
      ∃ header lines messageCount rows, Text.lines text = header :: lines ∧
        Written messageCount rows header lines ∧ ofNumbers messageCount rows = config := by
  cases split : Text.lines text with
  | nil => simp [parse, split]
  | cons header lines =>
    simp only [parse_eq_bind file split, bind_eq_ok_iff, pure, Except.pure, Except.ok.injEq]
    constructor
    next =>
      rintro ⟨count, counted, numbers, read, rows, checked, rfl⟩
      rw [mapM_checkRow_eq file read] at checked
      exact ⟨header, lines, count, rows, rfl, (written_iff file).2 ⟨counted, checked⟩, rfl⟩
    next =>
      rintro ⟨_, _, count, rows, same, written, rfl⟩
      cases same
      obtain ⟨counted, checked⟩ := (written_iff file).1 written
      obtain ⟨numbers, read⟩ := exists_mapM_readRow file written.isNumberList
      refine ⟨count, counted, numbers, read, rows, ?_, rfl⟩
      rw [mapM_checkRow_eq file read, checked]

end Accepted

section Recorded

variable {config other : Dependencies} {messageCount : Nat} {rows : List (List Nat)}

theorem sendersOf_eq_ok_iff (process : ProcessId) (senders : List ProcessId) :
    config.sendersOf process = .ok senders ↔ config.rows[process.index]? = some senders := by
  unfold sendersOf
  cases config.rows[process.index]? <;> simp

theorem ascending_of_mem_rows {row : List ProcessId} (member : row ∈ config.rows) :
    ProcessId.Ascending row :=
  (ProcessId.ascending_all _).sublist (config.row_sublist row member)

theorem records_of_senders (count : config.messageCount = messageCount)
    (size : config.processCount = rows.length)
    (listed : ∀ (process : ProcessId) (row : List Nat), rows[process.index]? = some row →
      ∃ senders, config.rows[process.index]? = some senders ∧
        ∀ sender, sender ∈ senders ↔ sender.val ∈ row) :
    config.Records messageCount rows where
  messageCount := count
  processCount := size
  depends process sender row found known := by
    obtain ⟨senders, there, same⟩ := listed process row found
    have answer := (sendersOf_eq_ok_iff process senders).2 there
    rw [← size] at known
    simp [depends, answer, bind, Except.bind, pure, Except.pure, known, same]
  sendersOf process row found := by
    obtain ⟨senders, there, same⟩ := listed process row found
    exact ⟨senders, (sendersOf_eq_ok_iff process senders).2 there,
      ascending_of_mem_rows (List.mem_of_getElem? there), same⟩

theorem records_self (config : Dependencies) :
    config.Records config.messageCount (config.rows.map (·.map ProcessId.val)) := by
  refine records_of_senders rfl (List.length_map _).symm fun process row found => ?_
  rw [List.getElem?_map, Option.map_eq_some_iff] at found
  obtain ⟨senders, there, rfl⟩ := found
  refine ⟨senders, there, fun sender => ?_⟩
  exact (List.mem_map_of_injective fun _ _ => ProcessId.ext_val).symm

theorem records_ofNumbers (inRun : ∀ row ∈ rows, ∀ n ∈ row, InRun rows.length n) :
    (ofNumbers messageCount rows).Records messageCount rows := by
  refine records_of_senders rfl (processCount_ofNumbers ..) fun process row found => ?_
  have there : (ofNumbers messageCount rows).rows[process.index]? =
      some ((ProcessId.all rows.length).filter (row.contains ·.val)) := by
    simp [ofNumbers, found]
  refine ⟨_, there, fun sender => ?_⟩
  rw [List.mem_filter, ProcessId.mem_all, List.contains_iff_mem, and_iff_right_iff_imp]
  exact fun member => (inRun row (List.mem_of_getElem? found) sender.val member).2

-- Rows in ascending order are told by their members, so the answers tell the configuration.
theorem Records.eq (first : config.Records messageCount rows)
    (second : other.Records messageCount rows) : config = other := by
  have size : config.rows.length = other.rows.length :=
    first.processCount.trans second.processCount.symm
  have same : config.rows = other.rows := by
    refine List.ext_getElem size fun index inside within => ?_
    have listed : index < rows.length := first.processCount ▸ inside
    have row := List.getElem?_eq_getElem listed
    obtain ⟨senders, found, ascending, members⟩ := first.sendersOf (.ofIndex index) _ row
    obtain ⟨others, otherFound, otherAscending, otherMembers⟩ :=
      second.sendersOf (.ofIndex index) _ row
    rw [sendersOf_eq_ok_iff, ProcessId.index_ofIndex, List.getElem?_eq_getElem inside,
      Option.some.injEq] at found
    rw [sendersOf_eq_ok_iff, ProcessId.index_ofIndex, List.getElem?_eq_getElem within,
      Option.some.injEq] at otherFound
    rw [found, otherFound]
    exact ProcessId.Ascending.eq_of_mem_iff ascending otherAscending fun process =>
      (members process).trans (otherMembers process).symm
  have count : config.messageCount = other.messageCount :=
    first.messageCount.trans second.messageCount.symm
  cases config
  cases other
  cases same
  cases count
  rfl

end Recorded

theorem parse_eq_ok_iff_records (file text : String) (config : Dependencies) :
    parse file text = .ok config ↔
      ∃ header lines messageCount rows, Text.lines text = header :: lines ∧
        Written messageCount rows header lines ∧ config.Records messageCount rows := by
  rw [parse_eq_ok_iff_ofNumbers]
  constructor
  next =>
    rintro ⟨header, lines, messageCount, rows, split, written, rfl⟩
    exact ⟨header, lines, messageCount, rows, split, written, records_ofNumbers written.inRun⟩
  next =>
    rintro ⟨header, lines, messageCount, rows, split, written, records⟩
    exact ⟨header, lines, messageCount, rows, split, written,
      (records_ofNumbers written.inRun).eq records⟩

section Printed

variable (config : Dependencies)

def printedNumbers : List (List Nat) :=
  [config.messageCount] ::
    config.rows.zipIdx.map fun (row, index) => (index + 1) :: row.map ProcessId.val

theorem toList_text :
    config.text.toList =
      config.printedNumbers.flatMap fun numbers => printed numbers ++ ['\n'] := by
  have header : s!"{config.messageCount}\n" = toString config.messageCount ++ "\n" := rfl
  have row (index : Nat) (senders : List ProcessId) :
      (" ".intercalate ((ProcessId.ofIndex index :: senders).map toString)).toList =
        printed ((index + 1) :: senders.map ProcessId.val) := by
    rw [String.toList_intercalate, printed, List.map_map, ← ProcessId.val_ofIndex index,
      ← List.map_cons, List.map_map]
    rfl
  rw [text, header, printedNumbers, List.flatMap_cons, String.toList_append, String.toList_append,
    String.toList_join, List.flatMap_map, List.flatMap_map]
  simp only [String.toList_append, row]
  simp [printed]

theorem inRun_of_mem_rows {row : List ProcessId} (member : row ∈ config.rows) :
    ∀ n ∈ row.map ProcessId.val, InRun config.processCount n := by
  refine List.forall_mem_map.2 fun process inside => ?_
  have known := (config.row_sublist row member).subset inside
  exact ⟨process.pos, (ProcessId.mem_all ..).1 known⟩

variable {config}

theorem printable_printedNumbers (small : config.messageCount < Numeral.limit)
    (few : config.processCount < Numeral.limit) :
    ∀ numbers ∈ config.printedNumbers, Printable numbers := by
  refine List.forall_mem_cons.2 ⟨⟨List.cons_ne_nil _ _, by simpa using small⟩, ?_⟩
  refine List.forall_mem_map.2 fun (row, index) member => ⟨List.cons_ne_nil _ _, ?_⟩
  have found := List.mk_mem_zipIdx_iff_getElem?.1 member
  have inside : index < config.processCount := (List.getElem?_eq_some_iff.1 found).1
  refine List.forall_mem_cons.2 ⟨by omega, fun n listed => ?_⟩
  have inRun := config.inRun_of_mem_rows (List.mem_of_getElem? found) n listed
  exact Nat.lt_of_le_of_lt inRun.2 few

theorem written_of_printed {header : Line} {lines : List Line}
    (printable : ∀ numbers ∈ config.printedNumbers, Printable numbers)
    (texts : (header :: lines).map Line.text = config.printedNumbers.map printed) :
    Written config.messageCount (config.rows.map (·.map ProcessId.val)) header lines := by
  obtain ⟨first, others⟩ := List.forall_mem_cons.1 printable
  rw [printedNumbers, List.map_cons, List.map_cons, List.cons.injEq, List.map_map] at texts
  obtain ⟨headerText, rowTexts⟩ := texts
  have size : lines.length = config.rows.length := by simpa using congrArg List.length rowTexts
  refine ⟨headerText ▸ first.numberList, by rw [size, List.length_map], ?_⟩
  intro index line senders left right
  rw [List.getElem?_map, Option.map_eq_some_iff] at right
  obtain ⟨row, found, rfl⟩ := right
  have text : line.text = printed ((index + 1) :: row.map ProcessId.val) := by
    have here := congrArg (·[index]?) rowTexts
    simpa [left, found] using here
  have listed := List.mem_map_of_mem
    (f := fun (row, index) => (index + 1) :: row.map ProcessId.val)
    (List.mk_mem_zipIdx_iff_getElem?.2 found)
  refine ⟨text ▸ (others _ listed).numberList, ?_⟩
  rw [size]
  exact config.inRun_of_mem_rows (List.mem_of_getElem? found)

theorem parse_text (file : String) (small : config.messageCount < Numeral.limit)
    (few : config.processCount < Numeral.limit) : parse file config.text = .ok config := by
  have printable := printable_printedNumbers small few
  have texts := map_text_lines_of_printed printable config.toList_text
  cases split : Text.lines config.text with
  | nil => simp [split, printedNumbers] at texts
  | cons header lines =>
    rw [split] at texts
    exact (parse_eq_ok_iff_records ..).2
      ⟨header, lines, _, _, split, written_of_printed printable texts, config.records_self⟩

end Printed

/-- The texts that are read are those whose lines a configuration can be written on. What is read
answers as its rows say and is read back from the text that it is printed as, and of any other text
the first flaw is reported. -/
theorem parse_by_format (file text : String) :
    ((∃ config, parse file text = .ok config) ↔
        ∃ header lines messageCount rows, Text.lines text = header :: lines ∧
          Written messageCount rows header lines) ∧
      (∀ config, parse file text = .ok config →
        (∀ header lines messageCount rows, Text.lines text = header :: lines →
          Written messageCount rows header lines → config.Records messageCount rows) ∧
          ∀ other, parse other config.text = .ok config) ∧
      ∀ fault, parse file text = .error fault ↔
        ∃ number flaw, Flawed (Text.lines text) number flaw ∧
          .badConfig ⟨file, number⟩ flaw = fault := by
  have accepted {header : Line} {lines : List Line} {messageCount : Nat} {rows : List (List Nat)}
      (split : Text.lines text = header :: lines)
      (written : Written messageCount rows header lines) :
      parse file text = .ok (ofNumbers messageCount rows) :=
    (parse_eq_ok_iff_ofNumbers ..).2 ⟨header, lines, messageCount, rows, split, written, rfl⟩
  refine ⟨⟨?_, ?_⟩, fun config parsed => ⟨?_, fun other => ?_⟩, parse_eq_error_iff_flawed file text⟩
  next =>
    intro ⟨config, parsed⟩
    obtain ⟨header, lines, messageCount, rows, split, written, -⟩ :=
      (parse_eq_ok_iff_ofNumbers ..).1 parsed
    exact ⟨header, lines, messageCount, rows, split, written⟩
  next =>
    exact fun ⟨header, lines, messageCount, rows, split, written⟩ => ⟨_, accepted split written⟩
  next =>
    intro header lines messageCount rows split written
    have same := accepted split written
    rw [parsed, Except.ok.injEq] at same
    exact same ▸ records_ofNumbers written.inRun
  next =>
    obtain ⟨header, lines, messageCount, rows, -, written, rfl⟩ :=
      (parse_eq_ok_iff_ofNumbers ..).1 parsed
    exact parse_text other (written.header.lt_limit messageCount List.mem_cons_self)
      (processCount_lt_limit file parsed)

def forwardText : String :=
  " 07\t\r\n1\n2 3 1\t3 \n 03\n \n"

theorem parse_by_format_forward :
    ∃ config, parse "config" forwardText = .ok config ∧
      config.Records 7 [[], [3, 1, 3], []] ∧ config.text = "7\n1\n2 1 3\n3\n" ∧
        parse "other" config.text = .ok config := by
  have split : Text.lines forwardText = ⟨1, 0, " 07\t".toList⟩ ::
      [⟨2, 6, "1".toList⟩, ⟨3, 8, "2 3 1\t3 ".toList⟩, ⟨4, 17, " 03".toList⟩] := by
    decide +kernel
  have parsed : parse "config" forwardText = .ok (ofNumbers 7 [[], [3, 1, 3], []]) := by
    decide +kernel
  have written : Written 7 [[], [3, 1, 3], []] ⟨1, 0, " 07\t".toList⟩
      [⟨2, 6, "1".toList⟩, ⟨3, 8, "2 3 1\t3 ".toList⟩, ⟨4, 17, " 03".toList⟩] :=
    (written_iff "config").2 ⟨by decide +kernel, by decide +kernel⟩
  obtain ⟨records, printed⟩ := (parse_by_format "config" forwardText).2.1 _ parsed
  exact ⟨_, parsed, records _ _ 7 _ split written, by decide +kernel, printed "other"⟩

end Dependencies

end BroadcastAudit
