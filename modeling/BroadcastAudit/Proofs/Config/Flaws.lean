import BroadcastAudit.Proofs.Config.NumberLists

set_option autoImplicit false

namespace BroadcastAudit.Dependencies

open Replays Text Config

variable (file : String)

section Header

variable (header : Line)

theorem readMessageCount_eq_ok_iff (count : Nat) :
    readMessageCount file header = .ok count ↔ NumberList [count] header.text := by
  rw [← numbers?_eq_some_iff_numberList, readMessageCount]
  split <;> simp_all

theorem readMessageCount_eq_error_iff (fault : Fault) :
    readMessageCount file header = .error fault ↔
      (∀ count, ¬ NumberList [count] header.text) ∧
        .badConfig ⟨file, header.number⟩ (.notMessageCount header.quoted) = fault := by
  simp only [← numbers?_eq_some_iff_numberList, readMessageCount]
  split <;> simp_all

end Header

section Reading

variable (line : Line)

theorem isBlank_iff : line.isBlank = true ↔ Blank line.text := by
  simp [Line.isBlank, Blank]

theorem readRow_eq_ok_iff_numberList (row : Nat × List Nat) :
    readRow file line = .ok row ↔ line.number = row.1 ∧ NumberList row.2 line.text := by
  rw [readRow_eq_ok_iff, numbers?_eq_some_iff_numberList, ← Bool.not_eq_true, isBlank_iff]
  constructor
  next => exact fun ⟨_, number, list⟩ => ⟨number, list⟩
  next => exact fun ⟨number, list⟩ => ⟨IsNumberList.not_blank ⟨_, list⟩, number, list⟩

theorem exists_readRow_iff : (∃ row, readRow file line = .ok row) ↔ IsNumberList line.text := by
  simp only [readRow_eq_ok_iff_numberList, Prod.exists]
  constructor
  next => exact fun ⟨_, numbers, _, list⟩ => ⟨numbers, list⟩
  next => exact fun ⟨numbers, list⟩ => ⟨line.number, numbers, rfl, list⟩

theorem readRow_eq_error_iff (fault : Fault) :
    readRow file line = .error fault ↔
      ∃ flaw, Unreadable line flaw ∧ .badConfig ⟨file, line.number⟩ flaw = fault := by
  have blank := isBlank_iff line
  have list := numbers?_eq_none_iff line
  unfold readRow
  constructor
  next =>
    intro failed
    split at failed
    next empty =>
      cases failed
      exact ⟨_, .blank (blank.1 empty), rfl⟩
    next solid =>
      split at failed
      next => cases failed
      next unread =>
        cases failed
        exact ⟨_, .other (mt blank.2 solid) (list.1 unread), rfl⟩
  next =>
    rintro ⟨flaw, unreadable, rfl⟩
    cases unreadable with
    | blank empty => rw [if_pos (blank.2 empty)]
    | other solid unread => rw [if_neg (mt blank.1 solid), list.2 unread]

end Reading

section Checking

theorem not_inRun_iff (processCount n : Nat) :
    ¬ InRun processCount n ↔ n = 0 ∨ processCount < n := by
  unfold InRun
  omega

theorem find?_outside_eq_some_iff (processCount : Nat) (senders : List Nat) (n : Nat) :
    senders.find? (fun n => n = 0 ∨ processCount < n) = some n ↔
      ∃ known others, senders = known ++ n :: others ∧ (∀ m ∈ known, InRun processCount m) ∧
        ¬ InRun processCount n := by
  simp only [List.find?_eq_some_iff_append, ← not_inRun_iff, decide_eq_true_eq, Bool.not_eq_true',
    decide_eq_false_iff_not, not_not]
  constructor
  next => exact fun ⟨outside, known, others, split, inRun⟩ => ⟨known, others, split, inRun, outside⟩
  next => exact fun ⟨known, others, split, inRun, outside⟩ => ⟨outside, known, others, split, inRun⟩

theorem Misplaced.checkRow_eq {processCount index : Nat} {numbers : List Nat} {flaw : ConfigFlaw}
    (misplaced : Misplaced processCount index numbers flaw) (line : Nat) :
    checkRow file processCount ((line, numbers), index) =
      .error (.badConfig ⟨file, line⟩ flaw) := by
  cases misplaced with
  | process own senders other => simp [checkRow, other]
  | sender known n others inRun outside =>
    have found := (find?_outside_eq_some_iff processCount _ n).2
      ⟨known, others, rfl, inRun, outside⟩
    simp only [checkRow, found, ne_eq, not_true_eq_false, if_false]

theorem exists_misplaced {processCount index line : Nat} {numbers : List Nat} {fault : Fault}
    (nonempty : numbers ≠ [])
    (failed : checkRow file processCount ((line, numbers), index) = .error fault) :
    ∃ flaw, Misplaced processCount index numbers flaw ∧ .badConfig ⟨file, line⟩ flaw = fault := by
  obtain ⟨own, senders, rfl⟩ := List.exists_cons_of_ne_nil nonempty
  rw [checkRow] at failed
  split at failed
  next other =>
    cases failed
    exact ⟨_, .process own senders other, rfl⟩
  next same =>
    rw [ne_eq, Decidable.not_not] at same
    subst same
    split at failed
    next n found =>
      cases failed
      obtain ⟨known, others, rfl, inRun, outside⟩ := (find?_outside_eq_some_iff ..).1 found
      exact ⟨_, .sender known n others inRun outside, rfl⟩
    next => cases failed

def checkLine (processCount : Nat) (line : Line × Nat) : Except Fault (List Nat) :=
  checkRow file processCount ((line.1.number, (numbers? line.1).getD []), line.2)

theorem mapM_checkRow_eq {lines : List Line} {rows : List (Nat × List Nat)}
    (read : lines.mapM (readRow file) = .ok rows) :
    rows.zipIdx.mapM (checkRow file rows.length) =
      lines.zipIdx.mapM (checkLine file lines.length) := by
  have each := (mapM_eq_ok_iff ..).1 read
  have rowsEq : lines.map (fun line => (line.number, (numbers? line).getD [])) = rows := by
    rw [← List.forall₂_eq_eq_eq, List.forall₂_map_left_iff]
    refine each.imp fun line row found => ?_
    obtain ⟨number, list⟩ := (readRow_eq_ok_iff_numberList ..).1 found
    rw [number, (numbers?_eq_some_iff_numberList ..).2 list, Option.getD_some]
  rw [each.length_eq, ← rowsEq, List.length_map, List.zipIdx_map, List.mapM_map]
  rfl

theorem checkLine_eq_ok_iff (processCount : Nat) (line : Line × Nat) (senders : List Nat) :
    checkLine file processCount line = .ok senders ↔
      RowOf processCount line.2 line.1 senders := by
  have numbers : (numbers? line.1).getD [] = (line.2 + 1) :: senders ↔
      NumberList ((line.2 + 1) :: senders) line.1.text := by
    rw [← numbers?_eq_some_iff_numberList]
    cases numbers? line.1 <;> simp
  rw [checkLine, checkRow_eq_ok_iff, numbers]
  constructor
  next =>
    exact fun ⟨list, inRun⟩ =>
      ⟨list, fun n member => ⟨Nat.one_le_iff_ne_zero.2 (inRun n member).1, (inRun n member).2⟩⟩
  next =>
    exact fun row => ⟨row.numbers, fun n member =>
      ⟨Nat.one_le_iff_ne_zero.1 (row.inRun n member).1, (row.inRun n member).2⟩⟩

theorem checkLine_eq_error_iff {processCount : Nat} {line : Line × Nat} {numbers : List Nat}
    (list : NumberList numbers line.1.text) (fault : Fault) :
    checkLine file processCount line = .error fault ↔
      ∃ flaw, Misplaced processCount line.2 numbers flaw ∧
        .badConfig ⟨file, line.1.number⟩ flaw = fault := by
  rw [checkLine, (numbers?_eq_some_iff_numberList ..).2 list, Option.getD_some]
  constructor
  next => exact exists_misplaced file list.ne_nil
  next =>
    rintro ⟨flaw, misplaced, rfl⟩
    exact misplaced.checkRow_eq file line.1.number

end Checking

section Refused

variable {text : String} {header : Line} {lines : List Line}

theorem parse_eq_bind {text : String} (split : Text.lines text = header :: lines) :
    parse file text = do
      let messageCount ← readMessageCount file header
      let rows ← lines.mapM (readRow file)
      let dependencies ← rows.zipIdx.mapM (checkRow file rows.length)
      return ofNumbers messageCount dependencies := by
  rw [parse, split]

theorem mapM_readRow_eq_error_iff (lines : List Line) (fault : Fault) :
    lines.mapM (readRow file) = .error fault ↔
      ∃ before line after flaw, lines = before ++ line :: after ∧
        (∀ earlier ∈ before, IsNumberList earlier.text) ∧ Unreadable line flaw ∧
          .badConfig ⟨file, line.number⟩ flaw = fault := by
  simp only [mapM_eq_error_iff, readRow_eq_error_iff, exists_readRow_iff]
  constructor
  next =>
    rintro ⟨before, line, after, split, ⟨flaw, unreadable, same⟩, earlier⟩
    exact ⟨before, line, after, flaw, split, earlier, unreadable, same⟩
  next =>
    rintro ⟨before, line, after, flaw, split, earlier, unreadable, same⟩
    exact ⟨before, line, after, split, ⟨flaw, unreadable, same⟩, earlier⟩

theorem mapM_checkLine_eq_error_iff (lists : ∀ line ∈ lines, IsNumberList line.text)
    (processCount : Nat) (fault : Fault) :
    lines.zipIdx.mapM (checkLine file processCount) = .error fault ↔
      ∃ before line after numbers flaw, lines = before ++ line :: after ∧
        (∀ index earlier, before[index]? = some earlier →
          ∃ senders, RowOf processCount index earlier senders) ∧
          NumberList numbers line.text ∧ Misplaced processCount before.length numbers flaw ∧
            .badConfig ⟨file, line.number⟩ flaw = fault := by
  simp only [mapM_zipIdx_eq_error_iff, checkLine_eq_ok_iff]
  constructor
  next =>
    rintro ⟨before, line, after, rfl, failed, earlier⟩
    obtain ⟨numbers, list⟩ := lists line (by simp)
    obtain ⟨flaw, misplaced, same⟩ := (checkLine_eq_error_iff file list fault).1 failed
    exact ⟨before, line, after, numbers, flaw, rfl, earlier, list, misplaced, same⟩
  next =>
    rintro ⟨before, line, after, numbers, flaw, rfl, earlier, list, misplaced, same⟩
    exact ⟨before, line, after, rfl,
      (checkLine_eq_error_iff file list fault).2 ⟨flaw, misplaced, same⟩, earlier⟩

theorem parse_eq_of_header {messageCount : Nat} (split : Text.lines text = header :: lines)
    (list : NumberList [messageCount] header.text) :
    parse file text = (do
      let rows ← lines.mapM (readRow file)
      let dependencies ← rows.zipIdx.mapM (checkRow file rows.length)
      return ofNumbers messageCount dependencies) := by
  rw [parse_eq_bind file split, (readMessageCount_eq_ok_iff file header messageCount).2 list]
  rfl

theorem exists_mapM_readRow (lists : ∀ line ∈ lines, IsNumberList line.text) :
    ∃ rows, lines.mapM (readRow file) = .ok rows :=
  (exists_mapM_eq_ok_iff (readRow file) lines).2 fun line member =>
    (exists_readRow_iff file line).2 (lists line member)

theorem exists_flawed {fault : Fault} (failed : parse file text = .error fault) :
    ∃ number flaw, Flawed (Text.lines text) number flaw ∧
      .badConfig ⟨file, number⟩ flaw = fault := by
  cases split : Text.lines text with
  | nil =>
    rw [parse, split] at failed
    cases failed
    exact ⟨_, _, .noLine, rfl⟩
  | cons header lines =>
    rw [parse_eq_bind file split] at failed
    rcases (bind_eq_error_iff ..).1 failed with headerFailed | ⟨count, counted, failed⟩
    next =>
      obtain ⟨other, rfl⟩ := (readMessageCount_eq_error_iff ..).1 headerFailed
      exact ⟨_, _, .header header lines other, rfl⟩
    next =>
      have list := (readMessageCount_eq_ok_iff file header count).1 counted
      rcases (bind_eq_error_iff ..).1 failed with readFailed | ⟨rows, read, failed⟩
      next =>
        obtain ⟨before, line, after, flaw, rfl, earlier, unreadable, rfl⟩ :=
          (mapM_readRow_eq_error_iff file _ fault).1 readFailed
        exact ⟨_, _, .unreadable count header line before after flaw list earlier unreadable, rfl⟩
      next =>
        have lists : ∀ line ∈ lines, IsNumberList line.text := fun line member =>
          (exists_readRow_iff file line).1 ((exists_mapM_eq_ok_iff ..).1 ⟨rows, read⟩ line member)
        rcases (bind_eq_error_iff ..).1 failed with checkFailed | ⟨dependencies, -, done⟩
        next =>
          rw [mapM_checkRow_eq file read] at checkFailed
          obtain ⟨before, line, after, numbers, flaw, rfl, earlier, listed, misplaced, rfl⟩ :=
            (mapM_checkLine_eq_error_iff file lists _ fault).1 checkFailed
          exact ⟨_, _, .misplaced count _ header line before after numbers flaw list rfl lists
            earlier listed misplaced, rfl⟩
        next => cases done

theorem Flawed.parse_eq {number : Nat} {flaw : ConfigFlaw}
    (flawed : Flawed (Text.lines text) number flaw) :
    parse file text = .error (.badConfig ⟨file, number⟩ flaw) := by
  generalize split : Text.lines text = lines at flawed
  cases flawed with
  | noLine => rw [parse, split]
  | header header rest other =>
    have failed := (readMessageCount_eq_error_iff file header _).2 ⟨other, rfl⟩
    rw [parse_eq_bind file split, failed]
    rfl
  | unreadable count header line before after flaw list earlier unreadable =>
    have failed := (mapM_readRow_eq_error_iff file _ _).2
      ⟨before, line, after, flaw, rfl, earlier, unreadable, rfl⟩
    rw [parse_eq_of_header file split list, failed]
    rfl
  | misplaced count processCount header line before after numbers flaw list size lists earlier
      listed misplaced =>
    obtain ⟨rows, read⟩ := exists_mapM_readRow file lists
    have failed := (mapM_checkLine_eq_error_iff file lists processCount _).2
      ⟨before, line, after, numbers, flaw, rfl, earlier, listed, misplaced, rfl⟩
    rw [← size, ← mapM_checkRow_eq file read] at failed
    rw [parse_eq_of_header file split list, read]
    simp only [bind, Except.bind] at failed ⊢
    rw [failed]

theorem parse_eq_error_iff_flawed (text : String) (fault : Fault) :
    parse file text = .error fault ↔
      ∃ number flaw, Flawed (Text.lines text) number flaw ∧
        .badConfig ⟨file, number⟩ flaw = fault := by
  constructor
  next => exact exists_flawed file
  next =>
    rintro ⟨number, flaw, flawed, rfl⟩
    exact flawed.parse_eq file

end Refused

end BroadcastAudit.Dependencies
