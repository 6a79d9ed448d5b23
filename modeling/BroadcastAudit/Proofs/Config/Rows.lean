import BroadcastAudit.Config.Dependencies
import BroadcastAudit.Proofs.Replays

set_option autoImplicit false

namespace BroadcastAudit

open Replays

namespace Config

theorem mapM_eq_some_iff {α β : Type} (f : α → Option β) (xs : List α) (ys : List β) :
    xs.mapM f = some ys ↔ List.Forall₂ (fun x y => f x = some y) xs ys := by
  induction xs generalizing ys with
  | nil => cases ys <;> simp
  | cons x xs ih =>
    rw [List.mapM_cons, List.forall₂_cons_left_iff]
    simp only [← ih, bind, pure, Option.bind_eq_some_iff, Option.some.injEq]
    constructor
    next => exact fun ⟨y, first, rest, others, eq⟩ => ⟨y, rest, first, others, eq.symm⟩
    next => exact fun ⟨y, rest, first, others, eq⟩ => ⟨y, first, rest, others, eq.symm⟩

theorem numbers?_eq_some_iff (line : Text.Line) (numbers : List Nat) :
    numbers? line = some numbers ↔
      numbers ≠ [] ∧
        List.Forall₂ (fun field n => Numeral.read? field = some n) (Text.fields line.text)
          numbers := by
  unfold numbers?
  cases Text.fields line.text with
  | nil => cases numbers <;> simp
  | cons first rest =>
    simp only [mapM_eq_some_iff]
    cases numbers <;> simp

end Config

namespace Dependencies

variable (file : String)

theorem readRow_eq_ok_iff (line : Text.Line) (row : Nat × List Nat) :
    readRow file line = .ok row ↔
      line.isBlank = false ∧ line.number = row.1 ∧ Config.numbers? line = some row.2 := by
  obtain ⟨number, numbers⟩ := row
  unfold readRow
  cases line.isBlank with
  | true => simp
  | false => cases Config.numbers? line <;> simp

theorem checkRow_eq_ok_iff (processCount : Nat) (row : Nat × List Nat) (index : Nat)
    (dependencies : List Nat) :
    checkRow file processCount (row, index) = .ok dependencies ↔
      row.2 = (index + 1) :: dependencies ∧ ∀ n ∈ dependencies, n ≠ 0 ∧ n ≤ processCount := by
  obtain ⟨line, _ | ⟨own, listed⟩⟩ := row
  next => simp [checkRow]
  next =>
    by_cases named : own = index + 1
    next =>
      simp only [checkRow, named, ne_eq, not_true, if_false, List.cons.injEq, true_and]
      split
      next n unknown =>
        have bad := List.find?_some unknown
        simp only [decide_eq_true_eq] at bad
        simp only [reduceCtorEq, false_iff, not_and]
        rintro rfl known
        have inRun := known n (List.mem_of_find?_eq_some unknown)
        omega
      next unknown =>
        simp only [List.find?_eq_none, decide_eq_true_eq] at unknown
        simp only [Except.ok.injEq, iff_self_and]
        rintro rfl n member
        have inRun := unknown n member
        omega
    next => simp [checkRow, named]

theorem parse_eq_ok_iff (text : String) (config : Dependencies) :
    parse file text = .ok config ↔
      ∃ header lines messageCount rows dependencies, Text.lines text = header :: lines ∧
        readMessageCount file header = .ok messageCount ∧
          List.Forall₂ (fun line row => readRow file line = .ok row) lines rows ∧
            List.Forall₂ (fun row numbers => checkRow file rows.length row = .ok numbers)
              rows.zipIdx dependencies ∧
              ofNumbers messageCount dependencies = config := by
  unfold parse
  cases Text.lines text with
  | nil => simp
  | cons header lines =>
    simp only [bind_eq_ok_iff, mapM_eq_ok_iff, pure, Except.pure, Except.ok.injEq]
    constructor
    next =>
      rintro ⟨count, counted, rows, read, dependencies, checked, eq⟩
      exact ⟨header, lines, count, rows, dependencies, rfl, counted, read, checked, eq⟩
    next =>
      rintro ⟨_, _, count, rows, dependencies, same, counted, read, checked, eq⟩
      cases same
      exact ⟨count, counted, rows, read, dependencies, checked, eq⟩

theorem processCount_lt_limit {text : String} {config : Dependencies}
    (parsed : parse file text = .ok config) : config.processCount < Numeral.limit := by
  obtain ⟨_, lines, count, rows, dependencies, -, -, read, checked, rfl⟩ :=
    (parse_eq_ok_iff file text config).1 parsed
  have size := checked.length_eq
  rw [List.length_zipIdx] at size
  rw [processCount_ofNumbers, ← size]
  rcases Nat.eq_zero_or_pos rows.length with none | some
  next => rw [none]; decide
  next =>
    -- The row with the number of all rows.
    have last : rows.length - 1 < rows.length := by omega
    have own := checked.get (i := rows.length - 1) (by simpa using last) (by omega)
    simp only [List.get_eq_getElem, List.getElem_zipIdx, checkRow_eq_ok_iff] at own
    have line := read.get (i := rows.length - 1) (by rw [read.length_eq]; exact last) last
    simp only [List.get_eq_getElem, readRow_eq_ok_iff, own.1, Config.numbers?_eq_some_iff,
      List.forall₂_cons_right_iff] at line
    obtain ⟨-, -, -, field, fields, numeral, -⟩ := line
    have small := Numeral.lt_limit_of_read? _ _ numeral
    omega

end Dependencies

end BroadcastAudit
