import BroadcastAudit.Text.Line
import Mathlib.Data.List.DropRight
import Mathlib.Data.List.Forall2

set_option autoImplicit false

namespace BroadcastAudit.Text

def rawLines (text : List Char) : List (List Char) :=
  match trimEnd text with
  | [] => []
  | c :: rest => pieces (· == '\n') (c :: rest)

theorem lines_eq_numbered (text : String) :
    lines text = numbered .start (rawLines text.toList) := by
  unfold lines rawLines
  cases trimEnd text.toList <;> rfl

theorem map_text_numbered (cursor : Cursor) (raws : List (List Char)) :
    (numbered cursor raws).map Line.text = raws.map dropReturns := by
  induction raws generalizing cursor with
  | nil => rfl
  | cons raw raws ih => simp [ih]

theorem map_number_numbered (cursor : Cursor) (raws : List (List Char)) :
    (numbered cursor raws).map Line.number = List.range' cursor.number raws.length := by
  induction raws generalizing cursor with
  | nil => rfl
  | cons raw raws ih => simp [ih, List.range'_succ]

theorem number_eq_of_isPrefix {text : String} {past : List Line} {line : Line}
    (inside : past ++ [line] <+: lines text) : line.number = past.length + 1 := by
  obtain ⟨rest, split⟩ := inside
  have numbers := map_number_numbered .start (rawLines text.toList)
  rw [← lines_eq_numbered, ← split] at numbers
  generalize (rawLines text.toList).length = count at numbers
  have here : some line.number = (List.range' 1 count)[past.length]? := by
    simpa [Cursor.start] using congrArg (·[past.length]?) numbers
  obtain ⟨_, same⟩ := List.getElem?_eq_some_iff.1 here.symm
  rw [List.getElem_range', Nat.one_mul, Nat.add_comm] at same
  exact same.symm

theorem utf8Length_append (first second : List Char) :
    utf8Length (first ++ second) = utf8Length first + utf8Length second := by
  induction first with
  | nil => simp [utf8Length]
  | cons c first ih =>
    simp only [utf8Length, List.cons_append, List.map_cons, List.foldr_cons] at ih ⊢
    rw [ih, Nat.add_assoc]

theorem numbered_append (cursor : Cursor) (before after : List (List Char)) :
    numbered cursor (before ++ after) =
      numbered cursor before ++
        numbered ⟨cursor.number + before.length,
          cursor.offset + utf8Length (before.flatMap (· ++ ['\n']))⟩ after := by
  induction before generalizing cursor with
  | nil => rfl
  | cons raw before ih =>
    have feed : utf8Length ['\n'] = 1 := by decide
    rw [List.cons_append, numbered_cons, ih, numbered_cons, List.flatMap_cons, utf8Length_append,
      utf8Length_append, feed, List.length_cons]
    simp only [List.cons_append, Nat.add_assoc, Nat.add_comm 1]

section Trim

theorem trimEnd_eq_nil_iff (text : List Char) : trimEnd text = [] ↔ Blank text :=
  List.rdropWhile_eq_nil_iff

theorem trimEnd_trimEnd (text : List Char) : trimEnd (trimEnd text) = trimEnd text :=
  List.rdropWhile_idempotent isBlank text

theorem exists_blank_trimEnd (text : List Char) :
    ∃ blank, Blank blank ∧ trimEnd text ++ blank = text :=
  ⟨text.rtakeWhile isBlank, fun _ => List.mem_rtakeWhile_imp, List.rdropWhile_append_rtakeWhile⟩

theorem trimEnd_append_blank (text : List Char) {blank : List Char} (h : Blank blank) :
    trimEnd (text ++ blank) = trimEnd text := by
  rw [trimEnd, List.reverse_append, List.dropWhile_append_of_pos]
  next => rfl
  next => exact fun c member => h c (List.mem_reverse.1 member)

theorem trimEnd_append_of_not_blank (text : List Char) {rest : List Char} (h : ¬ Blank rest) :
    trimEnd (text ++ rest) = text ++ trimEnd rest := by
  have kept : (rest.reverse.dropWhile isBlank).isEmpty = false := by
    rw [← trimEnd_eq_nil_iff, trimEnd, List.reverse_eq_nil_iff] at h
    simpa using h
  rw [trimEnd, List.reverse_append, List.dropWhile_append, kept]
  simp [trimEnd]

theorem trimEnd_append_singleton_of_not_blank (text : List Char) {c : Char}
    (solid : isBlank c = false) : trimEnd (text ++ [c]) = text ++ [c] := by
  simp [trimEnd_append_singleton, solid]

end Trim

section Returns

theorem dropReturns_append_returns (line : List Char) {returns : List Char}
    (h : ∀ c ∈ returns, c = '\r') : dropReturns (line ++ returns) = dropReturns line := by
  rw [dropReturns, List.reverse_append, List.dropWhile_append_of_pos]
  next => rfl
  next => exact fun c member => by simpa using h c (List.mem_reverse.1 member)

theorem blank_of_returns {returns : List Char} (h : ∀ c ∈ returns, c = '\r') : Blank returns := by
  intro c member
  rw [h c member]
  decide

theorem dropReturns_of_not_mem {line : List Char} (h : '\r' ∉ line) : dropReturns line = line := by
  apply List.rdropWhile_eq_self_iff.2
  intro nonempty
  simpa using ne_of_mem_of_not_mem (List.getLast_mem nonempty) h

theorem dropReturns_trimEnd (text : List Char) : dropReturns (trimEnd text) = trimEnd text := by
  apply List.rdropWhile_eq_self_iff.2
  intro nonempty carriage
  have solid := List.rdropWhile_last_not isBlank text nonempty
  rw [beq_iff_eq] at carriage
  exact solid (carriage ▸ by decide)

theorem exists_returns (raw : List Char) :
    ∃ returns, (∀ c ∈ returns, c = '\r') ∧ dropReturns raw ++ returns = raw :=
  ⟨raw.rtakeWhile (· == '\r'), fun _ member => by simpa using List.mem_rtakeWhile_imp member,
    List.rdropWhile_append_rtakeWhile⟩

end Returns

section Pieces

theorem pieces_single {line : List Char} (single : '\n' ∉ line) :
    pieces (· == '\n') line = [line] := by
  apply pieces_of_none
  intro c member
  simpa using ne_of_mem_of_not_mem member single

theorem pieces_line {line : List Char} (single : '\n' ∉ line) (rest : List Char) :
    pieces (· == '\n') (line ++ '\n' :: rest) = line :: pieces (· == '\n') rest := by
  rw [pieces_append_separator _ _ _ _ rfl, pieces_single single]
  rfl

theorem pieces_eq_cons {text line : List Char} {rest : List (List Char)}
    (split : pieces (· == '\n') text = line :: rest) :
    '\n' ∉ line ∧ (text = line ∧ rest = [] ∨
      ∃ tail, text = line ++ '\n' :: tail ∧ pieces (· == '\n') tail = rest) := by
  by_cases several : '\n' ∈ text
  next =>
    obtain ⟨first, tail, rfl, single⟩ := List.eq_append_cons_of_mem several
    rw [pieces_line single] at split
    cases split
    exact ⟨single, .inr ⟨tail, rfl, rfl⟩⟩
  next =>
    rw [pieces_single several] at split
    cases split
    exact ⟨several, .inl ⟨rfl, rfl⟩⟩

end Pieces

theorem rawLines_eq_nil_iff (text : List Char) : rawLines text = [] ↔ Blank text := by
  rw [← trimEnd_eq_nil_iff, rawLines]
  cases trimEnd text with
  | nil => simp
  | cons c rest => simp [pieces_ne_nil]

theorem rawLines_of_not_blank {text : List Char} (solid : ¬ Blank text) :
    rawLines text = pieces (· == '\n') (trimEnd text) := by
  rw [← trimEnd_eq_nil_iff] at solid
  unfold rawLines
  split
  next empty => exact absurd empty solid
  next trimmed => rw [trimmed]

theorem rawLines_append_blank (text : List Char) {blank : List Char} (h : Blank blank) :
    rawLines (text ++ blank) = rawLines text := by
  rw [rawLines, trimEnd_append_blank text h, rawLines]

theorem rawLines_single {line : List Char} (single : '\n' ∉ line) (solid : ¬ Blank line) :
    rawLines line = [trimEnd line] := by
  rw [rawLines_of_not_blank solid]
  apply pieces_single
  obtain ⟨blank, -, cut⟩ := exists_blank_trimEnd line
  rw [← cut] at single
  exact fun member => single (List.mem_append_left _ member)

theorem rawLines_line {line rest : List Char} (single : '\n' ∉ line) (more : ¬ Blank rest) :
    rawLines (line ++ '\n' :: rest) = line :: rawLines rest := by
  have whole : trimEnd (line ++ '\n' :: rest) = line ++ '\n' :: trimEnd rest := by
    simpa using trimEnd_append_of_not_blank (line ++ ['\n']) more
  have solid : ¬ Blank (line ++ '\n' :: rest) := by
    rw [← trimEnd_eq_nil_iff, whole]
    simp
  rw [rawLines_of_not_blank solid, whole, pieces_line single, rawLines_of_not_blank more]

theorem rawLines_flatMap_append {before : List (List Char)} {rest : List Char}
    (single : ∀ line ∈ before, '\n' ∉ line) (more : ¬ Blank rest) :
    rawLines (before.flatMap (· ++ ['\n']) ++ rest) = before ++ rawLines rest := by
  induction before with
  | nil => rfl
  | cons line before ih =>
    obtain ⟨head, tail⟩ := List.forall_mem_cons.1 single
    have solid : ¬ Blank (before.flatMap (· ++ ['\n']) ++ rest) :=
      fun blank => more (List.forall_mem_append.1 blank).2
    have split : (line :: before).flatMap (· ++ ['\n']) ++ rest =
        line ++ '\n' :: (before.flatMap (· ++ ['\n']) ++ rest) := by simp
    rw [split, rawLines_line head solid, ih tail, List.cons_append]

theorem eq_of_rawLines_last {line blank raw : List Char} {raws : List (List Char)}
    (single : '\n' ∉ line) (tail : Blank blank)
    (read : rawLines (line ++ blank) = raw :: raws) :
    '\n' ∉ raw ∧ raws = [] ∧ trimEnd raw = raw ∧
      ∃ more, Blank more ∧ line ++ blank = raw ++ more := by
  rw [rawLines_append_blank line tail] at read
  have solid : ¬ Blank line := by
    rw [← rawLines_eq_nil_iff, read]
    simp
  rw [rawLines_single single solid] at read
  cases read
  obtain ⟨cut, blankCut, whole⟩ := exists_blank_trimEnd line
  refine ⟨fun member => single ?_, rfl, trimEnd_trimEnd line, cut ++ blank, ?_, ?_⟩
  next =>
    rw [← whole]
    exact List.mem_append_left _ member
  next => exact List.forall_mem_append.2 ⟨blankCut, tail⟩
  next => rw [← List.append_assoc, whole]

theorem rawLines_eq_cons {text raw : List Char} {raws : List (List Char)}
    (read : rawLines text = raw :: raws) :
    '\n' ∉ raw ∧
      (raws = [] ∧ trimEnd raw = raw ∧ (∃ blank, Blank blank ∧ text = raw ++ blank) ∨
        ∃ rest, text = raw ++ '\n' :: rest ∧ ¬ Blank rest ∧ rawLines rest = raws) := by
  by_cases several : '\n' ∈ text
  next =>
    obtain ⟨line, rest, rfl, single⟩ := List.eq_append_cons_of_mem several
    by_cases more : Blank rest
    next =>
      have tail : Blank ('\n' :: rest) := List.forall_mem_cons.2 ⟨by decide, more⟩
      obtain ⟨inside, ends⟩ := eq_of_rawLines_last single tail read
      exact ⟨inside, .inl ends⟩
    next =>
      rw [rawLines_line single more] at read
      cases read
      exact ⟨single, .inr ⟨rest, rfl, more, rfl⟩⟩
  next =>
    have none : Blank [] := fun _ member => absurd member List.not_mem_nil
    rw [← List.append_nil text] at read
    obtain ⟨inside, ends⟩ := eq_of_rawLines_last several none read
    rw [List.append_nil] at ends
    exact ⟨inside, .inl ends⟩

end BroadcastAudit.Text
