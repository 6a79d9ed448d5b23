import BroadcastAudit.Proofs.Text.Lines
import Mathlib.Data.List.Chain

set_option autoImplicit false

namespace BroadcastAudit.Text

def bytes (text : String) (first last : Nat) : ByteArray :=
  text.toUTF8.extract first last

def lineFeed : UInt8 := 10

def Line.stop (line : Line) : Nat :=
  line.span.offset + line.span.length

structure Line.StandsIn (text : String) (line : Line) : Prop where
  bound : line.stop ≤ text.utf8ByteSize
  slice : bytes text line.offset line.stop = line.text.utf8Encode
  single : '\n' ∉ line.text
  stripped : line.text.getLast? ≠ some '\r'
  number : line.number = 1 + (bytes text 0 line.offset).data.toList.count lineFeed

def Line.Precedes (text : String) (line next : Line) : Prop :=
  ∃ returns, (∀ c ∈ returns, c = '\r') ∧
    bytes text line.stop next.offset = (returns ++ ['\n']).utf8Encode

structure Line.Ends (text : String) (line : Line) : Prop where
  solid : ¬ Blank line.text
  tail : ∃ blank, Blank blank ∧ bytes text line.stop text.utf8ByteSize = blank.utf8Encode

structure LinesOf (text : String) (lines : List Line) : Prop where
  numbers : lines.map Line.number = List.range' 1 lines.length
  none : lines = [] ↔ Blank text.toList
  start : ∀ line ∈ lines.head?, line.offset = 0
  standsIn : ∀ line ∈ lines, line.StandsIn text
  precedes : lines.IsChain (Line.Precedes text)
  ends : ∀ line ∈ lines.getLast?, line.Ends text

section Encoding

theorem size_utf8Encode (text : List Char) : text.utf8Encode.size = utf8Length text := by
  induction text with
  | nil => rfl
  | cons c text ih =>
    rw [List.utf8Encode_cons, ByteArray.size_append, ih, List.utf8Encode_singleton,
      List.size_toByteArray, String.length_utf8EncodeChar]
    rfl

theorem toNat_of_mem_utf8EncodeChar (c : Char) :
    ∀ byte ∈ String.utf8EncodeChar c, byte.toNat = c.val.toNat ∨ 128 ≤ byte.toNat := by
  fun_cases String.utf8EncodeChar c
  all_goals
    simp only [List.forall_mem_cons, List.not_mem_nil, false_implies, implies_true, and_true,
      UInt8.toNat_ofNat']
    omega

theorem count_utf8EncodeChar (c : Char) :
    (String.utf8EncodeChar c).count lineFeed = if c = '\n' then 1 else 0 := by
  split
  next feed => rw [feed]; decide
  next other =>
    rw [List.count_eq_zero]
    intro member
    rcases toNat_of_mem_utf8EncodeChar c _ member with same | beyond
    next => exact other (Char.toNat_inj.1 same.symm)
    next => exact absurd beyond (by decide)

theorem count_utf8Encode (text : List Char) :
    text.utf8Encode.data.toList.count lineFeed = text.count '\n' := by
  induction text with
  | nil => rfl
  | cons c text ih =>
    rw [List.utf8Encode_cons, ByteArray.toList_data_append, List.count_append, ih,
      List.utf8Encode_singleton, List.data_toByteArray, count_utf8EncodeChar, List.count_cons]
    simp [Nat.add_comm]

variable {text : String} {before middle after : List Char}

theorem bytes_eq (whole : text.toList = before ++ (middle ++ after)) :
    bytes text (utf8Length before) (utf8Length before + utf8Length middle) = middle.utf8Encode := by
  rw [bytes, String.toUTF8_eq_toByteArray, ← String.utf8Encode_toList, whole,
    List.utf8Encode_append, List.utf8Encode_append, ← size_utf8Encode, ← size_utf8Encode]
  have cut := ByteArray.extract_append_size_add (a := before.utf8Encode)
    (b := middle.utf8Encode ++ after.utf8Encode) (i := 0) (j := middle.utf8Encode.size)
  rw [Nat.add_zero] at cut
  rw [cut, ByteArray.extract_append_eq_left rfl]

theorem bytes_start (whole : text.toList = before ++ after) :
    bytes text 0 (utf8Length before) = before.utf8Encode := by
  rw [bytes, String.toUTF8_eq_toByteArray, ← String.utf8Encode_toList, whole,
    List.utf8Encode_append, ← size_utf8Encode, ByteArray.extract_append_eq_left rfl]

theorem utf8ByteSize_eq (text : String) : text.utf8ByteSize = utf8Length text.toList := by
  rw [← size_utf8Encode, String.utf8Encode_toList, String.size_toByteArray]

end Encoding

section Continuations

def Cursor.after (start : List Char) : Cursor :=
  ⟨1 + start.count '\n', utf8Length start⟩

def Line.after (start words : List Char) : Line :=
  ⟨(Cursor.after start).number, (Cursor.after start).offset, words⟩

def Clean (words : List Char) : Prop :=
  '\n' ∉ words ∧ words.getLast? ≠ some '\r'

inductive Continues : List Char → List Char → List Line → Prop
  | none (start blank : List Char) : Blank blank → Continues start blank []
  | last (start words blank : List Char) : Clean words → ¬ Blank words → Blank blank →
      Continues start (words ++ blank) [.after start words]
  | more (start words returns rest : List Char) (lines : List Line) :
      Clean words → (∀ c ∈ returns, c = '\r') → ¬ Blank rest →
        Continues (start ++ (words ++ (returns ++ ['\n']))) rest lines →
          Continues start (words ++ (returns ++ '\n' :: rest)) (.after start words :: lines)

theorem clean_dropReturns {raw : List Char} (single : '\n' ∉ raw) : Clean (dropReturns raw) := by
  obtain ⟨returns, -, whole⟩ := exists_returns raw
  rw [← whole] at single
  refine ⟨fun member => single (List.mem_append_left _ member), fun last => ?_⟩
  obtain ⟨nonempty, same⟩ := List.mem_getLast?_eq_getLast last
  have stop := List.rdropWhile_last_not (· == '\r') raw nonempty
  rw [beq_iff_eq] at stop
  exact stop same.symm

theorem Cursor.after_line (start : List Char) {raw : List Char} (single : '\n' ∉ raw) :
    after (start ++ (raw ++ ['\n'])) =
      ⟨(after start).number + 1, (after start).offset + utf8Length raw + 1⟩ := by
  have feeds : (raw ++ ['\n']).count '\n' = 1 := by
    rw [List.count_append, List.count_eq_zero.2 single]
    rfl
  rw [after, after, List.count_append, feeds, utf8Length_append, utf8Length_append, ← Nat.add_assoc,
    ← Nat.add_assoc]
  rfl

theorem continues_numbered (start rest : List Char) :
    Continues start rest (numbered (.after start) (rawLines rest)) := by
  generalize read : rawLines rest = raws
  induction raws generalizing start rest with
  | nil => exact .none start rest ((rawLines_eq_nil_iff rest).1 read)
  | cons raw raws ih =>
    have solid : ¬ Blank rest := by
      rw [← rawLines_eq_nil_iff, read]
      exact List.cons_ne_nil raw raws
    obtain ⟨single, ⟨rfl, trimmed, blank, tail, rfl⟩ | ⟨more, rfl, remains, others⟩⟩ :=
      rawLines_eq_cons read
    next =>
      have kept : dropReturns raw = raw := by rw [← trimmed, dropReturns_trimEnd]
      have clean := clean_dropReturns single
      rw [kept] at clean
      rw [numbered_cons, kept]
      exact .last start raw blank clean
        (fun empty => solid (List.forall_mem_append.2 ⟨empty, tail⟩)) tail
    next =>
      obtain ⟨returns, carriage, whole⟩ := exists_returns raw
      have after := ih (start ++ (raw ++ ['\n'])) more others
      rw [Cursor.after_line start single] at after
      have line : dropReturns raw ++ (returns ++ ['\n']) = raw ++ ['\n'] := by
        rw [← List.append_assoc, whole]
      have cut : raw ++ '\n' :: more = dropReturns raw ++ (returns ++ '\n' :: more) := by
        rw [← List.append_assoc, whole]
      rw [numbered_cons, cut]
      exact .more start (dropReturns raw) returns more _ (clean_dropReturns single) carriage remains
        (line ▸ after)

theorem continues_lines (text : String) : Continues [] text.toList (lines text) := by
  rw [lines_eq_numbered]
  exact continues_numbered [] text.toList

end Continuations

section Places

variable {text : String} {start words tail : List Char}

theorem standsIn_after (clean : Clean words) (whole : text.toList = start ++ (words ++ tail)) :
    (Line.after start words).StandsIn text where
  bound := by
    rw [utf8ByteSize_eq, whole, utf8Length_append, utf8Length_append, ← Nat.add_assoc]
    exact Nat.le_add_right _ _
  slice := bytes_eq whole
  single := clean.1
  stripped := clean.2
  number := by
    rw [Line.after, Cursor.after, bytes_start whole, count_utf8Encode]

theorem bytes_stop {middle after : List Char}
    (whole : text.toList = start ++ (words ++ (middle ++ after))) :
    bytes text (Line.after start words).stop (utf8Length (start ++ (words ++ middle))) =
      middle.utf8Encode := by
  rw [← List.append_assoc] at whole ⊢
  have cut := bytes_eq whole
  rwa [← utf8Length_append, utf8Length_append start words] at cut

variable {rest : List Char} {lines : List Line}

theorem Continues.eq_nil_iff (continues : Continues start rest lines) :
    lines = [] ↔ Blank rest := by
  cases continues with
  | none _ _ blank => exact iff_of_true rfl blank
  | last _ words blank _ solid _ =>
    exact iff_of_false (List.cons_ne_nil _ _) fun empty => solid (List.forall_mem_append.1 empty).1
  | more _ words returns rest lines _ _ solid _ =>
    refine iff_of_false (List.cons_ne_nil _ _) fun empty => solid ?_
    intro c member
    exact empty c (by simp [member])

theorem Continues.offset_eq (continues : Continues start rest lines) :
    ∀ line ∈ lines.head?, line.offset = utf8Length start := by
  cases continues <;> simp [Line.after, Cursor.after]

theorem Continues.standsIn (continues : Continues start rest lines)
    (whole : text.toList = start ++ rest) : ∀ line ∈ lines, line.StandsIn text := by
  induction continues with
  | none => simp
  | last start words blank clean => simpa using standsIn_after clean whole
  | more start words returns rest lines clean _ _ _ ih =>
    refine List.forall_mem_cons.2 ⟨standsIn_after clean whole, ih ?_⟩
    simpa using whole

theorem Continues.isChain (continues : Continues start rest lines)
    (whole : text.toList = start ++ rest) : lines.IsChain (Line.Precedes text) := by
  induction continues with
  | none => exact .nil
  | last => exact .singleton _
  | more start words returns rest lines _ carriage _ continues ih =>
    refine List.isChain_cons.2
      ⟨fun next first => ⟨returns, carriage, ?_⟩, ih (by simpa using whole)⟩
    rw [continues.offset_eq next first]
    exact bytes_stop (by simpa using whole)

theorem Continues.ends (continues : Continues start rest lines)
    (whole : text.toList = start ++ rest) : ∀ line ∈ lines.getLast?, line.Ends text := by
  induction continues with
  | none => simp
  | last start words blank _ solid tail =>
    intro line same
    cases same
    refine ⟨solid, blank, tail, ?_⟩
    rw [utf8ByteSize_eq, whole]
    exact bytes_stop (by rw [whole, List.append_nil])
  | more start words returns rest lines _ _ solid continues ih =>
    have several : lines ≠ [] := mt continues.eq_nil_iff.1 solid
    rw [List.getLast?_cons_of_ne_nil several]
    exact ih (by simpa using whole)

end Places

theorem linesOf_lines (text : String) : LinesOf text (lines text) := by
  have continues := continues_lines text
  have whole : text.toList = [] ++ text.toList := rfl
  refine ⟨?_, continues.eq_nil_iff, continues.offset_eq, continues.standsIn whole,
    continues.isChain whole, continues.ends whole⟩
  rw [lines_eq_numbered, map_number_numbered, length_numbered, Cursor.start]

example : (lines "b 1\r\r\n\u00e9\n\nd\u00a0\r\n").map (fun line => (line.number, line.span)) =
    [(1, ⟨0, 3⟩), (2, ⟨6, 2⟩), (3, ⟨9, 0⟩), (4, ⟨10, 1⟩)] := by
  decide +kernel

end BroadcastAudit.Text
