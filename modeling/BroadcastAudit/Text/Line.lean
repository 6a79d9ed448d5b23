import BroadcastAudit.Text.Blank
import BroadcastAudit.Text.Fields

set_option autoImplicit false

namespace BroadcastAudit.Text

def utf8Length (text : List Char) : Nat :=
  (text.map Char.utf8Size).foldr (· + ·) 0

structure Span where
  offset : Nat
  length : Nat
deriving DecidableEq

structure Line where
  number : Nat
  offset : Nat
  text : List Char
deriving DecidableEq

def Line.span (line : Line) : Span :=
  ⟨line.offset, utf8Length line.text⟩

def Line.isBlank (line : Line) : Bool :=
  line.text.all Text.isBlank

def Line.quoted (line : Line) : String :=
  String.ofList (trim line.text)

structure Cursor where
  number : Nat
  offset : Nat

def Cursor.start : Cursor := ⟨1, 0⟩

def dropReturns (text : List Char) : List Char :=
  (text.reverse.dropWhile (· == '\r')).reverse

def Cursor.take (raw : List Char) : StateM Cursor Line :=
  fun cursor =>
    (⟨cursor.number, cursor.offset, dropReturns raw⟩,
      ⟨cursor.number + 1, cursor.offset + utf8Length raw + 1⟩)

def numbered (cursor : Cursor) (raws : List (List Char)) : List Line :=
  ((raws.mapM Cursor.take).run cursor).1

@[simp]
theorem numbered_nil (cursor : Cursor) : numbered cursor [] = [] := rfl

@[simp]
theorem numbered_cons (cursor : Cursor) (raw : List Char) (raws : List (List Char)) :
    numbered cursor (raw :: raws) =
      ⟨cursor.number, cursor.offset, dropReturns raw⟩ ::
        numbered ⟨cursor.number + 1, cursor.offset + utf8Length raw + 1⟩ raws := by
  simp only [numbered, List.mapM_cons, StateT.run_bind, StateT.run_pure]
  rfl

def lines (text : String) : List Line :=
  match trimEnd text.toList with
  | [] => []
  -- The text no longer ends in a line feed, so the last piece is a line too.
  | c :: rest => numbered .start (pieces (· == '\n') (c :: rest))

theorem length_numbered (cursor : Cursor) (raws : List (List Char)) :
    (numbered cursor raws).length = raws.length := by
  induction raws generalizing cursor with
  | nil => rfl
  | cons raw raws ih => simp [ih]

end BroadcastAudit.Text
