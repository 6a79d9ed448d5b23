import BroadcastAudit.Config.Dependencies
import BroadcastAudit.Layout

set_option autoImplicit false

namespace BroadcastAudit

open Text

namespace Config

inductive NumberList : List Nat → List Char → Prop
  | last (n : Nat) (lead digits trail : List Char) :
      Spaces lead → Numeral.Denotes digits n → Spaces trail →
        NumberList [n] (lead ++ (digits ++ trail))
  | more (n : Nat) (numbers : List Nat) (lead digits gap rest : List Char) :
      Spaces lead → Numeral.Denotes digits n → gap ≠ [] → Spaces gap → NumberList numbers rest →
        NumberList (n :: numbers) (lead ++ (digits ++ (gap ++ rest)))

def IsNumberList (line : List Char) : Prop :=
  ∃ numbers, NumberList numbers line

end Config

namespace Dependencies

def InRun (processCount n : Nat) : Prop :=
  1 ≤ n ∧ n ≤ processCount

structure RowOf (processCount index : Nat) (line : Line) (senders : List Nat) : Prop where
  numbers : Config.NumberList ((index + 1) :: senders) line.text
  inRun : ∀ n ∈ senders, InRun processCount n

structure Written (messageCount : Nat) (rows : List (List Nat)) (header : Line)
    (lines : List Line) : Prop where
  header : Config.NumberList [messageCount] header.text
  size : lines.length = rows.length
  rowOf : ∀ index line senders, lines[index]? = some line → rows[index]? = some senders →
    RowOf lines.length index line senders

/-- What a configuration answers if its rows name these senders, in any order and repeatedly. -/
structure Records (config : Dependencies) (messageCount : Nat) (rows : List (List Nat)) :
    Prop where
  messageCount : config.messageCount = messageCount
  processCount : config.processCount = rows.length
  depends : ∀ (process sender : ProcessId) (row : List Nat), rows[process.index]? = some row →
    sender.val ≤ rows.length → config.depends process sender = .ok (decide (sender.val ∈ row))
  sendersOf : ∀ (process : ProcessId) (row : List Nat), rows[process.index]? = some row →
    ∃ senders, config.sendersOf process = .ok senders ∧
      (senders.Pairwise fun p q => p.val < q.val) ∧
        ∀ sender, sender ∈ senders ↔ sender.val ∈ row

inductive Unreadable (line : Line) : ConfigFlaw → Prop
  | blank : Blank line.text → Unreadable line .emptyRow
  | other : ¬ Blank line.text → ¬ Config.IsNumberList line.text →
      Unreadable line (.notRow line.quoted)

inductive Misplaced (processCount index : Nat) : List Nat → ConfigFlaw → Prop
  | process (own : Nat) (senders : List Nat) : own ≠ index + 1 →
      Misplaced processCount index (own :: senders) (.wrongProcess (index + 1) own)
  | sender (known : List Nat) (n : Nat) (others : List Nat) :
      (∀ m ∈ known, InRun processCount m) → ¬ InRun processCount n →
        Misplaced processCount index ((index + 1) :: (known ++ n :: others))
          (.unknownDependency n processCount)

/-- The number of the line at fault, and its flaw. A row that is no list of numbers comes before
all rows that are not those of their processes, wherever it stands. -/
inductive Flawed : List Line → Nat → ConfigFlaw → Prop
  | noLine : Flawed [] 1 .noMessageCount
  | header (header : Line) (rest : List Line) :
      (∀ count, ¬ Config.NumberList [count] header.text) →
        Flawed (header :: rest) header.number (.notMessageCount header.quoted)
  | unreadable (count : Nat) (header line : Line) (before after : List Line) (flaw : ConfigFlaw) :
      Config.NumberList [count] header.text →
        (∀ earlier ∈ before, Config.IsNumberList earlier.text) → Unreadable line flaw →
          Flawed (header :: (before ++ line :: after)) line.number flaw
  | misplaced (count processCount : Nat) (header line : Line) (before after : List Line)
      (numbers : List Nat) (flaw : ConfigFlaw) :
      Config.NumberList [count] header.text →
        (before ++ line :: after).length = processCount →
          (∀ other ∈ before ++ line :: after, Config.IsNumberList other.text) →
            (∀ index earlier, before[index]? = some earlier →
              ∃ senders, RowOf processCount index earlier senders) →
              Config.NumberList numbers line.text →
                Misplaced processCount before.length numbers flaw →
                  Flawed (header :: (before ++ line :: after)) line.number flaw

end Dependencies

end BroadcastAudit
