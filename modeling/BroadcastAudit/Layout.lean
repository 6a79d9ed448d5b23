import BroadcastAudit.Event
import BroadcastAudit.Text.Blank

set_option autoImplicit false

namespace BroadcastAudit

def Numeral.Denotes (digits : List Char) (n : Nat) : Prop :=
  isDigits digits = true ∧ value digits = n ∧ n < limit

inductive Event.Spelled : Event → List Char → Prop where
  | broadcast (seq : Nat) (gap digits : List Char) :
      gap ≠ [] → Text.Spaces gap → Numeral.Denotes digits seq →
        Spelled (.broadcast seq) ('b' :: (gap ++ digits))
  | deliver (message : Message) (gap senderDigits between seqDigits : List Char) :
      gap ≠ [] → Text.Spaces gap → Numeral.Denotes senderDigits message.sender.val →
        between ≠ [] → Text.Spaces between → Numeral.Denotes seqDigits message.seq →
          Spelled (.deliver message) ('d' :: (gap ++ (senderDigits ++ (between ++ seqDigits))))

-- A line feed ends every line but the last; any number of carriage returns may precede it.
inductive Layout : List Event → List Char → Prop where
  | blank (text : List Char) : Text.Blank text → Layout [] text
  | last (event : Event) (lead words blank : List Char) :
      Text.Spaces lead → event.Spelled words → Text.Blank blank →
        Layout [event] (lead ++ (words ++ blank))
  | line (event next : Event) (events : List Event) (lead words trail returns rest : List Char) :
      Text.Spaces lead → event.Spelled words → Text.Spaces trail → (∀ c ∈ returns, c = '\r') →
        Layout (next :: events) rest →
          Layout (event :: next :: events) (lead ++ (words ++ (trail ++ (returns ++ '\n' :: rest))))

def Event.Representable : Event → Prop
  | broadcast seq => seq < Numeral.limit
  | deliver message => message.sender.val < Numeral.limit ∧ message.seq < Numeral.limit

end BroadcastAudit
