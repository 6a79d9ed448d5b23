import BroadcastAudit.Event
import BroadcastAudit.Fault

set_option autoImplicit false

namespace BroadcastAudit

structure LogFile where
  name : String
  text : String
deriving DecidableEq

namespace LogFile

def ofEvents (name : String) (events : List Event) : LogFile :=
  ⟨name, String.join (events.map fun event => event.text ++ "\n")⟩

def lines (log : LogFile) : List Text.Line :=
  Text.lines log.text

def place (log : LogFile) (line : Text.Line) : Place :=
  ⟨log.name, line.number⟩

def readLine (log : LogFile) (line : Text.Line) : Except Fault LogEntry :=
  match Event.read? line.text with
  | some event => .ok ⟨line.number, event⟩
  | none => .error (.notAnEvent (log.place line) line.span)

def items (log : LogFile) : List (Except Fault LogEntry) :=
  log.lines.map log.readLine

def parse (log : LogFile) : Except Fault (List LogEntry) :=
  log.lines.mapM log.readLine

theorem readLine_eq_ok_iff (log : LogFile) (line : Text.Line) (entry : LogEntry) :
    log.readLine line = .ok entry ↔
      line.number = entry.line ∧ Event.read? line.text = some entry.event := by
  obtain ⟨number, event⟩ := entry
  unfold readLine
  cases Event.read? line.text <;> simp

end LogFile

end BroadcastAudit
