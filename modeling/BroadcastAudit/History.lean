import BroadcastAudit.Event

set_option autoImplicit false

namespace BroadcastAudit.History

def broadcasts (entries : List LogEntry) : List Nat :=
  entries.filterMap fun entry =>
    match entry.event with
    | .broadcast seq => some seq
    | .deliver _ => none

def deliveries (entries : List LogEntry) : List Message :=
  entries.filterMap fun entry =>
    match entry.event with
    | .broadcast _ => none
    | .deliver message => some message

def deliveriesFrom (sender : ProcessId) (entries : List LogEntry) : List Nat :=
  (deliveries entries).filterMap fun message =>
    if message.sender = sender then some message.seq else none

@[simp]
theorem broadcasts_append (before after : List LogEntry) :
    broadcasts (before ++ after) = broadcasts before ++ broadcasts after :=
  List.filterMap_append

@[simp]
theorem deliveries_append (before after : List LogEntry) :
    deliveries (before ++ after) = deliveries before ++ deliveries after :=
  List.filterMap_append

@[simp]
theorem deliveriesFrom_append (sender : ProcessId) (before after : List LogEntry) :
    deliveriesFrom sender (before ++ after) =
      deliveriesFrom sender before ++ deliveriesFrom sender after := by
  simp [deliveriesFrom]

@[simp]
theorem broadcasts_nil : broadcasts [] = [] := rfl

@[simp]
theorem deliveries_nil : deliveries [] = [] := rfl

@[simp]
theorem deliveriesFrom_nil (sender : ProcessId) : deliveriesFrom sender [] = [] := rfl

@[simp]
theorem broadcasts_broadcast (line seq : Nat) (rest : List LogEntry) :
    broadcasts (⟨line, .broadcast seq⟩ :: rest) = seq :: broadcasts rest := rfl

@[simp]
theorem broadcasts_deliver (line : Nat) (message : Message) (rest : List LogEntry) :
    broadcasts (⟨line, .deliver message⟩ :: rest) = broadcasts rest := rfl

@[simp]
theorem deliveries_broadcast (line seq : Nat) (rest : List LogEntry) :
    deliveries (⟨line, .broadcast seq⟩ :: rest) = deliveries rest := rfl

@[simp]
theorem deliveries_deliver (line : Nat) (message : Message) (rest : List LogEntry) :
    deliveries (⟨line, .deliver message⟩ :: rest) = message :: deliveries rest := rfl

@[simp]
theorem deliveriesFrom_broadcast (sender : ProcessId) (line seq : Nat) (rest : List LogEntry) :
    deliveriesFrom sender (⟨line, .broadcast seq⟩ :: rest) = deliveriesFrom sender rest := rfl

theorem deliveriesFrom_deliver (sender : ProcessId) (line : Nat) (message : Message)
    (rest : List LogEntry) :
    deliveriesFrom sender (⟨line, .deliver message⟩ :: rest) =
      if message.sender = sender then message.seq :: deliveriesFrom sender rest
      else deliveriesFrom sender rest := by
  by_cases same : message.sender = sender <;> simp [deliveriesFrom, same]

theorem mem_deliveriesFrom (sender : ProcessId) (seq : Nat) (entries : List LogEntry) :
    seq ∈ deliveriesFrom sender entries ↔ ⟨sender, seq⟩ ∈ deliveries entries := by
  simp only [deliveriesFrom, List.mem_filterMap, Option.ite_none_right_eq_some,
    Option.some.injEq]
  constructor
  next =>
    rintro ⟨message, mem, rfl, rfl⟩
    exact mem
  next => exact fun mem => ⟨_, mem, rfl, rfl⟩

end BroadcastAudit.History
