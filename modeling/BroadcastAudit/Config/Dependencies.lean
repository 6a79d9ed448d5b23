import BroadcastAudit.Config.Numbers
import BroadcastAudit.Failure

set_option autoImplicit false

namespace BroadcastAudit

structure Dependencies where
  messageCount : Nat
  rows : List (List ProcessId)
  row_sublist : ∀ row ∈ rows, row.Sublist (ProcessId.all rows.length)
deriving DecidableEq

namespace Dependencies

def processCount (config : Dependencies) : Nat :=
  config.rows.length

-- Rows with the senders numbered by `dependencies`; numbers outside the run name nobody.
def ofNumbers (messageCount : Nat) (dependencies : List (List Nat)) : Dependencies where
  messageCount := messageCount
  rows := dependencies.map fun numbers =>
    (ProcessId.all dependencies.length).filter (numbers.contains ·.val)
  row_sublist := by
    simp only [List.length_map, List.mem_map]
    rintro row ⟨numbers, -, rfl⟩
    exact List.filter_sublist

def sendersOf (config : Dependencies) (process : ProcessId) :
    Except Misuse (List ProcessId) :=
  match config.rows[process.index]? with
  | some row => .ok row
  | none => .error .processOutsideConfig

def depends (config : Dependencies) (process sender : ProcessId) : Except Misuse Bool := do
  let row ← config.sendersOf process
  if sender.val ≤ config.processCount then return row.contains sender
  else throw .processOutsideConfig

def Depends (config : Dependencies) (process sender : ProcessId) : Prop :=
  sender ∈ config.rows[process.index]?.getD []

instance (config : Dependencies) (process sender : ProcessId) :
    Decidable (config.Depends process sender) :=
  inferInstanceAs (Decidable (_ ∈ _))

def text (config : Dependencies) : String :=
  s!"{config.messageCount}\n" ++ String.join (config.rows.zipIdx.map fun (row, index) =>
    " ".intercalate ((ProcessId.ofIndex index :: row).map toString) ++ "\n")

section Reading

variable (file : String)

def readMessageCount (header : Text.Line) : Except Fault Nat :=
  match Config.numbers? header with
  | some [count] => .ok count
  | _ => .error (.badConfig ⟨file, header.number⟩ (.notMessageCount header.quoted))

def readRow (line : Text.Line) : Except Fault (Nat × List Nat) :=
  if line.isBlank then .error (.badConfig ⟨file, line.number⟩ .emptyRow)
  else
    match Config.numbers? line with
    | some numbers => .ok (line.number, numbers)
    | none => .error (.badConfig ⟨file, line.number⟩ (.notRow line.quoted))

def checkRow (processCount : Nat) : (Nat × List Nat) × Nat → Except Fault (List Nat)
  -- A row that was read has at least one number.
  | ((line, []), _) => .error (.badConfig ⟨file, line⟩ .emptyRow)
  | ((line, own :: dependencies), index) =>
    if own ≠ index + 1 then
      .error (.badConfig ⟨file, line⟩ (.wrongProcess (index + 1) own))
    else
      match dependencies.find? fun n => n = 0 ∨ processCount < n with
      | some n => .error (.badConfig ⟨file, line⟩ (.unknownDependency n processCount))
      | none => .ok dependencies

-- All rows are read as numbers before the first of them is held against the run.
def parse (text : String) : Except Fault Dependencies :=
  match Text.lines text with
  | [] => .error (.badConfig ⟨file, 1⟩ .noMessageCount)
  | header :: lines => do
    let messageCount ← readMessageCount file header
    let rows ← lines.mapM (readRow file)
    let dependencies ← rows.zipIdx.mapM (checkRow file rows.length)
    return ofNumbers messageCount dependencies

end Reading

theorem processCount_ofNumbers (messageCount : Nat) (dependencies : List (List Nat)) :
    (ofNumbers messageCount dependencies).processCount = dependencies.length := by
  simp [processCount, ofNumbers]

theorem sendersOf_eq_ok (config : Dependencies) (process : ProcessId)
    (h : process.val ≤ config.processCount) :
    ∃ row ∈ config.rows, config.sendersOf process = .ok row := by
  have lt : process.index < config.rows.length := (process.index_lt_iff _).2 h
  refine ⟨config.rows[process.index], List.getElem_mem lt, ?_⟩
  simp only [sendersOf]
  rw [List.getElem?_eq_getElem lt]

theorem depends_eq_ok (config : Dependencies) (process sender : ProcessId)
    (hp : process.val ≤ config.processCount) (hs : sender.val ≤ config.processCount) :
    ∃ row ∈ config.rows, config.depends process sender = .ok (row.contains sender) := by
  obtain ⟨row, mem, eq⟩ := config.sendersOf_eq_ok process hp
  refine ⟨row, mem, ?_⟩
  simp only [depends, eq, bind, Except.bind, hs, if_true]
  rfl

theorem le_processCount_of_depends {config : Dependencies} {process sender : ProcessId}
    (h : config.Depends process sender) :
    process.val ≤ config.processCount ∧ sender.val ≤ config.processCount := by
  unfold Depends at h
  cases row : config.rows[process.index]? with
  | none => simp [row] at h
  | some dependencies =>
    rw [row] at h
    obtain ⟨lt, -⟩ := List.getElem?_eq_some_iff.1 row
    refine ⟨(process.index_lt_iff _).1 lt, (ProcessId.mem_all ..).1 ?_⟩
    exact (config.row_sublist _ (List.mem_of_getElem? row)).subset h

theorem forall_depends_iff (config : Dependencies) (related : ProcessId → ProcessId → Prop) :
    (∀ process sender, config.Depends process sender → related process sender) ↔
      ∀ process ∈ ProcessId.all config.processCount,
        ∀ sender ∈ ProcessId.all config.processCount,
          config.Depends process sender → related process sender := by
  constructor
  next => exact fun every process _ sender _ => every process sender
  next =>
    intro inRun process sender depends
    have known := le_processCount_of_depends depends
    exact inRun process ((ProcessId.mem_all ..).2 known.1) sender ((ProcessId.mem_all ..).2 known.2)
      depends

theorem depends_eq_ok_true_iff (config : Dependencies) (process sender : ProcessId) :
    config.depends process sender = .ok true ↔ config.Depends process sender := by
  constructor
  next =>
    intro h
    unfold depends sendersOf at h
    cases row : config.rows[process.index]? with
    | none => simp [row, bind, Except.bind] at h
    | some dependencies =>
      simp only [row, bind, Except.bind] at h
      split at h
      next => simpa [Depends, row, pure, Except.pure] using h
      next => cases h
  next =>
    intro h
    obtain ⟨hp, hs⟩ := le_processCount_of_depends h
    unfold depends sendersOf
    unfold Depends at h
    cases row : config.rows[process.index]? with
    | none => simp [row] at h
    | some dependencies =>
      simp only [row, Option.getD_some] at h
      simp [bind, Except.bind, pure, Except.pure, hs, h]

theorem depends_eq_ok_decide (config : Dependencies) (process sender : ProcessId)
    (hp : process.val ≤ config.processCount) (hs : sender.val ≤ config.processCount) :
    config.depends process sender = .ok (decide (config.Depends process sender)) := by
  obtain ⟨row, -, eq⟩ := config.depends_eq_ok process sender hp hs
  have listed := depends_eq_ok_true_iff config process sender
  rw [eq, Except.ok.injEq] at listed
  rw [eq, Except.ok.injEq, Bool.eq_iff_iff, listed, decide_eq_true_iff]

end Dependencies

end BroadcastAudit
