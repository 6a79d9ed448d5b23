import BroadcastAudit.CommandLine
import BroadcastAudit.Proofs.Text.Numerals
import Mathlib.Data.List.TakeWhile

set_option autoImplicit false

namespace BroadcastAudit

namespace Options

theorem splitAttached_of_none {name : List Char} (plain : '=' ∉ name) :
    splitAttached name = (String.ofList name, none) := by
  have whole : name.takeWhile (· != '=') = name := by
    rw [List.takeWhile_eq_self_iff]
    exact fun c member => by simpa using ne_of_mem_of_not_mem member plain
  simp [splitAttached, whole]

def IsLong (name : String) : Prop :=
  name ≠ "" ∧ '=' ∉ name.toList ∧ name ≠ "debug"

instance (name : String) : Decidable (IsLong name) :=
  inferInstanceAs (Decidable (_ ∧ _))

theorem read_separate (names : List String) (name value : String) (rest : List String)
    (known : name ∈ names) (long : IsLong name) :
    read names (("--" ++ name) :: value :: rest) =
      if isValue value then (read names rest).bind (give · name value) else none := by
  obtain ⟨nonempty, plain, other⟩ := long
  have flag (name : String) : ("--" ++ name).toList = '-' :: '-' :: name.toList := by simp
  have cancel {name other : String} (same : "--" ++ name = "--" ++ other) : name = other := by
    have chars := congrArg String.toList same
    rw [flag, flag] at chars
    exact String.toList_inj.1 (List.cons.inj (List.cons.inj chars).2).2
  have final : "--" ++ name ≠ "--" := fun same => nonempty (cancel same)
  have debug : "--" ++ name ≠ "--debug" := fun same => other (cancel same)
  rw [read, if_neg final, if_neg debug, flag]
  simp [splitAttached_of_none plain, known]

theorem read_pair (first second : String) (distinct : second ≠ first) (firstName : IsLong first)
    (secondName : IsLong second) (value other : String) :
    read [first, second] ["--" ++ first, value, "--" ++ second, other] =
      if isValue value && isValue other then some [(first, value), (second, other)] else none := by
  have last := read_separate [first, second] second other [] (by simp) secondName
  rw [read_separate [first, second] first value _ (by simp) firstName, last]
  cases isValue value <;> cases isValue other <;> simp [read, give, distinct.symm]

theorem isValue_of_denotes {text : String} {n : Nat} (denotes : Numeral.Denotes text.toList n) :
    isValue text = true := by
  obtain ⟨c, rest, chars⟩ := List.exists_cons_of_ne_nil denotes.nonempty
  have digit : c.isDigit = true := denotes.isDigit c (chars ▸ List.mem_cons_self)
  have plain : c ≠ '-' := by
    rintro rfl
    cases digit
  simp [isValue, chars, plain]

end Options

theorem Command.readCount?_of_denotes {text : String} {n : Nat}
    (denotes : Numeral.Denotes text.toList n) :
    readCount? text = if 0 < n then some n else none := by
  unfold readCount?
  split
  next digits chars =>
    have digit := denotes.isDigit '+' (chars ▸ List.mem_cons_self)
    cases digit
  next => simp [(Numeral.read?_eq_some_iff_denotes _ n).2 denotes]

theorem Invocation.read_command (name : String) (args : List String)
    (plain : name.toList.head? ≠ some '-') :
    Invocation.read (name :: args) =
      match Command.read name args with
      | some command => .run command
      | none => .usageError := by
  have version : name ≠ "--version" := by
    rintro rfl
    exact plain rfl
  have debug : name ≠ "--debug" := by
    rintro rfl
    exact plain rfl
  rw [read, if_neg version, if_neg debug]
  split
  next flag more chars => simp [chars] at plain
  next => rfl

theorem Invocation.execute_ite {files : FileSystem} {command : Command} {accepted : Prop}
    [Decidable accepted] (found : command.pathsExist files = true) :
    (if accepted then Invocation.run command else .usageError).execute files =
      if accepted then command.run files else .usageError := by
  split
  next => rw [execute, if_pos found]
  next => rfl

theorem Invocation.read_causal (config dir : String) :
    Invocation.read ["causal", "--config_file", config, "--out_dir", dir] =
      if Options.isValue config && Options.isValue dir then .run (.causal config dir)
      else .usageError := by
  have options : Options.read ["config_file", "out_dir"]
      ["--config_file", config, "--out_dir", dir] = _ :=
    Options.read_pair "config_file" "out_dir" (by decide) (by decide) (by decide) config dir
  rw [read_command "causal" _ (by decide)]
  simp only [Command.read, options]
  cases Options.isValue config <;> cases Options.isValue dir <;> rfl

theorem Invocation.read_fifo {number : String} {processCount : Nat}
    (denotes : Numeral.Denotes number.toList processCount) (dir : String) :
    Invocation.read ["fifo", "--proc_num", number, "--out_dir", dir] =
      if 0 < processCount ∧ Options.isValue dir = true then .run (.fifo processCount dir)
      else .usageError := by
  have options : Options.read ["proc_num", "out_dir"]
      ["--proc_num", number, "--out_dir", dir] = _ :=
    Options.read_pair "proc_num" "out_dir" (by decide) (by decide) (by decide) number dir
  rw [Options.isValue_of_denotes denotes, Bool.true_and] at options
  have count := Command.readCount?_of_denotes denotes
  rw [read_command "fifo" _ (by decide)]
  simp only [Command.read, options]
  cases Options.isValue dir with
  | false => simp
  | true => by_cases positive : 0 < processCount <;> simp [List.lookup_cons, count, positive]

end BroadcastAudit
