import BroadcastAudit.Audit

set_option autoImplicit false

namespace BroadcastAudit

inductive Command where
  | fifo (processCount : Nat) (dir : String)
  | causal (config dir : String)
  | perfectLinks (hosts config dir : String)
deriving DecidableEq

-- Requests for help (`-h`, `--help`, the command `help`) are left out, since the argument parser
-- alone answers them. Here they are refused as any unknown argument is.
inductive Invocation where
  | version
  | run (command : Command)
  | usageError
deriving DecidableEq

abbrev Options := List (String × String)

namespace Options

def give (options : Options) (name value : String) : Option Options :=
  if (options.lookup name).isSome then none else some ((name, value) :: options)

def splitAttached (option : List Char) : String × Option String :=
  let name := option.takeWhile (· != '=')
  let value := match option.drop name.length with
    | [] => none
    | _ :: value => some (String.ofList value)
  (String.ofList name, value)

-- What starts with a dash is no value, except a dash alone.
def isValue (arg : String) : Bool :=
  arg.toList.head? != some '-' || arg == "-"

def read (names : List String) : List String → Option Options
  | [] => some []
  | arg :: rest =>
    if arg = "--" then if rest.isEmpty then some [] else none
    else if arg = "--debug" then read names rest
    else
      match arg.toList with
      | '-' :: '-' :: option =>
        let (name, attached) := splitAttached option
        if names.contains name then
          match attached, rest with
          | some value, rest => do give (← read names rest) name value
          | none, value :: rest =>
            if isValue value then do give (← read names rest) name value else none
          | none, [] => none
        else none
      | '-' :: 'd' :: more => if more.all (· == 'd') then read names rest else none
      | _ => none

end Options

namespace Command

-- A positive number below the limit of numerals; a plus sign may precede it.
def readCount? (text : String) : Option Nat := do
  let digits := match text.toList with
    | '+' :: digits => digits
    | digits => digits
  let count ← Numeral.read? digits
  if 0 < count then some count else none

def read (name : String) (args : List String) : Option Command :=
  match name with
  | "fifo" => do
    let options ← Options.read ["proc_num", "out_dir"] args
    return fifo (← readCount? (← options.lookup "proc_num")) (← options.lookup "out_dir")
  | "causal" => do
    let options ← Options.read ["config_file", "out_dir"] args
    return causal (← options.lookup "config_file") (← options.lookup "out_dir")
  | "perfect-links" => do
    let options ← Options.read ["hosts", "config", "out_dir"] args
    return perfectLinks (← options.lookup "hosts") (← options.lookup "config")
      (← options.lookup "out_dir")
  | _ => none

def pathsExist (files : FileSystem) : Command → Bool
  | fifo _ dir => files.isDirectory dir
  | causal config dir => files.isFile config && files.isDirectory dir
  | perfectLinks hosts config dir =>
    files.isFile hosts && files.isFile config && files.isDirectory dir

end Command

def Invocation.read : List String → Invocation
  | [] => usageError
  | arg :: rest =>
    if arg = "--version" then version
    else if arg = "--debug" then read rest
    else
      match arg.toList with
      | '-' :: flag :: more =>
        -- The first flag that is not a debugging flag settles a cluster of flags.
        match (flag :: more).dropWhile (· == 'd') with
        | [] => read rest
        | 'V' :: _ => version
        | _ => usageError
      | _ =>
        match Command.read arg rest with
        | some command => run command
        | none => usageError

structure Outcome where
  exitCode : Nat
  stdout : String
  error : Option String
deriving DecidableEq

namespace Outcome

def success (stdout : String) : Outcome := ⟨0, stdout, none⟩

def failure (stdout error : String) : Outcome := ⟨1, stdout, some error⟩

def usageError : Outcome := ⟨2, "", none⟩

end Outcome

def Command.run (files : FileSystem) : Command → Outcome
  | fifo processCount dir =>
    match files.auditFifo dir processCount with
    | .error fault => .failure "" fault.message
    | .ok report =>
      if report.isCorrect then .success report.text
      else .failure report.text "FIFO order violated"
  | causal config dir =>
    match files.auditCausal dir config with
    | .error failure => .failure "" failure.message
    | .ok run =>
      match run.verdict with
      | .correct => .success run.text
      | .incorrect => .failure run.text "causal broadcast properties violated"
  | perfectLinks hosts config dir =>
    match files.auditLinks hosts config dir with
    | .error fault => .failure "Validating....\n" fault.message
    | .ok _ =>
      .success ("Validating....\n" ++ "Congratulations! Your out files passed the test.\n")

def Invocation.execute (files : FileSystem) : Invocation → Outcome
  | version => .success "bcastcheck 0.1.0\n"
  | run command => if command.pathsExist files then command.run files else .usageError
  | usageError => .usageError

end BroadcastAudit
