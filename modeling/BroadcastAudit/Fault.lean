import BroadcastAudit.Process
import BroadcastAudit.Text.Line

set_option autoImplicit false

namespace BroadcastAudit

inductive Refusal where
  | notFound
  | notADirectory
  | isADirectory
  | tooManyLinks
  | accessDenied
  | noDevice
  | nameTooLong
  | nulByte
  | notText
  | other (text : String)
deriving DecidableEq

def Refusal.text : Refusal → String
  | notFound => "No such file or directory (os error 2)"
  | notADirectory => "Not a directory (os error 20)"
  | isADirectory => "Is a directory (os error 21)"
  | tooManyLinks => "Too many levels of symbolic links (os error 40)"
  | accessDenied => "Permission denied (os error 13)"
  | noDevice => "No such device or address (os error 6)"
  | nameTooLong => "File name too long (os error 36)"
  | nulByte => "file name contained an unexpected NUL byte"
  | notText => "stream did not contain valid UTF-8"
  | other text => text

inductive FileAction where
  | openFile
  | readFile
  | readDirectory
  | queryMetadata
deriving DecidableEq

def FileAction.text : FileAction → String
  | openFile => "open file"
  | readFile => "read from file"
  | readDirectory => "read directory"
  | queryMetadata => "query resolved metadata"

inductive ConfigFlaw where
  | noMessageCount
  | notMessageCount (found : String)
  | emptyRow
  | notRow (found : String)
  | wrongProcess (expected found : Nat)
  | unknownDependency (dependency processCount : Nat)
  | noReceiver
  | notReceiver (found : String)
  | nonPositiveReceiver
  | unlistedReceiver (receiver : ProcessId)
deriving DecidableEq

def ConfigFlaw.text : ConfigFlaw → String
  | noMessageCount => "missing message count"
  | notMessageCount found => s!"expected the message count, found `{found}`"
  | emptyRow => "empty dependency line"
  | notRow found => s!"expected `<process> <dependencies>...`, found `{found}`"
  | wrongProcess expected found => s!"expected process {expected} on this line, found {found}"
  | unknownDependency dependency processCount =>
    s!"dependency {dependency} is not one of the {processCount} processes"
  | noReceiver => "missing `<messages> <receiver>` line"
  | notReceiver found => s!"expected `<messages> <receiver>`, found `{found}`"
  | nonPositiveReceiver => "receiver id must be positive"
  | unlistedReceiver receiver => s!"receiver {receiver} is not listed in the hosts file"

inductive HostsFlaw where
  | notProcess (found : String)
  | listedTwice (process : ProcessId)
deriving DecidableEq

def HostsFlaw.text : HostsFlaw → String
  | notProcess found => s!"expected a process id, found `{found}`"
  | listedTwice process => s!"process {process} is listed twice"

structure Place where
  file : String
  line : Nat
deriving DecidableEq

instance : ToString Place := ⟨fun place => s!"{place.file}, line {place.line}"⟩

inductive Fault where
  | unreadable (action : FileAction) (path : String) (refusal : Refusal)
  | notAnEvent (place : Place) (span : Text.Span)
  | badConfig (place : Place) (flaw : ConfigFlaw)
  | badHosts (place : Place) (flaw : HostsFlaw)
  | badOutputName (path : String)
  | wrongOutputCount (found expected : Nat)
  | noOutput (process : ProcessId)
  | unknownSender (place : Place) (process : ProcessId) (processCount : Nat)
  | unknownLog (file : String) (process : ProcessId) (processCount : Nat)
  | repeatedBroadcast (place : Place) (message : Message)
  | neverBroadcast (place : Place) (message : Message)
  | notABroadcast (place : Place) (span : Text.Span)
  | notADelivery (place : Place) (span : Text.Span)
  | repeatedDelivery (place : Place) (message : Message)
  | neverSent (message : Message)
deriving DecidableEq

namespace Fault

def message : Fault → String
  | unreadable action path refusal => s!"failed to {action.text} `{path}`: {refusal.text}"
  | notAnEvent place _ => s!"{place}: malformed log line"
  | badConfig place flaw => s!"{place}: malformed configuration: {flaw.text}"
  | badHosts place flaw => s!"{place}: malformed hosts entry: {flaw.text}"
  | badOutputName path => s!"output file name {path} does not start with a process id"
  | wrongOutputCount found expected =>
    s!"Not as many output files as number of processes: found {found}, expected {expected}"
  | noOutput process => s!"no output file for process {process}"
  | unknownSender place process processCount =>
    s!"{place}: process {process} is not part of this run of {processCount} processes"
  | unknownLog file process processCount =>
    s!"{file}: output of process {process}, but the configuration has {processCount} processes"
  | repeatedBroadcast place message => s!"{place}: message {message} was already broadcast"
  | neverBroadcast place message =>
    s!"{place}: delivered message {message} has no broadcast in its sender's log"
  | notABroadcast place _ =>
    s!"{place}: invalid format for sender output, expected `b <seq>`"
  | notADelivery place _ =>
    s!"{place}: invalid format for receiver output, expected `d <sender> <seq>`"
  | repeatedDelivery place message =>
    s!"{place}: found message {message} delivered more than once"
  | neverSent message => s!"message {message} was delivered but not sent"

def code : Fault → String
  | unreadable .. => "bcastcheck::io"
  | notAnEvent .. => "bcastcheck::malformed_log_line"
  | badConfig .. => "bcastcheck::malformed_config"
  | badHosts .. => "bcastcheck::malformed_hosts"
  | badOutputName .. => "bcastcheck::invalid_output_name"
  | wrongOutputCount .. => "bcastcheck::output_count_mismatch"
  | noOutput .. => "bcastcheck::missing_output"
  | unknownSender .. => "bcastcheck::unknown_process"
  | unknownLog .. => "bcastcheck::process_out_of_range"
  | repeatedBroadcast .. => "bcastcheck::duplicate_broadcast"
  | neverBroadcast .. => "bcastcheck::unknown_message"
  | notABroadcast .. => "bcastcheck::invalid_sender_log"
  | notADelivery .. => "bcastcheck::invalid_receiver_log"
  | repeatedDelivery .. => "bcastcheck::duplicate_delivery"
  | neverSent .. => "bcastcheck::message_not_sent"

def help? : Fault → Option String
  | notAnEvent .. => some "log lines are `b <seq>` or `d <sender> <seq>`"
  | badOutputName .. => some "output files are named `<process id>.output`"
  | _ => none

def label? : Fault → Option (Text.Span × String)
  | notAnEvent _ span => some (span, "not a broadcast or delivery event")
  | notABroadcast _ span | notADelivery _ span => some (span, "line read")
  | _ => none

end Fault

end BroadcastAudit
