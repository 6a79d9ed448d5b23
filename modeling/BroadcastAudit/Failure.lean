import BroadcastAudit.Fault

set_option autoImplicit false

namespace BroadcastAudit

-- An operation outside its domain. No audit may end in one.
inductive Misuse where
  | slotOutsideClock
  | clocksOfDifferentRuns
  | processOutsideConfig
deriving DecidableEq

def Misuse.text : Misuse → String
  | slotOutsideClock => "the clock has no slot for this process"
  | clocksOfDifferentRuns => "clocks of different runs"
  | processOutsideConfig => "the configuration has no such process"

inductive Failure where
  | fault (cause : Fault)
  | misuse (cause : Misuse)
deriving DecidableEq

def Failure.message : Failure → String
  | fault cause => cause.message
  | misuse cause => cause.text

end BroadcastAudit
