/-!
# Stop reasons

Why a target stopped, as its stop record says.
-/

namespace DebugBridge

/-- Why a target stopped. -/
inductive StopReason
  | breakpointHit
  | watchpointTrigger
  | functionFinished
  | locationReached
  | endSteppingRange
  | exitedSignalled
  | exited
  | exitedNormally
  | signalReceived
  /-- a reason outside this list, by its keyword -/
  | unknown (keyword : String)
deriving DecidableEq, Repr

namespace StopReason

def keyword : StopReason → String
  | breakpointHit => "breakpoint-hit"
  | watchpointTrigger => "watchpoint-trigger"
  | functionFinished => "function-finished"
  | locationReached => "location-reached"
  | endSteppingRange => "end-stepping-range"
  | exitedSignalled => "exited-signalled"
  | exited => "exited"
  | exitedNormally => "exited-normally"
  | signalReceived => "signal-received"
  | unknown keyword => keyword

/-- The reasons of the list. -/
def listed : List StopReason :=
  [breakpointHit, watchpointTrigger, functionFinished, locationReached, endSteppingRange,
    exitedSignalled, exited, exitedNormally, signalReceived]

/-- The reason of the list with this keyword. -/
def listed? (keyword : String) : Option StopReason :=
  listed.find? (·.keyword == keyword)

/-- The reason that a keyword names. -/
def ofKeyword (keyword : String) : StopReason :=
  (listed? keyword).getD (unknown keyword)

end StopReason

end DebugBridge
