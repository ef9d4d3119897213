import DebugBridge.Json.Decode
import DebugBridge.Session.Core

/-!
# Phases as JSON

A phase is its keyword.
-/

namespace DebugBridge.Session.Phase

/-- The phases of a session, in the order of its life. -/
def all : List Phase :=
  [idle, starting, ready, running, stopped, exited]

def toJson (phase : Phase) : Json :=
  .string phase.keyword

def decoder : Json.Decoder Phase :=
  Json.Decoder.keyword "SessionState" (all.map fun phase => (phase.keyword, phase))

end DebugBridge.Session.Phase
