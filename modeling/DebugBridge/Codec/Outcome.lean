import DebugBridge.Codec.Value
import DebugBridge.Outcome

/-!
# Outcomes and their views as JSON

The structures as objects with their fields in the order of declaration.  An outcome without
payload has no field for it; other missing values are `null`.
-/

namespace DebugBridge

def Status.byKeyword : List (String × Status) :=
  [Status.done, .running, .connected, .error, .exit, .timeout].map fun s => (s.keyword, s)

def Status.decoder : Json.Decoder Status :=
  Json.Decoder.keyword "CommandStatus" byKeyword

namespace Outcome

def toJson (outcome : Outcome) : Json :=
  .object ([("status", .string outcome.status.keyword), ("raw", .string outcome.raw)] ++
    (outcome.payload.map fun value => ("payload", value.toJson)).toList)

def record : Json.Record Outcome :=
  Outcome.mk <$> .required "status" Status.decoder <*> .required "raw" .string <*>
    .optional "payload" Value.decoder

def decoder : Json.Decoder Outcome :=
  record.decoder "CommandResult"

end Outcome

namespace Frame

def toJson (frame : Frame) : Json :=
  .object
    [("level", .option .nat frame.level), ("addr", .option .string frame.addr),
      ("func", .option .string frame.func), ("file", .option .string frame.file),
      ("fullname", .option .string frame.fullname), ("line", .option .nat frame.line)]

def record : Json.Record Frame :=
  Frame.mk <$> .optional "level" (.word 32) <*> .optional "addr" .string <*>
    .optional "func" .string <*> .optional "file" .string <*> .optional "fullname" .string <*>
    .optional "line" (.word 32)

def decoder : Json.Decoder Frame :=
  record.decoder "Frame"

end Frame

namespace Variable

def toJson (v : Variable) : Json :=
  .object [("name", .string v.name), ("value", .option .string v.value)]

def record : Json.Record Variable :=
  Variable.mk <$> .required "name" .string <*> .optional "value" .string

def decoder : Json.Decoder Variable :=
  record.decoder "Local"

end Variable

namespace Breakpoint

def toJson (breakpoint : Breakpoint) : Json :=
  .object [("file", .string breakpoint.file), ("line", .nat breakpoint.line)]

def record : Json.Record Breakpoint :=
  Breakpoint.mk <$> .required "file" .path <*> .required "line" (.word 32)

def decoder : Json.Decoder Breakpoint :=
  record.decoder "Breakpoint"

end Breakpoint

namespace BreakpointReport

def toJson (report : BreakpointReport) : Json :=
  .object
    [("number", .string report.number), ("type", .string report.kind),
      ("disposition", .string report.disposition), ("enabled", .bool report.enabled),
      ("addr", .option .string report.addr), ("func", .option .string report.func),
      ("file", .option .string report.file), ("fullname", .option .string report.fullname),
      ("line", .option .nat report.line), ("times", .nat report.times),
      ("original_location", .option .string report.originalLocation)]

def record : Json.Record BreakpointReport :=
  BreakpointReport.mk <$> .required "number" .string <*> .required "type" .string <*>
    .required "disposition" .string <*> .required "enabled" .bool <*>
    .optional "addr" .string <*> .optional "func" .string <*> .optional "file" .string <*>
    .optional "fullname" .string <*> .optional "line" (.word 32) <*>
    .defaulted "times" (.word 32) 0 <*> .optional "original_location" .string

def decoder : Json.Decoder BreakpointReport :=
  record.decoder "BreakpointInfo"

end BreakpointReport

end DebugBridge
