import DebugBridge.Bridge.Message
import DebugBridge.Codec.Link
import DebugBridge.Codec.Outcome
import DebugBridge.Session.Operation

/-!
# Methods and their parameters

What the host can ask for.  `Ask.read` takes the method and the parameters of a request to the
thing that is asked, or says which of the two is wrong.
-/

namespace DebugBridge.Bridge

/-- What a start of a session takes from the host. -/
structure StartParams where
  elfFile : String
  debugger : Option String
  asyncMode : Option Bool
  architecture : Option String
  /-- in milliseconds -/
  commandLimit : Option Nat
  remote : Option Link
  extended : Bool
deriving DecidableEq, Repr

namespace StartParams

def record : Json.Record StartParams :=
  StartParams.mk <$> .required "elf_file" .path <*> .optional "gdb_path" .string <*>
    .optional "async_mode" .bool <*> .optional "architecture" .string <*>
    .optional "command_timeout_ms" (.word 64) <*> .optional "remote" Link.decoder <*>
    .defaulted "extended_remote" .bool false

/-- What is started: the environment decides where the host does not. -/
def plan (environment : String → Option String) (params : StartParams) : Session.Plan :=
  let config := Config.ofEnvironment environment params.elfFile
  { config := { config with
      debugger := params.debugger.getD config.debugger
      asyncMode := params.asyncMode.getD config.asyncMode
      commandLimit := params.commandLimit.getD config.commandLimit
      architecture := params.architecture }
    target := match params.remote with
      | some link => .remote link params.extended
      | none => .local }

end StartParams

/-- What the host asks for. -/
inductive Ask
  | start (params : StartParams)
  | stop
  | status
  /-- a call of the session -/
  | call (call : Session.Call)
  /-- a command as it is; without a limit, that of the session holds -/
  | command (text : String) (limit : Option Nat)
  | insert (breakpoint : Breakpoint)
  | remove (breakpoint : Breakpoint)
  | settings (settings : List String)
  | frames
  | locals
deriving DecidableEq, Repr

namespace Ask

/-- What is asked for by a method that takes no parameters. -/
def plain? : String → Option Ask
  | "session/stop" => some stop
  | "session/status" => some status
  | "exec/run" => some (call .run)
  | "exec/continue" => some (call .continue)
  | "exec/next" => some (call .next)
  | "exec/step" => some (call .step)
  | "exec/finish" => some (call .finish)
  | "exec/pause" => some (call .pause)
  | "stack/frames" => some frames
  | "stack/locals" => some locals
  | _ => none

def decoder? : String → Option (Json.Decoder Ask)
  | "session/start" => some ((start <$> StartParams.record).decoder "StartParams")
  | "data/print" =>
      some (((fun s => call (.print s)) <$> Json.Record.required "symbol" .string).decoder
        "SymbolParams")
  | "data/evaluate" =>
      some (((fun s => call (.evaluate s)) <$> Json.Record.required "expression" .string).decoder
        "ExpressionParams")
  | "break/insert" => some ((insert <$> Breakpoint.record).decoder "BreakpointParams")
  | "break/remove" => some ((remove <$> Breakpoint.record).decoder "BreakpointParams")
  | "gdb/settings" =>
      some ((settings <$> Json.Record.required "settings" (.sequence .string)).decoder
        "SettingsParams")
  | "gdb/command" =>
      some ((command <$> Json.Record.required "command" .string <*>
        .optional "timeout_ms" (.word 64)).decoder "CommandParams")
  | _ => none

/-- What a request asks for. -/
def read (method : String) (params : Option Json) : Except Refusal Ask :=
  match plain? method, decoder? method with
  | some ask, _ => .ok ask
  | none, none => .error (.unknownMethod method)
  | none, some decoder =>
      match params with
      | none => .error (.badParams "Missing params")
      | some json => (decoder json).mapError fun e => .badParams e.message

end Ask

end DebugBridge.Bridge
