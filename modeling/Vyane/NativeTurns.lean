import Vyane.NativeTools

/-!
The native turn driver (`vyane-harness/src/native/turn_driver.rs`): a bounded loop of model calls, each followed by at
most one tool call. The client is a parameter.
-/
namespace Vyane.Native
open Vyane.Core Json ToolChat Interactions

def MAX_NATIVE_MODEL_TURNS : Nat := 32
def SAFE_RESULT_HEADROOM_CHARS : Nat := 512

/-- Limits that `NativeTurnLimits::new` accepts. -/
structure NativeTurnLimits where
  max_model_turns : Nat
  positive : 0 < max_model_turns
  bounded : max_model_turns ≤ MAX_NATIVE_MODEL_TURNS

inductive NativeTurnLimitError where
  | Zero
  | AboveHardMaximum
deriving DecidableEq, Repr

def NativeTurnLimits.new (max_model_turns : Nat) : Except NativeTurnLimitError NativeTurnLimits :=
  if zero : max_model_turns = 0 then .error .Zero
  else if above : MAX_NATIVE_MODEL_TURNS < max_model_turns then .error .AboveHardMaximum
  else .ok ⟨max_model_turns,Nat.pos_of_ne_zero zero,Nat.le_of_not_lt above⟩

structure NativeAssistantReply where
  text : String
  content_parts : List AssistantContentPart
  refusal : Option String

inductive NativeTurnStop where
  | Completed (reply : NativeAssistantReply)
  | Refused (reply : NativeAssistantReply)
  | ApprovalRequired (plan : ApprovalPlan)
  | BudgetExhausted
  | UnsupportedParallelCalls
  | ToolChoiceViolation
  | Cancelled
  | TimedOut
  | AbortedAfterToolActivity (kind : ErrorKind)

structure NativeTurnOutcome where
  stop : NativeTurnStop
  usage : Option Usage
  model_turns : Nat
  tool_side_effects_possible : Bool

/-! ### The state of a run -/

structure RunState where
  usage : Option Usage
  model_turns : Nat
  tool_side_effects_possible : Bool

namespace RunState
def new (tool_side_effects_possible : Bool) : RunState := ⟨none,0,tool_side_effects_possible⟩
def finish (state : RunState) (stop : NativeTurnStop) : NativeTurnOutcome :=
  ⟨stop,state.usage,state.model_turns,state.tool_side_effects_possible⟩
/-- A typed stop once a tool may have acted, the error itself before that. -/
def abort (state : RunState) (error : VyaneError) : Result NativeTurnOutcome :=
  if state.tool_side_effects_possible then .ok (state.finish (.AbortedAfterToolActivity error.kind)) else .error error

def model_error (state : RunState) (error : VyaneError) : Result NativeTurnOutcome :=
  if state.tool_side_effects_possible then .ok (state.finish (.AbortedAfterToolActivity error.kind))
  else if error.kind = .Cancelled then .ok (state.finish .Cancelled)
  else .error error

def invalid_request_boundary (state : RunState) : Result NativeTurnOutcome :=
  state.abort ⟨.Protocol,"native conversation exceeded a validated boundary"⟩
def invalid_model_response (state : RunState) : Result NativeTurnOutcome :=
  state.abort ⟨.Protocol,"native model response failed validation"⟩

end RunState

def add_usage_saturating (total : Option Usage) : Option Usage → Option Usage
  | none => total
  | some next => some ((total.getD .zero).add next)

/-! ### Checks of the loop -/

def ToolChatMessage.showsToolActivity : ToolChatMessage → Bool
  | .Assistant turn => !turn.tool_calls.isEmpty
  | .ToolResult _ => true
  | .Text _ => false
def initial_tool_activity_possible (request : ToolChatRequest) : Bool :=
  request.messages.any ToolChatMessage.showsToolActivity
/-- The advertised names and the registered ones are the same set. -/
def advertised_tool_names_match_registry (request : ToolChatRequest) (registry : ToolRegistry) : Bool :=
  (request.tools.all fun tool => registry.names.contains tool.name) &&
    registry.names.all fun name => (request.tools.map (·.name)).contains name

def tool_choice_allows (choice : ToolChoice) (call : Option ModelToolCall) : Bool :=
  match choice with
  | .Auto => true
  | .None => call.isNone
  | .Required => call.isSome
  | .Named name => call.any fun call => call.name == name

def reply_from (assistant : AssistantToolTurn) : NativeAssistantReply :=
  ⟨assistant.text,assistant.content_parts,assistant.refusal⟩
def worst_case_tool_result (tool_call_id : String) : ToolResultMessage :=
  ⟨tool_call_id,String.ofList (List.replicate (MAX_TOOL_OUTPUT_CHARS + SAFE_RESULT_HEADROOM_CHARS) (Char.ofNat 0)),true⟩
/-- The request with an assistant turn and the result of its call. -/
def next_request_with_result (request : ToolChatRequest) (assistant : AssistantToolTurn) (result : ToolResultMessage) :
    ToolChatRequest :=
  { request with messages := request.messages ++ [.Assistant assistant,.ToolResult result] }

/-! ### The loop -/

/-- What one turn leads to. -/
inductive TurnStep where
  | Return (result : Result NativeTurnOutcome)
  | Continue (request : ToolChatRequest) (state : RunState)

/-- The stop that an invocation asks for, if it asks for one. -/
def stopFor (state : RunState) (invocation : ToolInvocation) : Option (Result NativeTurnOutcome) :=
  match invocation.status with
  | .ApprovalRequired =>
    match invocation.approval with
    | none => some state.invalid_model_response
    | some approval => some (.ok (state.finish (.ApprovalRequired approval)))
  | .Cancelled => some (.ok (state.finish .Cancelled))
  | .TimedOut => some (.ok (state.finish .TimedOut))
  | .Executed | .Denied | .InvalidCall | .UnknownTool | .ToolError => none

/-- The turn goes on with the result of its call. -/
def continueWith (request : ToolChatRequest) (assistant : AssistantToolTurn) (state : RunState)
    (result : ToolResultMessage) : TurnStep :=
  .Continue (next_request_with_result request assistant result) state

/-- What becomes of the turn once its tool call has ended. -/
def afterInvocation (request : ToolChatRequest) (assistant : AssistantToolTurn) (state : RunState) :
    Result ToolInvocation → TurnStep
  | .error error => .Return (state.abort error)
  | .ok invocation =>
    match stopFor state invocation with
    | some stop => .Return stop
    | none =>
      continueWith request assistant state
        ⟨invocation.call.id,invocation.output,!decide (invocation.status = .Executed)⟩

/-- A native turn driver, over a client given by its authorized model turn. -/
structure NativeTurnDriver where
  complete_turn_authorized : ToolChatRequest → Nat → Act (Result ToolChatOutcome)
  registry : ToolRegistry
  policy : PermissionPolicy
  limits : NativeTurnLimits

/-- Any client behind the trait: its turn is one request. -/
def dynClient (request : ToolChatRequest) (turn : Nat) : Act (Result ToolChatOutcome) :=
  act (.CompleteTurn request turn)

variable (writer : Writer) (driver : NativeTurnDriver) (context : ToolContext)

/-- The registry may start this call. -/
def NativeTurnDriver.known_allowed (driver : NativeTurnDriver) (context : ToolContext) (call : ToolCall) : Bool :=
  driver.registry.names.contains call.name && (driver.policy.decide call context).effect == .Allow
/-- Notes that a tool may act from here on. -/
def RunState.entering (state : RunState) (known_allowed : Bool) : RunState :=
  { state with tool_side_effects_possible := state.tool_side_effects_possible || known_allowed }

def executeCall (request : ToolChatRequest) (assistant : AssistantToolTurn) (state : RunState) (turn : Nat)
    (model_call : ModelToolCall) : Act TurnStep :=
  match model_call.arguments with
  | .InvalidJson _ =>
    pure (continueWith request assistant state ⟨model_call.id,invalid_json_tool_arguments_output,true⟩)
  | .Object arguments => do
    let call : ToolCall := ⟨model_call.id,model_call.name,arguments⟩
    let invocation ← execute_authorized writer driver.registry driver.policy context call turn 1
    return afterInvocation request assistant (state.entering (driver.known_allowed context call)) invocation

/-- The turn after a valid response. -/
def handleAssistant (request : ToolChatRequest) (assistant : AssistantToolTurn) (state : RunState) (turn : Nat) :
    Act TurnStep :=
  if assistant.has_refusal then pure (.Return (.ok (state.finish (.Refused (reply_from assistant)))))
  else if 1 < assistant.tool_calls.length then pure (.Return (.ok (state.finish .UnsupportedParallelCalls)))
  else if !tool_choice_allows request.tool_choice assistant.tool_calls.head? then
    pure (.Return (.ok (state.finish .ToolChoiceViolation)))
  else
    match assistant.tool_calls.head? with
    | none => pure (.Return (.ok (state.finish (.Completed (reply_from assistant)))))
    | some model_call =>
      match (next_request_with_result request assistant (worst_case_tool_result model_call.id)).validate writer with
      | .error _ => pure (.Return state.invalid_model_response)
      | .ok () => executeCall writer driver context request assistant state turn model_call

/-- The turn after the model call. -/
def handleResponse (request : ToolChatRequest) (state : RunState) (turn : Nat) : Result ToolChatOutcome → Act TurnStep
  | .error error => pure (.Return (state.model_error error))
  | .ok response => do
    if ← is_cancelled then return .Return (.ok (state.finish .Cancelled))
    else
      match response.validate writer with
      | .error _ => return .Return state.invalid_model_response
      | .ok () =>
        handleAssistant writer driver context request response.assistant
          { state with usage := add_usage_saturating state.usage response.usage } turn

def runTurn (request : ToolChatRequest) (state : RunState) (turn : Nat) : Act TurnStep := do
  if ← is_cancelled then return .Return (.ok (state.finish .Cancelled))
  else
    match request.validate writer with
    | .error _ => return .Return state.invalid_request_boundary
    | .ok () =>
      let response ← driver.complete_turn_authorized request turn
      handleResponse writer driver context request { state with model_turns := turn } turn response

/-- The turns from `turn` on, with how many are left. -/
def runTurns : Nat → Nat → ToolChatRequest → RunState → Act (Result NativeTurnOutcome)
  | 0, _, _, state => pure (.ok (state.finish .BudgetExhausted))
  | left + 1, turn, request, state => do
    match ← runTurn writer driver context request state turn with
    | .Return result => return result
    | .Continue request state => runTurns left (turn + 1) request state

def NativeTurnDriver.run (request : ToolChatRequest) : Act (Result NativeTurnOutcome) :=
  match request.validate writer with
  | .error _ => pure (.error ⟨.Config,"native tool-chat request failed validation"⟩)
  | .ok () =>
    if !advertised_tool_names_match_registry request driver.registry then
      pure (.error ⟨.Config,"native tool definitions do not match the executable registry"⟩)
    else runTurns writer driver context driver.limits.max_model_turns 1 request
      (.new (initial_tool_activity_possible request))

end Vyane.Native
