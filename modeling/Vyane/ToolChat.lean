import Vyane.Core
import Vyane.Json

/-!
Typed tool-calling conversations (`vyane-core/src/tool_chat.rs`): envelopes, their validation with its errors, and the
JSON that `bounded_serialized_size` measures. A set of call ids is kept as the list of its members; the JSON node budget
as what is left of it.
-/
namespace Vyane.ToolChat
open Text Vyane.Core Json

/-! ### Limits -/

namespace ToolChatLimits
def MESSAGES : Nat := 512
def TOOLS : Nat := 128
def CALLS_PER_TURN : Nat := 64
def CALL_ID_BYTES : Nat := 256
def TOOL_NAME_BYTES : Nat := 128
def DESCRIPTION_BYTES : Nat := 16 * 1024
def CONTENT_BYTES : Nat := 1024 * 1024
def CONTENT_PARTS : Nat := 1024
def ARGUMENT_BYTES : Nat := 256 * 1024
def ARGUMENT_COUNT : Nat := 64
def ARGUMENT_NAME_BYTES : Nat := 256
def SCHEMA_BYTES : Nat := 256 * 1024
def JSON_DEPTH : Nat := 16
def JSON_NODES : Nat := 262144
def ENVELOPE_BYTES : Nat := 8 * 1024 * 1024
def MODEL_BYTES : Nat := 512

end ToolChatLimits

/-! ### Envelopes -/

/-- The entries of a JSON object or a `BTreeMap<String, Value>`. -/
abbrev Fields : Type := List (String × Value)

structure ToolDefinition where
  name : String
  description : String
  input_schema : Value

inductive ToolCallArguments where
  | Object (arguments : Fields)
  | InvalidJson (raw : String)

structure ModelToolCall where
  id : String
  name : String
  arguments : ToolCallArguments

inductive AssistantContentPart where
  | Text (text : String)
  | Refusal (refusal : String)

structure AssistantToolTurn where
  text : String
  content_parts : List AssistantContentPart
  reasoning : Option String
  refusal : Option String
  tool_calls : List ModelToolCall

def AssistantContentPart.isRefusal : AssistantContentPart → Bool
  | .Text _ => false
  | .Refusal _ => true
def AssistantToolTurn.has_refusal (turn : AssistantToolTurn) : Bool :=
  turn.refusal.isSome || turn.content_parts.any AssistantContentPart.isRefusal

structure ToolResultMessage where
  tool_call_id : String
  content : String
  is_error : Bool

inductive ToolChatMessage where
  | Text (message : ChatMessage)
  | Assistant (turn : AssistantToolTurn)
  | ToolResult (result : ToolResultMessage)

inductive ToolChoice where
  | Auto
  | None
  | Required
  | Named (name : String)

inductive Effort where
  | Low
  | Medium
  | High
  | Xhigh
def Effort.as_str : Effort → String
  | .Low => "low"
  | .Medium => "medium"
  | .High => "high"
  | .Xhigh => "xhigh"

/-- Generation parameters; a float is kept as the text of its JSON number. -/
structure GenParams where
  temperature : Option String
  top_p : Option String
  max_output_tokens : Option Nat
  effort : Option Effort
  extra : Fields

structure ToolChatRequest where
  model : String
  messages : List ToolChatMessage
  tools : List ToolDefinition
  tool_choice : ToolChoice
  params : GenParams

structure ToolChatOutcome where
  assistant : AssistantToolTurn
  usage : Option Usage
  model_echo : Option String
  finish_reason : Option String

/-! ### What serde writes -/

/-- A field that is skipped when it is absent. -/
def skipNone (key : String) (value : Option Value) : Fields :=
  match value with
  | some value => [(key,value)]
  | none => []
/-- A list field that is skipped when it is empty. -/
def skipEmpty {α : Type} (key : String) (items : List α) (value : Value) : Fields :=
  if items.isEmpty then [] else [(key,value)]
/-- A number as its decimal digits. -/
def number (value : Nat) : Value := .Number (toString value)
/-- An optional field that is written as `null` when it is absent. -/
def orNull (value : Option Value) : Value := value.getD .Null
def Role.to_value (role : Role) : Value :=
  .String (match role with | .System => "system" | .User => "user" | .Assistant => "assistant")
def chatMessageValue (message : ChatMessage) : Value :=
  .Object [("role",Role.to_value message.role),("content",.String message.content)]
def ToolDefinition.to_value (tool : ToolDefinition) : Value :=
  .Object [("name",.String tool.name),("description",.String tool.description),("input_schema",tool.input_schema)]
def ToolCallArguments.to_value : ToolCallArguments → Value
  | .Object arguments => .Object [("object",.Object arguments)]
  | .InvalidJson raw => .Object [("invalid_json",.Object [("raw",.String raw)])]
def ModelToolCall.to_value (call : ModelToolCall) : Value :=
  .Object [("id",.String call.id),("name",.String call.name),("arguments",call.arguments.to_value)]
def AssistantContentPart.to_value : AssistantContentPart → Value
  | .Text text => .Object [("text",.Object [("text",.String text)])]
  | .Refusal refusal => .Object [("refusal",.Object [("refusal",.String refusal)])]
def AssistantToolTurn.to_value (turn : AssistantToolTurn) : Value :=
  .Object ([("text",.String turn.text)] ++
    skipEmpty "content_parts" turn.content_parts (.Array (turn.content_parts.map AssistantContentPart.to_value)) ++
    skipNone "reasoning" (turn.reasoning.map .String) ++ skipNone "refusal" (turn.refusal.map .String) ++
    [("tool_calls",.Array (turn.tool_calls.map ModelToolCall.to_value))])
def ToolResultMessage.to_value (result : ToolResultMessage) : Value :=
  .Object [("tool_call_id",.String result.tool_call_id),("content",.String result.content),
    ("is_error",.Bool result.is_error)]
def ToolChatMessage.to_value : ToolChatMessage → Value
  | .Text message => .Object [("text",chatMessageValue message)]
  | .Assistant turn => .Object [("assistant",turn.to_value)]
  | .ToolResult result => .Object [("tool_result",result.to_value)]
def ToolChoice.to_value : ToolChoice → Value
  | .Auto => .String "auto"
  | .None => .String "none"
  | .Required => .String "required"
  | .Named name => .Object [("named",.String name)]
def GenParams.to_value (params : GenParams) : Value :=
  .Object (skipNone "temperature" (params.temperature.map .Number) ++ skipNone "top_p" (params.top_p.map .Number) ++
    skipNone "max_output_tokens" (params.max_output_tokens.map number) ++
    skipNone "effort" (params.effort.map fun effort => .String effort.as_str) ++
    skipEmpty "extra" params.extra (.Object params.extra))
def usageValue (usage : Usage) : Value :=
  .Object ([("input_tokens",number usage.input_tokens),("output_tokens",number usage.output_tokens)] ++
    skipNone "reasoning_tokens" (usage.reasoning_tokens.map number) ++
    skipNone "cached_input_tokens" (usage.cached_input_tokens.map number))
def ToolChatRequest.to_value (request : ToolChatRequest) : Value :=
  .Object [("model",.String request.model),("messages",.Array (request.messages.map ToolChatMessage.to_value)),
    ("tools",.Array (request.tools.map ToolDefinition.to_value)),("tool_choice",request.tool_choice.to_value),
    ("params",request.params.to_value)]
def ToolChatOutcome.to_value (outcome : ToolChatOutcome) : Value :=
  .Object [("assistant",outcome.assistant.to_value),("usage",orNull (outcome.usage.map usageValue)),
    ("model_echo",orNull (outcome.model_echo.map .String)),("finish_reason",orNull (outcome.finish_reason.map .String))]

/-! ### Validation -/

inductive ToolChatValidationError where
  | EmptyConversation
  | TooManyMessages
  | TooManyTools
  | TooManyToolCalls
  | TooManyContentParts
  | ContentTextMismatch
  | InvalidIdentifier (field : String)
  | TextTooLarge (field : String)
  | DuplicateToolCall (id : String)
  | DuplicateToolResult (id : String)
  | OrphanToolResult (id : String)
  | MessageWhileToolsPending
  | UnresolvedToolCalls (count : Nat)
  | DuplicateToolDefinition (name : String)
  | SchemaNotObject
  | ToolChoiceWithoutTools
  | UnknownNamedTool (name : String)
  | JsonTooDeep
  | TooManyJsonNodes
  | JsonKeyTooLarge
  | JsonTooLarge (field : String)
  | EnvelopeTooLarge
deriving DecidableEq, Repr

def ToolChatValidationError.to_string : ToolChatValidationError → String
  | .EmptyConversation => "tool-chat conversation must contain at least one message"
  | .TooManyMessages => s!"tool-chat conversation exceeds {ToolChatLimits.MESSAGES} messages"
  | .TooManyTools => s!"tool-chat request exceeds {ToolChatLimits.TOOLS} tool definitions"
  | .TooManyToolCalls => s!"assistant turn exceeds {ToolChatLimits.CALLS_PER_TURN} tool calls"
  | .TooManyContentParts => s!"assistant turn exceeds {ToolChatLimits.CONTENT_PARTS} content parts"
  | .ContentTextMismatch => "assistant text does not match its ordered text content parts"
  | .InvalidIdentifier field => field ++ " is empty, oversized, or contains unsafe characters"
  | .TextTooLarge field => field ++ " exceeds its byte limit"
  | .DuplicateToolCall id => "tool call id `" ++ id ++ "` is duplicated"
  | .DuplicateToolResult id => "tool result for call id `" ++ id ++ "` is duplicated"
  | .OrphanToolResult id => "tool result references unknown or inactive call id `" ++ id ++ "`"
  | .MessageWhileToolsPending => "conversation contains a non-result message before pending tool calls were settled"
  | .UnresolvedToolCalls count => s!"conversation ends with {count} unresolved tool call(s)"
  | .DuplicateToolDefinition name => "tool definition name `" ++ name ++ "` is duplicated"
  | .SchemaNotObject => "tool input schema must be a JSON object"
  | .ToolChoiceWithoutTools => "tool choice requires at least one tool definition"
  | .UnknownNamedTool name => "named tool choice `" ++ name ++ "` is not present in the tool definitions"
  | .JsonTooDeep => "JSON value exceeds the maximum depth"
  | .TooManyJsonNodes => "JSON value exceeds the maximum node count"
  | .JsonKeyTooLarge => "JSON object contains an oversized key"
  | .JsonTooLarge field => field ++ " exceeds its serialized byte limit"
  | .EnvelopeTooLarge => s!"tool-chat envelope exceeds {ToolChatLimits.ENVELOPE_BYTES} bytes"

abbrev Checked (α : Type) : Type := Except ToolChatValidationError α
/-- Goes on only under a condition. -/
def ensure (condition : Bool) (error : ToolChatValidationError) : Checked Unit :=
  if condition then .ok () else .error error
def isCallIdChar (c : Char) : Bool :=
  is_ascii_alphanumeric c || c == '_' || c == '-' || c == '.' || c == ':' || c == '?'
def isToolNameChar (c : Char) : Bool :=
  is_ascii_alphanumeric c || c == '_' || c == '-' || c == '.' || c == ':'
def validate_identifier (field value : String) (max : Nat) (allowed : Char → Bool) : Checked Unit :=
  ensure (!(value.isEmpty || max < value.utf8ByteSize || containsNul value || !value.toList.all allowed))
    (.InvalidIdentifier field)
def validate_model (model : String) : Checked Unit :=
  validate_identifier "model" model ToolChatLimits.MODEL_BYTES fun _ => true
def validate_call_id (id : String) : Checked Unit :=
  validate_identifier "tool call id" id ToolChatLimits.CALL_ID_BYTES isCallIdChar
def validate_tool_name (name : String) : Checked Unit :=
  validate_identifier "tool name" name ToolChatLimits.TOOL_NAME_BYTES isToolNameChar
def validate_text (field value : String) (max : Nat) : Checked Unit :=
  ensure (value.utf8ByteSize ≤ max) (.TextTooLarge field)
/-- `bounded_serialized_size`: the writer stops at the first byte over the limit. -/
def bounded_serialized_size (writer : Writer) (value : Value) (limit : Nat) (field : String) : Checked Unit :=
  ensure (writer.size value ≤ limit)
    (if limit = ToolChatLimits.ENVELOPE_BYTES then .EnvelopeTooLarge else .JsonTooLarge field)
/-- `JsonBudget`, as the number of nodes that may still be visited. -/
abbrev JsonBudget : Type := Nat
def jsonShape : ShapeLimits ToolChatValidationError :=
  ⟨ToolChatLimits.JSON_DEPTH,ToolChatLimits.ARGUMENT_NAME_BYTES,.JsonTooDeep,.TooManyJsonNodes,.JsonKeyTooLarge⟩
def validate_json_shape (root : Value) (json_budget : JsonBudget) : Checked JsonBudget :=
  visitShape jsonShape json_budget [(root,0)]
def validateJsonShapes (values : Fields) (json_budget : JsonBudget) : Checked JsonBudget :=
  values.foldlM (fun budget (_,value) => validate_json_shape value budget) json_budget

variable (writer : Writer)

def validate_arguments (arguments : ToolCallArguments) (json_budget : JsonBudget) : Checked JsonBudget :=
  match arguments with
  | .InvalidJson raw => do
    validate_text "invalid tool arguments" raw ToolChatLimits.ARGUMENT_BYTES
    return json_budget
  | .Object arguments => do
    ensure (arguments.length ≤ ToolChatLimits.ARGUMENT_COUNT) .TooManyJsonNodes
    ensure (!arguments.any fun (key,_) => ToolChatLimits.ARGUMENT_NAME_BYTES < key.utf8ByteSize) .JsonKeyTooLarge
    let json_budget ← validateJsonShapes arguments json_budget
    bounded_serialized_size writer (.Object arguments) ToolChatLimits.ARGUMENT_BYTES "tool arguments"
    return json_budget

/-- One content part, against the text that the earlier parts have not covered. -/
def validateContentPart (rest : List Char) : AssistantContentPart → Checked (List Char)
  | .Text text => do
    validate_text "assistant text part" text ToolChatLimits.CONTENT_BYTES
    ensure (text.toList.isPrefixOf rest) .ContentTextMismatch
    return rest.drop text.length
  | .Refusal refusal => do
    validate_text "assistant refusal part" refusal ToolChatLimits.CONTENT_BYTES
    return rest
/-- A text that may be absent. -/
def validate_optional_text (field : String) (value : Option String) : Checked Unit :=
  match value with
  | some value => validate_text field value ToolChatLimits.CONTENT_BYTES
  | none => .ok ()

/-- One tool call, with the ids of the calls before it in the turn. -/
def validate_tool_call (found : List String × JsonBudget) (call : ModelToolCall) :
    Checked (List String × JsonBudget) := do
  validate_call_id call.id
  validate_tool_name call.name
  ensure (!found.1.contains call.id) (.DuplicateToolCall call.id)
  return (call.id :: found.1,← validate_arguments writer call.arguments found.2)

def validate_assistant_turn (turn : AssistantToolTurn) (json_budget : JsonBudget) : Checked JsonBudget := do
  validate_text "assistant text" turn.text ToolChatLimits.CONTENT_BYTES
  ensure (turn.content_parts.length ≤ ToolChatLimits.CONTENT_PARTS) .TooManyContentParts
  let rest ← turn.content_parts.foldlM validateContentPart turn.text.toList
  ensure (turn.content_parts.isEmpty || rest.isEmpty) .ContentTextMismatch
  validate_optional_text "assistant reasoning" turn.reasoning
  validate_optional_text "assistant refusal" turn.refusal
  ensure (turn.tool_calls.length ≤ ToolChatLimits.CALLS_PER_TURN) .TooManyToolCalls
  return (← turn.tool_calls.foldlM (validate_tool_call writer) ([],json_budget)).2

/-- What the walk over a conversation remembers. -/
structure Conversation where
  all_calls : List String
  pending : List String
  results : List String
  json_budget : JsonBudget

/-- A call of an assistant turn becomes pending. -/
def Conversation.openCall (conversation : Conversation) (call : ModelToolCall) : Checked Conversation := do
  ensure (!conversation.all_calls.contains call.id) (.DuplicateToolCall call.id)
  return { conversation with
    all_calls := call.id :: conversation.all_calls
    pending := conversation.pending ++ [call.id] }

def validateMessage (conversation : Conversation) : ToolChatMessage → Checked Conversation
  | .ToolResult result => do
    validate_call_id result.tool_call_id
    validate_text "tool result" result.content ToolChatLimits.CONTENT_BYTES
    ensure (!conversation.results.contains result.tool_call_id) (.DuplicateToolResult result.tool_call_id)
    ensure (conversation.pending.contains result.tool_call_id) (.OrphanToolResult result.tool_call_id)
    return { conversation with
      pending := conversation.pending.erase result.tool_call_id
      results := result.tool_call_id :: conversation.results }
  | .Text message => do
    ensure conversation.pending.isEmpty .MessageWhileToolsPending
    validate_text "message content" message.content ToolChatLimits.CONTENT_BYTES
    return conversation
  | .Assistant turn => do
    ensure conversation.pending.isEmpty .MessageWhileToolsPending
    let json_budget ← validate_assistant_turn writer turn conversation.json_budget
    turn.tool_calls.foldlM Conversation.openCall { conversation with json_budget }

def validate_conversation_with_budget (messages : List ToolChatMessage) (json_budget : JsonBudget) :
    Checked JsonBudget := do
  ensure (!messages.isEmpty) .EmptyConversation
  ensure (messages.length ≤ ToolChatLimits.MESSAGES) .TooManyMessages
  let conversation ← messages.foldlM (validateMessage writer) ⟨[],[],[],json_budget⟩
  ensure conversation.pending.isEmpty (.UnresolvedToolCalls conversation.pending.length)
  return conversation.json_budget

def is_object : Value → Bool
  | .Object _ => true
  | _ => false
/-- One tool definition, with the names of those before it. -/
def validateTool (found : List String × JsonBudget) (tool : ToolDefinition) : Checked (List String × JsonBudget) := do
  validate_tool_name tool.name
  validate_text "tool description" tool.description ToolChatLimits.DESCRIPTION_BYTES
  ensure (!found.1.contains tool.name) (.DuplicateToolDefinition tool.name)
  ensure (is_object tool.input_schema) .SchemaNotObject
  let json_budget ← validate_json_shape tool.input_schema found.2
  bounded_serialized_size writer tool.input_schema ToolChatLimits.SCHEMA_BYTES "tool input schema"
  return (tool.name :: found.1,json_budget)
def validateChoice (tools names : List String) : ToolChoice → Checked Unit
  | .Required => ensure (!tools.isEmpty) .ToolChoiceWithoutTools
  | .Named name => do
    validate_tool_name name
    ensure (names.contains name) (if tools.isEmpty then .ToolChoiceWithoutTools else .UnknownNamedTool name)
  | .Auto | .None => .ok ()
def validate_tools (tools : List ToolDefinition) (choice : ToolChoice) (json_budget : JsonBudget) : Checked Unit := do
  ensure (tools.length ≤ ToolChatLimits.TOOLS) .TooManyTools
  let (names,_) ← tools.foldlM (validateTool writer) ([],json_budget)
  validateChoice (tools.map (·.name)) names choice

def validate_params (params : GenParams) (json_budget : JsonBudget) : Checked JsonBudget := do
  ensure (!params.extra.any fun (key,_) => ToolChatLimits.ARGUMENT_NAME_BYTES < key.utf8ByteSize) .JsonKeyTooLarge
  validateJsonShapes params.extra json_budget

def ToolChatRequest.validate (request : ToolChatRequest) : Checked Unit := do
  validate_model request.model
  let json_budget ← validate_params request.params ToolChatLimits.JSON_NODES
  let json_budget ← validate_conversation_with_budget writer request.messages json_budget
  validate_tools writer request.tools request.tool_choice json_budget
  bounded_serialized_size writer request.to_value ToolChatLimits.ENVELOPE_BYTES "tool-chat request"

def ToolChatOutcome.validate (outcome : ToolChatOutcome) : Checked Unit := do
  let _ ← validate_assistant_turn writer outcome.assistant ToolChatLimits.JSON_NODES
  bounded_serialized_size writer outcome.to_value ToolChatLimits.ENVELOPE_BYTES "tool-chat outcome"

end Vyane.ToolChat
