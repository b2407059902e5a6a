import Vyane.StrictJson

/-!
The Anthropic wire format of typed tool chat (`anthropic_tool_chat` of `wire.rs`). The messages of a request are
collected newest first, where the code pushes them to the end of a vector.
-/
namespace Vyane.AnthropicToolChat
open Vyane.Core Json ToolChat Wire

def DEFAULT_MAX_TOKENS : Nat := 8192

def effort_budget : Effort → Nat
  | .Low => 1024
  | .Medium => 4096
  | .High => 8192
  | .Xhigh => 16384

/-! ### Requests -/

inductive MessageRole where
  | User
  | Assistant
deriving DecidableEq, Repr

inductive ContentBlockRequest where
  | Text (text : String)
  | ToolUse (id name : String) (input : Value)
  | ToolResult (tool_use_id content : String) (is_error : Bool)
deriving DecidableEq

inductive MessageContent where
  | Text (text : String)
  | Blocks (blocks : List ContentBlockRequest)
deriving DecidableEq

structure Message where
  role : MessageRole
  content : MessageContent
deriving DecidableEq

/-- The blocks of a system prompt are texts. -/
inductive SystemPrompt where
  | Text (text : String)
  | Blocks (texts : List String)
deriving DecidableEq

structure Request where
  model : String
  messages : List Message
  max_tokens : Nat
  system : Option SystemPrompt
  tools : List ToolDefinition
  tool_choice : Option Value
  temperature : Option String
  top_p : Option String
  extra : Fields

variable (json : SerdeJson)

def tool_use_input (call : ModelToolCall) : Result Value :=
  match call.arguments with
  | .Object arguments => .ok (.Object arguments)
  | .InvalidJson raw =>
    match json.from_str raw with
    | some (.Object values) => .ok (.Object values)
    | _ => .error (.config "typed Anthropic tool-chat cannot represent non-object tool arguments")

/-- The text blocks of a turn's parts. There is no refusal block, so a refusal is a text. -/
def partBlocks : AssistantContentPart → List ContentBlockRequest
  | .Text text => [.Text text]
  | .Refusal refusal => if refusal.isEmpty then [] else [.Text refusal]

/-- Whether a part of the turn is this refusal. -/
def hasRefusalPart (turn : AssistantToolTurn) (refusal : String) : Bool :=
  turn.content_parts.any fun
    | .Refusal same => same == refusal
    | .Text _ => false

def refusalBlocks (turn : AssistantToolTurn) : List ContentBlockRequest :=
  match turn.refusal with
  | some refusal => if refusal.isEmpty || hasRefusalPart turn refusal then [] else [.Text refusal]
  | none => []

def toolUseBlock (call : ModelToolCall) : Result ContentBlockRequest := do
  return .ToolUse call.id call.name (← tool_use_input json call)
/-- Blocks as the content of a message: one text is sent as a string. -/
def contentOf : List ContentBlockRequest → MessageContent
  | [.Text text] => .Text text
  | blocks => .Blocks blocks

def textBlocks (turn : AssistantToolTurn) : List ContentBlockRequest :=
  if !turn.content_parts.isEmpty then turn.content_parts.flatMap partBlocks
  else if turn.text.isEmpty then []
  else [.Text turn.text]

def assistant_content (turn : AssistantToolTurn) : Result MessageContent := do
  rejectIf turn.reasoning.isSome
    (.config "typed Anthropic tool-chat: thinking signature unavailable; multi-turn replay unsupported")
  let calls ← turn.tool_calls.mapM (toolUseBlock json)
  let blocks := textBlocks turn ++ refusalBlocks turn ++ calls
  rejectIf blocks.isEmpty (.config "typed Anthropic tool-chat cannot replay an assistant turn with no content")
  return contentOf blocks

def message_from : ToolChatMessage → Result Message
  | .Text message => .ok ⟨if message.role = .Assistant then .Assistant else .User,.Text message.content⟩
  | .Assistant turn => do return ⟨.Assistant,← assistant_content json turn⟩
  | .ToolResult result => .ok ⟨.User,.Blocks [.ToolResult result.tool_call_id result.content result.is_error]⟩

def content_blocks : MessageContent → List ContentBlockRequest
  | .Text text => if text.isEmpty then [] else [.Text text]
  | .Blocks blocks => blocks
def merge_message (left right : Message) : Message :=
  { left with content := contentOf (content_blocks left.content ++ content_blocks right.content) }

/-- A message that was mapped goes into the last one of its role, or behind it. -/
def addMessage (out : List Message) (mapped : Message) : List Message :=
  match out with
  | last :: before => if last.role = mapped.role then merge_message last mapped :: before else mapped :: out
  | [] => [mapped]

def isSystem : ToolChatMessage → Bool
  | .Text message => message.role == .System
  | _ => false

/-- The loop of `messages_from`. -/
def mapMessages : List Message → List ToolChatMessage → Result (List Message)
  | out, [] => .ok out
  | out, message :: rest =>
    if isSystem message then mapMessages out rest
    else do
      let mapped ← message_from json message
      mapMessages (addMessage out mapped) rest

def system_texts (messages : List ToolChatMessage) : List String :=
  messages.filterMap fun
    | .Text message => if message.role = .System then some message.content else none
    | _ => none

def systemPrompt : List String → Option SystemPrompt
  | [] => none
  | [text] => some (.Text text)
  | texts => some (.Blocks (texts.filter fun text => !text.isEmpty))

def messages_from (messages : List ToolChatMessage) : Result (Option SystemPrompt × List Message) := do
  let out ← mapMessages json [] messages
  return (systemPrompt (system_texts messages),out.reverse)
def RESERVED : List String :=
  ["model","messages","tools","tool_choice","stream","system","max_tokens","temperature","top_p","thinking"]

/-- The budget for thinking, if there is an effort. -/
def thinking (params : GenParams) (max_tokens : Nat) : Result Fields :=
  match params.effort with
  | none => .ok params.extra
  | some effort =>
    let budget := effort_budget effort
    if max_tokens ≤ budget then
      .error (.config s!"typed Anthropic tool-chat thinking budget ({budget}) must be below max_output_tokens ({max_tokens})")
    else if params.temperature.any (· != "1.0") then
      .error (.config "typed Anthropic tool-chat thinking (effort) requires temperature to be unset or 1")
    else .ok (mapInsert "thinking" (.Object [("budget_tokens",ToolChat.number budget),
      ("type",.String "enabled")]) params.extra)

def toolChoiceValue : ToolChoice → Value
  | .Auto => .Object [("type",.String "auto")]
  | .None => .Object [("type",.String "none")]
  | .Required => .Object [("type",.String "any")]
  | .Named name => .Object [("name",.String name),("type",.String "tool")]

/-- `Request::try_from`. -/
def requestFrom (request : ToolChatRequest) : Result Request := do
  rejectIf (RESERVED.any fun field => request.params.extra.any fun entry => entry.1 == field)
    (.config "typed Anthropic tool-chat params.extra contains a reserved field")
  let max_tokens := request.params.max_output_tokens.getD DEFAULT_MAX_TOKENS
  let extra ← thinking request.params max_tokens
  let (system,messages) ← messages_from json request.messages
  return {
    model := request.model
    messages
    max_tokens
    system
    tools := request.tools
    tool_choice := if request.tools.isEmpty then none else some (toolChoiceValue request.tool_choice)
    temperature := request.params.temperature
    top_p := request.params.top_p
    extra }

/-! ### Responses -/

structure UsageResponse where
  input_tokens : Option Nat
  output_tokens : Option Nat
  cache_read_input_tokens : Option Nat
  cache_creation_input_tokens : Option Nat

def usage_from_response (usage : UsageResponse) : Usage :=
  let cached := usage.cache_read_input_tokens.getD 0
  { input_tokens := saturating_add (saturating_add (usage.input_tokens.getD 0)
    (usage.cache_creation_input_tokens.getD 0)) cached
    output_tokens := usage.output_tokens.getD 0
    reasoning_tokens := none
    cached_input_tokens := if 0 < cached then some cached else none }

/-- An input as it stands in the body, and the value that was read for it. The limit is that of
    the parser, which the input reaches only with all that is around it. -/
structure Input where
  document : Document
  value : Value
  read : document.read = some value
  shallow : value.nesting ≤ MAX_NESTING

/-- A block of the body, where what is absent or `null` is none. -/
structure ContentBlock where
  kind : Option String
  text : Option String
  thinking : Option String
  id : Option String
  name : Option String
  input : Option Input

structure Response where
  model : Option String
  role : Option String
  content : List ContentBlock
  stop_reason : Option String
  usage : Option UsageResponse

def unsupported_content_block : VyaneError :=
  protocolError "Anthropic tool-chat response contained an unsupported content block"

inductive BlockKind where
  | Text
  | Thinking
  | RedactedThinking
  | ToolUse
deriving DecidableEq, Repr

def classify_block (block : ContentBlock) : Result BlockKind :=
  match block.kind with
  | some "text" => .ok .Text
  | some "thinking" => .ok .Thinking
  | some "redacted_thinking" => .ok .RedactedThinking
  | some "tool_use" => .ok .ToolUse
  | some _ => .error unsupported_content_block
  | none =>
    match block.name.isSome || block.input.isSome, block.thinking.isSome, block.text.isSome with
    | true, false, false => .ok .ToolUse
    | false, true, false => .ok .Thinking
    | false, false, _ => .ok .Text
    | _, _, _ => .error unsupported_content_block

/-- The value of the input is written and read again, now strictly. -/
def tool_call_from (block : ContentBlock) (budget : StrictJsonBudget) : Result (ModelToolCall × StrictJsonBudget) :=
  match block.input.map Input.value with
  | some (.Object values) =>
    match parse_object_arguments json (json.to_string values) budget with
    | (.ok arguments,budget) => .ok (⟨block.id.getD "",block.name.getD "",.Object arguments⟩,budget)
    | (.error .Invalid,_) => .error (protocolError "Anthropic tool_use input was not a valid JSON object")
    | (.error .Limit,_) => .error (protocolError "Anthropic tool-chat arguments exceeded structural limits")
  | _ => .error (protocolError "Anthropic tool_use input was missing or not a JSON object")

/-- What the loop over the blocks collects. -/
structure Blocks where
  text : String
  content_parts : List AssistantContentPart
  reasoning_parts : List String
  redacted_thinking : Nat
  tool_calls : List ModelToolCall
  argument_budget : StrictJsonBudget

def addBlock (found : Blocks) (block : ContentBlock) : Result Blocks := do
  match ← classify_block block with
  | .Text =>
    let value := block.text.getD ""
    rejectIf (ToolChatLimits.CONTENT_BYTES - found.text.utf8ByteSize < value.utf8ByteSize)
      (protocolError "Anthropic assistant text exceeded the content limit")
    return { found with text := found.text ++ value, content_parts := found.content_parts ++ [.Text value] }
  | .Thinking =>
    let thinking := block.thinking.getD ""
    rejectIf (ToolChatLimits.CONTENT_BYTES - (found.reasoning_parts.map String.utf8ByteSize).sum <
      thinking.utf8ByteSize)
      (protocolError "Anthropic thinking content exceeded the content limit")
    return { found with reasoning_parts := found.reasoning_parts ++ [thinking] }
  | .RedactedThinking => return { found with redacted_thinking := found.redacted_thinking + 1 }
  | .ToolUse =>
    let (call,argument_budget) ← tool_call_from json block found.argument_budget
    return { found with tool_calls := found.tool_calls ++ [call], argument_budget }

/-- A lone text without calls is kept as the text only. -/
def keptParts (content_parts : List AssistantContentPart) (tool_calls : List ModelToolCall) :
    List AssistantContentPart :=
  match content_parts with
  | [.Text _] => if tool_calls.isEmpty then [] else content_parts
  | _ => content_parts

/-- The turn of the blocks; the texts of a refusal are moved into it. -/
def turnOf (found : Blocks) (stop_reason : Option String) : AssistantToolTurn :=
  let refused := stop_reason == some "refusal"
  { text := if refused then "" else found.text
    content_parts := if refused then [] else keptParts found.content_parts found.tool_calls
    reasoning := if found.reasoning_parts.isEmpty && found.redacted_thinking == 0 then none
      else some (String.join found.reasoning_parts)
    refusal := if refused then some found.text else none
    tool_calls := found.tool_calls }

/-- `ToolChatOutcome::try_from`. -/
def outcomeFrom (writer : Writer) (response : Response) : Result ToolChatOutcome := do
  rejectIf (response.role.any (· != "assistant"))
    (protocolError "Anthropic tool-chat response had a non-assistant message role")
  rejectIf (ToolChatLimits.CONTENT_PARTS < response.content.length)
    (protocolError "Anthropic tool-chat response exceeded the content-block limit")
  let found ← response.content.foldlM (addBlock json) ⟨"",[],[],0,[],.empty⟩
  rejectIf (ToolChatLimits.CALLS_PER_TURN < found.tool_calls.length)
    (protocolError "Anthropic tool-chat response exceeded the tool-call limit")
  validated writer "invalid Anthropic tool-chat response: "
    ⟨turnOf found response.stop_reason,response.usage.map usage_from_response,response.model,response.stop_reason⟩

end Vyane.AnthropicToolChat
