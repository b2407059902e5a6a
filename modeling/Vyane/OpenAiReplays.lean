import Vyane.Conversations
import Vyane.WireArguments

/-!
Turns that are sent again: the turn of an OpenAI response goes into the next request as the provider sent it, but for
numbers that do not read back, and the conversation that it extends is rejected at most for its length or its JSON
nodes.
-/
namespace Vyane.OpenAiToolChat
open Vyane.Core Json ToolChat Wire Transactions

variable {json : JsonLibrary} {writer : Writer}

/-! ### Content -/

/-- A part as the provider sent it; a text that is absent is empty. -/
def ContentPart.sent (part : ContentPart) : AssistantContentPartRequest :=
  if part.named = "text" then .Text (part.text.getD "") else .Refusal (part.refusal.getD "")

/-- The content that is sent again: the same parts, or the same text, where an empty one may be left out. -/
def Reproduces : Option Content → Option AssistantContentRequest → Prop
  | some (.Parts (part :: parts)), again => again = some (.Parts ((part :: parts).map ContentPart.sent))
  | some (.Text text), again => again = some (.Text text) ∨ text = "" ∧ again = none
  | some (.Parts []), again => again = some (.Text "") ∨ again = none
  | none, again => again = some (.Text "") ∨ again = none

theorem addPart_sent {found next : String × List AssistantContentPart} {part : ContentPart}
    (added : addPart found part = .ok next) :
    next.2.map partRequest = found.2.map partRequest ++ [part.sent] := by
  rw [addPart] at added
  split_ifs at added with text refusal
  · obtain ⟨-,made⟩ := then_eq_ok.mp added
    cases made
    simp [partRequest,ContentPart.sent,text.1]
  · split at added
    · cases added
    · rename_i sent
      obtain ⟨-,made⟩ := then_eq_ok.mp added
      cases made
      simp [partRequest,ContentPart.sent,refusal.1,sent]

variable {turn : AssistantToolTurn}

/-- A text without parts. -/
theorem contentRequest_text (noParts : turn.content_parts = []) :
    contentRequest turn = some (.Text turn.text) ∨ turn.text = "" ∧ contentRequest turn = none := by
  rw [contentRequest,noParts]
  by_cases leftOut : (turn.text.isEmpty && (!turn.tool_calls.isEmpty || turn.refusal.isSome)) = true
  · right
    rw [leftOut]
    exact ⟨String.isEmpty_iff.mp (Bool.and_elim_left leftOut),rfl⟩
  · left
    rw [Bool.not_eq_true] at leftOut
    rw [leftOut]
    rfl

theorem content_reproduced {content : Option Content}
    (read : contentFrom content = .ok (turn.text,turn.content_parts)) :
    Reproduces content (contentRequest turn) := by
  -- without parts, and with an empty text
  have empty : turn.text = "" → turn.content_parts = [] → contentRequest turn = some (.Text "") ∨
    contentRequest turn = none := by
    intro noText noParts
    rw [← noText]
    exact (contentRequest_text noParts).imp_right And.right
  match content with
  | none =>
    obtain ⟨text,parts⟩ := Prod.mk.inj (Except.ok.inj read)
    exact empty text.symm parts.symm
  | some (.Text sent) =>
    obtain ⟨-,read⟩ := then_eq_ok.mp read
    obtain ⟨rfl,parts⟩ := Prod.mk.inj (Except.ok.inj read)
    exact contentRequest_text parts.symm
  | some (.Parts []) =>
    obtain ⟨-,read⟩ := then_eq_ok.mp read
    obtain ⟨text,parts⟩ := Prod.mk.inj (Except.ok.inj read)
    exact empty text.symm parts.symm
  | some (.Parts (part :: parts)) =>
    obtain ⟨-,read⟩ := then_eq_ok.mp read
    have sent : turn.content_parts.map partRequest = (part :: parts).map ContentPart.sent := by
      refine foldlM_invariant (fun done found => found.2.map partRequest = done.map ContentPart.sent)
        (fun done part found next _ held added => ?_) rfl read
      rw [addPart_sent added,held,List.map_append]
      rfl
    have keptSome : turn.content_parts.isEmpty = false := by
      cases kept : turn.content_parts with
      | nil => simp [kept] at sent
      | cons _ _ => rfl
    rw [Reproduces,contentRequest,keptSome,← sent]
    rfl

/-! ### Calls -/

/-- A call that is sent again. Arguments that were an object have the same fields just if they are sent as the same text
    or their numbers read back; others are sent as the same text. -/
structure SameCall (json : JsonLibrary) (call : ToolCallResponse) (again : ToolCallRequest) : Prop where
  id : call.id = some again.id
  name : call.called.name = some again.name
  object : ∀ arguments, json.from_str call.raw = some (.Object arguments) →
    (json.from_str again.arguments = some (.Object arguments) ↔
      again.arguments = call.raw ∨ (Value.Object arguments).Numbers json.readsBack)
  other : (∀ arguments, json.from_str call.raw ≠ some (.Object arguments)) → again.arguments = call.raw

theorem validate_identifier_some {field value : String} {max : Nat} {allowed : Char → Bool}
    (valid : validate_identifier field value max allowed = .ok ()) :
    value ≠ "" := by
  rintro rfl
  rw [validate_identifier,ensure_eq_ok] at valid
  cases valid

/-- What an accepted identifier was taken from. -/
theorem sent_of_getD {sent : Option String} {value : String} (taken : value = sent.getD "") (notEmpty : value ≠ "") :
    sent = some value := by
  cases sent with
  | none => exact absurd taken notEmpty
  | some sent => rw [taken]; rfl

theorem call_reproduced {call : ToolCallResponse} {delivered : ModelToolCall}
    (delivers : Delivers json.toSerdeJson call delivered)
    (id : validate_call_id delivered.id = .ok ()) (name : validate_tool_name delivered.name = .ok ()) :
    SameCall json call (tool_call_request_from json.toSerdeJson delivered) := by
  have known := sent_of_getD delivers.id (validate_identifier_some id)
  have named := sent_of_getD delivers.name (validate_identifier_some name)
  cases kind : delivered.arguments with
  | Object arguments =>
    obtain ⟨whole,carries⟩ := delivers.object arguments kind
    have read : json.from_str call.raw = some (.Object arguments) := by
      rw [SerdeJson.from_str,if_pos whole,carries.read]
    have again : (tool_call_request_from json.toSerdeJson delivered).arguments = json.to_string arguments := by
      simp only [tool_call_request_from,kind]
    refine ⟨known,named,fun fields found => ?_,fun noObject => absurd read (noObject arguments)⟩
    cases read.symm.trans found
    rw [again,carries.written_iff]
    refine ⟨.inr,?_⟩
    rintro (same | numbers)
    · rw [← carries.written_iff,same,read]
    · exact numbers
  | InvalidJson raw =>
    have same : (tool_call_request_from json.toSerdeJson delivered).arguments = call.raw := by
      simp only [tool_call_request_from,kind]
      exact delivers.invalid raw kind
    exact ⟨known,named,fun fields found => iff_of_true (by rw [same,found]) (.inl same),fun _ => same⟩

theorem calls_reproduced {calls : List ToolCallResponse} {delivered : List ModelToolCall}
    (delivers : List.Forall₂ (Delivers json.toSerdeJson) calls delivered)
    (named : ∀ call ∈ delivered, validate_call_id call.id = .ok () ∧ validate_tool_name call.name = .ok ()) :
    List.Forall₂ (SameCall json) calls (delivered.map (tool_call_request_from json.toSerdeJson)) := by
  induction delivers with
  | nil => exact .nil
  | cons first rest ih =>
    rw [List.forall_mem_cons] at named
    exact .cons (call_reproduced first named.1.1 named.1.2) (ih named.2)

/-! ### Turns -/

/-- The message of a response is sent again. -/
structure Replays (json : JsonLibrary) (message : AssistantMessageResponse)
    (again : AssistantMessageRequest) : Prop where
  content : Reproduces message.content again.content
  refusal : again.refusal = message.refusal
  reasoning_content : again.reasoning_content = message.reasoning_content
  tool_calls : List.Forall₂ (SameCall json) message.tool_calls again.tool_calls

theorem requestFrom_messages {request : ToolChatRequest} {wire : Request}
    (made : requestFrom json.toSerdeJson request = .ok wire) :
    wire.messages = request.messages.map (message_from json.toSerdeJson) := by
  obtain ⟨-,made⟩ := then_eq_ok.mp made
  cases made
  rfl

/-- The turn of a response stands in the next request as it came, but for numbers that do not read back, and goes with
    its results behind any conversation that does not use its ids. -/
theorem turn_is_replayed {response : Response} {outcome : ToolChatOutcome}
    (made : outcomeFrom json.toSerdeJson writer response = .ok outcome) :
    (∃ choice message, chosen response = .ok (choice,message) ∧
      ∀ request wire (i : Nat), requestFrom json.toSerdeJson request = .ok wire →
      request.messages[i]? = some (.Assistant outcome.assistant) →
        ∃ again, wire.messages[i]? = some (.Assistant again) ∧ Replays json message again)
    ∧ ∀ (messages : List ToolChatMessage) (results : List ToolResultMessage),
      validate_conversation writer messages = .ok () →
      (∀ call ∈ outcome.assistant.tool_calls, call.id ∉ called messages) →
      (results.map (·.tool_call_id)).Perm (outcome.assistant.tool_calls.map (·.id)) →
      (∀ result ∈ results, result.content.utf8ByteSize ≤ ToolChatLimits.CONTENT_BYTES) →
      AcceptedBySize writer (messages ++ .Assistant outcome.assistant :: results.map .ToolResult) := by
  obtain ⟨choice,message,budget,first,content,calls,reasoning,refusal,valid⟩ := outcomeFrom_ok made
  obtain ⟨left,turn,-⟩ := bind_eq_ok.mp valid
  obtain ⟨delivers,-⟩ := toolCallsFrom_ok message.tool_calls covers_empty calls
  have replays : Replays json message (assistantRequest json.toSerdeJson outcome.assistant) :=
    ⟨content_reproduced content,refusal,reasoning,calls_reproduced delivers (validate_turn_calls turn).1⟩
  refine ⟨⟨choice,message,first,fun request wire i sent placed => ⟨_,?_,replays⟩⟩,
    fun messages results accepted fresh same fits => validate_conversation_append accepted turn fresh same fits⟩
  rw [requestFrom_messages sent,List.getElem?_map,placed]
  rfl

/-- A refusal and a text, a call with an object and one with something else. -/
def sampleResponse : Response where
  model := none
  choices := [⟨some ⟨none,some (.Parts [⟨none,none,some "no"⟩,⟨some "text",some "yes",none⟩]),none,none,
    [⟨some "c1",none,some ⟨some "ls",some ⟨"\x7b\x7d",by decide⟩⟩⟩,
      ⟨some "c2",some "function",some ⟨some "pwd",some ⟨"\x7b",by decide⟩⟩⟩]⟩,none⟩]
  usage := none

def sampleTurn : AssistantToolTurn :=
  ⟨"yes",[.Refusal "no",.Text "yes"],none,none,[⟨"c1","ls",.Object []⟩,⟨"c2","pwd",.InvalidJson "\x7b"⟩]⟩

theorem sample_turn_is_replayed : ∃ outcome,
    outcomeFrom sampleJson.toSerdeJson serde_json sampleResponse = .ok outcome ∧ outcome.assistant = sampleTurn
    ∧ AcceptedBySize serde_json
      [.Text ⟨.User,"list"⟩,.Assistant sampleTurn,.ToolResult ⟨"c2","/",false⟩,.ToolResult ⟨"c1","",true⟩] := by
  have made : ∃ outcome, outcomeFrom sampleJson.toSerdeJson serde_json sampleResponse = .ok outcome ∧
    outcome.assistant = sampleTurn := ⟨_,rfl,rfl⟩
  obtain ⟨outcome,made,turn⟩ := made
  refine ⟨outcome,made,turn,?_⟩
  have replayed := (@turn_is_replayed sampleJson _ _ _ made).2 [.Text ⟨.User,"list"⟩] [⟨"c2","/",false⟩,⟨"c1","",true⟩]
  rw [turn] at replayed
  exact replayed (by decide) (by decide) (by decide) (by decide)

/-- A call with a float. -/
def floatResponse : Response where
  model := none
  choices := [⟨some ⟨none,none,none,none,[⟨some "c1",none,some ⟨some "ls",some ⟨longFloat,by decide⟩⟩⟩]⟩,none⟩]
  usage := none

/-- The float is sent again as it is written, and then read as another. -/
theorem float_is_not_replayed : ∃ outcome, outcomeFrom sampleJson.toSerdeJson serde_json floatResponse = .ok outcome
    ∧ (assistantRequest sampleJson.toSerdeJson outcome.assistant).tool_calls.map ToolCallRequest.arguments =
      [shortFloat]
    ∧ sampleJson.from_str longFloat = some (.Object [("x",.Number "31.245270191439438")])
    ∧ sampleJson.from_str shortFloat = some (.Object [("x",.Number "31.24527019143944")]) := by
  refine ⟨_,rfl,?_,float_read _,float_read _⟩
  decide +kernel

end Vyane.OpenAiToolChat
