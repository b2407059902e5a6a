import Vyane.AnthropicWire
import Vyane.OpenAiWire
import Vyane.Transactions

/-!
The arguments of the calls that a response delivers. Where they come as a text, an object with a repeated key is never
delivered. Where they come as a part of the body, the body's parser has dropped all but the last of repeated keys, and
they are written and read once more.
-/
namespace Vyane.Wire
open Vyane.Core Json ToolChat Transactions

variable {json : SerdeJson} {writer : Writer} {budget after : StrictJsonBudget}

/-- How many values are constructed for arguments that are delivered. -/
def argumentNodes : ToolCallArguments → Nat
  | .Object arguments => nodeCount (.Object arguments)
  | .InvalidJson _ => 0
def deliveredNodes (calls : List ModelToolCall) : Nat := (calls.map fun call => argumentNodes call.arguments).sum

/-- A budget that calls were counted against: no limit was hit, and it covers what they carry. -/
structure Covers (budget : StrictJsonBudget) (calls : List ModelToolCall) : Prop where
  limit_hit : budget.limit_hit = false
  nodes : budget.nodes ≤ ToolChatLimits.JSON_NODES
  delivered : deliveredNodes calls ≤ budget.nodes

theorem covers_empty : Covers .empty [] := ⟨rfl,Nat.zero_le _,le_refl _⟩
theorem deliveredNodes_append (calls : List ModelToolCall) (call : ModelToolCall) :
    deliveredNodes (calls ++ [call]) = deliveredNodes calls + argumentNodes call.arguments := by
  simp [deliveredNodes]

/-- One more call is counted. -/
theorem Covers.append {calls : List ModelToolCall} (covers : Covers budget calls) (counts : Counts budget after)
    (free : after.limit_hit = false) {call : ModelToolCall}
    (more : budget.nodes + argumentNodes call.arguments ≤ after.nodes) : Covers after (calls ++ [call]) := by
  refine ⟨free,counts.2 covers.nodes,?_⟩
  rw [deliveredNodes_append]
  have := covers.delivered
  omega

end Vyane.Wire
namespace Vyane.OpenAiToolChat
open Vyane.Core Json ToolChat Wire Transactions

variable {json : SerdeJson} {writer : Writer} {budget after : StrictJsonBudget}

/-- The text of a call's arguments; none is as good as an empty one. -/
def ToolCallResponse.raw (call : ToolCallResponse) : String := (call.called.arguments.map (·.raw)).getD ""

/-- The call that is delivered for a call of the response. -/
structure Delivers (json : SerdeJson) (call : ToolCallResponse) (delivered : ModelToolCall) : Prop where
  id : delivered.id = call.id.getD ""
  name : delivered.name = call.called.name.getD ""
  object : ∀ arguments, delivered.arguments = .Object arguments →
    (json.find call.raw).2 = true ∧ Carries (json.find call.raw).1 arguments
  invalid : ∀ raw, delivered.arguments = .InvalidJson raw → raw = call.raw

theorem tool_call_from_ok {call : ToolCallResponse} {delivered : ModelToolCall}
    (made : tool_call_from json call budget = .ok (delivered,after)) (free : budget.limit_hit = false) :
    Delivers json call delivered ∧ Counts budget after ∧ after.limit_hit = false ∧
      budget.nodes + argumentNodes delivered.arguments ≤ after.nodes := by
  obtain ⟨-,made⟩ := then_eq_ok.mp made
  obtain ⟨⟨arguments,between⟩,read,made⟩ := bind_eq_ok.mp made
  cases made
  rw [argumentsFrom.eq_def] at read
  split at read
  · rename_i text sent
    have same : call.raw = text.raw := by rw [ToolCallResponse.raw,sent]; rfl
    split at read
    · rename_i fields _ parsed
      cases read
      obtain ⟨whole,carries,nodes⟩ := parse_object_arguments_ok parsed
      obtain ⟨counts,kept⟩ := parse_object_arguments_budget parsed (by simp) free
      rw [← same] at whole carries
      refine ⟨⟨rfl,rfl,fun arguments found => ?_,fun _ found => by cases found⟩,counts,kept,nodes.ge⟩
      cases found
      exact ⟨whole,carries⟩
    · rename_i parsed
      cases read
      obtain ⟨counts,kept⟩ := parse_object_arguments_budget parsed (by simp) free
      refine ⟨⟨rfl,rfl,fun _ found => (by cases found),fun raw found => ?_⟩,counts,kept,counts.1⟩
      cases found
      exact same.symm
    · cases read
  · rename_i sent
    cases read
    refine ⟨⟨rfl,rfl,fun _ found => (by cases found),fun raw found => ?_⟩,.refl _,free,le_refl _⟩
    cases found
    rw [ToolCallResponse.raw,sent]
    rfl

theorem toolCallsFrom_ok (calls : List ToolCallResponse) : ∀ {budget after : StrictJsonBudget}
    {before delivered : List ModelToolCall},
    Covers budget before → toolCallsFrom json calls budget = .ok (delivered,after) →
      List.Forall₂ (Delivers json) calls delivered ∧ Covers after (before ++ delivered) := by
  induction calls with
  | nil =>
    intro budget after before delivered covers made
    cases made
    rw [List.append_nil]
    exact ⟨.nil,covers⟩
  | cons call calls ih =>
    intro budget after before delivered covers made
    obtain ⟨⟨first,between⟩,one,made⟩ := bind_eq_ok.mp made
    obtain ⟨⟨others,last⟩,rest,made⟩ := bind_eq_ok.mp made
    cases made
    obtain ⟨delivers,counts,free,more⟩ := tool_call_from_ok one covers.limit_hit
    obtain ⟨all,covered⟩ := ih (covers.append counts free more) rest
    rw [List.append_cons]
    exact ⟨.cons delivers all,covered⟩

/-- The message of a response that gives an outcome, with its text and its calls. -/
theorem outcomeFrom_ok {response : Response} {outcome : ToolChatOutcome}
    (made : outcomeFrom json writer response = .ok outcome) :
    ∃ choice message budget, chosen response = .ok (choice,message) ∧ contentFrom message.content =
      .ok (outcome.assistant.text,outcome.assistant.content_parts)
      ∧ toolCallsFrom json message.tool_calls .empty = .ok (outcome.assistant.tool_calls,budget) ∧
        outcome.assistant.reasoning = message.reasoning_content
      ∧ outcome.assistant.refusal = message.refusal ∧ outcome.validate writer = .ok () := by
  obtain ⟨⟨choice,message⟩,first,made⟩ := bind_eq_ok.mp made
  obtain ⟨-,made⟩ := then_eq_ok.mp made
  obtain ⟨-,made⟩ := then_eq_ok.mp made
  obtain ⟨⟨text,content_parts⟩,content,made⟩ := bind_eq_ok.mp made
  obtain ⟨⟨tool_calls,budget⟩,calls,made⟩ := bind_eq_ok.mp made
  obtain ⟨valid,rfl⟩ := validated_eq_ok.mp made
  exact ⟨choice,message,budget,first,content,calls,rfl,rfl,valid⟩

end Vyane.OpenAiToolChat
namespace Vyane.AnthropicToolChat
open Vyane.Core Json ToolChat Wire Transactions

variable {json : SerdeJson} {writer : Writer} {budget after : StrictJsonBudget}

def isToolUse (block : ContentBlock) : Bool :=
  match classify_block block with
  | .ok .ToolUse => true
  | _ => false

/-- No object in the input of a block has a key twice, and its numbers are read again as they are written. -/
def ContentBlock.Plain (json : JsonLibrary) (block : ContentBlock) : Prop :=
  ∀ input, block.input = some input → ¬input.document.Repeats ∧ input.value.Numbers json.readsBack
/-- The block and the call that is delivered for it; the call carries what is read in the text that is written for the
    input. -/
structure Rereads (json : SerdeJson) (block : ContentBlock) (delivered : ModelToolCall) : Prop where
  id : delivered.id = block.id.getD ""
  name : delivered.name = block.name.getD ""
  arguments : ∃ input values arguments, block.input = some input ∧ input.value = .Object values ∧
    delivered.arguments = .Object arguments
    ∧ Carries (json.find (json.to_string values)).1 arguments
/-- The call carries the object of the block. -/
def Delivers (block : ContentBlock) (delivered : ModelToolCall) : Prop :=
  delivered.id = block.id.getD "" ∧ delivered.name = block.name.getD ""
    ∧ ∃ input arguments, block.input = some input ∧ delivered.arguments = .Object arguments ∧
      Carries input.document arguments

variable {block : ContentBlock} {delivered : ModelToolCall}

theorem tool_call_from_ok (made : tool_call_from json block budget = .ok (delivered,after))
    (free : budget.limit_hit = false) :
    Rereads json block delivered ∧ Counts budget after ∧ after.limit_hit = false ∧
      budget.nodes + argumentNodes delivered.arguments ≤ after.nodes := by
  rw [tool_call_from.eq_def] at made
  split at made
  · rename_i values sent
    obtain ⟨input,sent,same⟩ := Option.map_eq_some_iff.mp sent
    split at made
    · rename_i arguments _ parsed
      cases made
      obtain ⟨-,carries,nodes⟩ := parse_object_arguments_ok parsed
      obtain ⟨counts,kept⟩ := parse_object_arguments_budget parsed (by simp) free
      exact ⟨⟨rfl,rfl,input,values,arguments,sent,same,rfl,carries⟩,counts,kept,nodes.ge⟩
    · cases made
    · cases made
  · cases made

/-- A call carries the object of its block just if that has no repeated keys and its numbers read back. -/
theorem Rereads.delivers_iff {json : JsonLibrary} (rereads : Rereads json.toSerdeJson block delivered) :
    Delivers block delivered ↔ block.Plain json := by
  obtain ⟨id,name,input,values,arguments,sent,same,object,carries⟩ := rereads
  have ordered := read_ordered input.document input.read
  have shallow := input.shallow
  rw [same] at ordered shallow
  constructor
  · rintro ⟨_,_,input',arguments',sent',object',delivered'⟩ other found
    cases sent.symm.trans sent'
    cases sent.symm.trans found
    cases object.symm.trans object'
    refine ⟨delivered'.strict,?_⟩
    have read := delivered'.read
    rw [input.read,same] at read
    cases read
    rw [same]
    exact json.read_to_string carries.read
  · intro plain
    obtain ⟨strict,numbers⟩ := plain input sent
    rw [same] at numbers
    have back := carries.read
    rw [json.findToString ordered numbers shallow,documentOf_read ordered] at back
    cases back
    exact ⟨id,name,input,values,sent,object,same ▸ input.read,strict,carries.within⟩

theorem delivers_all_iff {json : JsonLibrary} {blocks : List ContentBlock} {calls : List ModelToolCall}
    (all : List.Forall₂ (Rereads json.toSerdeJson) blocks calls) :
    List.Forall₂ Delivers blocks calls ↔ ∀ block ∈ blocks, block.Plain json := by
  induction all with
  | nil => simp
  | cons first _ ih => rw [List.forall₂_cons,List.forall_mem_cons,first.delivers_iff,ih]

/-- A step of the loop over the blocks. -/
theorem addBlock_ok {done : List ContentBlock} {found next : Blocks}
    (holds : List.Forall₂ (Rereads json) (done.filter isToolUse) found.tool_calls ∧
      Covers found.argument_budget found.tool_calls)
    (added : addBlock json found block = .ok next) :
    List.Forall₂ (Rereads json) ((done ++ [block]).filter isToolUse) next.tool_calls ∧
      Covers next.argument_budget next.tool_calls := by
  obtain ⟨kind,classified,added⟩ := bind_eq_ok.mp added
  rw [List.filter_append,List.filter_singleton]
  have known : isToolUse block = decide (kind = .ToolUse) := by
    rw [isToolUse,classified]
    cases kind <;> rfl
  rw [known]
  cases kind with
  | Text =>
    obtain ⟨-,made⟩ := then_eq_ok.mp added
    cases made
    simpa using holds
  | Thinking =>
    obtain ⟨-,made⟩ := then_eq_ok.mp added
    cases made
    simpa using holds
  | RedactedThinking =>
    cases added
    simpa using holds
  | ToolUse =>
    obtain ⟨⟨call,budget⟩,read,made⟩ := bind_eq_ok.mp added
    cases made
    obtain ⟨rereads,counts,free,more⟩ := tool_call_from_ok read holds.2.limit_hit
    exact ⟨List.rel_append holds.1 (.cons rereads .nil),holds.2.append counts free more⟩

/-- The budget after all blocks of a response. -/
def SpentBy (json : SerdeJson) (response : Response) (budget : StrictJsonBudget) : Prop :=
  ∃ found, response.content.foldlM (addBlock json) ⟨"",[],[],0,[],.empty⟩ = .ok found ∧ found.argument_budget = budget

theorem outcomeFrom_ok {response : Response} {outcome : ToolChatOutcome}
    (made : outcomeFrom json writer response = .ok outcome) :
    List.Forall₂ (Rereads json) (response.content.filter isToolUse) outcome.assistant.tool_calls
      ∧ ∃ budget, SpentBy json response budget ∧ Covers budget outcome.assistant.tool_calls := by
  rw [outcomeFrom,then_eq_ok,then_eq_ok,bind_eq_ok] at made
  obtain ⟨-,-,found,collected,made⟩ := made
  obtain ⟨-,made⟩ := then_eq_ok.mp made
  obtain ⟨-,rfl⟩ := validated_eq_ok.mp made
  have holds := foldlM_invariant
    (fun done found => List.Forall₂ (Rereads json) (done.filter isToolUse) found.tool_calls ∧
      Covers found.argument_budget found.tool_calls)
    (fun _ _ _ _ _ holds added => addBlock_ok holds added) ⟨.nil,covers_empty⟩ collected
  exact ⟨holds.1,found.argument_budget,⟨found,collected,rfl⟩,holds.2⟩

end Vyane.AnthropicToolChat
namespace Vyane.Wire
open Vyane.Core Json ToolChat Transactions

/-- Every object that is delivered for an OpenAI response is the one that was written, without a repeated key and within
    the limits that all calls share. For an Anthropic response the objects are so if and only if the inputs that calls
    are made of have no repeated keys and numbers that read back; the limits hold for all. -/
theorem delivered_objects_are_strict (json : JsonLibrary) (writer : Writer) :
    (∀ response outcome, OpenAiToolChat.outcomeFrom json.toSerdeJson writer response = .ok outcome →
      ∃ choice message, OpenAiToolChat.chosen response = .ok (choice,message)
        ∧ List.Forall₂ (OpenAiToolChat.Delivers json.toSerdeJson) message.tool_calls outcome.assistant.tool_calls
        ∧ ∃ budget, OpenAiToolChat.toolCallsFrom json.toSerdeJson message.tool_calls .empty =
          .ok (outcome.assistant.tool_calls,budget)
          ∧ Covers budget outcome.assistant.tool_calls)
    ∧ ∀ response outcome, AnthropicToolChat.outcomeFrom json.toSerdeJson writer response = .ok outcome →
      (List.Forall₂ AnthropicToolChat.Delivers
        (response.content.filter AnthropicToolChat.isToolUse) outcome.assistant.tool_calls
        ↔ ∀ block ∈ response.content.filter AnthropicToolChat.isToolUse, block.Plain json)
      ∧ List.Forall₂ (AnthropicToolChat.Rereads json.toSerdeJson)
        (response.content.filter AnthropicToolChat.isToolUse) outcome.assistant.tool_calls
      ∧ ∃ budget, AnthropicToolChat.SpentBy json.toSerdeJson response budget ∧
        Covers budget outcome.assistant.tool_calls := by
  constructor
  · intro response outcome made
    obtain ⟨choice,message,budget,first,-,calls,-⟩ := OpenAiToolChat.outcomeFrom_ok made
    obtain ⟨delivers,covers⟩ := OpenAiToolChat.toolCallsFrom_ok message.tool_calls covers_empty calls
    exact ⟨choice,message,first,delivers,budget,calls,covers⟩
  · intro response outcome made
    obtain ⟨rereads,spent⟩ := AnthropicToolChat.outcomeFrom_ok made
    exact ⟨AnthropicToolChat.delivers_all_iff rereads,rereads,spent⟩

/-- What `ls` is called with. -/
def sampleArguments : Fields := [("a",.Number "2")]

/-- A response with one call, whose input is a document of these arguments. -/
def calledWith (members : List (String × Document))
    (read : (Document.Object members true).read = some (.Object sampleArguments)) :
    AnthropicToolChat.Response where
  model := none
  role := some "assistant"
  content := [⟨some "tool_use",none,none,some "c1",some "ls",
    some ⟨.Object members true,.Object sampleArguments,read,by decide⟩⟩]
  stop_reason := some "tool_use"
  usage := none

theorem sampleArguments_plain : (Value.Object sampleArguments).Numbers sampleJson.readsBack := by
  simp only [sampleArguments,sampleJson,Value.Numbers,FieldsNumbers,and_true]
  exact number_integer 2

theorem parse_sampleArguments : parse_object_arguments sampleJson.toSerdeJson
    (sampleJson.to_string sampleArguments) .empty
    = (.ok sampleArguments,⟨2,false⟩) := by
  have fits : ¬ToolChatLimits.ARGUMENT_BYTES < (sampleJson.to_string sampleArguments).utf8ByteSize := by decide
  have visited : strictValue 0 .empty (documentOf (.Object sampleArguments)) = (some (.Object sampleArguments),
    ⟨2,false⟩) := by
    simp [sampleArguments,documentOf,membersOf,strictValue,strictMembers,StrictJsonBudget.exhausted,
      StrictJsonBudget.count,StrictJsonBudget.empty,
      ToolChatLimits.JSON_DEPTH,ToolChatLimits.JSON_NODES,close,mapInsert]
  rw [parse_object_arguments,if_neg fits,sampleJson.findToString (by simp [sampleArguments,OrderedValue,OrderedFields,
    Ascending]) sampleArguments_plain (by decide)]
  simp [visited]

def sampleOutcome : ToolChatOutcome :=
  ⟨⟨"",[],none,none,[⟨"c1","ls",.Object sampleArguments⟩]⟩,none,none,some "tool_use"⟩
theorem sampleOutcome_valid : sampleOutcome.validate serde_json = .ok () := by decide

theorem calledWith_outcome {members : List (String × Document)}
    (read : (Document.Object members true).read = some (.Object sampleArguments)) :
    AnthropicToolChat.outcomeFrom sampleJson.toSerdeJson serde_json (calledWith members read) = .ok sampleOutcome := by
  have collected : (calledWith members read).content.foldlM (AnthropicToolChat.addBlock sampleJson.toSerdeJson) ⟨"",[],
    [],0,[],.empty⟩
      = .ok ⟨"",[],[],0,[⟨"c1","ls",.Object sampleArguments⟩],⟨2,false⟩⟩ := by
    simp [calledWith,AnthropicToolChat.addBlock,AnthropicToolChat.classify_block,AnthropicToolChat.tool_call_from,
      parse_sampleArguments,
      bind,Except.bind,pure,Except.pure]
  rw [AnthropicToolChat.outcomeFrom,then_eq_ok,then_eq_ok,bind_eq_ok]
  refine ⟨rfl,rfl,_,collected,?_⟩
  rw [then_eq_ok]
  exact ⟨rfl,validated_eq_ok.mpr ⟨sampleOutcome_valid,rfl⟩⟩

theorem called_with_delivered : AnthropicToolChat.outcomeFrom sampleJson.toSerdeJson serde_json
    (calledWith [("a",.Number "2")] rfl) = .ok sampleOutcome
    ∧ List.Forall₂ AnthropicToolChat.Delivers
      (calledWith [("a",.Number "2")] rfl).content sampleOutcome.assistant.tool_calls := by
  have made := @calledWith_outcome [("a",.Number "2")] rfl
  refine ⟨made,((delivered_objects_are_strict sampleJson serde_json).2 _ _ made).1.mpr ?_⟩
  intro block member input sent
  cases List.mem_singleton.mp member
  cases sent
  exact ⟨by simp [Document.Repeats,MembersRepeat],sampleArguments_plain⟩

theorem repeated_read : (Document.Object [("a",.Number "1"),("a",.Number "2")] true).read =
    some (.Object sampleArguments) := by
  simp [Document.read,readMembers,mapCollect,mapExtend,mapInsert,sampleArguments]

/-- The first of two members with one key is gone before the strict parser sees the input. -/
theorem repeated_key_is_delivered : (Document.Object [("a",.Number "1"),("a",.Number "2")] true).Repeats
    ∧ AnthropicToolChat.outcomeFrom sampleJson.toSerdeJson serde_json (calledWith _ repeated_read) = .ok sampleOutcome
    ∧ sampleOutcome.assistant.tool_calls = [⟨"c1","ls",.Object [("a",.Number "2")]⟩] :=
  ⟨by simp [Document.Repeats],calledWith_outcome repeated_read,rfl⟩

end Vyane.Wire
