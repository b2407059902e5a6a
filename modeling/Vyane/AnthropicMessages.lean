import Vyane.AnthropicWire
import Vyane.Conversations

/-!
The messages of an Anthropic request: their roles alternate, their blocks are those of the conversation, and the calls
of an assistant message are answered at the start of the next one. `Stack` relates what the validator keeps pending to
the messages so far.
-/
namespace Vyane.AnthropicToolChat
open Vyane.Core Json ToolChat Wire Transactions List

/-! ### Blocks -/

/-- The blocks of messages in order, each with its role. -/
def flatten (messages : List Message) : List (MessageRole × ContentBlockRequest) :=
  messages.flatMap fun message => (content_blocks message.content).map fun block => (message.role,block)
def partText : AssistantContentPart → String
  | .Text text => text
  | .Refusal refusal => refusal
/-- The texts of a turn: its parts, or its text if it has none, and a refusal that is not one of its parts. -/
def turnTexts (turn : AssistantToolTurn) : List String :=
  (if turn.content_parts.isEmpty then [turn.text] else turn.content_parts.map partText) ++
    turn.refusal.toList.filter fun refusal => !hasRefusalPart turn refusal

variable (json : SerdeJson) {blocks : List ContentBlockRequest} {block : ContentBlockRequest}
  {messages : List ToolChatMessage} {asking answering : Message} {out : List Message} {mapped : Message}
  {writer : Writer} {conversation next : Conversation} {message : ToolChatMessage} {request : ToolChatRequest}

/-- The object that a call was written with. -/
def callInput (call : ModelToolCall) : Value :=
  match call.arguments with
  | .Object arguments => .Object arguments
  | .InvalidJson raw => (json.from_str raw).getD .Null

def callBlock (call : ModelToolCall) : ContentBlockRequest := .ToolUse call.id call.name (callInput json call)
def resultBlock (result : ToolResultMessage) : ContentBlockRequest :=
  .ToolResult result.tool_call_id result.content result.is_error

/-- The blocks of a message of the conversation. -/
def sourceBlocks : ToolChatMessage → List (MessageRole × ContentBlockRequest)
  | .Text message =>
    match message.role with
    | .System => []
    | .User => [(.User,.Text message.content)]
    | .Assistant => [(.Assistant,.Text message.content)]
  | .Assistant turn =>
    ((turnTexts turn).map ContentBlockRequest.Text ++ turn.tool_calls.map (callBlock json)).map fun block =>
      (.Assistant,block)
  | .ToolResult result => [(.User,resultBlock result)]

def visible (block : MessageRole × ContentBlockRequest) : Bool := block.2 != .Text ""
/-- Nothing is added, moved or left out but empty texts. -/
def LeavesOutEmpty (out source : List (MessageRole × ContentBlockRequest)) : Prop :=
  out.Sublist source ∧ out.filter visible = source.filter visible

variable {json}

theorem LeavesOutEmpty.refl (blocks : List (MessageRole × ContentBlockRequest)) :
    LeavesOutEmpty blocks blocks := ⟨.refl _,rfl⟩
theorem LeavesOutEmpty.append {out out' source source' : List (MessageRole × ContentBlockRequest)}
    (first : LeavesOutEmpty out source)
    (second : LeavesOutEmpty out' source') : LeavesOutEmpty (out ++ out') (source ++ source') :=
  ⟨first.1.append second.1,by rw [filter_append,filter_append,first.2,second.2]⟩
theorem LeavesOutEmpty.trans {out between source : List (MessageRole × ContentBlockRequest)}
    (first : LeavesOutEmpty out between)
    (second : LeavesOutEmpty between source) : LeavesOutEmpty out source :=
  ⟨first.1.trans second.1,first.2.trans second.2⟩

/-- A text that is left out if it is empty. -/
theorem leaves_out_text (role : MessageRole) (text : String) :
    LeavesOutEmpty ((if text.isEmpty then [] else [ContentBlockRequest.Text text]).map fun block => (role,block))
      [(role,.Text text)] := by
  split_ifs with empty
  · rw [String.isEmpty_iff.mp empty]
    exact ⟨nil_sublist _,rfl⟩
  · exact .refl _

/-- The content of blocks has those blocks, but not a lone empty text. -/
theorem content_blocks_of (other : blocks ≠ [.Text ""]) : content_blocks (contentOf blocks) = blocks := by
  match blocks with
  | [] => rfl
  | [.Text text] =>
    have filled : text.isEmpty = false := by
      rw [Bool.eq_false_iff]
      exact fun empty => other (by rw [String.isEmpty_iff.mp empty])
    simp [contentOf,content_blocks,filled]
  | [.ToolUse _ _ _] => rfl
  | [.ToolResult _ _ _] => rfl
  | first :: _ :: _ => cases first <;> rfl

theorem leaves_out_content (role : MessageRole) (blocks : List ContentBlockRequest) :
    LeavesOutEmpty ((content_blocks (contentOf blocks)).map fun block => (role,block))
      (blocks.map fun block => (role,block)) := by
  by_cases lone : blocks = [.Text ""]
  · rw [lone]
    exact ⟨nil_sublist _,rfl⟩
  · rw [content_blocks_of lone]
    exact .refl _

theorem leaves_out_parts (parts : List AssistantContentPart) :
    LeavesOutEmpty ((parts.flatMap partBlocks).map fun block => (MessageRole.Assistant,block))
      (((parts.map partText).map ContentBlockRequest.Text).map fun block => (.Assistant,block)) := by
  induction parts with
  | nil => exact .refl _
  | cons part parts ih =>
    rw [flatMap_cons,map_append,map_cons,map_cons,map_cons,← singleton_append]
    refine LeavesOutEmpty.append ?_ ih
    cases part with
    | Text text => exact .refl _
    | Refusal refusal => exact leaves_out_text _ _

theorem leaves_out_refusal (turn : AssistantToolTurn) :
    LeavesOutEmpty ((refusalBlocks turn).map fun block => (MessageRole.Assistant,block))
      (((turn.refusal.toList.filter fun refusal => !hasRefusalPart turn refusal).map ContentBlockRequest.Text).map
        fun block => (.Assistant,block)) := by
  rw [refusalBlocks]
  cases turn.refusal with
  | none => exact .refl _
  | some refusal =>
    simp only [Option.toList_some,filter_singleton]
    cases hasRefusalPart turn refusal with
    | true => simpa using LeavesOutEmpty.refl []
    | false =>
      simp only [Bool.or_false,Bool.not_false]
      exact leaves_out_text _ _

theorem tool_use_input_eq_ok {call : ModelToolCall} {input : Value} (made : tool_use_input json call = .ok input) :
    input = callInput json call := by
  cases found : call.arguments with
  | Object arguments =>
    simp only [tool_use_input,found] at made
    simp only [callInput,found]
    exact (Except.ok.inj made).symm
  | InvalidJson raw =>
    simp only [tool_use_input,found] at made
    simp only [callInput,found]
    split at made
    · rename_i values read
      simp only [read]
      exact (Except.ok.inj made).symm
    · cases made

theorem tool_use_blocks {calls : List ModelToolCall} : ∀ {blocks : List ContentBlockRequest}, calls.mapM
    (toolUseBlock json) = .ok blocks →
    blocks = calls.map (callBlock json) := by
  induction calls with
  | nil =>
    intro blocks mapped
    cases mapped
    rfl
  | cons call calls ih =>
    intro blocks mapped
    rw [mapM_cons] at mapped
    obtain ⟨first,made,mapped⟩ := bind_eq_ok.mp mapped
    obtain ⟨rest,others,mapped⟩ := bind_eq_ok.mp mapped
    obtain ⟨input,found,made⟩ := bind_eq_ok.mp made
    cases mapped
    cases made
    rw [map_cons,← ih others,callBlock,tool_use_input_eq_ok found]

def IsText (block : ContentBlockRequest) : Prop := ∃ text, block = .Text text

theorem part_is_text {part : AssistantContentPart} (made : block ∈ partBlocks part) : IsText block := by
  cases part with
  | Text text => exact ⟨text,mem_singleton.mp made⟩
  | Refusal refusal =>
    rw [partBlocks] at made
    split_ifs at made
    · cases made
    · exact ⟨refusal,mem_singleton.mp made⟩

/-- The content of a turn: its texts and then its calls. -/
theorem assistant_content_eq_ok {turn : AssistantToolTurn} {content : MessageContent}
    (made : assistant_content json turn = .ok content) :
    ∃ texts, content = contentOf (texts ++ turn.tool_calls.map (callBlock json)) ∧ texts ++ turn.tool_calls.map
      (callBlock json) ≠ []
      ∧ (∀ block ∈ texts, IsText block)
      ∧ LeavesOutEmpty (texts.map fun block => (.Assistant,block))
        (((turnTexts turn).map ContentBlockRequest.Text).map fun block => (.Assistant,block)) := by
  rw [assistant_content,then_eq_ok,bind_eq_ok] at made
  obtain ⟨-,calls,mapped,made⟩ := made
  obtain rfl := tool_use_blocks mapped
  obtain ⟨filled,made⟩ := then_eq_ok.mp made
  cases made
  refine ⟨_,rfl,by simpa [rejectIf_eq_ok] using filled,?_,?_⟩
  · intro block member
    rcases mem_append.mp member with text | refusal
    · rw [textBlocks] at text
      split_ifs at text
      · obtain ⟨part,-,made⟩ := mem_flatMap.mp text
        exact part_is_text made
      · cases text
      · exact ⟨_,mem_singleton.mp text⟩
    · rw [refusalBlocks] at refusal
      split at refusal
      · split_ifs at refusal
        · cases refusal
        · exact ⟨_,mem_singleton.mp refusal⟩
      · cases refusal
  · rw [turnTexts,map_append,map_append,map_append]
    refine LeavesOutEmpty.append ?_ (leaves_out_refusal turn)
    rw [textBlocks]
    cases found : turn.content_parts with
    | nil => exact leaves_out_text _ _
    | cons part parts => simpa using leaves_out_parts (part :: parts)

/-! ### Calls and results -/

/-- The calls that a message makes. -/
def uses (message : Message) : List String :=
  (content_blocks message.content).filterMap fun
    | .ToolUse id _ _ => some id
    | _ => none

def IsResult (block : ContentBlockRequest) : Prop := ∃ result, block = resultBlock result
/-- A message begins with one result for each call of another, in the order of the conversation. -/
def Answers (messages : List ToolChatMessage) (asking answering : Message) : Prop :=
  answering.role = .User ∧ ∃ (results : List ToolResultMessage) (others : List ContentBlockRequest),
    content_blocks answering.content = results.map resultBlock ++ others
    ∧ results.map ToolChatMessage.ToolResult <:+: messages ∧ (results.map (·.tool_call_id)).Perm (uses asking) ∧
      ∀ block ∈ others, ¬IsResult block

theorem uses_merge (left right : Message) : uses (merge_message left right) = uses left ++ uses right := by
  rw [uses,uses,uses,merge_message,← filterMap_append]
  by_cases lone : content_blocks left.content ++ content_blocks right.content = [.Text ""]
  · rw [lone]
    rfl
  · rw [content_blocks_of lone]

/-- What follows the results may grow. -/
theorem Answers.merge (answers : Answers messages asking answering) (asked : uses asking ≠ [])
    {more : Message} (noResult : ∀ block ∈ content_blocks more.content, ¬IsResult block) :
    Answers messages asking (merge_message answering more) := by
  obtain ⟨role,results,others,blocks,order,same,plain⟩ := answers
  refine ⟨role,results,others ++ content_blocks more.content,?_,order,same,?_⟩
  · rw [merge_message,content_blocks_of,blocks,append_assoc]
    obtain ⟨result,results,rfl⟩ : ∃ result rest, results = result :: rest := by
      refine exists_cons_of_ne_nil ?_
      rintro rfl
      exact asked (nil_perm.mp same)
    rw [blocks]
    simp [resultBlock]
  · rintro block member
    rcases mem_append.mp member with before | after
    · exact plain block before
    · exact noResult block after

theorem Answers.grow (answers : Answers messages asking answering) (more : List ToolChatMessage) :
    Answers (messages ++ more) asking answering := by
  obtain ⟨role,results,others,blocks,order,rest⟩ := answers
  exact ⟨role,results,others,blocks,order.trans (prefix_append messages more).isInfix,rest⟩

/-- All calls below a message, newest first, have their results. -/
def Below (messages : List ToolChatMessage) : Message → List Message → Prop
  | _, [] => True
  | next, message :: below => (uses message ≠ [] → Answers messages message next) ∧ Below messages message below

theorem Below.merge {next more : Message} {below : List Message} (settled : Below messages next below)
    (noResult : ∀ block ∈ content_blocks more.content, ¬IsResult block) :
    Below messages (merge_message next more) below := by
  cases below with
  | nil => trivial
  | cons message below => exact ⟨fun asked => (settled.1 asked).merge asked noResult,settled.2⟩

theorem Below.grow (more : List ToolChatMessage) : ∀ {next : Message} {below : List Message},
    Below messages next below →
    Below (messages ++ more) next below
  | _, [], _ => trivial
  | _, _ :: _, settled => ⟨fun asked => (settled.1 asked).grow more,settled.2.grow more⟩

/-- The messages so far, newest first, by what is pending: nothing, all calls of the last message,
    or those calls of the message before it that the last has no result for yet. -/
inductive Stack (messages : List ToolChatMessage) : List String → List Message → Prop
  | empty : Stack messages [] []
  | settled {last : Message} {below : List Message} : uses last = [] → Below messages last below →
      Stack messages [] (last :: below)
  | asked {last : Message} {below : List Message} : uses last ≠ [] → last.role = .Assistant →
      Below messages last below →
    Stack messages (uses last) (last :: below)
  | answering {answer last : Message} {below : List Message} {results : List ToolResultMessage}
      {pending : List String} : pending ≠ [] →
    answer.role = .User → content_blocks answer.content = results.map resultBlock →
      results.map ToolChatMessage.ToolResult <:+ messages →
    (results.map (·.tool_call_id) ++ pending).Perm (uses last) → Below messages last below →
      Stack messages pending (answer :: last :: below)

/-- A message without results comes when nothing is pending. -/
theorem Stack.add (stack : Stack messages [] out)
    (noResult : ∀ block ∈ content_blocks mapped.content, ¬IsResult block) (role : uses mapped ≠ [] →
      mapped.role = .Assistant) :
    Stack messages (uses mapped) (addMessage out mapped) := by
  -- the last message, with the calls of the new one
  have lastAsks : ∀ {last : Message} {below : List Message}, uses last = uses mapped →
    (uses mapped ≠ [] → last.role = .Assistant) → Below messages last below →
      Stack messages (uses mapped) (last :: below) := by
    intro last below same role belowSettled
    by_cases unasked : uses mapped = []
    · rw [unasked] at same ⊢
      exact .settled same belowSettled
    · rw [← same]
      exact .asked (same ▸ unasked) (role unasked) belowSettled
  generalize nothing : ([] : List String) = pending at stack
  cases stack with
  | empty => exact lastAsks rfl role trivial
  | @settled last below free belowSettled =>
    rw [addMessage]
    split_ifs with same
    · refine lastAsks ?_ (fun asks => same.trans (role asks)) (belowSettled.merge noResult)
      rw [uses_merge,free,nil_append]
    · exact lastAsks rfl role ⟨fun asked => absurd free asked,belowSettled⟩
  | asked asked => exact absurd nothing.symm asked
  | answering pending => exact absurd nothing.symm pending

/-- A result is added to those that answer the last calls. -/
theorem Stack.answer {answer last : Message} {below : List Message} {pending : List String}
    (results : List ToolResultMessage)
    (role : answer.role = .User) (blocks : content_blocks answer.content = results.map resultBlock)
    (order : results.map ToolChatMessage.ToolResult <:+ messages)
    (same : (results.map (·.tool_call_id) ++ pending).Perm (uses last)) (belowSettled : Below messages last below) :
    Stack messages pending (answer :: last :: below) := by
  by_cases all : pending = []
  · rw [all,append_nil] at same
    rw [all]
    refine .settled ?_ ⟨fun _ => ⟨role,results,[],by rw [blocks,append_nil],order.isInfix,same,by simp⟩,belowSettled⟩
    rw [uses,blocks,filterMap_map]
    exact filterMap_eq_nil_iff.mpr fun result _ => rfl
  · exact .answering all role blocks order same belowSettled

theorem Stack.grow (stack : Stack messages [] out) (more : List ToolChatMessage) :
    Stack (messages ++ more) [] out := by
  generalize nothing : ([] : List String) = pending at stack
  cases stack with
  | empty => exact .empty
  | settled free belowSettled => exact .settled free (belowSettled.grow more)
  | asked asked => exact absurd nothing.symm asked
  | answering pending => exact absurd nothing.symm pending

theorem mem_contentOf (member : block ∈ content_blocks (contentOf blocks)) : block ∈ blocks := by
  by_cases lone : blocks = [.Text ""]
  · rw [lone] at member
    cases member
  · rwa [content_blocks_of lone] at member

/-- Texts and then calls hold no result and make the calls. -/
theorem texts_and_calls {texts : List ContentBlockRequest} (all : ∀ block ∈ texts, IsText block)
    (calls : List ModelToolCall) (role : MessageRole) :
    (∀ block ∈ content_blocks (contentOf (texts ++ calls.map (callBlock json))), ¬IsResult block)
      ∧ uses ⟨role,contentOf (texts ++ calls.map (callBlock json))⟩ = calls.map (·.id) := by
  constructor
  · rintro block member ⟨result,rfl⟩
    rcases mem_append.mp (mem_contentOf member) with text | call
    · obtain ⟨text,other⟩ := all _ text
      cases other
    · obtain ⟨call,-,other⟩ := mem_map.mp call
      cases other
  · have noCall : texts.filterMap (fun | .ToolUse id _ _ => some id | _ => none) = [] := by
      refine filterMap_eq_nil_iff.mpr fun block member => ?_
      obtain ⟨text,rfl⟩ := all block member
      rfl
    have callsOnly : (texts ++ calls.map (callBlock json)).filterMap (fun | .ToolUse id _ _ => some id | _ => none) =
      calls.map (·.id) := by
      rw [filterMap_append,noCall,nil_append,filterMap_map]
      exact congrFun (@filterMap_eq_map _ _ (fun call : ModelToolCall => call.id)) calls
    rw [← callsOnly,uses]
    by_cases lone : texts ++ calls.map (callBlock json) = [.Text ""]
    · rw [lone]
      rfl
    · rw [content_blocks_of lone]

/-- A message of the conversation that the validator accepts and that is mapped. -/
theorem Stack.step (stack : Stack messages conversation.pending out)
    (valid : validateMessage writer conversation message = .ok next) (made : message_from json message = .ok mapped) :
    Stack (messages ++ [message]) next.pending (addMessage out mapped) := by
  cases message with
  | Text message =>
    obtain ⟨free,rfl⟩ := validate_text_message valid
    cases made
    have blocks : ∀ block ∈ content_blocks (.Text message.content), block = .Text message.content := by
      intro block member
      rw [content_blocks] at member
      split_ifs at member
      · cases member
      · exact mem_singleton.mp member
    have noCall : uses ⟨if message.role = .Assistant then .Assistant else .User,.Text message.content⟩ = [] :=
      filterMap_eq_nil_iff.mpr fun block member => by rw [blocks block member]
    rw [free] at stack ⊢
    rw [← noCall]
    refine (stack.grow _).add (fun block member => ?_) (fun asks => absurd noCall asks)
    rintro ⟨result,other⟩
    rw [blocks block member] at other
    cases other
  | Assistant turn =>
    obtain ⟨free,pending⟩ := validate_turn_message valid
    obtain ⟨content,found,same⟩ := bind_eq_ok.mp made
    cases same
    obtain ⟨texts,rfl,-,all,-⟩ := assistant_content_eq_ok found
    obtain ⟨noResult,calls⟩ := @texts_and_calls json texts all turn.tool_calls .Assistant
    rw [free] at stack
    rw [pending,← calls]
    exact (stack.grow _).add noResult fun _ => rfl
  | ToolResult result =>
    obtain ⟨member,pending⟩ := validate_result_message valid
    cases made
    rw [pending]
    generalize conversation.pending = before at stack member
    cases stack with
    | empty => cases member
    | settled => cases member
    | @asked last below asked role belowSettled =>
      have other : last.role ≠ .User := by
        rw [role]
        decide
      rw [addMessage,if_neg other]
      exact .answer [result] rfl rfl ⟨messages,rfl⟩ (perm_cons_erase member).symm (belowSettled.grow _)
    | @answering answer last below results pending waiting role blocks order same belowSettled =>
      rw [addMessage,if_pos role]
      refine .answer (results ++ [result]) role ?_ ?_ ?_ (belowSettled.grow _)
      · rw [merge_message,content_blocks_of]
        · rw [blocks,map_append]
          rfl
        · rw [blocks]
          cases results <;> simp [content_blocks,resultBlock]
      · rw [map_append]
        obtain ⟨before,rfl⟩ := order
        exact ⟨before,by rw [append_assoc]; rfl⟩
      · refine List.Perm.trans ?_ same
        rw [map_append,append_assoc]
        exact (perm_cons_erase member).symm.append_left _

/-- A system message is accepted while nothing is pending, and is not mapped. -/
theorem Stack.system (stack : Stack messages conversation.pending out)
    (valid : validateMessage writer conversation message = .ok next) (system : isSystem message = true) :
    Stack (messages ++ [message]) next.pending out := by
  cases message with
  | Text message =>
    obtain ⟨free,rfl⟩ := validate_text_message valid
    rw [free] at stack ⊢
    exact stack.grow _
  | Assistant turn => cases system
  | ToolResult result => cases system

theorem mapMessages_stack (rest : List ToolChatMessage) :
    ∀ {messages : List ToolChatMessage} {conversation next : Conversation} {out out' : List Message},
    Stack messages conversation.pending out → rest.foldlM (validateMessage writer) conversation = .ok next →
      mapMessages json out rest = .ok out' →
    Stack (messages ++ rest) next.pending out' := by
  induction rest with
  | nil =>
    intro messages conversation next out out' stack valid mapped
    cases valid
    cases mapped
    rwa [append_nil]
  | cons message rest ih =>
    intro messages conversation next out out' stack valid mapped
    rw [foldlM_cons] at valid
    obtain ⟨between,one,valid⟩ := bind_eq_ok.mp valid
    rw [append_cons]
    rw [mapMessages] at mapped
    split_ifs at mapped with system
    · exact ih (stack.system one system) valid mapped
    · obtain ⟨first,made,mapped⟩ := bind_eq_ok.mp mapped
      exact ih (stack.step one made) valid mapped

theorem Below.at {post : List Message} (asked : uses asking ≠ []) (pre : List Message) :
    ∀ {next : Message} {below : List Message}, Below messages next below →
      next :: below = pre ++ answering :: asking :: post → Answers messages asking answering := by
  induction pre with
  | nil =>
    intro next below settled split
    obtain ⟨rfl,rfl⟩ := cons.inj split
    exact settled.1 asked
  | cons first pre ih =>
    intro next below settled split
    obtain ⟨rfl,rfl⟩ := cons.inj split
    cases pre with
    | nil => exact ih settled.2 rfl
    | cons second pre => exact ih settled.2 rfl

/-- Once nothing is pending, every message that makes calls is answered by the one behind it. -/
theorem Stack.answered (stack : Stack messages [] out) {before after : List Message}
    (split : out.reverse = before ++ asking :: after) (asked : uses asking ≠ []) :
    ∃ answering rest, after = answering :: rest ∧ Answers messages asking answering := by
  have newest := congrArg reverse split
  rw [reverse_reverse,reverse_append,reverse_cons,append_assoc,singleton_append] at newest
  generalize nothing : ([] : List String) = pending at stack
  cases stack with
  | empty => simp at newest
  | @settled last below free belowSettled =>
    cases after with
    | nil =>
      obtain ⟨rfl,-⟩ := cons.inj newest
      exact absurd free asked
    | cons answering rest =>
      rw [reverse_cons,append_assoc,singleton_append] at newest
      exact ⟨answering,rest,rfl,belowSettled.at asked rest.reverse newest⟩
  | asked waiting => exact absurd nothing.symm waiting
  | answering waiting => exact absurd nothing.symm waiting

/-! ### Roles and order -/

/-- Neighbours have different roles. -/
def Alternate (messages : List Message) : Prop := messages.IsChain fun first second => first.role ≠ second.role

theorem Alternate.add (alternate : Alternate out) (mapped : Message) : Alternate (addMessage out mapped) := by
  cases out with
  | nil => exact List.IsChain.singleton _
  | cons last before =>
    rw [addMessage]
    split_ifs with same
    · cases before with
      | nil => exact List.IsChain.singleton _
      | cons second before =>
        rw [Alternate,isChain_cons_cons] at alternate ⊢
        exact alternate
    · rw [Alternate,isChain_cons_cons]
      exact ⟨Ne.symm same,alternate⟩

theorem flatten_append (first second : List Message) : flatten (first ++ second) = flatten first ++ flatten second :=
  flatMap_append
theorem flatten_singleton (message : Message) : flatten [message] = (content_blocks message.content).map fun block =>
    (message.role,block) :=
  flatMap_singleton _ message

/-- A message is added behind the others, whether it is merged or not. -/
theorem leaves_out_added (out : List Message) (mapped : Message) :
    LeavesOutEmpty (flatten (addMessage out mapped).reverse) (flatten out.reverse ++ flatten [mapped]) := by
  cases out with
  | nil => exact .refl _
  | cons last before =>
    rw [addMessage]
    split_ifs with same
    · rw [reverse_cons,reverse_cons,flatten_append,flatten_append,append_assoc]
      refine LeavesOutEmpty.append (.refl _) ?_
      rw [flatten_singleton,flatten_singleton,flatten_singleton,← same,← map_append]
      exact leaves_out_content last.role _
    · rw [reverse_cons,flatten_append]
      exact .refl _

/-- The blocks of a message that was mapped. -/
theorem leaves_out_mapped (other : isSystem message = false) (made : message_from json message = .ok mapped) :
    LeavesOutEmpty (flatten [mapped]) (sourceBlocks json message) := by
  rw [flatten_singleton]
  cases message with
  | Text message =>
    cases made
    obtain ⟨role,content⟩ := message
    cases role with
    | System => cases other
    | User => exact leaves_out_text _ _
    | Assistant => exact leaves_out_text _ _
  | Assistant turn =>
    obtain ⟨content,found,same⟩ := bind_eq_ok.mp made
    cases same
    obtain ⟨texts,rfl,-,-,kept⟩ := assistant_content_eq_ok found
    refine (leaves_out_content _ _).trans ?_
    rw [sourceBlocks,map_append,map_append]
    exact kept.append (.refl _)
  | ToolResult result =>
    cases made
    exact .refl _

theorem sourceBlocks_system (system : isSystem message = true) : sourceBlocks json message = [] := by
  cases message with
  | Text message =>
    obtain ⟨role,content⟩ := message
    cases role with
    | System => rfl
    | User => cases system
    | Assistant => cases system
  | Assistant turn => cases system
  | ToolResult result => cases system

theorem mapMessages_keeps (rest : List ToolChatMessage) : ∀ {out out' : List Message}, Alternate out →
    mapMessages json out rest = .ok out' →
    Alternate out' ∧ LeavesOutEmpty (flatten out'.reverse)
      (flatten out.reverse ++ rest.flatMap (sourceBlocks json)) := by
  induction rest with
  | nil =>
    intro out out' alternate mapped
    cases mapped
    rw [flatMap_nil,append_nil]
    exact ⟨alternate,.refl _⟩
  | cons message rest ih =>
    intro out out' alternate mapped
    rw [flatMap_cons]
    rw [mapMessages] at mapped
    split_ifs at mapped with system
    · rw [sourceBlocks_system system,nil_append]
      exact ih alternate mapped
    · obtain ⟨first,made,mapped⟩ := bind_eq_ok.mp mapped
      obtain ⟨alternate',kept⟩ := ih (alternate.add first) mapped
      rw [Bool.not_eq_true] at system
      refine ⟨alternate',kept.trans ?_⟩
      rw [← append_assoc]
      exact ((leaves_out_added out first).trans ((LeavesOutEmpty.refl _).append (leaves_out_mapped system made))).append
        (.refl _)

/-! ### The request -/

theorem requestFrom_messages {wire : Request} (made : requestFrom json request = .ok wire) :
    ∃ out, mapMessages json [] request.messages = .ok out ∧ wire.messages = out.reverse ∧ wire.system = systemPrompt
      (system_texts request.messages) := by
  rw [requestFrom,then_eq_ok,bind_eq_ok] at made
  obtain ⟨-,extra,-,made⟩ := made
  obtain ⟨⟨system,messages⟩,mapped,made⟩ := bind_eq_ok.mp made
  obtain ⟨out,found,same⟩ := bind_eq_ok.mp mapped
  cases same
  cases made
  exact ⟨out,found,rfl,rfl⟩

theorem validate_walk (valid : request.validate writer = .ok ()) :
    ∃ budget conversation, request.messages.foldlM (validateMessage writer) ⟨[],[],[],budget⟩ = .ok conversation ∧
      conversation.pending = [] := by
  rw [ToolChatRequest.validate,then_eq_ok,bind_eq_ok] at valid
  obtain ⟨-,budget,-,valid⟩ := valid
  obtain ⟨left,walked,-⟩ := bind_eq_ok.mp valid
  exact ⟨budget,validate_conversation_walk walked⟩

/-- The messages of the request for an accepted conversation alternate in role, hold its blocks in order
    without system messages and empty texts, and answer all calls of a message at the start of the next. -/
theorem request_follows_conversation {request : ToolChatRequest} {wire : Request}
    (valid : request.validate writer = .ok ()) (made : requestFrom json request = .ok wire) :
    Alternate wire.messages ∧ LeavesOutEmpty (flatten wire.messages) (request.messages.flatMap (sourceBlocks json))
      ∧ ∀ before asking after, wire.messages = before ++ asking :: after → uses asking ≠ [] →
        ∃ answering rest, after = answering :: rest ∧ Answers request.messages asking answering := by
  obtain ⟨out,mapped,messages,-⟩ := requestFrom_messages made
  obtain ⟨budget,conversation,walked,settled⟩ := validate_walk valid
  have stack := mapMessages_stack request.messages (.empty : Stack [] [] []) walked mapped
  obtain ⟨alternate,kept⟩ := mapMessages_keeps request.messages List.IsChain.nil mapped
  rw [settled,nil_append] at stack
  rw [messages]
  refine ⟨?_,kept,fun before asking after split asked => stack.answered split asked⟩
  rw [Alternate,isChain_reverse]
  exact alternate.imp fun _ _ => Ne.symm

/-- Two calls that are answered in the other order, between plain messages. -/
def sampleRequest : ToolChatRequest where
  model := "m"
  messages := [.Text ⟨.System,"be brief"⟩,.Text ⟨.User,"list"⟩,
    .Assistant ⟨"",[],none,none,[⟨"c1","ls",.Object []⟩,⟨"c2","pwd",.Object []⟩]⟩,
    .ToolResult ⟨"c2","/tmp",false⟩,.ToolResult ⟨"c1","",true⟩,.Text ⟨.User,"go on"⟩]
  tools := []
  tool_choice := .Auto
  params := ⟨none,none,none,none,[]⟩

def sampleAsking : Message := ⟨.Assistant,.Blocks [.ToolUse "c1" "ls" (.Object []),.ToolUse "c2" "pwd" (.Object [])]⟩
def sampleAnswering : Message := ⟨.User,.Blocks [.ToolResult "c2" "/tmp" false,.ToolResult "c1" "" true,.Text "go on"]⟩

theorem sample_request_answered : ∃ wire, requestFrom sampleJson.toSerdeJson sampleRequest = .ok wire ∧
    wire.messages = [⟨.User,.Text "list"⟩,sampleAsking,sampleAnswering] ∧ uses sampleAsking = ["c1","c2"]
      ∧ Answers sampleRequest.messages sampleAsking sampleAnswering := by
  have valid : sampleRequest.validate serde_json = .ok () := by decide
  have made : ∃ wire, requestFrom sampleJson.toSerdeJson sampleRequest = .ok wire ∧
    wire.messages = [⟨.User,.Text "list"⟩,sampleAsking,sampleAnswering] :=
    ⟨_,rfl,by decide⟩
  obtain ⟨wire,made,messages⟩ := made
  obtain ⟨-,-,answered⟩ := request_follows_conversation valid made
  obtain ⟨answering,rest,split,answers⟩ := answered [_] sampleAsking [_] messages (by decide)
  obtain ⟨rfl,-⟩ := cons.inj split
  exact ⟨wire,made,messages,rfl,answers⟩

end Vyane.AnthropicToolChat
