import Vyane.AnthropicMessages

/-!
Empty texts in an Anthropic request. Refusals, blocks of the system prompt and merged strings are filtered; plain
messages and the texts of a turn's parts are not. A request has none just if each run of messages of one role says
something and no turn has an empty part beside other blocks.
-/
namespace Vyane.AnthropicToolChat
open Vyane.Core Json ToolChat Wire Transactions List

/-- Content that is not empty and has no empty text. -/
def MessageContent.Filled : MessageContent → Prop
  | .Text text => text ≠ ""
  | .Blocks blocks => blocks ≠ [] ∧ .Text "" ∉ blocks
/-- A prompt with blocks has one, and none of them is empty. -/
def SystemPrompt.Filled : SystemPrompt → Prop
  | .Text _ => True
  | .Blocks texts => texts ≠ [] ∧ "" ∉ texts

/-- A message that says nothing: an empty text, or a turn whose only block is one. -/
def Quiet : ToolChatMessage → Prop
  | .Text message => message.content = ""
  | .Assistant turn => textBlocks turn ++ refusalBlocks turn = [.Text ""] ∧ turn.tool_calls = []
  | .ToolResult _ => False
/-- No part of a turn is an empty text beside other blocks. -/
def Spoken : ToolChatMessage → Prop
  | .Assistant turn => .Text "" ∈ turn.content_parts → Quiet (.Assistant turn)
  | _ => True
/-- The system messages are not several that are all empty. -/
def SystemTold (messages : List ToolChatMessage) : Prop :=
  (system_texts messages).length ≤ 1 ∨ ∃ text ∈ system_texts messages, text ≠ ""

def sentRole : ToolChatMessage → MessageRole
  | .Text message => if message.role = .Assistant then .Assistant else .User
  | .Assistant _ => .Assistant
  | .ToolResult _ => .User
/-- The messages of one role that follow each other, newest run first; system messages are not among them. -/
def addRun (runs : List (MessageRole × List ToolChatMessage)) (message : ToolChatMessage) :
    List (MessageRole × List ToolChatMessage) :=
  match runs with
  | (role,run) :: before =>
      if role = sentRole message then (role,run ++ [message]) :: before else (sentRole message,[message]) :: runs
  | [] => [(sentRole message,[message])]
def runs (messages : List ToolChatMessage) : List (MessageRole × List ToolChatMessage) :=
  (messages.filter fun message => !isSystem message).foldl addRun []

variable {json : SerdeJson} {content : MessageContent} {turn : AssistantToolTurn} {message : ToolChatMessage}
    {mapped : Message}

/-! ### Messages -/

theorem MessageContent.filled_iff : content.Filled ↔
    content_blocks content ≠ [] ∧ .Text "" ∉ content_blocks content := by
  cases content with
  | Blocks blocks => rfl
  | Text text =>
    by_cases empty : text = ""
    · simp [Filled,content_blocks,empty]
    · have other : text.isEmpty = false := by rwa [Bool.eq_false_iff,Ne,String.isEmpty_iff]
      simp [Filled,content_blocks,other,empty,Ne.symm empty]

/-- A turn has an empty text block just if one of its parts is empty. -/
theorem empty_block_iff : .Text "" ∈ textBlocks turn ++ refusalBlocks turn ↔ .Text "" ∈ turn.content_parts := by
  constructor
  · intro member
    rcases mem_append.mp member with text | refusal
    · rw [textBlocks] at text
      split_ifs at text with parts empty
      · obtain ⟨part,listed,made⟩ := mem_flatMap.mp text
        cases part with
        | Text text =>
          cases mem_singleton.mp made
          exact listed
        | Refusal refusal =>
          rw [partBlocks] at made
          split_ifs at made with empty
          · cases made
          · cases mem_singleton.mp made
            exact absurd rfl empty
      · cases text
      · obtain same := ContentBlockRequest.Text.inj (mem_singleton.mp text)
        rw [← same] at empty
        exact absurd rfl empty
    · rw [refusalBlocks] at refusal
      split at refusal
      · split_ifs at refusal with leftOut
        · cases refusal
        · cases mem_singleton.mp refusal
          exact absurd rfl leftOut
      · cases refusal
  · intro part
    have somePart : (!turn.content_parts.isEmpty) = true := by
      rw [Bool.not_eq_true',isEmpty_eq_false_iff]
      exact ne_nil_of_mem part
    rw [textBlocks,if_pos somePart]
    exact mem_append_left _ (mem_flatMap.mpr ⟨_,part,mem_singleton.mpr rfl⟩)

/-- What a message of the request says of the run that it was made of. -/
structure Sends (message : Message) (run : MessageRole × List ToolChatMessage) : Prop where
  role : message.role = run.1
  /-- A lone empty text is a string, which has no blocks. -/
  lone : content_blocks message.content ≠ [.Text ""]
  empty : content_blocks message.content = [] ↔ ∀ message ∈ run.2, Quiet message
  spoken : .Text "" ∉ content_blocks message.content ↔ ∀ message ∈ run.2, Spoken message

theorem contentOf_lone (blocks : List ContentBlockRequest) : content_blocks (contentOf blocks) ≠ [.Text ""] := by
  by_cases lone : blocks = [.Text ""]
  · rw [lone]
    simp [contentOf,content_blocks]
  · rwa [content_blocks_of lone]

theorem assistant_content_sends (made : assistant_content json turn = .ok content) :
    Sends ⟨.Assistant,content⟩ (.Assistant,[.Assistant turn]) := by
  rw [assistant_content,then_eq_ok,bind_eq_ok] at made
  obtain ⟨-,calls,mapped,made⟩ := made
  obtain rfl := tool_use_blocks mapped
  obtain ⟨someBlock,made⟩ := then_eq_ok.mp made
  cases made
  rw [rejectIf_eq_ok,isEmpty_eq_false_iff] at someBlock
  have noCall : ContentBlockRequest.Text "" ∉ turn.tool_calls.map (callBlock json) := by simp [callBlock]
  have lone : textBlocks turn ++ refusalBlocks turn ++ turn.tool_calls.map (callBlock json) = [.Text ""] ↔
    Quiet (.Assistant turn) := by
    constructor
    · intro same
      cases calls : turn.tool_calls with
      | nil =>
        rw [calls,map_nil,append_nil] at same
        exact ⟨same,calls⟩
      | cons call rest =>
        refine absurd ?_ noCall
        rw [calls,map_cons] at same ⊢
        have only := append_eq_singleton_iff.mp same
        simp only [cons_ne_nil,and_false,cons.injEq,or_false] at only
        exact only.2.1 ▸ mem_cons_self
    · rintro ⟨texts,calls⟩
      rw [texts,calls]
      rfl
  have text : ContentBlockRequest.Text "" ∈ textBlocks turn ++ refusalBlocks turn ++ turn.tool_calls.map
    (callBlock json) ↔ .Text "" ∈ turn.content_parts := by
    rw [mem_append,or_iff_left noCall,empty_block_iff]
  refine ⟨rfl,contentOf_lone _,?_,?_⟩
  · rw [forall_mem_singleton,← lone]
    by_cases same : textBlocks turn ++ refusalBlocks turn ++ turn.tool_calls.map (callBlock json) = [.Text ""]
    · simp [same,contentOf,content_blocks]
    · simp only [content_blocks_of same,someBlock,same]
  · rw [forall_mem_singleton,Spoken,← text,← lone]
    by_cases same : textBlocks turn ++ refusalBlocks turn ++ turn.tool_calls.map (callBlock json) = [.Text ""]
    · simp [same,contentOf,content_blocks]
    · simp only [content_blocks_of same,same,imp_false]

theorem message_from_sends (made : message_from json message = .ok mapped) :
    Sends mapped (sentRole message,[message]) := by
  cases message with
  | Text message =>
    cases made
    by_cases empty : message.content = ""
    · exact ⟨rfl,by simp [content_blocks,empty],by simp [content_blocks,Quiet,empty],by simp [content_blocks,
        Spoken,empty]⟩
    · have other : message.content.isEmpty = false := by rwa [Bool.eq_false_iff,Ne,String.isEmpty_iff]
      exact ⟨rfl,by simp [content_blocks,other,empty],by simp [content_blocks,other,Quiet,empty],
        by simp [content_blocks,other,Spoken,Ne.symm empty]⟩
  | Assistant turn =>
    obtain ⟨content,found,same⟩ := bind_eq_ok.mp made
    cases same
    exact assistant_content_sends found
  | ToolResult result =>
    cases made
    exact ⟨rfl,by simp [content_blocks],by simp [content_blocks,Quiet],by simp [content_blocks,Spoken]⟩

/-! ### Runs -/

theorem Sends.merge {last : Message} {role : MessageRole} {run : List ToolChatMessage} (first : Sends last (role,run))
    (second : Sends mapped (sentRole message,[message])) :
    Sends (merge_message last mapped) (role,run ++ [message]) := by
  have blocks : content_blocks (merge_message last mapped).content =
    content_blocks last.content ++ content_blocks mapped.content := by
    refine content_blocks_of fun same => ?_
    rcases append_eq_singleton_iff.mp same with ⟨-,right⟩ | ⟨left,-⟩
    · exact second.lone right
    · exact first.lone left
  refine ⟨first.role,contentOf_lone _,?_,?_⟩
  · rw [blocks,append_eq_nil_iff,first.empty,second.empty,forall_mem_append]
  · rw [blocks,mem_append,not_or,first.spoken,second.spoken,forall_mem_append]

theorem addMessage_sends {out : List Message} {before : List (MessageRole × List ToolChatMessage)}
    (all : List.Forall₂ Sends out before)
    (new : Sends mapped (sentRole message,[message])) : List.Forall₂ Sends (addMessage out mapped)
    (addRun before message) := by
  cases all with
  | nil => exact .cons new .nil
  | @cons last run out before first rest =>
    obtain ⟨role,run⟩ := run
    rw [addMessage,addRun,first.role,new.role]
    split_ifs
    · exact .cons (first.merge new) rest
    · exact .cons new (.cons first rest)

theorem mapMessages_sends (rest : List ToolChatMessage) :
    ∀ {out out' : List Message} {before : List (MessageRole × List ToolChatMessage)},
    List.Forall₂ Sends out before → mapMessages json out rest = .ok out' →
    List.Forall₂ Sends out' ((rest.filter fun message => !isSystem message).foldl addRun before) := by
  induction rest with
  | nil =>
    intro out out' before all mapped
    cases mapped
    exact all
  | cons message rest ih =>
    intro out out' before all mapped
    rw [mapMessages] at mapped
    split_ifs at mapped with system
    · rw [filter_cons_of_neg (by simp [system])]
      exact ih all mapped
    · obtain ⟨first,made,mapped⟩ := bind_eq_ok.mp mapped
      rw [filter_cons_of_pos (by simpa using system)]
      exact ih (addMessage_sends all (message_from_sends made)) mapped

theorem sends_filled {out : List Message} {sources : List (MessageRole × List ToolChatMessage)}
    (all : List.Forall₂ Sends out sources) :
    (∀ message ∈ out, message.content.Filled) ↔ ∀ run ∈ sources, (∃ message ∈ run.2, ¬Quiet message) ∧
      ∀ message ∈ run.2, Spoken message := by
  induction all with
  | nil => simp
  | cons first _ ih =>
    rw [forall_mem_cons,forall_mem_cons,ih,MessageContent.filled_iff,Ne,first.empty,first.spoken]
    simp only [not_forall,exists_prop]

theorem systemPrompt_filled (texts : List String) :
    (∀ prompt, systemPrompt texts = some prompt → prompt.Filled) ↔ texts.length ≤ 1 ∨ ∃ text ∈ texts, text ≠ "" := by
  match texts with
  | [] => simp [systemPrompt]
  | [_] => simp [systemPrompt,SystemPrompt.Filled]
  | first :: second :: rest =>
    simp only [systemPrompt,Option.some.injEq,forall_eq',SystemPrompt.Filled,Ne,filter_eq_nil_iff]
    simp [imp_iff_not_or]

/-- A request has no empty text block, no message without content and no list of system blocks that is empty, if and
    only if in each run of messages of one role one says something, no turn has an empty part beside other blocks, and
    not each of several system messages is empty. -/
theorem request_is_filled {request : ToolChatRequest} {wire : Request} (made : requestFrom json request = .ok wire) :
    ((∀ message ∈ wire.messages, message.content.Filled) ∧ ∀ prompt, wire.system = some prompt → prompt.Filled) ↔
      (∀ run ∈ runs request.messages, (∃ message ∈ run.2, ¬Quiet message) ∧ ∀ message ∈ run.2, Spoken message) ∧
        SystemTold request.messages := by
  obtain ⟨out,mapped,messages,prompt⟩ := requestFrom_messages made
  rw [messages,prompt,systemPrompt_filled,SystemTold,runs,
    ← sends_filled (mapMessages_sends request.messages .nil mapped)]
  simp only [mem_reverse]

/-- A turn that is sent again, with a result for each of its calls. -/
def replay (turn : AssistantToolTurn) : ToolChatRequest where
  model := "m"
  messages := [.Text ⟨.System,"be brief"⟩,.Text ⟨.User,"list"⟩,.Assistant turn] ++ turn.tool_calls.map fun call =>
    .ToolResult ⟨call.id,"",false⟩
  tools := []
  tool_choice := .Auto
  params := ⟨none,none,none,none,[]⟩

/-- A response with a text and a call. -/
def sampleResponse (text : String) : Response where
  model := none
  role := some "assistant"
  content := [⟨some "text",some text,none,none,none,none⟩,
    ⟨some "tool_use",none,none,some "c1",some "ls",some ⟨.Object [] true,.Object [],rfl,by decide⟩⟩]
  stop_reason := some "tool_use"
  usage := none

/-- The turn of a response is sent again, in a request without empty texts. -/
theorem sample_response_filled : ∃ outcome wire, outcomeFrom sampleJson.toSerdeJson serde_json
    (sampleResponse "see") = .ok outcome
    ∧ requestFrom sampleJson.toSerdeJson (replay outcome.assistant) = .ok wire
    ∧ (∀ message ∈ wire.messages, message.content.Filled) ∧ ∀ prompt, wire.system = some prompt → prompt.Filled := by
  have read : ∃ outcome, outcomeFrom sampleJson.toSerdeJson serde_json (sampleResponse "see") = .ok outcome
      ∧ outcome.assistant = ⟨"see",[.Text "see"],none,none,[⟨"c1","ls",.Object []⟩]⟩ := ⟨_,rfl,rfl⟩
  obtain ⟨outcome,read,turn⟩ := read
  have made : ∃ wire, requestFrom sampleJson.toSerdeJson (replay outcome.assistant) = .ok wire := by
    rw [turn]
    exact ⟨_,rfl⟩
  obtain ⟨wire,made⟩ := made
  refine ⟨outcome,wire,read,made,(request_is_filled made).mpr ⟨?_,.inl (by rw [turn]; decide)⟩⟩
  rw [turn,show runs (replay ⟨"see",[.Text "see"],none,none,[⟨"c1","ls",.Object []⟩]⟩).messages =
    [(.User,[.ToolResult ⟨"c1","",false⟩]),
      (.Assistant,[.Assistant ⟨"see",[.Text "see"],none,none,[⟨"c1","ls",.Object []⟩]⟩]),
      (.User,[.Text ⟨.User,"list"⟩])] from rfl]
  simp [Quiet,Spoken]

/-- Two system messages and two plain messages that are all empty. -/
def silentRequest : ToolChatRequest where
  model := "m"
  messages := [.Text ⟨.System,""⟩,.Text ⟨.System,""⟩,.Text ⟨.User,""⟩,.Text ⟨.User,""⟩]
  tools := []
  tool_choice := .Auto
  params := ⟨none,none,none,none,[]⟩

/-- An empty text that a model wrote before its call is sent back as an empty block; empty plain
    messages become a message without content, and empty system messages a list without blocks. -/
theorem empty_texts_are_sent :
    (∃ outcome wire, outcomeFrom sampleJson.toSerdeJson serde_json (sampleResponse "") = .ok outcome
      ∧ (replay outcome.assistant).validate serde_json = .ok () ∧ requestFrom sampleJson.toSerdeJson
        (replay outcome.assistant) = .ok wire
      ∧ ⟨.Assistant,.Blocks [.Text "",.ToolUse "c1" "ls" (.Object [])]⟩ ∈ wire.messages)
    ∧ ∃ wire, silentRequest.validate serde_json = .ok () ∧ requestFrom sampleJson.toSerdeJson silentRequest = .ok wire
      ∧ wire.messages = [⟨.User,.Blocks []⟩] ∧ wire.system = some (.Blocks []) := by
  constructor
  · have read : ∃ outcome, outcomeFrom sampleJson.toSerdeJson serde_json (sampleResponse "") = .ok outcome
        ∧ outcome.assistant = ⟨"",[.Text ""],none,none,[⟨"c1","ls",.Object []⟩]⟩ := ⟨_,rfl,rfl⟩
    obtain ⟨outcome,read,turn⟩ := read
    have sent : (replay outcome.assistant).validate serde_json = .ok () ∧ ∃ wire,
      requestFrom sampleJson.toSerdeJson (replay outcome.assistant) = .ok wire
        ∧ ⟨.Assistant,.Blocks [.Text "",.ToolUse "c1" "ls" (.Object [])]⟩ ∈ wire.messages := by
      rw [turn]
      exact ⟨by decide,_,rfl,by decide⟩
    obtain ⟨valid,wire,made,member⟩ := sent
    exact ⟨outcome,wire,read,valid,made,member⟩
  · exact ⟨_,by decide,rfl,by decide,by decide⟩

end Vyane.AnthropicToolChat
