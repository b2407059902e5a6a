import Vyane.ToolChat
import Vyane.Transactions

/-!
What `validate_conversation_with_budget` (`tool_chat.rs`) says of each message: calls become pending together, and until
all have their result, no other message is accepted.
-/
namespace Vyane.ToolChat
open Json Transactions List ToolChatLimits

variable {writer : Writer} {conversation next : Conversation} {turn : AssistantToolTurn}
  {messages : List ToolChatMessage} {budget left : JsonBudget} {results : List ToolResultMessage}

theorem ensure_eq_ok {condition : Bool} {error : ToolChatValidationError} : ensure condition error = .ok () ↔
    condition = true := by
  cases condition <;> simp [ensure]

/-- A text message comes while nothing is pending. -/
theorem validate_text_message {message : Core.ChatMessage}
    (valid : validateMessage writer conversation (.Text message) = .ok next) :
    conversation.pending = [] ∧ next = conversation := by
  rw [validateMessage,then_eq_ok,then_eq_ok] at valid
  obtain ⟨settled,-,same⟩ := valid
  rw [ensure_eq_ok,List.isEmpty_iff] at settled
  exact ⟨settled,(Except.ok.inj same).symm⟩

/-- The calls of a turn, one after the other. -/
theorem open_calls_pending (calls : List ModelToolCall) : ∀ {conversation next : Conversation},
    calls.foldlM Conversation.openCall conversation = .ok next →
      next.pending = conversation.pending ++ calls.map (·.id) := by
  induction calls with
  | nil =>
    intro conversation next opened
    cases opened
    exact (append_nil _).symm
  | cons call calls ih =>
    intro conversation next opened
    rw [foldlM_cons] at opened
    obtain ⟨between,one,rest⟩ := bind_eq_ok.mp opened
    obtain ⟨-,made⟩ := then_eq_ok.mp one
    cases made
    rw [ih rest,map_cons]
    exact append_assoc ..

/-- A turn comes while nothing is pending, and leaves its calls pending. -/
theorem validate_turn_message (valid : validateMessage writer conversation (.Assistant turn) = .ok next) :
    conversation.pending = [] ∧ next.pending = turn.tool_calls.map (·.id) := by
  rw [validateMessage,then_eq_ok,bind_eq_ok] at valid
  obtain ⟨settled,json_budget,-,opened⟩ := valid
  rw [ensure_eq_ok,List.isEmpty_iff] at settled
  refine ⟨settled,?_⟩
  rw [open_calls_pending _ opened,settled,List.nil_append]

/-- A result is for a pending call, which it settles. -/
theorem validate_result_message {result : ToolResultMessage}
    (valid : validateMessage writer conversation (.ToolResult result) = .ok next) :
    result.tool_call_id ∈ conversation.pending ∧ next.pending = conversation.pending.erase result.tool_call_id := by
  rw [validateMessage,then_eq_ok,then_eq_ok,then_eq_ok,then_eq_ok] at valid
  obtain ⟨-,-,-,pending,made⟩ := valid
  cases made
  exact ⟨by simpa [ensure_eq_ok] using pending,rfl⟩

/-- An accepted conversation is walked to a state in which nothing is pending. -/
theorem validate_conversation_walk (valid : validate_conversation_with_budget writer messages budget = .ok left) :
    ∃ conversation, messages.foldlM (validateMessage writer) ⟨[],[],[],budget⟩ = .ok conversation ∧
      conversation.pending = [] := by
  rw [validate_conversation_with_budget,then_eq_ok,then_eq_ok,bind_eq_ok] at valid
  obtain ⟨-,-,conversation,walked,closed⟩ := valid
  obtain ⟨settled,-⟩ := then_eq_ok.mp closed
  exact ⟨conversation,walked,by simpa [ensure_eq_ok] using settled⟩

/-! ### The budget of a turn -/

/-- Fails at most for the number of JSON nodes. -/
def OrNodes {α : Type} (x : Checked α) : Prop := (∃ value, x = .ok value) ∨ x = .error .TooManyJsonNodes
theorem OrNodes.ok {α : Type} {x : Checked α} {value : α} (found : x = .ok value) : OrNodes x := .inl ⟨value,found⟩

theorem OrNodes.bind {α β : Type} {x : Checked α} {f : α → Checked β} (first : OrNodes x)
    (rest : ∀ value, x = .ok value → OrNodes (f value)) :
    OrNodes (x >>= f) := by
  rcases first with ⟨value,found⟩ | failed
  · rw [found]
    exact rest value found
  · rw [failed]
    exact .inr rfl

theorem OrNodes.after {α β : Type} {x : Checked α} {f : α → Checked β} {value : α} (found : x = .ok value)
    (rest : OrNodes (f value)) : OrNodes (x >>= f) := by
  rw [found]
  exact rest

/-- Only the number of nodes depends on the budget. -/
theorem visitShape_or_nodes (budget : JsonBudget) : ∀ {stack : List (Value × Nat)} {left : JsonBudget},
    visitShape jsonShape budget stack = .ok left →
    ∀ other, OrNodes (visitShape jsonShape other stack) := by
  induction budget with
  | zero =>
    intro stack left visited other
    cases stack with
    | nil => exact .ok (visitShape.eq_1 jsonShape other)
    | cons entry stack => cases visited
  | succ budget ih =>
    intro stack left visited other
    match stack, other, visited with
    | [], other, _ => exact .ok (visitShape.eq_1 jsonShape other)
    | (_,_) :: stack, 0, _ => exact .inr rfl
    | (.Array values,depth) :: stack, other + 1, visited =>
      rw [visitShape] at visited ⊢
      split_ifs at visited ⊢
      exact ih visited other
    | (.Object values,depth) :: stack, other + 1, visited =>
      rw [visitShape] at visited ⊢
      split_ifs at visited ⊢
      exact ih visited other
    | (.Null,depth) :: stack, other + 1, visited => exact ih visited other
    | (.Bool _,depth) :: stack, other + 1, visited => exact ih visited other
    | (.Number _,depth) :: stack, other + 1, visited => exact ih visited other
    | (.String _,depth) :: stack, other + 1, visited => exact ih visited other

theorem validateJsonShapes_or_nodes (values : List (String × Value)) :
    ∀ {budget left : JsonBudget}, validateJsonShapes values budget = .ok left →
    ∀ other, OrNodes (validateJsonShapes values other) := by
  induction values with
  | nil => exact fun _ other => .ok rfl
  | cons field values ih =>
    intro budget left valid other
    rw [validateJsonShapes,foldlM_cons] at valid ⊢
    obtain ⟨between,first,rest⟩ := bind_eq_ok.mp valid
    exact (visitShape_or_nodes budget first other).bind fun value _ => ih rest value

theorem validate_arguments_or_nodes {arguments : ToolCallArguments}
    (valid : validate_arguments writer arguments budget = .ok left)
    (other : JsonBudget) : OrNodes (validate_arguments writer arguments other) := by
  cases arguments with
  | InvalidJson raw =>
    obtain ⟨fits,-⟩ := then_eq_ok.mp valid
    exact .after fits (.ok rfl)
  | Object arguments =>
    obtain ⟨few,valid⟩ := then_eq_ok.mp valid
    obtain ⟨short,valid⟩ := then_eq_ok.mp valid
    obtain ⟨between,shapes,valid⟩ := bind_eq_ok.mp valid
    obtain ⟨size,-⟩ := then_eq_ok.mp valid
    refine .after few (.after short ?_)
    exact (validateJsonShapes_or_nodes arguments shapes other).bind fun _ _ => .after size (.ok rfl)

/-- A call that was accepted: its id is new in the turn. -/
theorem validate_tool_call_eq_ok {ids : List String} {call : ModelToolCall} {found : List String × JsonBudget}
    (valid : validate_tool_call writer (ids,budget) call = .ok found) :
    validate_call_id call.id = .ok () ∧ validate_tool_name call.name = .ok () ∧ call.id ∉ ids
      ∧ validate_arguments writer call.arguments budget = .ok found.2 ∧ found.1 = call.id :: ids := by
  rw [validate_tool_call,then_eq_ok,then_eq_ok,then_eq_ok,bind_eq_ok] at valid
  obtain ⟨id,name,new,left,arguments,made⟩ := valid
  cases made
  exact ⟨id,name,by simpa [ensure_eq_ok] using new,arguments,rfl⟩

theorem validate_tool_calls_eq_ok (calls : List ModelToolCall) : ∀ {ids : List String} {budget : JsonBudget}
    {found : List String × JsonBudget},
    calls.foldlM (validate_tool_call writer) (ids,budget) = .ok found → ids.Nodup →
    (∀ call ∈ calls, validate_call_id call.id = .ok () ∧ validate_tool_name call.name = .ok ()) ∧
    (calls.map (·.id)).Nodup ∧ ∀ call ∈ calls, call.id ∉ ids := by
  induction calls with
  | nil => simp
  | cons call calls ih =>
    intro ids budget found valid distinct
    rw [foldlM_cons] at valid
    obtain ⟨⟨next,between⟩,first,rest⟩ := bind_eq_ok.mp valid
    obtain ⟨id,name,new,-,rfl⟩ := validate_tool_call_eq_ok first
    obtain ⟨named,distinct',fresh⟩ := ih rest (nodup_cons.mpr ⟨new,distinct⟩)
    refine ⟨forall_mem_cons.mpr ⟨⟨id,name⟩,named⟩,?_,forall_mem_cons.mpr ⟨new,fun other member => ?_⟩⟩
    · rw [map_cons,nodup_cons]
      refine ⟨fun repeated => ?_,distinct'⟩
      obtain ⟨other,member,same⟩ := mem_map.mp repeated
      exact fresh other member (same ▸ mem_cons_self)
    · exact fun old => fresh other member (mem_cons_of_mem _ old)

theorem validate_tool_calls_or_nodes (calls : List ModelToolCall) : ∀ {ids : List String} {budget : JsonBudget}
    {found : List String × JsonBudget},
    calls.foldlM (validate_tool_call writer) (ids,budget) = .ok found →
      ∀ other, OrNodes (calls.foldlM (validate_tool_call writer) (ids,other)) := by
  induction calls with
  | nil => exact fun _ other => .ok rfl
  | cons call calls ih =>
    intro ids budget found valid other
    rw [foldlM_cons] at valid ⊢
    obtain ⟨⟨next,between⟩,first,rest⟩ := bind_eq_ok.mp valid
    obtain ⟨id,name,new,arguments,rfl⟩ := validate_tool_call_eq_ok first
    have new : ensure (!ids.contains call.id) (.DuplicateToolCall call.id) = .ok () := by simpa [ensure_eq_ok] using new
    refine OrNodes.bind ?_ fun value made => ?_
    · rw [validate_tool_call]
      refine .after id (.after name (.after new ?_))
      exact (validate_arguments_or_nodes arguments other).bind fun _ _ => .ok rfl
    · obtain ⟨ids',left⟩ := value
      obtain ⟨-,-,-,-,same⟩ := validate_tool_call_eq_ok made
      cases same
      exact ih rest left

/-- What a turn that is accepted says of its calls. -/
theorem validate_turn_calls (valid : validate_assistant_turn writer turn budget = .ok left) :
    (∀ call ∈ turn.tool_calls, validate_call_id call.id = .ok () ∧ validate_tool_name call.name = .ok ()) ∧
    (turn.tool_calls.map (·.id)).Nodup := by
  rw [validate_assistant_turn,then_eq_ok,then_eq_ok,bind_eq_ok] at valid
  obtain ⟨-,-,rest,-,valid⟩ := valid
  rw [then_eq_ok,then_eq_ok,then_eq_ok,then_eq_ok,bind_eq_ok] at valid
  obtain ⟨-,-,-,-,found,calls,-⟩ := valid
  obtain ⟨named,distinct,-⟩ := validate_tool_calls_eq_ok turn.tool_calls calls nodup_nil
  exact ⟨named,distinct⟩

/-- A turn that is accepted with one budget fails with another at most for the number of nodes. -/
theorem validate_turn_or_nodes (valid : validate_assistant_turn writer turn budget = .ok left)
    (other : JsonBudget) : OrNodes (validate_assistant_turn writer turn other) := by
  rw [validate_assistant_turn,then_eq_ok,then_eq_ok,bind_eq_ok] at valid
  obtain ⟨text,parts,rest,covered,valid⟩ := valid
  rw [then_eq_ok,then_eq_ok,then_eq_ok,then_eq_ok,bind_eq_ok] at valid
  obtain ⟨all,reasoning,refusal,few,found,calls,-⟩ := valid
  rw [validate_assistant_turn]
  refine .after text (.after parts (.after covered (.after all (.after reasoning (.after refusal (.after few ?_))))))
  exact (validate_tool_calls_or_nodes turn.tool_calls calls other).bind fun _ _ => .ok rfl

/-! ### A turn behind a conversation -/

def validate_conversation (writer : Writer) (messages : List ToolChatMessage) : Checked Unit := do
  let _ ← validate_conversation_with_budget writer messages JSON_NODES
  return ()

/-- The calls that are made in a conversation. -/
def called (messages : List ToolChatMessage) : List String :=
  messages.flatMap fun
    | .Assistant turn => turn.tool_calls.map (·.id)
    | _ => []

/-- What is remembered of the messages so far are calls that they make. -/
structure Remembers (messages : List ToolChatMessage) (conversation : Conversation) : Prop where
  all_calls : conversation.all_calls ⊆ called messages
  pending : conversation.pending ⊆ called messages
  results : conversation.results ⊆ called messages

theorem called_append (messages more : List ToolChatMessage) :
    called (messages ++ more) = called messages ++ called more := flatMap_append

theorem Remembers.grow (remembers : Remembers messages conversation) (message : ToolChatMessage) :
    Remembers (messages ++ [message]) conversation := by
  have more : called messages ⊆ called (messages ++ [message]) := by
    rw [called_append]
    exact subset_append_left _ _
  exact ⟨List.Subset.trans remembers.all_calls more,List.Subset.trans remembers.pending more,
    List.Subset.trans remembers.results more⟩

/-- Calls that are new become pending. -/
theorem open_calls_ok (calls : List ModelToolCall) : ∀ {conversation : Conversation}, (calls.map (·.id)).Nodup →
    (∀ call ∈ calls, call.id ∉ conversation.all_calls) →
    calls.foldlM Conversation.openCall conversation
      = .ok { conversation with
          all_calls := (calls.map (·.id)).reverse ++ conversation.all_calls
          pending := conversation.pending ++ calls.map (·.id) } := by
  induction calls with
  | nil =>
    intro conversation _ _
    simp
    rfl
  | cons call calls ih =>
    intro conversation distinct fresh
    rw [map_cons,nodup_cons] at distinct
    rw [forall_mem_cons] at fresh
    have opened : conversation.openCall call
        = .ok { conversation with all_calls := call.id :: conversation.all_calls, pending :=
          conversation.pending ++ [call.id] } := by
      rw [Conversation.openCall,then_eq_ok]
      exact ⟨by simpa [ensure_eq_ok] using fresh.1,rfl⟩
    rw [foldlM_cons,opened]
    refine (ih distinct.2 fun other member => ?_).trans ?_
    · rw [mem_cons,not_or]
      exact ⟨fun same => distinct.1 (same ▸ mem_map_of_mem member),fresh.2 other member⟩
    · simp

theorem open_calls_remember (calls : List ModelToolCall) : ∀ {conversation next : Conversation},
    calls.foldlM Conversation.openCall conversation = .ok next →
    next.all_calls = (calls.map (·.id)).reverse ++ conversation.all_calls ∧ next.results = conversation.results := by
  induction calls with
  | nil =>
    intro conversation next opened
    cases opened
    exact ⟨rfl,rfl⟩
  | cons call calls ih =>
    intro conversation next opened
    rw [foldlM_cons] at opened
    obtain ⟨between,one,rest⟩ := bind_eq_ok.mp opened
    obtain ⟨-,made⟩ := then_eq_ok.mp one
    cases made
    obtain ⟨all,results⟩ := ih rest
    rw [all,results]
    exact ⟨by simp,rfl⟩

theorem Remembers.step (remembers : Remembers messages conversation) {message : ToolChatMessage}
    (valid : validateMessage writer conversation message = .ok next) : Remembers (messages ++ [message]) next := by
  cases message with
  | Text message =>
    obtain ⟨-,rfl⟩ := validate_text_message valid
    exact remembers.grow _
  | Assistant turn =>
    obtain ⟨-,pending⟩ := validate_turn_message valid
    rw [validateMessage,then_eq_ok,bind_eq_ok] at valid
    obtain ⟨-,budget,-,opened⟩ := valid
    obtain ⟨all,results⟩ := open_calls_remember _ opened
    have turnCalls : turn.tool_calls.map (·.id) ⊆ called (messages ++ [.Assistant turn]) := by
      rw [called_append]
      exact fun id member => mem_append_right _ (by simpa [called] using member)
    have before := remembers.grow (.Assistant turn)
    refine ⟨?_,pending ▸ turnCalls,results ▸ before.results⟩
    rw [all]
    exact append_subset.mpr ⟨fun id member => turnCalls (mem_reverse.mp member),before.all_calls⟩
  | ToolResult result =>
    obtain ⟨member,-⟩ := validate_result_message valid
    rw [validateMessage,then_eq_ok,then_eq_ok,then_eq_ok,then_eq_ok] at valid
    obtain ⟨-,-,-,-,made⟩ := valid
    cases made
    have before := remembers.grow (.ToolResult result)
    refine ⟨before.all_calls,List.Subset.trans (erase_subset) before.pending,
      cons_subset.mpr ⟨before.pending member,before.results⟩⟩

/-- One result for each pending call, in any order. -/
theorem results_ok (results : List ToolResultMessage) :
    ∀ {conversation : Conversation}, (results.map (·.tool_call_id)).Perm conversation.pending →
    conversation.pending.Nodup →
      (∀ id ∈ conversation.pending, validate_call_id id = .ok () ∧ id ∉ conversation.results) →
    (∀ result ∈ results, result.content.utf8ByteSize ≤ CONTENT_BYTES) →
    ∃ next, (results.map ToolChatMessage.ToolResult).foldlM (validateMessage writer) conversation = .ok next ∧
      next.pending = [] := by
  induction results with
  | nil => exact fun same _ _ _ => ⟨_,rfl,nil_perm.mp same⟩
  | cons result results ih =>
    intro conversation same distinct fresh fits
    rw [forall_mem_cons] at fits
    have member : result.tool_call_id ∈ conversation.pending := same.subset mem_cons_self
    obtain ⟨id,new⟩ := fresh _ member
    have valid : validateMessage writer conversation (.ToolResult result)
        = .ok { conversation with
            pending := conversation.pending.erase result.tool_call_id
            results := result.tool_call_id :: conversation.results } := by
      rw [validateMessage,then_eq_ok,then_eq_ok,then_eq_ok,then_eq_ok]
      exact ⟨id,by simpa [validate_text,
        ensure_eq_ok] using fits.1,by simpa [ensure_eq_ok] using new,by simpa [ensure_eq_ok] using member,rfl⟩
    rw [map_cons,foldlM_cons,valid]
    refine ih ((cons_perm_iff_perm_erase.mp same).2) (distinct.erase _) (fun other later => ?_) fits.2
    obtain ⟨apart,later⟩ := distinct.mem_erase_iff.mp later
    exact ⟨(fresh other later).1,not_mem_cons_of_ne_of_not_mem apart (fresh other later).2⟩

/-- The walk over a turn whose calls are new and answered, from a state in which nothing is pending. -/
theorem walk_turn (remembers : Remembers messages conversation) (settled : conversation.pending = [])
    (valid : validate_assistant_turn writer turn budget = .ok left)
    (fresh : ∀ call ∈ turn.tool_calls, call.id ∉ called messages)
    (same : (results.map (·.tool_call_id)).Perm (turn.tool_calls.map (·.id)))
    (fits : ∀ result ∈ results, result.content.utf8ByteSize ≤ CONTENT_BYTES) :
    (∃ next, (.Assistant turn :: results.map .ToolResult).foldlM (validateMessage writer) conversation = .ok next ∧
      next.pending = [])
      ∨ (.Assistant turn :: results.map .ToolResult).foldlM
        (validateMessage writer) conversation = .error .TooManyJsonNodes := by
  obtain ⟨named,distinct⟩ := validate_turn_calls valid
  have free : ensure conversation.pending.isEmpty .MessageWhileToolsPending = .ok () := by simp [ensure_eq_ok,settled]
  rw [foldlM_cons,validateMessage,free]
  rcases validate_turn_or_nodes valid conversation.json_budget with ⟨json_budget,accepted⟩ | failed
  · left
    have opened := @open_calls_ok turn.tool_calls { conversation with json_budget } distinct fun call member old =>
      fresh call member (remembers.all_calls old)
    rw [accepted]
    show ∃ next, (turn.tool_calls.foldlM Conversation.openCall { conversation with json_budget } >>= _) = .ok next ∧ _
    rw [opened,settled,nil_append]
    refine results_ok results same distinct (fun id member => ?_) fits
    obtain ⟨call,listed,rfl⟩ := mem_map.mp member
    exact ⟨(named call listed).1,fun old => fresh call listed (remembers.results old)⟩
  · right
    rw [failed]
    rfl

/-- A conversation that is rejected at most for the number of its messages or of its JSON nodes. -/
def AcceptedBySize (writer : Writer) (messages : List ToolChatMessage) : Prop :=
  validate_conversation writer messages = .ok () ∨ validate_conversation writer messages = .error .TooManyMessages
    ∨ validate_conversation writer messages = .error .TooManyJsonNodes

/-- A turn whose calls are new and answered goes behind an accepted conversation. -/
theorem validate_conversation_append (accepted : validate_conversation writer messages = .ok ())
    (valid : validate_assistant_turn writer turn budget = .ok left)
    (fresh : ∀ call ∈ turn.tool_calls, call.id ∉ called messages)
    (same : (results.map (·.tool_call_id)).Perm (turn.tool_calls.map (·.id)))
    (fits : ∀ result ∈ results, result.content.utf8ByteSize ≤ CONTENT_BYTES) :
    AcceptedBySize writer (messages ++ .Assistant turn :: results.map .ToolResult) := by
  obtain ⟨spent,walked,-⟩ := bind_eq_ok.mp accepted
  obtain ⟨conversation,walked,settled⟩ := validate_conversation_walk walked
  have remembers := foldlM_invariant Remembers (fun _ _ _ _ _ remembers valid => remembers.step valid)
    (⟨nil_subset _,nil_subset _,nil_subset _⟩ : Remembers [] ⟨[],[],[],JSON_NODES⟩) walked
  generalize appended : messages ++ .Assistant turn :: results.map .ToolResult = extended
  have start : ensure (!extended.isEmpty) .EmptyConversation = .ok () := by simp [ensure_eq_ok,← appended]
  rw [AcceptedBySize,validate_conversation,validate_conversation_with_budget,start]
  by_cases few : extended.length ≤ MESSAGES
  swap
  · exact .inr (.inl (by simp [ensure,few,bind,Except.bind]))
  have walk : extended.foldlM (validateMessage writer) ⟨[],[],[],JSON_NODES⟩
      = (.Assistant turn :: results.map .ToolResult).foldlM (validateMessage writer) conversation := by
    rw [← appended,foldlM_append,walked]
    rfl
  rw [walk]
  rcases walk_turn remembers settled valid fresh same fits with ⟨next,found,closed⟩ | failed
  · exact .inl (by simp [ensure,few,found,closed,bind,Except.bind,pure,Except.pure])
  · exact .inr (.inr (by simp [ensure,few,failed,bind,Except.bind]))

end Vyane.ToolChat
