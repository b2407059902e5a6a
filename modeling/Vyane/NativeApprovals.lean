import Vyane.JsonMaps
import Vyane.JsonText
import Vyane.NativeTools

/-!
Single-use grants of ask plans (`NativeAskConsumption`, `ApprovalPlan::new` and the plan hashes of `permissions.rs`).
Digest and JSON encoding are parameters. `consume` decides without shared state and then inserts its binding under the
lock, so the calls of any threads take these two steps in any order.
-/
namespace Vyane.Native
open Text Json ToolChat List

deriving instance DecidableEq for ApprovalPlan

/-! ### Canonical plans -/

/-- `as_i64` or `as_u64` is some: the text of the number has neither a fraction nor an exponent. -/
def isInteger (text : String) : Bool :=
  let digits := if text.toList.head? = some '-' then text.toList.tail else text.toList
  !digits.isEmpty && digits.all Char.isDigit

mutual

def canonical_approval_value : Value → Option Value
  | .Null => some .Null
  | .Bool value => some (.Bool value)
  | .String value => some (.String value)
  | .Number text => if isInteger text then some (.Number text) else none
  | .Array values => (canonicalApprovalValues values).map .Array
  | .Object values => (canonicalApprovalFields values).map fun fields => .Object (mapCollect fields)

def canonicalApprovalValues : List Value → Option (List Value)
  | [] => some []
  | value :: values =>
    (canonical_approval_value value).bind fun value => (canonicalApprovalValues values).map (value :: ·)

def canonicalApprovalFields : Fields → Option Fields
  | [] => some []
  | (key,value) :: fields =>
    (canonical_approval_value value).bind fun value => (canonicalApprovalFields fields).map ((key,value) :: ·)

end

/-- What is asked of `sha2` and `serde_json`. -/
structure PlanLibraries where
  sha256 : Bytes → Bytes
  to_vec : Value → Bytes
  collisionFree : Function.Injective sha256
  /-- On the values that plans are made of. -/
  toVecInjective {first second : Value} : canonical_approval_value first = some first →
    canonical_approval_value second = some second →
    to_vec first = to_vec second → first = second
  noNul (value : Value) : 0 ∉ to_vec value

variable {libs : PlanLibraries}

/-- The root of a plan; its keys are in the order of the map. -/
def planRoot (tool : String) (arguments : Fields) (cwd : String) : Value :=
  .Object [("arguments",.Object arguments),("cwd",.String cwd),("tool",.String tool)]

variable (libs) in
def canonical_plan_json (tool : String) (arguments : Fields) (cwd : String) : Option Bytes :=
  (canonicalApprovalFields arguments).map fun arguments => libs.to_vec (planRoot tool (mapCollect arguments) cwd)

variable (libs) in
def approval_plan_hash (canonical_plan_json : Bytes) : String := hex_lower (libs.sha256 canonical_plan_json)

variable (libs) in
def approval_binding_hash (canonical_plan_json : Bytes) (tool_call_id : String) : String :=
  hex_lower (libs.sha256
    (as_bytes "vyane.native.approval-binding.v1" ++ [0] ++ (canonical_plan_json ++ 0 :: as_bytes tool_call_id)))

variable (libs) in
/-- The hashes that `ApprovalPlan::new` puts into the plan of a call. -/
def planHashes (call : ToolCall) (cwd : String) : Option (String × String) :=
  (canonical_plan_json libs call.name call.arguments cwd).map fun canonical =>
    (approval_plan_hash libs canonical,approval_binding_hash libs canonical call.id)

mutual

theorem canonical_value_eq : ∀ {value canonical : Value}, OrderedValue value →
    canonical_approval_value value = some canonical → canonical = value
  | .Null, _, _, made => by simpa [canonical_approval_value] using made.symm
  | .Bool _, _, _, made => by simpa [canonical_approval_value] using made.symm
  | .String _, _, _, made => by simpa [canonical_approval_value] using made.symm
  | .Number text, canonical, _, made => by
    rw [canonical_approval_value] at made
    split_ifs at made
    exact (Option.some.inj made).symm
  | .Array values, canonical, ordered, made => by
    rw [canonical_approval_value,Option.map_eq_some_iff] at made
    obtain ⟨values',made,rfl⟩ := made
    rw [OrderedValue] at ordered
    rw [canonical_values_eq ordered made]
  | .Object fields, canonical, ordered, made => by
    rw [canonical_approval_value,Option.map_eq_some_iff] at made
    obtain ⟨fields',made,rfl⟩ := made
    rw [OrderedValue] at ordered
    rw [canonical_fields_eq ordered.2 made,mapCollect_ascending ordered.1]

theorem canonical_values_eq : ∀ {values canonical : List Value}, OrderedValues values →
    canonicalApprovalValues values = some canonical → canonical = values
  | [], _, _, made => by simpa [canonicalApprovalValues] using made.symm
  | value :: values, canonical, ordered, made => by
    rw [canonicalApprovalValues,Option.bind_eq_some_iff] at made
    obtain ⟨value',first,made⟩ := made
    obtain ⟨values',rest,rfl⟩ := Option.map_eq_some_iff.mp made
    rw [OrderedValues] at ordered
    rw [canonical_value_eq ordered.1 first,canonical_values_eq ordered.2 rest]

theorem canonical_fields_eq : ∀ {fields canonical : Fields}, OrderedFields fields →
    canonicalApprovalFields fields = some canonical → canonical = fields
  | [], _, _, made => by simpa [canonicalApprovalFields] using made.symm
  | (key,value) :: fields, canonical, ordered, made => by
    rw [canonicalApprovalFields,Option.bind_eq_some_iff] at made
    obtain ⟨value',first,made⟩ := made
    obtain ⟨fields',rest,rfl⟩ := Option.map_eq_some_iff.mp made
    rw [OrderedFields] at ordered
    rw [canonical_value_eq ordered.1 first,canonical_fields_eq ordered.2 rest]

end

/-- The JSON of a plan, for the arguments of a call. -/
theorem canonical_plan_json_eq_some {tool cwd : String} {arguments : Fields} {canonical : Bytes}
    (ordered : OrderedValue (.Object arguments))
    (made : canonical_plan_json libs tool arguments cwd = some canonical) :
    canonical = libs.to_vec (planRoot tool arguments cwd)
      ∧ canonical_approval_value (planRoot tool arguments cwd) = some (planRoot tool arguments cwd) := by
  obtain ⟨arguments',fields,rfl⟩ := Option.map_eq_some_iff.mp made
  rw [OrderedValue] at ordered
  obtain rfl := canonical_fields_eq ordered.2 fields
  have collected := mapCollect_ascending ordered.1
  refine ⟨by rw [collected],?_⟩
  have root : mapCollect [("arguments",.Object arguments'),("cwd",.String cwd),("tool",.String tool)] =
      [("arguments",.Object arguments'),("cwd",.String cwd),("tool",.String tool)] :=
    mapCollect_ascending (by
      simp only [Ascending,pairwise_cons,forall_mem_cons,not_mem_nil,false_imp_iff,implies_true,and_true,
        List.Pairwise.nil]
      decide)
  simp [planRoot,canonical_approval_value,canonicalApprovalFields,fields,collected,root]

/-- Plans with the same binding are plans for the same invocation. -/
theorem binding_injective {call call' : ToolCall} {cwd cwd' plan plan' binding : String}
    (ordered : OrderedValue (.Object call.arguments)) (ordered' : OrderedValue (.Object call'.arguments))
    (made : planHashes libs call cwd = some (plan,binding))
    (made' : planHashes libs call' cwd' = some (plan',binding)) :
    call = call' ∧ cwd = cwd' := by
  obtain ⟨canonical,json,hashes⟩ := Option.map_eq_some_iff.mp made
  obtain ⟨canonical',json',hashes'⟩ := Option.map_eq_some_iff.mp made'
  obtain ⟨rfl,closed⟩ := canonical_plan_json_eq_some ordered json
  obtain ⟨rfl,closed'⟩ := canonical_plan_json_eq_some ordered' json'
  have same := (Prod.ext_iff.mp hashes).2.trans (Prod.ext_iff.mp hashes').2.symm
  have framed := append_cancel_left (libs.collisionFree (hex_lower_injective same))
  obtain ⟨vectors,ids⟩ := append_cons_inj (libs.noNul _) (libs.noNul _) framed
  have roots := libs.toVecInjective closed closed' vectors
  simp only [planRoot,Value.Object.injEq,cons.injEq,Prod.mk.injEq,Value.String.injEq,true_and,and_true] at roots
  obtain ⟨arguments,rfl,name⟩ := roots
  cases call
  cases call'
  cases as_bytes_injective ids
  cases arguments
  cases name
  exact ⟨rfl,rfl⟩

/-! ### Consumption -/

inductive NativeAskConsumptionError where
  | Rejected
  | AlreadyConsumed
deriving DecidableEq, Repr

def NativeAskConsumptionError.as_str : NativeAskConsumptionError → String
  | .Rejected => "rejected"
  | .AlreadyConsumed => "already_consumed"
/-- The bindings that granted; a set. -/
structure NativeAskConsumption where
  consumed : List String
def NativeAskConsumption.new : NativeAskConsumption := ⟨[]⟩

/-- `consume` up to the lock: the binding that may be inserted. -/
def consumeDecides (policy : PermissionPolicy) (call : ToolCall) (context : ToolContext) (plan : ApprovalPlan) :
    Except NativeAskConsumptionError String :=
  let decision := policy.decide call context
  if decision.effect ≠ .Ask then .error .Rejected
  else match decision.approval with
    | none => .error .Rejected
    | some expected => if expected ≠ plan then .error .Rejected else .ok expected.approval_binding_hash

/-- `consume` under the lock. It never panics, so the lock is not poisoned. -/
def NativeAskConsumption.consumeInserts (asks : NativeAskConsumption) (binding : String) :
    Except NativeAskConsumptionError PermissionEffect × NativeAskConsumption :=
  if binding ∈ asks.consumed then (.error .AlreadyConsumed,asks) else (.ok .Allow,⟨binding :: asks.consumed⟩)

variable (libs) in
/-- The arguments of a call of `consume`. The plan hashes of its context are those of the code. -/
structure Attempt where
  policy : PermissionPolicy
  call : ToolCall
  context : ToolContext
  plan : ApprovalPlan
  hashed : context.planHashes = planHashes libs
  ordered : OrderedValue (.Object call.arguments)

/-- The policy decides to ask, and the plan is that of its decision. -/
def Attempt.Exact (attempt : Attempt libs) : Prop :=
  (attempt.policy.decide attempt.call attempt.context).effect = .Ask ∧
    (attempt.policy.decide attempt.call attempt.context).approval = some attempt.plan
/-- The tool, its arguments, the call id and the working directory. -/
def Attempt.invocation (attempt : Attempt libs) : String × Fields × String × Option String :=
  (attempt.call.name,attempt.call.arguments,attempt.call.id,attempt.context.workdir)

inductive Stage where
  | Called
  | Decided (binding : String)
  | Returned (result : Except NativeAskConsumptionError PermissionEffect)

variable (libs) in
/-- The shared set, and the calls of `consume` from any threads in the order in which they came. -/
structure Asks where
  asks : NativeAskConsumption
  calls : List (Attempt libs × Stage)

variable (libs) in
inductive Asks.Event where
  | Call (attempt : Attempt libs)
  | Step (index : Nat)

def Asks.step (state : Asks libs) : Asks.Event libs → Asks libs
  | .Call attempt => { state with calls := state.calls ++ [(attempt,.Called)] }
  | .Step index =>
    match state.calls[index]? with
    | some (attempt,.Called) =>
      match consumeDecides attempt.policy attempt.call attempt.context attempt.plan with
      | .error error => { state with calls := state.calls.set index (attempt,.Returned (.error error)) }
      | .ok binding => { state with calls := state.calls.set index (attempt,.Decided binding) }
    | some (attempt,.Decided binding) =>
      let (result,asks) := state.asks.consumeInserts binding
      ⟨asks,state.calls.set index (attempt,.Returned result)⟩
    | _ => state

variable (libs) in
def Asks.run (events : List (Asks.Event libs)) : Asks libs := events.foldl Asks.step ⟨.new,[]⟩

variable {attempt : Attempt libs}

theorem consumeDecides_ok {binding : String}
    (decided : consumeDecides attempt.policy attempt.call attempt.context attempt.plan = .ok binding) :
    attempt.Exact ∧ binding = attempt.plan.approval_binding_hash := by
  simp only [consumeDecides] at decided
  split_ifs at decided with other
  split at decided
  · cases decided
  · rename_i expected found
    split_ifs at decided with differs
    rw [not_not] at other differs
    cases decided
    exact ⟨⟨other,by rw [found,differs]⟩,by rw [differs]⟩

theorem consumeDecides_exact (asDecided : attempt.Exact) :
    consumeDecides attempt.policy attempt.call attempt.context attempt.plan =
      .ok attempt.plan.approval_binding_hash := by
  simp [consumeDecides,asDecided.1,asDecided.2]

theorem consumeDecides_error {error : NativeAskConsumptionError}
    (decided : consumeDecides attempt.policy attempt.call attempt.context attempt.plan = .error error) :
    ¬attempt.Exact ∧ error = .Rejected := by
  refine ⟨fun asDecided => ?_,?_⟩
  · rw [consumeDecides_exact asDecided] at decided
    cases decided
  · simp only [consumeDecides] at decided
    split_ifs at decided
    · exact (Except.error.inj decided).symm
    · split at decided
      · exact (Except.error.inj decided).symm
      · split_ifs at decided
        exact (Except.error.inj decided).symm

/-- The hashes of an exact plan are those of its call. -/
theorem Attempt.Exact.hashes (asDecided : attempt.Exact) : ∃ cwd, attempt.context.workdir = some cwd
    ∧ planHashes libs attempt.call cwd =
      some (attempt.plan.canonical_plan_hash,attempt.plan.approval_binding_hash) := by
  obtain ⟨ask,approval⟩ := asDecided
  simp only [PermissionPolicy.decide] at ask approval
  rw [if_pos ask,ApprovalPlan.new,attempt.hashed] at approval
  obtain ⟨cwd,workdir,rest⟩ := Option.bind_eq_some_iff.mp approval
  obtain ⟨hashes,made,plan⟩ := Option.bind_eq_some_iff.mp rest
  refine ⟨cwd,workdir,?_⟩
  rw [made,← Option.some.inj plan]

/-- Exact plans have the same binding if and only if they are for the same invocation. -/
theorem binding_iff {attempt other : Attempt libs} (asDecided : attempt.Exact) (otherAsDecided : other.Exact) :
    attempt.plan.approval_binding_hash = other.plan.approval_binding_hash ↔ attempt.invocation = other.invocation := by
  obtain ⟨cwd,workdir,made⟩ := asDecided.hashes
  obtain ⟨cwd',workdir',made'⟩ := otherAsDecided.hashes
  simp only [Attempt.invocation,workdir,workdir']
  constructor
  · intro same
    rw [same] at made
    obtain ⟨calls,rfl⟩ := binding_injective attempt.ordered other.ordered made made'
    rw [calls]
  · intro same
    simp only [Prod.mk.injEq,Option.some.injEq] at same
    obtain ⟨name,arguments,id,rfl⟩ := same
    have calls : attempt.call = other.call := by
      cases call : attempt.call
      cases call' : other.call
      simp_all
    rw [calls,made',Option.some.injEq,Prod.mk.injEq] at made
    exact made.2.symm

/-! ### Runs -/

/-- A call that returned with a grant. -/
def Asks.Granted (state : Asks libs) (index : Nat) (attempt : Attempt libs) : Prop :=
  ∃ effect, state.calls[index]? = some (attempt,.Returned (.ok effect))

/-- What holds of a call at its stage, by the bindings that granted. -/
def Attempt.At (attempt : Attempt libs) (consumed : List String) : Stage → Prop
  | .Called => True
  | .Decided binding => attempt.Exact ∧ binding = attempt.plan.approval_binding_hash
  | .Returned (.ok _) => attempt.Exact ∧ attempt.plan.approval_binding_hash ∈ consumed
  | .Returned (.error .AlreadyConsumed) => attempt.Exact ∧ attempt.plan.approval_binding_hash ∈ consumed
  | .Returned (.error .Rejected) => ¬attempt.Exact

theorem Attempt.At.grow {consumed : List String} {stage : Stage} (foundAt : attempt.At consumed stage)
    (binding : String) :
    attempt.At (binding :: consumed) stage := by
  match stage with
  | .Called => exact trivial
  | .Decided _ => exact foundAt
  | .Returned (.ok _) => exact ⟨foundAt.1,mem_cons_of_mem _ foundAt.2⟩
  | .Returned (.error .AlreadyConsumed) => exact ⟨foundAt.1,mem_cons_of_mem _ foundAt.2⟩
  | .Returned (.error .Rejected) => exact foundAt

/-- What every state of a run keeps. -/
structure Asks.Sound (state : Asks libs) : Prop where
  calls {index : Nat} {attempt : Attempt libs} {stage : Stage} : state.calls[index]? = some (attempt,stage) →
    attempt.At state.asks.consumed stage
  consumed {binding : String} : binding ∈ state.asks.consumed → ∃ index attempt, state.Granted index attempt ∧
    attempt.plan.approval_binding_hash = binding
  once {index index' : Nat} {attempt attempt' : Attempt libs} : state.Granted index attempt →
    state.Granted index' attempt' →
    attempt.plan.approval_binding_hash = attempt'.plan.approval_binding_hash → index = index'

variable {calls : List (Attempt libs × Stage)}

theorem get_set {index other : Nat} {new found : Attempt libs × Stage}
    (foundAt : (calls.set index new)[other]? = some found) :
    (other = index ∧ found = new) ∨ calls[other]? = some found := by
  rw [getElem?_set] at foundAt
  split_ifs at foundAt with same inside
  · exact .inl ⟨same.symm,(Option.some.inj foundAt).symm⟩
  · exact .inr foundAt

theorem get_set_of_ne {index other : Nat} {new old found : Attempt libs × Stage} (was : calls[index]? = some old)
    (foundAt : calls[other]? = some found) (apart : old ≠ found) : (calls.set index new)[other]? = some found := by
  rw [getElem?_set_ne (fun same => ?_),foundAt]
  subst same
  exact apart (Option.some.inj (was.symm.trans foundAt))

variable {state : Asks libs}

/-- A call goes on without a grant. -/
theorem Asks.Sound.goesOn (sound : state.Sound) {index : Nat} {stage stage' : Stage}
    (was : state.calls[index]? = some (attempt,stage)) (noGrant : ∀ effect, stage ≠ .Returned (.ok effect))
    (no_grant' : ∀ effect, stage' ≠ .Returned (.ok effect)) (foundAt : attempt.At state.asks.consumed stage') :
    Asks.Sound ⟨state.asks,state.calls.set index (attempt,stage')⟩ := by
  have old : ∀ {other : Nat} {granted : Attempt libs},
    Asks.Granted ⟨state.asks,state.calls.set index (attempt,stage')⟩ other granted →
      state.Granted other granted := by
    rintro other granted ⟨effect,found⟩
    obtain ⟨-,new⟩ | found := get_set found
    · exact absurd (Prod.ext_iff.mp new).2.symm (no_grant' effect)
    · exact ⟨effect,found⟩
  refine ⟨fun found => ?_,fun member => ?_,fun granted granted' => sound.once (old granted) (old granted')⟩
  · obtain ⟨-,new⟩ | found := get_set found
    · cases new
      exact foundAt
    · exact sound.calls found
  · obtain ⟨other,granted,⟨effect,found⟩,same⟩ := sound.consumed member
    refine ⟨other,granted,⟨effect,get_set_of_ne was found fun both => ?_⟩,same⟩
    exact noGrant effect (Prod.ext_iff.mp both).2

/-- A call is granted: no call before it was, for this binding. -/
theorem Asks.Sound.grants (sound : state.Sound) {index : Nat} {binding : String}
    (was : state.calls[index]? = some (attempt,.Decided binding)) (new : binding ∉ state.asks.consumed) :
    Asks.Sound ⟨⟨binding :: state.asks.consumed⟩,state.calls.set index (attempt,.Returned (.ok .Allow))⟩ := by
  obtain ⟨asDecided,rfl⟩ := sound.calls was
  have inside : index < state.calls.length := (List.getElem?_eq_some_iff.mp was).1
  have here : Asks.Granted ⟨⟨attempt.plan.approval_binding_hash :: state.asks.consumed⟩,
    state.calls.set index (attempt,.Returned (.ok .Allow))⟩ index attempt :=
    ⟨.Allow,by rw [List.getElem?_set_self inside]⟩
  have old : ∀ {other : Nat} {granted : Attempt libs},
      Asks.Granted ⟨⟨attempt.plan.approval_binding_hash :: state.asks.consumed⟩,
        state.calls.set index (attempt,.Returned (.ok .Allow))⟩ other granted →
      (other = index ∧ granted = attempt) ∨
        (state.Granted other granted ∧ granted.plan.approval_binding_hash ∈ state.asks.consumed) := by
    rintro other granted ⟨effect,found⟩
    obtain ⟨same,both⟩ | found := get_set found
    · exact .inl ⟨same,(Prod.ext_iff.mp both).1⟩
    · exact .inr ⟨⟨effect,found⟩,(sound.calls found).2⟩
  refine ⟨fun found => ?_,fun member => ?_,fun granted granted' same => ?_⟩
  · obtain ⟨-,both⟩ | found := get_set found
    · cases both
      exact ⟨asDecided,List.mem_cons_self⟩
    · exact (sound.calls found).grow _
  · rcases List.mem_cons.mp member with rfl | before
    · exact ⟨index,attempt,here,rfl⟩
    · obtain ⟨other,granted,⟨effect,found⟩,same⟩ := sound.consumed before
      exact ⟨other,granted,⟨effect,get_set_of_ne was found (by simp)⟩,same⟩
  · obtain ⟨rfl,rfl⟩ | ⟨granted,member⟩ := old granted
    · obtain ⟨rfl,-⟩ | ⟨-,member⟩ := old granted'
      · rfl
      · exact absurd (same ▸ member) new
    · obtain ⟨rfl,rfl⟩ | ⟨granted',-⟩ := old granted'
      · exact absurd (same ▸ member) new
      · exact sound.once granted granted' same

theorem Asks.Sound.step (sound : state.Sound) (event : Asks.Event libs) : (state.step event).Sound := by
  cases event with
  | Call attempt =>
    have old : ∀ {index : Nat} {other : Attempt libs} {stage : Stage},
      (state.calls ++ [(attempt,Stage.Called)])[index]? = some (other,stage) →
        stage = .Called ∨ state.calls[index]? = some (other,stage) := by
      intro index other stage found
      rw [List.getElem?_append] at found
      split_ifs at found
      · exact .inr found
      · rw [List.getElem?_singleton] at found
        split_ifs at found
        exact .inl (Prod.ext_iff.mp (Option.some.inj found)).2.symm
    have granted : ∀ {index : Nat} {other : Attempt libs}, (state.step (.Call attempt)).Granted index other →
      state.Granted index other :=
      fun found => found.imp fun _ foundAt => (old foundAt).resolve_left (by simp)
    refine ⟨fun found => ?_,fun member => ?_,fun found found' => sound.once (granted found) (granted found')⟩
    · rcases old found with rfl | found
      · exact trivial
      · exact sound.calls found
    · obtain ⟨index,other,⟨effect,found⟩,same⟩ := sound.consumed member
      exact ⟨index,other,⟨effect,
        by rw [← found]; exact List.getElem?_append_left (List.getElem?_eq_some_iff.mp found).1⟩,same⟩
  | Step index =>
    rw [Asks.step]
    split
    · rename_i attempt was
      split
      · rename_i error decided
        obtain ⟨inexact,rfl⟩ := consumeDecides_error decided
        exact sound.goesOn was (by simp) (by simp) inexact
      · rename_i binding decided
        exact sound.goesOn was (by simp) (by simp) (consumeDecides_ok decided)
    · rename_i attempt binding was
      rw [NativeAskConsumption.consumeInserts]
      split_ifs with before
      · obtain ⟨asDecided,rfl⟩ := sound.calls was
        exact sound.goesOn was (by simp) (by simp) ⟨asDecided,before⟩
      · exact sound.grants was before
    · exact sound

theorem run_sound (events : List (Asks.Event libs)) : (Asks.run libs events).Sound := by
  have kept : ∀ state : Asks libs, state.Sound → (events.foldl Asks.step state).Sound := by
    induction events with
    | nil => exact fun _ sound => sound
    | cons event events ih => exact fun state sound => ih _ (sound.step event)
  refine kept _ ⟨by simp,by simp [NativeAskConsumption.new],?_⟩
  rintro index index' attempt attempt' ⟨effect,found⟩
  simp at found

/-- The two steps of a call that is exact and whose binding has not granted. -/
theorem call_is_granted (asDecided : attempt.Exact) (new : attempt.plan.approval_binding_hash ∉ state.asks.consumed) :
    ([.Call attempt,.Step state.calls.length,
      .Step state.calls.length].foldl Asks.step state).Granted state.calls.length attempt := by
  have decided := consumeDecides_exact asDecided
  refine ⟨.Allow,?_⟩
  simp [Asks.step,decided,NativeAskConsumption.consumeInserts,new]

/-- In every interleaving of calls of `consume`: no two grants are for the same invocation; a grant is for an exact
    attempt; a call is refused as consumed only after a grant for its own invocation, and rejected only if it is not
    exact; and an exact attempt whose invocation has not been granted is granted. -/
theorem asks_grant_once (events : List (Asks.Event libs)) :
    (∀ index index' attempt attempt', (Asks.run libs events).Granted index attempt →
      (Asks.run libs events).Granted index' attempt' →
      attempt.invocation = attempt'.invocation → index = index')
    ∧ (∀ index attempt, (Asks.run libs events).Granted index attempt → attempt.Exact)
    ∧ (∀ (index : Nat) (attempt : Attempt libs), (Asks.run libs events).calls[index]? =
      some (attempt,.Returned (.error .AlreadyConsumed)) →
      ∃ other granted, (Asks.run libs events).Granted other granted ∧ granted.invocation = attempt.invocation)
    ∧ (∀ (index : Nat) (attempt : Attempt libs), (Asks.run libs events).calls[index]? =
      some (attempt,.Returned (.error .Rejected)) → ¬attempt.Exact)
    ∧ ∀ attempt : Attempt libs, attempt.Exact → (∀ other granted, (Asks.run libs events).Granted other granted →
      granted.invocation ≠ attempt.invocation) →
      (Asks.run libs (events ++ [.Call attempt,.Step (Asks.run libs events).calls.length,
        .Step (Asks.run libs events).calls.length])).Granted
        (Asks.run libs events).calls.length attempt := by
  have sound := run_sound events
  have exactOf : ∀ {index attempt}, (Asks.run libs events).Granted index attempt → attempt.Exact :=
    fun granted => (sound.calls granted.choose_spec).1
  refine ⟨fun index index' attempt attempt' granted granted' same => ?_,
    fun index attempt => exactOf,fun index attempt found => ?_,
    fun index attempt found => sound.calls found,fun attempt asDecided free => ?_⟩
  · exact sound.once granted granted' ((binding_iff (exactOf granted) (exactOf granted')).mpr same)
  · obtain ⟨asDecided,member⟩ := sound.calls found
    obtain ⟨other,granted,found',same⟩ := sound.consumed member
    exact ⟨other,granted,found',(binding_iff (exactOf found') asDecided).mp same⟩
  · rw [Asks.run,foldl_append]
    refine call_is_granted asDecided fun member => ?_
    obtain ⟨other,granted,found,same⟩ := sound.consumed member
    exact free other granted found ((binding_iff (exactOf found) asDecided).mp same)

/-! ### A library -/

theorem integer_of {text : String} (checked : isInteger text = true) : Integer text := by
  rw [isInteger,Bool.and_eq_true,Bool.not_eq_true',isEmpty_eq_false_iff,all_eq_true] at checked
  split_ifs at checked with minus
  · obtain ⟨rest,split⟩ := head?_eq_some_iff.mp minus
    rw [split] at checked
    exact ⟨rest,checked.1,checked.2,.inr split⟩
  · exact ⟨_,checked.1,checked.2,.inl rfl⟩

mutual

/-- A canonical value is made of one whose numbers are integers. -/
theorem canonical_value_plain :
    ∀ {value canonical : Value}, canonical_approval_value value = some canonical → value.Plain
  | .Null, _, _ | .Bool _, _, _ | .String _, _, _ => trivial
  | .Number text, _, made => by
    rw [canonical_approval_value] at made
    split_ifs at made with integer
    exact integer_of integer
  | .Array values, _, made => by
    obtain ⟨_,made,_⟩ := Option.map_eq_some_iff.mp made
    exact canonical_values_plain made
  | .Object fields, _, made => by
    obtain ⟨_,made,_⟩ := Option.map_eq_some_iff.mp made
    exact canonical_fields_plain made

theorem canonical_values_plain : ∀ {values canonical : List Value}, canonicalApprovalValues values = some canonical →
    ValuesNumbers Integer values
  | [], _, _ => trivial
  | value :: values, _, made => by
    obtain ⟨_,first,made⟩ := Option.bind_eq_some_iff.mp made
    obtain ⟨_,rest,_⟩ := Option.map_eq_some_iff.mp made
    exact ⟨canonical_value_plain first,canonical_values_plain rest⟩

theorem canonical_fields_plain : ∀ {fields canonical : Fields}, canonicalApprovalFields fields = some canonical →
    FieldsNumbers Integer fields
  | [], _, _ => trivial
  | (key,value) :: fields, _, made => by
    obtain ⟨_,first,made⟩ := Option.bind_eq_some_iff.mp made
    obtain ⟨_,rest,_⟩ := Option.map_eq_some_iff.mp made
    exact ⟨canonical_value_plain first,canonical_fields_plain rest⟩

end

theorem hex_no_nul (bytes : Bytes) : 0 ∉ as_bytes (hex_lower bytes) := by
  have digit : ∀ n : Fin 16, 0 ∉ String.utf8EncodeChar (hexDigit n) := by decide
  intro member
  simp only [as_bytes,hex_lower,String.toList_ofList,mem_flatMap,mem_cons,not_mem_nil,or_false] at member
  obtain ⟨_,⟨byte,_,rfl | rfl⟩,nul⟩ := member
  · have small := byte.toNat_lt
    exact digit ⟨byte.toNat / 16,by omega⟩ nul
  · exact digit ⟨byte.toNat % 16,by omega⟩ nul

section sample
/-- The compact text in hexadecimal, and a digest that keeps it. -/
def hexPlans : PlanLibraries where
  sha256 := id
  to_vec value := as_bytes (hex_lower (Utf8.encode (write value)))
  collisionFree := Function.injective_id
  toVecInjective canonical canonical' same := by
    have decoded := congrArg Utf8.from_utf8 (hex_lower_injective (as_bytes_injective same))
    rw [Utf8.from_utf8_encode,Utf8.from_utf8_encode] at decoded
    exact write_injective (canonical_value_plain canonical) (canonical_value_plain canonical') (Option.some.inj decoded)
  noNul value := hex_no_nul _

/-- The arguments of a call of `ls`, and the plan for it. -/
def sampleArguments : Fields := [("depth",.Number "-1")]
def samplePlan (tool_call_id : String) : ApprovalPlan :=
  let canonical := hexPlans.to_vec (planRoot "ls" sampleArguments "/work")
  ⟨1,"ls",sampleArguments,"/work",tool_call_id,none,approval_plan_hash hexPlans canonical,
    approval_binding_hash hexPlans canonical tool_call_id⟩
/-- The call `c1` with the plan of a call. -/
def sampleAttempt (tool_call_id : String) : Attempt hexPlans where
  policy := ⟨[],[],[],.Ask⟩
  call := ⟨"c1","ls",sampleArguments⟩
  context := ⟨some "/work",planHashes hexPlans,none,none⟩
  plan := samplePlan tool_call_id
  hashed := rfl
  ordered := by simp [sampleArguments,OrderedValue,OrderedFields,Ascending]

theorem sample_hashes : planHashes hexPlans ⟨"c1","ls",sampleArguments⟩ "/work" =
    some ((samplePlan "c1").canonical_plan_hash,(samplePlan "c1").approval_binding_hash) := by
  have integer : isInteger "-1" = true := by decide
  have fields : canonicalApprovalFields sampleArguments = some sampleArguments := by
    simp [sampleArguments,canonicalApprovalFields,canonical_approval_value,integer]
  have collected : mapCollect sampleArguments = sampleArguments :=
    mapCollect_ascending (by simp [sampleArguments,Ascending])
  simp only [planHashes,canonical_plan_json,fields,Option.map_some,collected]
  rfl

theorem sample_decides (tool_call_id : String) : (sampleAttempt tool_call_id).policy.decide
    (sampleAttempt tool_call_id).call
    (sampleAttempt tool_call_id).context = ⟨.Ask,none,false,some (samplePlan "c1")⟩ := by
  simp [PermissionPolicy.decide,lastMatch,PermissionRuleSet.decide,ApprovalPlan.new,sampleAttempt,sample_hashes]
  rfl

/-- Two calls ask with one plan, and one with the plan of another call: the first that inserts is granted, the other is
    refused as consumed, and the third is rejected. -/
theorem sample_asks_grant_once :
    ∃ events, (Asks.run hexPlans events).calls = [(sampleAttempt "c1",.Returned (.error .AlreadyConsumed)),
        (sampleAttempt "c1",.Returned (.ok .Allow)),(sampleAttempt "c2",.Returned (.error .Rejected))]
      ∧ (sampleAttempt "c1").Exact ∧ ¬(sampleAttempt "c2").Exact
      ∧ ∀ index attempt, (Asks.run hexPlans events).Granted index attempt →
        attempt.invocation = (sampleAttempt "c1").invocation → index = 1 := by
  have asDecided : (sampleAttempt "c1").Exact := by
    rw [Attempt.Exact,sample_decides]
    exact ⟨rfl,rfl⟩
  have other_plan : samplePlan "c1" ≠ samplePlan "c2" :=
    fun same => absurd (congrArg ApprovalPlan.tool_call_id same) (by decide)
  have granted := consumeDecides_exact asDecided
  have rejected : consumeDecides (sampleAttempt "c2").policy (sampleAttempt "c2").call (sampleAttempt "c2").context
    (sampleAttempt "c2").plan =
      .error .Rejected := by
    simp only [consumeDecides,sample_decides]
    simp [sampleAttempt,other_plan]
  have ran : (Asks.run hexPlans [.Call (sampleAttempt "c1"),.Call (sampleAttempt "c1"),.Call (sampleAttempt "c2"),
      .Step 0,.Step 1,.Step 2,.Step 1,.Step 0]).calls = [(sampleAttempt "c1",.Returned (.error .AlreadyConsumed)),
        (sampleAttempt "c1",.Returned (.ok .Allow)),(sampleAttempt "c2",.Returned (.error .Rejected))] := by
    simp [Asks.run,Asks.step,granted,rejected,NativeAskConsumption.consumeInserts,NativeAskConsumption.new]
  refine ⟨_,ran,asDecided,(asks_grant_once _).2.2.2.1 2 _ (by rw [ran]; rfl),fun index attempt found same => ?_⟩
  exact (asks_grant_once _).1 index 1 attempt (sampleAttempt "c1") found ⟨.Allow,by rw [ran]; rfl⟩ same

end sample
end Vyane.Native
