import Mathlib

/-!
Programs that make requests to a world they do not control and go on with whatever it answers. A world answers in the
light of all that was asked and answered before. A run is the list of the requests with their answers and the value at
the end; the rules follow the ways programs are put together.
-/
namespace Vyane.Interactions
open List
/-- A program that makes requests and ends with a value. -/
inductive Program (Request : Type) (Answer : Request → Type) (α : Type) where
  | done (value : α)
  | ask (request : Request) (next : Answer request → Program Request Answer α)
/-- A request with the answer that the world gave. -/
abbrev Event (Request : Type) (Answer : Request → Type) : Type := Σ request : Request, Answer request
/-- A world answers a request in the light of what happened before. -/
abbrev World (Request : Type) (Answer : Request → Type) : Type :=
  List (Event Request Answer) → (request : Request) → Answer request

namespace Program
variable {Request : Type} {Answer : Request → Type} {α β : Type} {trace : List (Event Request Answer)}
    {value : α} {result : α}
  {next : α → Program Request Answer β} {first : Program Request Answer α} {allowed : Request → Prop}
  {post : List (Event Request Answer) → α → Prop} {program : Program Request Answer α}

protected def bind : Program Request Answer α → (α → Program Request Answer β) → Program Request Answer β
  | done value, next => next value
  | ask request rest, next => ask request fun answer => (rest answer).bind next
instance : Monad (Program Request Answer) where
  pure := done
  bind := Program.bind
/-- One request, answered. -/
def request (request : Request) : Program Request Answer (Answer request) := ask request done

/-- The `?` operator: the rest of a fallible program, unless it failed. -/
def and_then {ε : Type} (first : Program Request Answer (Except ε α)) (next : α → Program Request Answer (Except ε β)) :
    Program Request Answer (Except ε β) := do
  match ← first with
  | .error error => return .error error
  | .ok value => next value

/-- The events and the value of a program in a world where `past` has happened. -/
def play (world : World Request Answer) :
    List (Event Request Answer) → Program Request Answer α → List (Event Request Answer) × α
  | _, done value => ([],value)
  | past, ask request next =>
    let answer := world past request
    let rest := play world (past ++ [⟨request,answer⟩]) (next answer)
    (⟨request,answer⟩ :: rest.1,rest.2)

/-- A program can make these requests, get these answers and end with this value. -/
inductive Runs : Program Request Answer α → List (Event Request Answer) → α → Prop
  | done (value : α) : Runs (done value) [] value
  | ask {request : Request} {next : Answer request → Program Request Answer α} {answer : Answer request}
      {trace : List (Event Request Answer)} {value : α} (rest : Runs (next answer) trace value) :
      Runs (ask request next) (⟨request,answer⟩ :: trace) value

/-- What happens in a world is a run. -/
theorem runs_play (world : World Request Answer) (program : Program Request Answer α) :
    ∀ past, Runs program (program.play world past).1 (program.play world past).2 := by
  induction program with
  | done value => intro past; exact .done value
  | ask request next ih => intro past; exact .ask (ih _ _)

@[simp] theorem runs_done :
    Runs (done value : Program Request Answer α) trace result ↔ trace = [] ∧ result = value := by
  constructor
  · rintro ⟨⟩
    exact ⟨rfl,rfl⟩
  · rintro ⟨rfl,rfl⟩
    exact .done _

@[simp] theorem runs_pure :
    Runs (pure value : Program Request Answer α) trace result ↔ trace = [] ∧ result = value := runs_done

variable {request : Request}

theorem runs_ask {next : Answer request → Program Request Answer α} :
    Runs (ask request next) trace result ↔
      ∃ answer rest, trace = ⟨request,answer⟩ :: rest ∧ Runs (next answer) rest result := by
  constructor
  · rintro ⟨⟩
    exact ⟨_,_,rfl,by assumption⟩
  · rintro ⟨answer,rest,rfl,runs⟩
    exact .ask runs

@[simp] theorem runs_request {result : Answer request} :
    Runs (Program.request request) trace result ↔ trace = [⟨request,result⟩] := by
  rw [Program.request,runs_ask]
  constructor
  · rintro ⟨answer,rest,rfl,⟨⟩⟩
    rfl
  · rintro rfl
    exact ⟨result,[],rfl,.done result⟩

/-- A run of two programs in sequence is a run of the first and then one of the second. -/
theorem runs_bind {result : β} :
    Runs (first >>= next) trace result ↔
      ∃ before after value, trace = before ++ after ∧ Runs first before value ∧ Runs (next value) after result := by
  change Runs (first.bind next) trace result ↔ _
  induction first generalizing trace with
  | done value =>
    constructor
    · intro runs
      exact ⟨[],trace,value,rfl,.done value,runs⟩
    · rintro ⟨_,after,_,rfl,⟨⟩,runs⟩
      exact runs
  | ask request rest ih =>
    constructor
    · intro runs
      cases runs with
      | ask runs =>
        obtain ⟨before,after,value,rfl,started,ended⟩ := (ih _).mp runs
        exact ⟨_,after,value,rfl,.ask started,ended⟩
    · rintro ⟨_,after,value,rfl,started,ended⟩
      cases started with
      | ask started => exact .ask ((ih _).mpr ⟨_,after,value,rfl,started,ended⟩)

/-- A program that makes no other requests than these. -/
def Only (allowed : Request → Prop) : Program Request Answer α → Prop
  | done _ => True
  | ask request next => allowed request ∧ ∀ answer, (next answer).Only allowed

theorem only_request (holds : allowed request) :
    (Program.request request : Program Request Answer _).Only allowed := ⟨holds,fun _ => trivial⟩

theorem only_ite {condition : Prop} [Decidable condition] {second : Program Request Answer α} (yes : first.Only allowed)
    (no : second.Only allowed) : (if condition then first else second).Only allowed := by
  split_ifs <;> assumption

theorem only_bind (started : first.Only allowed) (rest : ∀ value, (next value).Only allowed) :
    (first >>= next).Only allowed := by
  change (first.bind next).Only allowed
  induction first with
  | done value => exact rest value
  | ask request later ih => exact ⟨started.1,fun answer => ih answer (started.2 answer)⟩

theorem only_and_then {ε : Type} {first : Program Request Answer (Except ε α)}
    {next : α → Program Request Answer (Except ε β)} (started : first.Only allowed)
    (rest : ∀ value, (next value).Only allowed) :
    (first.and_then next).Only allowed := by
  refine only_bind started fun value => ?_
  cases value with
  | error error => trivial
  | ok value => exact rest value

/-- Every run of a program has this property. -/
def Ensures (program : Program Request Answer α) (post : List (Event Request Answer) → α → Prop) : Prop :=
  ∀ trace value, Runs program trace value → post trace value

/-- A property of all runs is a property of what happens in any world. -/
theorem Ensures.play (ensured : Ensures program post) (world : World Request Answer)
    (past : List (Event Request Answer)) : post (program.play world past).1 (program.play world past).2 :=
  ensured _ _ (runs_play world program past)
theorem Ensures.weaken {stronger : List (Event Request Answer) → α → Prop} (ensured : Ensures program stronger)
    (implied : ∀ trace value, stronger trace value → post trace value) : Ensures program post :=
  fun trace value runs => implied trace value (ensured trace value runs)
theorem ensures_done (holds : post [] value) : Ensures (done value) post := by
  rintro trace result ⟨⟩
  exact holds
theorem ensures_pure (holds : post [] value) : Ensures (pure value) post := ensures_done holds

theorem ensures_request {post : List (Event Request Answer) → Answer request → Prop}
    (holds : ∀ answer, post [⟨request,answer⟩] answer) : Ensures (Program.request request) post := by
  intro trace answer runs
  rw [runs_request] at runs
  subst runs
  exact holds answer

variable {post : List (Event Request Answer) → β → Prop}

/-- A request and the rest of the program, which is judged with the answer before it. -/
theorem ensures_ask {next : Answer request → Program Request Answer β}
    (rest : ∀ answer, Ensures (next answer) fun trace value => post (⟨request,answer⟩ :: trace) value) :
    Ensures (Program.request request >>= next) post := by
  intro trace value runs
  obtain ⟨before,after,answer,rfl,asked,ended⟩ := runs_bind.mp runs
  rw [runs_request] at asked
  subst asked
  exact rest answer after value ended

theorem ensures_bind {middle : List (Event Request Answer) → α → Prop} (first : Ensures program middle)
    (rest : ∀ before value, middle before value →
      Ensures (next value) fun after result => post (before ++ after) result) :
    Ensures (program >>= next) post := by
  intro trace result runs
  obtain ⟨before,after,value,rfl,started,ended⟩ := runs_bind.mp runs
  exact rest before value (first before value started) after result ended

section
variable {ε : Type} {first : Program Request Answer (Except ε α)} {next : α → Program Request Answer (Except ε β)}

/-- The `?` operator in a run. -/
theorem runs_and_then {result : Except ε β} (runs : Runs (first.and_then next) trace result) :
    (∃ error, result = .error error) ∨ ∃ before after value, trace = before ++ after ∧ Runs first before (.ok value) ∧
      Runs (next value) after result := by
  obtain ⟨before,after,value,rfl,started,ended⟩ := runs_bind.mp runs
  cases value with
  | error error => exact .inl ⟨error,(runs_pure.mp ended).2⟩
  | ok value => exact .inr ⟨before,after,value,rfl,started,ended⟩

end
end Program

/-! ### Monitors -/

/-- A monitor reads a trace event by event and may refuse one. -/
structure Monitor (State Event : Type) where
  step : State → Event → Option State

namespace Monitor
variable {State Event : Type} {monitor : Monitor State Event} {state : State} {before after : List Event}

/-- The state after a trace, if the monitor accepts all of it. -/
def read (monitor : Monitor State Event) (state : State) (trace : List Event) : Option State :=
  trace.foldlM monitor.step state

@[simp] theorem read_nil : monitor.read state [] = some state := rfl

theorem read_cons {event : Event} {trace : List Event} :
    monitor.read state (event :: trace) = (monitor.step state event).bind fun next => monitor.read next trace := by
  simp only [read,foldlM_cons]
  rfl

theorem read_append :
    monitor.read state (before ++ after) = (monitor.read state before).bind fun next => monitor.read next after := by
  simp only [read,foldlM_append]
  rfl

/-- The monitor accepts this trace wherever it meets it. -/
def Accepts (monitor : Monitor State Event) (trace : List Event) : Prop :=
  ∀ state, ∃ last, monitor.read state trace = some last
theorem Accepts.nil : monitor.Accepts [] := fun state => ⟨state,rfl⟩

theorem Accepts.append {first second : List Event} (one : monitor.Accepts first) (two : monitor.Accepts second) :
    monitor.Accepts (first ++ second) := by
  intro state
  obtain ⟨here,reads⟩ := one state
  obtain ⟨last,ends⟩ := two here
  exact ⟨last,by rw [read_append,reads,Option.bind_some,ends]⟩

/-- Where a monitor reads past an event, it was in a state that allows the event. -/
theorem read_split {last : State} {event : Event}
    (accepted : monitor.read state (before ++ event :: after) = some last) :
    ∃ here next, monitor.read state before = some here ∧ monitor.step here event = some next ∧
      monitor.read next after = some last := by
  rw [read_append] at accepted
  obtain ⟨here,reads,accepted⟩ := Option.bind_eq_some_iff.mp accepted
  rw [read_cons] at accepted
  obtain ⟨next,stepped,accepted⟩ := Option.bind_eq_some_iff.mp accepted
  exact ⟨here,next,reads,stepped,accepted⟩

/-- Each use of a key has to follow a grant of it that no use has spent. -/
def pairing {Key : Type} [DecidableEq Key] (grants uses : Event → Option Key) : Monitor (Option Key) Event where
  step granted event :=
    match uses event with
    | some key => if granted = some key then some none else none
    | none => some ((grants event).or granted)

section
variable {Key : Type} [DecidableEq Key] {grants uses : Event → Option Key} {event : Event} {key : Key}
    {trace : List Event}

theorem pairing_step_use {granted : Option Key} {next : Option Key}
    (used : uses event = some key) (stepped : (pairing grants uses).step granted event = some next) :
    granted = some key ∧ next = none := by
  simp only [pairing,used] at stepped
  split at stepped
  · cases stepped
    exact ⟨by assumption,rfl⟩
  · cases stepped

theorem pairing_step_other {granted : Option Key} (unused : uses event = none) :
    (pairing grants uses).step granted event = some ((grants event).or granted) := by
  simp only [pairing,unused]

/-- What is granted after a trace was granted in it and not used since. -/
theorem granted_of_read :
    ∀ {key : Key}, (pairing grants uses).read none trace = some (some key) →
      ∃ before event after, trace = before ++ event :: after ∧ grants event = some key ∧ ∀ later ∈ after,
        uses later = none := by
  induction trace using reverseRecOn with
  | nil => intro key reads; simp at reads
  | append_singleton trace event ih =>
    intro key reads
    rw [read_append] at reads
    obtain ⟨granted,earlier,stepped⟩ := Option.bind_eq_some_iff.mp reads
    rw [read_cons] at stepped
    obtain ⟨next,stepped,ends⟩ := Option.bind_eq_some_iff.mp stepped
    cases ends
    cases used : uses event with
    | some spent => exact absurd (pairing_step_use used stepped).2 (by simp)
    | none =>
      rw [pairing_step_other used] at stepped
      cases given : grants event with
      | some fresh =>
        rw [given] at stepped
        cases stepped
        exact ⟨trace,event,[],rfl,given,by simp⟩
      | none =>
        rw [given] at stepped
        cases stepped
        obtain ⟨before,grant,after,rfl,granted,unused⟩ := ih earlier
        refine ⟨before,grant,after ++ [event],by simp,granted,?_⟩
        intro later member
        rcases mem_append.mp member with old | new
        · exact unused later old
        · rw [mem_singleton.mp new]
          exact used

/-- In an accepted trace, each use follows a grant of its key with no use in between. -/
theorem granted_before_use {last : Option Key}
    (accepted : (pairing grants uses).read none (before ++ event :: after) = some last) (used : uses event = some key) :
    ∃ earlier grant between, before = earlier ++ grant :: between ∧ grants grant = some key ∧
      ∀ later ∈ between, uses later = none := by
  obtain ⟨granted,next,reads,stepped,_⟩ := read_split accepted
  obtain ⟨rfl,-⟩ := pairing_step_use used stepped
  exact granted_of_read reads

/-- Events that are no uses leave the grants of a trace in force. -/
theorem read_unused (unused : ∀ event ∈ trace, uses event = none)
    (ungranted : ∀ event ∈ trace, grants event = none) (granted : Option Key) :
    (pairing grants uses).read granted trace = some granted := by
  induction trace with
  | nil => rfl
  | cons event rest ih =>
    rw [read_cons,pairing_step_other (unused event mem_cons_self),ungranted event mem_cons_self]
    exact ih (fun other member => unused other (mem_cons_of_mem _ member))
      (fun other member => ungranted other (mem_cons_of_mem _ member))

/-- A trace without uses is accepted wherever it is read. -/
theorem pairing_accepts_unused (unused : ∀ event ∈ trace, uses event = none) :
    (pairing grants uses).Accepts trace := by
  induction trace with
  | nil => exact Accepts.nil
  | cons event rest ih =>
    intro granted
    rw [read_cons,pairing_step_other (unused event mem_cons_self)]
    exact ih (fun other member => unused other (mem_cons_of_mem _ member)) _

/-- So is a grant with what it was given for. -/
theorem pairing_accepts_use {between : List Event} {grant use : Event} (given : grants grant = some key)
    (unused : uses grant = none) (quiet : ∀ event ∈ between, uses event = none)
    (ungranted : ∀ event ∈ between, grants event = none) (used : uses use = none ∨ uses use = some key) :
    (pairing grants uses).Accepts (grant :: (between ++ [use])) := by
  intro granted
  rw [read_cons,pairing_step_other unused,given,Option.some_or]
  simp only [Option.bind_some]
  rw [read_append,read_unused quiet ungranted,Option.bind_some,read_cons]
  rcases used with never | now
  · exact ⟨_,by rw [pairing_step_other never]; rfl⟩
  · exact ⟨none,by simp [pairing,now]⟩

end
end Monitor

/-- After a stop there are no more uses. -/
def Halted {Event : Type} (stops uses : Event → Bool) (trace : List Event) : Prop :=
  ∀ before event after, trace = before ++ event :: after → stops event = true → ∀ later ∈ after, uses later = false

section
variable {Event : Type} {stops uses : Event → Bool} {first second : List Event}

/-- Nothing that stops, and then a trace that is halted. -/
theorem Halted.append (running : ∀ event ∈ first, stops event = false)
    (halted : Halted stops uses second) : Halted stops uses (first ++ second) := by
  intro before event after split stopped later member
  rcases append_eq_append_iff.mp split with ⟨middle,rfl,rest⟩ | ⟨middle,rfl,rest⟩
  · exact halted middle event after rest stopped later member
  · cases middle with
    | nil => exact halted [] event after rest.symm stopped later member
    | cons head tail =>
      cases rest
      exact absurd stopped (by rw [running event (by simp)]; decide)

/-- A trace without uses is halted, and stays so after one that is halted itself. -/
theorem Halted.unused {trace : List Event} (unused : ∀ event ∈ trace, uses event = false) :
    Halted stops uses trace := by
  rintro before event after rfl stopped later member
  exact unused later (by simp [member])

theorem Halted.append_unused (halted : Halted stops uses first)
    (unused : ∀ event ∈ second, uses event = false) : Halted stops uses (first ++ second) := by
  intro before event after split stopped later member
  rcases append_eq_append_iff.mp split with ⟨middle,rfl,rest⟩ | ⟨middle,rfl,rest⟩
  · exact unused later (by simp [rest,member])
  · cases middle with
    | nil => exact unused later (by rw [nil_append] at rest; simp [← rest,member])
    | cons head tail =>
      cases rest
      rcases mem_append.mp member with old | new
      · exact halted before event tail rfl stopped later old
      · exact unused later new

/-- A trace in which only the last event may stop is halted. -/
theorem Halted.last (running : ∀ event ∈ first, stops event = false) (event : Event) :
    Halted stops uses (first ++ [event]) := by
  refine Halted.append running ?_
  intro before stop after split stopped later member
  cases before with
  | nil => cases split; cases member
  | cons head tail => simp at split

end
end Vyane.Interactions
