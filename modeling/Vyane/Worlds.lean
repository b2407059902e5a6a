import Vyane.Interactions

/-!
More rules for programs that act on a world. A program that is blind to a difference does the same in two worlds that
differ in no more than that. Where the world has a state, triples say what becomes of it. In a race the world may,
wherever a program waits, answer another side instead; the program is then dropped with all that it has received.
-/
namespace Vyane.Interactions
namespace Program
variable {Request : Type} {Answer : Request → Type} {α β γ : Type} {program : Program Request Answer α}
  {trace : List (Event Request Answer)} {value : α}
  {allowed : Request → Prop} {same : (request : Request) → Answer request → Answer request → Prop} {post : α → Prop}

theorem Only.weaken {other : Request → Prop} (implied : ∀ request, allowed request → other request)
    (only : program.Only allowed) :
    program.Only other := by
  induction program with
  | done value => trivial
  | ask request next ih => exact ⟨implied request only.1,fun answer => ih answer (only.2 answer)⟩

/-- A run makes no other requests than its program. -/
theorem allowed_of_runs (only : program.Only allowed)
    (runs : Runs program trace value) : ∀ event ∈ trace, allowed event.1 := by
  induction runs with
  | done value => exact fun event here => absurd here List.not_mem_nil
  | ask rest ih => exact List.forall_mem_cons.mpr ⟨only.1,ih (only.2 _)⟩

/-! ### Two worlds -/

/-- The program asks only what is allowed, goes on in one way after answers that are the same to it, and ends so. -/
def Blind (allowed : Request → Prop) (same : (request : Request) → Answer request → Answer request → Prop) :
    Program Request Answer α → (α → Prop) → Prop
  | done value, post => post value
  | ask request next, post =>
    allowed request ∧ (∀ one two, same request one two → next one = next two) ∧ ∀ answer,
      (next answer).Blind allowed same post

theorem blind_pure (holds : post value) : (pure value : Program Request Answer α).Blind allowed same post := holds

theorem blind_bind {next : α → Program Request Answer β} {post : β → Prop}
    (first : program.Blind allowed same fun value => (next value).Blind allowed same post) :
    (program >>= next).Blind allowed same post := by
  change (program.bind next).Blind allowed same post
  induction program with
  | done value => exact first
  | ask request later ih =>
    refine ⟨first.1,fun one two alike => ?_,fun answer => ih answer (first.2.2 answer)⟩
    show (later one).bind next = (later two).bind next
    rw [first.2.1 one two alike]

theorem Blind.weaken {other : α → Prop} (blind : program.Blind allowed same post) (implied : ∀ value, post value →
    other value) :
    program.Blind allowed same other := by
  induction program with
  | done value => exact implied value blind
  | ask request next ih => exact ⟨blind.1,blind.2.1,fun answer => ih answer (blind.2.2 answer)⟩

/-- A program that asks only what is answered exactly. -/
theorem blind_of_only {exact : Request → Prop} (only : program.Only exact) (asks : ∀ request, exact request →
    allowed request)
    (tells : ∀ request, exact request → ∀ one two, same request one two → one = two) :
    program.Blind allowed same fun _ => True := by
  induction program with
  | done value => trivial
  | ask request next ih =>
    exact ⟨asks request only.1,fun one two alike => congrArg next (tells request only.1 one two alike),fun answer =>
      ih answer (only.2 answer)⟩

/-- In worlds whose answers are the same to it, a blind program makes the same requests and ends with the same value. -/
theorem play_blind {world other : World Request Answer}
    (agree : ∀ past past', past.map Sigma.fst = past'.map Sigma.fst → ∀ request, allowed request →
      same request (world past request) (other past' request)) :
    program.Blind allowed same post → ∀ {past past' : List (Event Request Answer)},
      past.map Sigma.fst = past'.map Sigma.fst →
      (program.play world past).2 = (program.play other past').2 ∧
      (program.play world past).1.map Sigma.fst = (program.play other past').1.map Sigma.fst := by
  induction program with
  | done value => exact fun _ _ _ _ => ⟨rfl,rfl⟩
  | ask request next ih =>
    intro blind past past' alike
    have equal := blind.2.1 _ _ (agree past past' alike request blind.1)
    obtain ⟨value,requests⟩ := @ih (world past request) (blind.2.2 _) (past ++ [⟨request,world past request⟩])
      (past' ++ [⟨request,other past' request⟩]) (by simp [alike])
    simp only [play,← equal,List.map_cons]
    exact ⟨value,by rw [requests]⟩

/-! ### Worlds with a state -/

section
variable {State : Type} (step : State → Event Request Answer → State → Prop)

/-- A trace takes the world from one state to another. -/
inductive Follows : State → List (Event Request Answer) → State → Prop
  | nil {state : State} : Follows state [] state
  | cons {state middle last : State} {event : Event Request Answer} {trace : List (Event Request Answer)}
      (first : step state event middle) (rest : Follows middle trace last) : Follows state (event :: trace) last

/-- Whatever steps the world takes from this state, the program ends so. -/
def Leads : Program Request Answer α → State → (α → State → Prop) → Prop
  | done value, state, post => post value state
  | ask request next, state, post => ∀ answer after, step state ⟨request,answer⟩ after → Leads (next answer) after post

variable {step} {state : State} {post : α → State → Prop}

theorem leads_pure (holds : post value state) : Leads step (pure value : Program Request Answer α) state post := holds

theorem leads_bind {next : α → Program Request Answer β} {post : β → State → Prop} :
    ∀ {state : State}, Leads step program state (fun value after => Leads step (next value) after post) →
      Leads step (program >>= next) state post := by
  change ∀ {state : State}, _ → Leads step (program.bind next) state post
  induction program with
  | done value => exact fun first => first
  | ask request later ih => exact fun first answer after stepped => ih answer (first answer after stepped)

theorem Leads.weaken {other : α → State → Prop} (implied : ∀ value after, post value after → other value after) :
    ∀ {state : State}, Leads step program state post → Leads step program state other := by
  induction program with
  | done value => exact fun leads => implied value _ leads
  | ask request next ih => exact fun leads answer after stepped => ih answer (leads answer after stepped)

/-- A program that asks only what changes nothing. -/
theorem leads_of_only {harmless : Request → Prop} (only : program.Only harmless)
    (still : ∀ {state after : State} {request : Request} {answer : Answer request}, harmless request →
      step state ⟨request,answer⟩ after → after = state) :
    Leads step program state fun _ after => after = state := by
  induction program with
  | done value => exact rfl
  | ask request next ih =>
    intro answer after stepped
    cases still only.1 stepped
    exact ih answer (only.2 answer)

theorem Leads.follows (runs : Runs program trace value) :
    ∀ {state last : State}, Leads step program state post → Follows step state trace last → post value last := by
  induction runs with
  | done value =>
    rintro state last leads ⟨⟩
    exact leads
  | ask rest ih =>
    rintro state last leads ⟨⟩
    rename_i middle first more
    exact ih (leads _ _ first) more

end

/-! ### Races -/

/-- How a request is made while something else may become ready as well. -/
abbrev Contested (Request : Type) (Answer : Request → Type) (β : Type) : Type :=
  (request : Request) → (other : Request) × (Answer other → Answer request ⊕ β)

/-- A program against something else; the first that is ready wins, and a program that loses is dropped where it
    stands. -/
def race (contested : Contested Request Answer β) : Program Request Answer α → Program Request Answer (α ⊕ β)
  | done value => done (.inl value)
  | ask request next => ask (contested request).1 fun answer =>
    match (contested request).2 answer with
    | .inl mine => (next mine).race contested
    | .inr theirs => done (.inr theirs)

/-- An event of a program, and the one that stands for it in a race. -/
inductive Stands (contested : Contested Request Answer β) : Event Request Answer → Event Request Answer → Prop
  | mine {request : Request} {plain : Answer request} {answer : Answer (contested request).1}
      (won : (contested request).2 answer = .inl plain) : Stands contested ⟨request,
        plain⟩ ⟨(contested request).1,answer⟩

variable {contested : Contested Request Answer β}

theorem runs_race_ask {request : Request} {next : Answer request → Program Request Answer α} {result : α ⊕ β} :
    Runs ((ask request next).race contested) trace result ↔
      ∃ answer rest, trace = ⟨(contested request).1,answer⟩ :: rest ∧
      Runs (match (contested request).2 answer with
        | .inl mine => (next mine).race contested
        | .inr theirs => done (.inr theirs)) rest result := by
  rw [race]
  exact runs_ask

theorem race_bind {next : α → Program Request Answer γ} : (program >>= next).race contested =
    program.race contested >>= fun
      | .inl value => (next value).race contested
      | .inr theirs => pure (.inr theirs) := by
  change (program.bind next).race contested = (program.race contested).bind _
  induction program with
  | done value => rfl
  | ask request rest ih =>
    simp only [Program.bind,race]
    refine congrArg (ask _) (funext fun answer => ?_)
    cases (contested request).2 answer with
    | inl mine => exact ih mine
    | inr theirs => rfl

/-- The `?` operator in a race. -/
theorem runs_race_and_then {ε : Type} {first : Program Request Answer (Except ε α)}
    {next : α → Program Request Answer (Except ε γ)}
    {result : Except ε γ ⊕ β} (runs : Runs ((first.and_then next).race contested) trace result) :
    (∃ theirs, result = .inr theirs ∧ Runs (first.race contested) trace (.inr theirs)) ∨
      (∃ error, result = .inl (.error error) ∧ Runs (first.race contested) trace (.inl (.error error))) ∨
      ∃ before after value, trace = before ++ after ∧ Runs (first.race contested) before (.inl (.ok value)) ∧
        Runs ((next value).race contested) after result := by
  rw [and_then,race_bind] at runs
  obtain ⟨before,after,value,rfl,started,ended⟩ := runs_bind.mp runs
  match value with
  | .inr theirs =>
    obtain ⟨rfl,rfl⟩ := runs_pure.mp ended
    exact .inl ⟨theirs,rfl,by simpa using started⟩
  | .inl (.error error) =>
    obtain ⟨rfl,rfl⟩ := runs_done.mp ended
    exact .inr (.inl ⟨error,rfl,by simpa using started⟩)
  | .inl (.ok value) => exact .inr (.inr ⟨before,after,value,rfl,started,ended⟩)

/-- What a program does alone it may do in a race, if it can win at every request. -/
theorem runs_race_of_runs (fair : ∀ request plain, ∃ answer, (contested request).2 answer = .inl plain)
    (runs : Runs program trace value) :
    ∃ raced, Runs (program.race contested) raced (.inl value) ∧ List.Forall₂ (Stands contested) trace raced := by
  induction runs with
  | done value => exact ⟨[],.done _,.nil⟩
  | @ask request next plain trace value rest ih =>
    obtain ⟨raced,ran,stands⟩ := ih
    obtain ⟨answer,won⟩ := fair request plain
    refine ⟨⟨_,answer⟩ :: raced,?_,.cons (.mine won) stands⟩
    rw [race]
    refine .ask ?_
    rw [won]
    exact ran

end Program
end Vyane.Interactions
