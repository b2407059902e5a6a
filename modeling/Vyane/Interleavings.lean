import Vyane.Interactions

/-!
Processes that share a state: each runs a program, one at a time they make a request that the state serves, and any can
be killed in between. A conduct says which requests a process may make in which phase; where all keep to it, what each
conducted step keeps holds in every interleaving.
-/
namespace Vyane.Interleavings
open Interactions Function

section
variable (Pid Shared Choice Request : Type) (Answer : Request → Type)

/-- How requests are served; the choice is whatever the environment decides. -/
structure Machine where
  perform : Pid → Choice → Shared → (request : Request) → Answer request × Shared
  /-- What the death of a process does to the shared state. -/
  crash : Pid → Shared → Shared

/-- A request in the log, with the shared state that it met. -/
structure Entry where
  pid : Pid
  before : Shared
  event : Event Request Answer

inductive Move where
  | step (pid : Pid) (choice : Choice)
  | crash (pid : Pid)

/-- The processes; one that was killed is gone. -/
structure State (α : Type) where
  shared : Shared
  threads : Pid → Option (Program Request Answer α)
  log : List (Entry Pid Shared Request Answer)

end
section
variable {Pid Shared Choice Request : Type} {Answer : Request → Type} {α β : Type}
  (machine : Machine Pid Shared Choice Request Answer) {allows : List (Event Request Answer) → Request → Prop}

def State.move [DecidableEq Pid] (state : State Pid Shared Request Answer α) : Move Pid Choice →
    State Pid Shared Request Answer α
  | .step pid choice =>
    match state.threads pid with
    | some (.ask request next) =>
      let performed := machine.perform pid choice state.shared request
      { shared := performed.2
        threads := update state.threads pid (some (next performed.1))
        log := state.log ++ [⟨pid,state.shared,⟨request,performed.1⟩⟩] }
    | _ => state
  | .crash pid =>
    { state with
      shared := machine.crash pid state.shared
      threads := update state.threads pid none }

/-- A run: the moves one after the other. -/
def State.run [DecidableEq Pid] (state : State Pid Shared Request Answer α) (moves : List (Move Pid Choice)) :
    State Pid Shared Request Answer α :=
  moves.foldl (State.move machine) state

/-! ### Conducts -/

variable {Phase : Type} (conduct : Phase → Event Request Answer → Phase → Prop)

/-- The program keeps to the conduct from this phase on, whatever the answers, and ends so. -/
def Guides : Phase → Program Request Answer α → (Phase → α → Prop) → Prop
  | phase, .done value, post => post phase value
  | phase, .ask request next, post =>
      ∀ answer, ∃ after, conduct phase ⟨request,answer⟩ after ∧ Guides after (next answer) post

variable {conduct} {phase : Phase} {program : Program Request Answer α} {post : Phase → α → Prop}

/-- A request and the rest of the program. -/
theorem Guides.ask {request : Request} {next : Answer request → Program Request Answer β} {post : Phase → β → Prop}
    (steps : ∀ answer, ∃ after, conduct phase ⟨request,answer⟩ after ∧ Guides conduct after (next answer) post) :
    Guides conduct phase (Program.request request >>= next) post := steps

theorem Guides.bind {next : α → Program Request Answer β} {post : Phase → β → Prop} :
    ∀ {phase : Phase}, Guides conduct phase program (fun after value => Guides conduct after (next value) post) →
      Guides conduct phase (program >>= next) post := by
  change ∀ {phase : Phase}, _ → Guides conduct phase (program.bind next) post
  induction program with
  | done value => exact id
  | ask request rest ih =>
    intro phase guided answer
    obtain ⟨after,step,rest⟩ := guided answer
    exact ⟨after,step,ih answer rest⟩

theorem Guides.weaken {other : Phase → α → Prop} (implied : ∀ after value, post after value → other after value) :
    ∀ {phase : Phase}, Guides conduct phase program post → Guides conduct phase program other := by
  induction program with
  | done value => exact implied _ value
  | ask request rest ih =>
    intro phase guided answer
    obtain ⟨after,step,rest⟩ := guided answer
    exact ⟨after,step,ih answer rest⟩

/-- The `?` operator. -/
theorem Guides.and_then {ε : Type} {first : Program Request Answer (Except ε α)}
    {next : α → Program Request Answer (Except ε β)} {post : Phase → Except ε β → Prop}
    (guided : Guides conduct phase first fun after result =>
      (∀ error, result = .error error → post after (.error error)) ∧
      ∀ value, result = .ok value → Guides conduct after (next value) post) :
    Guides conduct phase (first.and_then next) post := by
  refine Guides.bind (Guides.weaken (fun after result ends => ?_) guided)
  cases result with
  | error error => exact ends.1 error rfl
  | ok value => exact ends.2 value rfl

/-- Of a fallible program only its success matters. -/
def Succeeds {ε : Type} (post : Phase → α → Prop) (after : Phase) (result : Except ε α) : Prop :=
  ∀ value, result = .ok value → post after value

theorem Guides.succeed {ε : Type} {value : α} (ends : post phase value) :
    Guides conduct phase (Pure.pure (.ok value) : Program Request Answer (Except ε α)) (Succeeds post) := by
  intro other same
  cases same
  exact ends

theorem Guides.fail {ε : Type} {error : ε} :
    Guides conduct phase (Pure.pure (.error error) : Program Request Answer (Except ε α)) (Succeeds post) :=
  nofun

theorem Guides.and_succeeds {ε : Type} {first : Program Request Answer (Except ε α)}
    {next : α → Program Request Answer (Except ε β)}
    {post : Phase → β → Prop} (guided : Guides conduct phase first (Succeeds fun after value =>
      Guides conduct after (next value) (Succeeds post))) :
    Guides conduct phase (first.and_then next) (Succeeds post) :=
  Guides.and_then (Guides.weaken (fun _ _ ends => ⟨fun _ _ => nofun,ends⟩) guided)

/-- What conducted steps and deaths keep holds in every interleaving of processes that keep to the conduct, for some
    phases of theirs, in which what is left of each process still keeps to it. -/
theorem run_conducted [DecidableEq Pid] {invariant : Shared → (Pid → Phase) →
    List (Entry Pid Shared Request Answer) → Prop}
    {posts : Pid → Phase → α → Prop}
    (steps : ∀ pid choice shared phases log request after, invariant shared phases log →
      conduct (phases pid) ⟨request,(machine.perform pid choice shared request).1⟩ after →
      invariant (machine.perform pid choice shared request).2 (update phases pid after)
        (log ++ [⟨pid,shared,⟨request,(machine.perform pid choice shared request).1⟩⟩]))
    (deaths : ∀ pid shared phases log, invariant shared phases log → invariant (machine.crash pid shared) phases log)
    (moves : List (Move Pid Choice)) : ∀ {state : State Pid Shared Request Answer α} {phases : Pid → Phase},
      invariant state.shared phases state.log →
      (∀ pid program, state.threads pid = some program → Guides conduct (phases pid) program (posts pid)) →
      ∃ phases, invariant (state.run machine moves).shared phases (state.run machine moves).log ∧
        ∀ pid program, (state.run machine moves).threads pid = some program → Guides conduct (phases pid) program
          (posts pid) := by
  induction moves with
  | nil => exact fun holds guided => ⟨_,holds,guided⟩
  | cons move moves ih =>
    intro state phases holds guided
    -- after one move there are phases again
    suffices kept : ∃ phases, invariant (state.move machine move).shared phases (state.move machine move).log ∧
        ∀ pid program, (state.move machine move).threads pid = some program →
          Guides conduct (phases pid) program (posts pid) by
      obtain ⟨phases,holds,guided⟩ := kept
      exact ih holds guided
    cases move with
    | crash pid =>
      refine ⟨phases,deaths pid _ _ _ holds,fun other program running => ?_⟩
      by_cases same : other = pid
      · simp [State.move,same] at running
      · simp only [State.move,update_of_ne same] at running
        exact guided other program running
    | step pid choice =>
      cases running : state.threads pid with
      | none => exact ⟨phases,by simpa [State.move,running] using ⟨holds,guided⟩⟩
      | some program =>
        cases program with
        | done value => exact ⟨phases,by simpa [State.move,running] using ⟨holds,guided⟩⟩
        | ask request next =>
          obtain ⟨after,step,rest⟩ := guided pid _ running (machine.perform pid choice state.shared request).1
          refine ⟨update phases pid after,?_⟩
          simp only [State.move,running]
          refine ⟨steps pid choice _ _ _ request after holds step,fun other program going => ?_⟩
          by_cases same : other = pid
          · subst same
            simp only [update_self,Option.some.injEq] at going ⊢
            exact going ▸ rest
          · simp only [update_of_ne same] at going ⊢
            exact guided other program going

/-! ### Histories -/

/-- What one process has asked, with the answers. -/
def own [DecidableEq Pid] (log : List (Entry Pid Shared Request Answer)) (pid : Pid) : List (Event Request Answer) :=
  log.filterMap fun entry => if entry.pid = pid then some entry.event else none
theorem own_snoc_self [DecidableEq Pid] (log : List (Entry Pid Shared Request Answer)) (pid : Pid) (shared : Shared)
    (event : Event Request Answer) :
    own (log ++ [⟨pid,shared,event⟩]) pid = own log pid ++ [event] := by
  simp [own]
theorem own_snoc_other [DecidableEq Pid] (log : List (Entry Pid Shared Request Answer)) {pid other : Pid}
    (shared : Shared)
    (event : Event Request Answer) (apart : other ≠ pid) : own (log ++ [⟨pid,shared,event⟩]) other = own log other := by
  simp [own,apart.symm]
/-- The conduct that judges a request by all that the process has done before. -/
def keeping (allows : List (Event Request Answer) → Request → Prop) (before : List (Event Request Answer))
    (event : Event Request Answer)
    (after : List (Event Request Answer)) : Prop := allows before event.1 ∧ after = before ++ [event]

theorem Guides.keep {before : List (Event Request Answer)} {request : Request}
    {next : Answer request → Program Request Answer β} {post : List (Event Request Answer) → β → Prop}
    (allowed : allows before request)
    (rest : ∀ answer, Guides (keeping allows) (before ++ [⟨request,answer⟩]) (next answer) post) :
    Guides (keeping allows) before (Program.request request >>= next) post :=
  fun answer => ⟨_,⟨allowed,rfl⟩,rest answer⟩

/-- Every request of a history was allowed when it was made. -/
def Kept (allows : List (Event Request Answer) → Request → Prop) (history : List (Event Request Answer)) : Prop :=
  ∀ before event after, history = before ++ event :: after → allows before event.1
theorem Kept.nil : Kept allows [] := by
  intro before event after split
  simp at split

theorem Kept.snoc {history : List (Event Request Answer)} {event : Event Request Answer}
    (kept : Kept allows history) (allowed : allows history event.1) : Kept allows (history ++ [event]) := by
  intro before other after split
  rcases List.eq_nil_or_concat' after with rfl | ⟨front,last,rfl⟩
  · obtain ⟨rfl,same⟩ := List.append_inj' split rfl
    cases same
    exact allowed
  · have parts : history ++ [event] = (before ++ other :: front) ++ [last] := by rw [split]; simp
    exact kept before other front (List.append_inj' parts rfl).1

/-- Where every request is allowed by the own history: what allowed steps keep holds in every interleaving, each history
    is kept, and each process that has ended has ended as it should. -/
theorem run_keeping [DecidableEq Pid] {invariant : Shared → List (Entry Pid Shared Request Answer) → Prop}
    {posts : Pid → List (Event Request Answer) → α → Prop}
    (steps : ∀ pid choice shared log request, invariant shared log → allows (own log pid) request →
      invariant (machine.perform pid choice shared request).2
        (log ++ [⟨pid,shared,⟨request,(machine.perform pid choice shared request).1⟩⟩]))
    (deaths : ∀ pid shared log, invariant shared log → invariant (machine.crash pid shared) log)
    (moves : List (Move Pid Choice)) {shared : Shared} {threads : Pid → Option (Program Request Answer α)}
    (holds : invariant shared [])
    (guided : ∀ pid program, threads pid = some program → Guides (keeping allows) [] program (posts pid)) :
    let state := State.run machine ⟨shared,threads,[]⟩ moves
    invariant state.shared state.log ∧ ∀ pid, Kept allows (own state.log pid) ∧
      ∀ value, state.threads pid = some (.done value) → posts pid (own state.log pid) value := by
  have run := @run_conducted Pid Shared Choice Request Answer α machine (List (Event Request Answer)) (keeping allows) _
    (fun shared phases log => invariant shared log ∧ ∀ pid, phases pid = own log pid ∧
      Kept allows (own log pid)) posts ?_
    (fun pid shared phases log both => ⟨deaths pid shared log both.1,both.2⟩) moves ⟨shared,threads,[]⟩ (fun _ => [])
    ⟨holds,fun pid => ⟨rfl,Kept.nil⟩⟩ guided
  · obtain ⟨phases,⟨holds,histories⟩,guided⟩ := run
    refine ⟨holds,fun pid => ⟨(histories pid).2,fun value ended => ?_⟩⟩
    have ends := guided pid _ ended
    rw [(histories pid).1] at ends
    exact ends
  · rintro pid choice shared phases log request after ⟨holds,histories⟩ ⟨allowed,rfl⟩
    obtain ⟨same,kept⟩ := histories pid
    rw [same] at allowed ⊢
    refine ⟨steps pid choice shared log request holds allowed,fun other => ?_⟩
    by_cases here : other = pid
    · subst here
      rw [update_self,own_snoc_self]
      exact ⟨rfl,kept.snoc allowed⟩
    · rw [update_of_ne here,own_snoc_other _ _ _ here]
      exact histories other

end
end Vyane.Interleavings
