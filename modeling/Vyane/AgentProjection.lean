import Mathlib.Data.List.Sort
import Vyane.Core
import Vyane.Interleavings

/-!
The projection of agent events into an event log (`agent_projector.rs`, and the outbox in `sqlite.rs`). Projectors of
one identity append the events that are not acknowledged and acknowledge them, several at once, and die anywhere. The
floor, the highest number a projector has seen in the stream, can be stale but never too high. Events are not deferred
or quarantined here; of an event only its id and its number are kept.
-/
namespace Vyane.Projection
open Vyane.Core Interactions Interleavings List Function Guides

def MAX_PAGE_SIZE : Nat := 1000
structure AgentEvent where
  event_id : String
  sequence : Nat
deriving DecidableEq, Repr

/-- An event in the stream; `map_event` puts its number into the payload. -/
structure EventRecord where
  sequence : Nat
  event_id : String
  agent_event_sequence : Nat

structure EventPage where
  events : List EventRecord
  has_more : Bool
structure OutboxPage where
  items : List AgentEvent
  has_more : Bool

structure ProjectionReport where
  read : Nat
  projected : Nat
  has_more : Bool

/-- An error of the store or the log, or a scan that has not come to its end. -/
inductive Error where
  | InvalidInput
  | NotFound (id : String)
  | Failed
  | Running

/-! ### The store and the log -/

/-- The rows of one owner and one projector, and the stream. -/
structure Shared where
  agent_events : List AgentEvent
  next_sequence : Option Nat
  progress : List Nat
  stream : List AgentEvent

inductive Request where
  | insert_event (event_id : String)
  | unprojected_events (limit : Nat)
  | mark_projected (event_id : String)
  | append (event : AgentEvent)
  | read_after (after limit : Nat)

/-- A failed append may have reached the stream all the same; who asked is not told. -/
structure AppendError where
  landed : Bool

def Answer : Request → Type
  | .insert_event _ => Except Error Unit
  | .unprojected_events _ => Except Error OutboxPage
  | .mark_projected _ => Except Error Unit
  | .append _ => Except AppendError Unit
  | .read_after _ _ => Except Error EventPage

def next_owner_event_sequence (shared : Shared) : Nat × Shared :=
  match shared.next_sequence with
  | some sequence => (sequence,{ shared with next_sequence := some (sequence + 1) })
  | none => (1,{ shared with next_sequence := some 2 })

/-- A new event; its id is a fresh UUID, so one that is there already is refused. -/
def insert_event (shared : Shared) (event_id : String) : Except Error Shared :=
  if shared.agent_events.any (·.event_id == event_id) then .error .Failed
  else
    let (sequence,shared) := next_owner_event_sequence shared
    .ok { shared with agent_events := shared.agent_events ++ [⟨event_id,sequence⟩] }

def unprojected_events (shared : Shared) (limit : Nat) : Except Error OutboxPage :=
  if limit = 0 ∨ MAX_PAGE_SIZE < limit then .error .InvalidInput
  else
    let items := (shared.agent_events.filter (!shared.progress.contains ·.sequence)).insertionSort
      (·.sequence ≤ ·.sequence)
    .ok ⟨items.take limit,limit < (items.take (limit + 1)).length⟩

def mark_projected (shared : Shared) (event_id : String) : Except Error Shared :=
  match shared.agent_events.find? (·.event_id == event_id) with
  | none => .error (.NotFound event_id)
  | some event => .ok (if shared.progress.contains event.sequence then shared else
      { shared with progress := shared.progress ++ [event.sequence] })

def map_event (position : Nat) (event : AgentEvent) : EventRecord := ⟨position + 1,event.event_id,event.sequence⟩
/-- How a request fares: as it should, refused without effect, or done with its answer lost. A page of the log that is
    fine can be short, where the limit on its bytes cuts it. -/
inductive Fate where
  | Fine
  | Short (events : Nat)
  | Refused
  | Lost

def read_after (fate : Fate) (shared : Shared) (after limit : Nat) : EventPage :=
  let limit := match fate with
    | .Short events => min events limit
    | _ => limit
  ⟨((shared.stream.mapIdx map_event).drop after).take limit,after + limit < shared.stream.length⟩

/-- A write and its answer. -/
def written (fate : Fate) (shared : Shared) : Except Error Shared → Except Error Unit × Shared
  | .error error => (.error error,shared)
  | .ok after => match fate with
    | .Fine | .Short _ => (.ok (),after)
    | .Refused => (.error .Failed,shared)
    | .Lost => (.error .Failed,after)

def append (fate : Fate) (shared : Shared) (event : AgentEvent) : Except AppendError Unit × Shared :=
  let after := { shared with stream := shared.stream ++ [event] }
  match fate with
  | .Fine | .Short _ => (.ok (),after)
  | .Refused => (.error ⟨false⟩,shared)
  | .Lost => (.error ⟨true⟩,after)

def answered {α : Type} (fate : Fate) (answer : Except Error α) : Except Error α :=
  match fate with
  | .Fine | .Short _ => answer
  | .Refused | .Lost => .error .Failed

/-- Every request is one transaction; a death leaves the rows and the stream as they are. -/
def store (Pid : Type) : Machine Pid Shared Fate Request Answer where
  perform _ fate shared
    | .insert_event event_id => written fate shared (insert_event shared event_id)
    | .unprojected_events limit => (answered fate (unprojected_events shared limit),shared)
    | .mark_projected event_id => written fate shared (mark_projected shared event_id)
    | .append event => append fate shared event
    | .read_after after limit => (answered fate (.ok (read_after fate shared after limit)),shared)
  crash _ shared := shared

/-! ### The projector -/

abbrev Projector (α : Type) : Type := Program Request Answer α
def perform (request : Request) : Projector (Answer request) := Program.request request
structure ProjectionOrder where
  floor_known : Bool
  floor : Nat

/-- The highest number in the pages from a position on. -/
def scanPages : Nat → Nat → Nat → Projector (Except Error Nat)
  | 0, _, _ => pure (.error .Running)
  | rounds + 1, after, floor => (perform (.read_after after 1000)).and_then fun page =>
    match page.events.getLast? with
    | none => pure (.ok floor)
    | some last =>
      if last.sequence ≤ after then pure (.ok floor)
      else
        let floor := page.events.foldl (fun floor event => max floor event.agent_event_sequence) floor
        if page.has_more then scanPages rounds last.sequence floor else pure (.ok floor)

def scan_source_floor (rounds : Nat) : Projector (Except Error Nat) := scanPages rounds 0 0
/-- How far a page came, and the floor that is kept in any case. -/
abbrev Paged : Type := Except Error (Nat × Bool) × Nat

/-- An event is appended and then acknowledged. -/
def projectItem (item : AgentEvent) (floor : Nat) : Projector (Except Error Nat) := do
  match ← perform (.append item) with
  | .error _ => pure (.error .Failed)
  | .ok () => (perform (.mark_projected item.event_id)).and_then fun _ => pure (.ok (max floor item.sequence))

/-- The loop over the items of a page. -/
def projectItems (rounds : Nat) : List AgentEvent → Nat → Nat → Projector Paged
  | [], floor, projected => pure (.ok (projected,false),floor)
  | item :: rest, floor, projected =>
    let project (floor : Nat) : Projector Paged := do
      match ← projectItem item floor with
      | .error error => pure (.error error,floor)
      | .ok floor => projectItems rounds rest floor (projected + 1)
    if saturating_add floor 1 < item.sequence then do
      match ← scan_source_floor rounds with
      | .error error => pure (.error error,floor)
      | .ok refreshed =>
        let floor := max floor refreshed
        if saturating_add floor 1 < item.sequence then pure (.ok (projected,true),floor) else project floor
    else project floor

/-- `sort_by_key` on the numbers. -/
def sorted (items : List AgentEvent) : List AgentEvent := items.insertionSort (·.sequence ≤ ·.sequence)

def projectPage (rounds limit floor : Nat) : Projector (Except Error ProjectionReport × ProjectionOrder) := do
  match ← perform (.unprojected_events limit) with
  | .error error => pure (.error error,⟨true,floor⟩)
  | .ok page =>
    match ← projectItems rounds (sorted page.items) floor 0 with
    | (.error error,floor) => pure (.error error,⟨true,floor⟩)
    | (.ok (projected,blocked),floor) => pure (.ok ⟨page.items.length,projected,!blocked && page.has_more⟩,⟨true,floor⟩)

def project_once (rounds limit : Nat) (order : ProjectionOrder) :
    Projector (Except Error ProjectionReport × ProjectionOrder) := do
  if order.floor_known then projectPage rounds limit order.floor
  else
    match ← scan_source_floor rounds with
    | .error error => pure (.error error,order)
    | .ok floor => projectPage rounds limit floor

/-- A projector and its clones: one call after another, since they share a lock. -/
def projectCalls (rounds : Nat) : List Nat → ProjectionOrder → Projector Unit
  | [], _ => pure ()
  | limit :: limits, order => do
    let (_,order) ← project_once rounds limit order
    projectCalls rounds limits order

/-- `AgentEventProjector::new`, and the calls on it. -/
def projector (rounds : Nat) (limits : List Nat) : Projector Unit := projectCalls rounds limits ⟨false,0⟩
/-- Who uses the store: a projector with its calls, or one that adds events. -/
inductive Process where
  | Projecting (rounds : Nat) (limits : List Nat)
  | Writing (eventIds : List String)

def writer : List String → Projector Unit
  | [] => pure ()
  | event_id :: eventIds => do
    let _ ← perform (.insert_event event_id)
    writer eventIds

def Process.program : Process → Projector Unit
  | .Projecting rounds limits => projector rounds limits
  | .Writing eventIds => writer eventIds

/-! ### What a projector knows -/

/-- The numbers it has seen in the stream, the events it has read last and not yet tried, and those it has put into the
    stream. -/
structure Phase where
  known : List Nat
  page : List AgentEvent
  put : List AgentEvent

def Phase.start : Phase := ⟨[],[],[]⟩

def Phase.see (phase : Phase) : Event Request Answer → Phase
  | ⟨.read_after _ _,.ok page⟩ => { phase with known := phase.known ++ page.events.map (·.agent_event_sequence) }
  | ⟨.unprojected_events _,.ok page⟩ => { phase with page := page.items }
  | ⟨.append event,.ok ()⟩ => ⟨phase.known ++ [event.sequence],phase.page.erase event,phase.put ++ [event]⟩
  | ⟨.append event,.error _⟩ => { phase with page := phase.page.erase event }
  | _ => phase

/-- Only what was read is appended, not far above what is known, and only what was appended is acknowledged. -/
def Phase.Allows (phase : Phase) : Request → Prop
  | .append event => event ∈ phase.page ∧ ∃ n ∈ 0 :: phase.known, event.sequence ≤ n + 1
  | .mark_projected event_id => ∃ event ∈ phase.put, event.event_id = event_id
  | _ => True

def conduct (phase : Phase) (event : Event Request Answer) (after : Phase) : Prop :=
  phase.Allows event.1 ∧ after = phase.see event
/-- The floor is a number that is known, or nought. -/
def Phase.Covers (phase : Phase) (floor : Nat) : Prop := floor ∈ 0 :: phase.known

variable {phase : Phase} {numbers : List Nat} {shared after : Shared}

theorem Phase.Covers.max {one two : Nat} (first : phase.Covers one) (second : phase.Covers two) :
    phase.Covers (max one two) := by
  rcases max_choice one two with same | same <;> rw [same] <;> assumption

theorem Phase.Covers.more {floor : Nat} (covers : phase.Covers floor) (more : List Nat) (page put : List AgentEvent) :
    (⟨phase.known ++ more,page,put⟩ : Phase).Covers floor := by
  rcases mem_cons.mp covers with rfl | here
  · exact mem_cons_self
  · exact mem_cons_of_mem _ (mem_append_left _ here)

/-- What is known stays so, and this is left of the page. -/
structure Kept (phase : Phase) (page : List AgentEvent) (after : Phase) : Prop where
  page : after.page = page
  covers : ∀ floor, phase.Covers floor → after.Covers floor
theorem Kept.refl (phase : Phase) : Kept phase phase.page phase := ⟨rfl,fun _ => id⟩
theorem Kept.trans {first second third : Phase} {page : List AgentEvent} (one : Kept first page second)
    (two : Kept second second.page third) :
    Kept first page third :=
  ⟨two.page.trans one.page,fun floor covers => two.covers floor (one.covers floor covers)⟩

theorem covers_foldl {page : List EventRecord} : ∀ {floor : Nat}, phase.Covers floor →
    (∀ event ∈ page, phase.Covers event.agent_event_sequence) →
      phase.Covers (page.foldl (fun floor event => max floor event.agent_event_sequence) floor) := by
  induction page with
  | nil => exact fun covers _ => covers
  | cons event rest ih =>
    intro floor covers all
    exact ih (covers.max (all event mem_cons_self)) fun other here => all other (mem_cons_of_mem _ here)

theorem scanPages_guided : ∀ {rounds after floor : Nat} {phase : Phase}, phase.Covers floor →
    Guides conduct phase (scanPages rounds after floor) fun later result =>
      Kept phase phase.page later ∧ ∀ n, result = .ok n → later.Covers n := by
  intro rounds
  induction rounds with
  | zero => exact fun _ => ⟨.refl _,nofun⟩
  | succ rounds ih =>
    intro after floor phase covers
    refine and_then (fun answer => ⟨phase.see ⟨_,answer⟩,⟨trivial,rfl⟩,?_⟩)
    cases (answer : Except Error EventPage) with
    | error error => exact ⟨fun _ _ => ⟨.refl _,nofun⟩,nofun⟩
    | ok page =>
      refine ⟨nofun,fun value same => ?_⟩
      cases same
      have kept : Kept phase phase.page (phase.see ⟨.read_after after 1000,.ok page⟩) :=
        ⟨rfl,fun _ holds => holds.more _ _ _⟩
      have still : (phase.see ⟨.read_after after 1000,.ok page⟩).Covers floor := kept.covers _ covers
      have ends : ∀ n, (phase.see ⟨.read_after after 1000,.ok page⟩).Covers n →
          Guides conduct (phase.see ⟨.read_after after 1000,.ok page⟩) (pure (.ok n) : Projector (Except Error Nat))
            fun later result => Kept phase phase.page later ∧ ∀ n, result = .ok n → later.Covers n := by
        refine fun n holds => ⟨kept,fun m same => ?_⟩
        cases same
        exact holds
      cases page.events.getLast? with
      | none => exact ends floor still
      | some last =>
        dsimp only
        have raised := @covers_foldl (phase.see ⟨.read_after after 1000,.ok page⟩) page.events floor still
          fun event here =>
          mem_cons_of_mem _ (mem_append_right _ (mem_map_of_mem here))
        split_ifs
        · exact ends floor still
        · exact weaken (fun later result both => ⟨kept.trans both.1,both.2⟩) (ih raised)
        · exact ends _ raised

theorem projectItem_guided {item : AgentEvent} {floor : Nat} (covers : phase.Covers floor) (read : item ∈ phase.page)
    (near : item.sequence ≤ floor + 1) : Guides conduct phase (projectItem item floor) fun later result =>
      Kept phase (phase.page.erase item) later ∧ ∀ n, result = .ok n → later.Covers n := by
  refine ask fun answer => ⟨phase.see ⟨_,answer⟩,⟨⟨read,floor,covers,near⟩,rfl⟩,?_⟩
  cases (answer : Except AppendError Unit) with
  | error failure => exact ⟨⟨rfl,fun _ => id⟩,nofun⟩
  | ok =>
    have kept : Kept phase (phase.page.erase item) (phase.see ⟨.append item,.ok ()⟩) :=
      ⟨rfl,fun _ holds => holds.more _ _ _⟩
    have put : item ∈ (phase.see ⟨.append item,.ok ()⟩).put := mem_append_right _ (mem_singleton_self _)
    refine and_then (fun answer => ⟨_,⟨⟨item,put,rfl⟩,rfl⟩,?_⟩)
    cases (answer : Except Error Unit) with
    | error error => exact ⟨fun _ _ => ⟨kept,nofun⟩,nofun⟩
    | ok =>
      refine ⟨nofun,fun _ _ => ⟨kept,fun n same => ?_⟩⟩
      cases same
      exact (kept.covers _ covers).max (mem_cons_of_mem _ (mem_append_right _ (mem_singleton_self _)))

theorem projectItems_guided {rounds : Nat} : ∀ {items : List AgentEvent} {floor projected : Nat} {phase : Phase},
    phase.Covers floor →
    phase.page.Perm items →
      Guides conduct phase (projectItems rounds items floor projected) fun later paged => later.Covers paged.2 := by
  intro items
  induction items with
  | nil => exact fun covers _ => covers
  | cons item rest ih =>
    intro floor projected phase covers read
    have project : ∀ {floor : Nat} {phase : Phase}, phase.Covers floor → phase.page.Perm (item :: rest) →
        item.sequence ≤ floor + 1 → Guides conduct phase (projectItem item floor >>= fun
          | .error error => pure (.error error,floor)
          | .ok floor => projectItems rounds rest floor (projected + 1)) fun later paged => later.Covers paged.2 := by
      intro floor phase covers read near
      refine bind (weaken
        (fun later result both => ?_) (projectItem_guided covers (read.mem_iff.mpr mem_cons_self) near))
      cases result with
      | error error => exact both.1.covers _ covers
      | ok floor =>
        refine ih (both.2 floor rfl) ?_
        rw [both.1.page]
        simpa using read.erase item
    have room : ∀ {floor : Nat}, ¬saturating_add floor 1 < item.sequence → item.sequence ≤ floor + 1 := by
      intro floor above
      unfold saturating_add at above
      omega
    rw [projectItems]
    split_ifs with above
    · refine bind (weaken (fun later result both => ?_) (scanPages_guided mem_cons_self))
      cases result with
      | error error => exact both.1.covers _ covers
      | ok refreshed =>
        have raised := (both.1.covers _ covers).max (both.2 refreshed rfl)
        dsimp only
        split_ifs with still
        · exact raised
        · exact project raised (both.1.page ▸ read) (room still)
    · exact project covers read (room above)

theorem projectPage_guided {rounds limit floor : Nat} (covers : phase.Covers floor) :
    Guides conduct phase (projectPage rounds limit floor) fun later result => later.Covers result.2.floor := by
  refine ask fun answer => ⟨_,⟨trivial,rfl⟩,?_⟩
  cases (answer : Except Error OutboxPage) with
  | error error => exact covers
  | ok page =>
    refine bind (weaken
      (fun later paged holds => ?_) (projectItems_guided covers (perm_insertionSort _ _).symm))
    match paged with
    | (.error error,floor) => exact holds
    | (.ok (projected,blocked),floor) => exact holds

theorem projectCalls_guided {rounds : Nat} : ∀ {limits : List Nat} {order : ProjectionOrder} {phase : Phase},
    phase.Covers order.floor →
    Guides conduct phase (projectCalls rounds limits order) fun _ _ => True := by
  intro limits
  induction limits with
  | nil => exact fun _ => trivial
  | cons limit limits ih =>
    intro order phase covers
    have once : Guides conduct phase (project_once rounds limit order) fun later result =>
      later.Covers result.2.floor := by
      unfold project_once
      split_ifs
      · exact projectPage_guided covers
      · refine bind (weaken (fun later result both => ?_) (scanPages_guided mem_cons_self))
        cases result with
        | error error => exact both.1.covers _ covers
        | ok floor => exact projectPage_guided (both.2 floor rfl)
    exact bind (weaken (fun later result holds => ih holds) once)

theorem process_guided (process : Process) : Guides conduct .start process.program fun _ _ => True := by
  cases process with
  | Projecting rounds limits => exact projectCalls_guided mem_cons_self
  | Writing eventIds =>
    show Guides conduct .start (writer eventIds) _
    have writes : ∀ {ids : List String} {phase : Phase}, Guides conduct phase (writer ids) fun _ _ => True := by
      intro ids
      induction ids with
      | nil => exact trivial
      | cons event_id rest ih => exact ask fun answer => ⟨_,⟨trivial,rfl⟩,ih⟩
    exact writes

/-! ### The stream stays in order -/

/-- Numbers of which each is the next one or was there before. -/
inductive Gapless : List Nat → Nat → Prop
  | nil : Gapless [] 0
  | next {numbers : List Nat} {highest : Nat} (before : Gapless numbers highest) : Gapless
      (numbers ++ [highest + 1]) (highest + 1)
  | again {numbers : List Nat} {highest n : Nat} (before : Gapless numbers highest) (positive : 1 ≤ n)
      (low : n ≤ highest) :
      Gapless (numbers ++ [n]) highest

theorem Gapless.mem_iff {highest : Nat} (gapless : Gapless numbers highest) (n : Nat) :
    n ∈ numbers ↔ 1 ≤ n ∧ n ≤ highest := by
  induction gapless with
  | nil => simp; omega
  | next before ih => rw [mem_append,mem_singleton,ih]; omega
  | again before positive low ih => rw [mem_append,mem_singleton,ih]; omega

theorem Gapless.snoc {highest n known : Nat} (gapless : Gapless numbers highest) (positive : 1 ≤ n)
    (seen : known ∈ 0 :: numbers) (near : n ≤ known + 1) : ∃ top, Gapless (numbers ++ [n]) top := by
  have low : known ≤ highest := by
    rcases mem_cons.mp seen with rfl | here
    · exact Nat.zero_le _
    · exact ((gapless.mem_iff known).mp here).2
  by_cases fresh : n = highest + 1
  · exact ⟨_,fresh ▸ gapless.next⟩
  · exact ⟨_,gapless.again positive (by omega)⟩

/-- The first occurrences, in their order, are all the numbers up to the highest. -/
theorem Gapless.eraseDups_eq {highest : Nat} (gapless : Gapless numbers highest) :
    numbers.eraseDups = range' 1 highest := by
  induction gapless with
  | nil => rfl
  | @next numbers highest before ih =>
    have fresh : highest + 1 ∉ numbers := fun here => by
      have := (before.mem_iff _).mp here
      omega
    rw [eraseDups_append,ih,range'_1_concat]
    simp [removeAll,fresh,Nat.add_comm,eraseDups_cons]
  | @again numbers highest n before positive low ih =>
    have here : n ∈ numbers := (before.mem_iff n).mpr ⟨positive,low⟩
    rw [eraseDups_append,ih]
    simp [removeAll,here]

/-- What holds of the rows and the stream at any time. -/
structure Sound (shared : Shared) : Prop where
  ids : (shared.agent_events.map (·.event_id)).Nodup
  numbers : (shared.agent_events.map (·.sequence)).Nodup
  numbered : ∀ event ∈ shared.agent_events, 1 ≤ event.sequence ∧ event.sequence < shared.next_sequence.getD 1
  next : 1 ≤ shared.next_sequence.getD 1
  stored : ∀ event ∈ shared.stream, event ∈ shared.agent_events
  gapless : ∃ highest, Gapless (shared.stream.map (·.sequence)) highest
  projected : ∀ n ∈ shared.progress, n ∈ shared.stream.map (·.sequence)

theorem Sound.insert {event_id : String} (sound : Sound shared) (inserted : insert_event shared event_id = .ok after) :
    Sound after ∧ (∀ event ∈ shared.agent_events, event ∈ after.agent_events) ∧ after.stream = shared.stream := by
  unfold insert_event at inserted
  split_ifs at inserted with there
  have unused : ∀ event ∈ shared.agent_events, event.event_id ≠ event_id := by simpa using there
  -- the number is the next one, which no event has
  have next : ∃ number, shared.next_sequence.getD 1 = number ∧ after =
      { shared with agent_events :=
        shared.agent_events ++ [⟨event_id,number⟩], next_sequence := some (number + 1) } := by
    cases known : shared.next_sequence <;> simp [next_owner_event_sequence,known] at inserted <;>
      exact ⟨_,rfl,inserted.symm⟩
  obtain ⟨number,known,rfl⟩ := next
  subst known
  refine ⟨⟨?_,?_,
    fun event here => ?_,by simp,fun event here => mem_append_left _ (sound.stored event here),sound.gapless,
    sound.projected⟩,fun _ => mem_append_left _,rfl⟩
  · rw [map_append,nodup_append]
    refine ⟨sound.ids,by simp,fun one here two new same => ?_⟩
    obtain ⟨event,stored,rfl⟩ := mem_map.mp here
    exact unused event stored (same.trans (by simpa using new))
  · rw [map_append,nodup_append]
    refine ⟨sound.numbers,by simp,fun one here two new same => ?_⟩
    obtain ⟨event,stored,rfl⟩ := mem_map.mp here
    have below := (sound.numbered event stored).2
    have : two = shared.next_sequence.getD 1 := by simpa using new
    omega
  · rcases mem_append.mp here with old | new
    · have := sound.numbered event old
      simp only [Option.getD_some]
      omega
    · rw [mem_singleton.mp new]
      simp [sound.next]

theorem Sound.mark {event : AgentEvent} (sound : Sound shared) (put : event ∈ shared.stream)
    (marked : mark_projected shared event.event_id = .ok after) :
    Sound after ∧ after.agent_events = shared.agent_events ∧ after.stream = shared.stream := by
  unfold mark_projected at marked
  split at marked
  · cases marked
  · rename_i found lookup
    -- the row that is found is that of the event, since ids are unique
    have same : found = event := inj_on_of_nodup_map sound.ids (mem_of_find?_eq_some lookup) (sound.stored event put)
      (by simpa using find?_some lookup)
    subst same
    cases marked
    split_ifs
    · exact ⟨sound,rfl,rfl⟩
    · refine ⟨{ sound with projected := fun n here => ?_ },rfl,rfl⟩
      rcases mem_append.mp here with old | new
      · exact sound.projected n old
      · rw [mem_singleton.mp new]
        exact mem_map_of_mem put

theorem Sound.append {event : AgentEvent} {known : Nat} (sound : Sound shared) (stored : event ∈ shared.agent_events)
    (seen : known ∈ 0 :: shared.stream.map (·.sequence)) (near : event.sequence ≤ known + 1) :
    Sound { shared with stream := shared.stream ++ [event] } := by
  obtain ⟨highest,gapless⟩ := sound.gapless
  refine { sound with stored := fun other here => ?_, gapless := ?_, projected := fun n here => ?_ }
  · rcases mem_append.mp here with old | new
    · exact sound.stored other old
    · exact mem_singleton.mp new ▸ stored
  · rw [map_append]
    exact gapless.snoc (sound.numbered event stored).1 seen near
  · rw [map_append]
    exact mem_append_left _ (sound.projected n here)

/-! ### Every interleaving -/

section
variable {Pid : Type} {log : List (Entry Pid Shared Request Answer)} {pid : Pid} {shared after : Shared}
  {phases : Pid → Phase} {event : Event Request Answer}

/-- What an entry of the log has put into the stream. -/
def landed : Entry Pid Shared Request Answer → Option AgentEvent
  | ⟨_,_,⟨.append event,.ok ()⟩⟩ => some event
  | ⟨_,_,⟨.append event,.error failure⟩⟩ => if failure.landed then some event else none
  | _ => none

/-- The events that an entry of the log has read as not acknowledged. -/
def delivered : Entry Pid Shared Request Answer → List AgentEvent
  | ⟨_,_,⟨.unprojected_events _,.ok page⟩⟩ => page.items
  | _ => []
/-- The process has read the event when it was not acknowledged, and has not put it into the stream since. -/
def Delivered (log : List (Entry Pid Shared Request Answer)) (pid : Pid) (event : AgentEvent) : Prop :=
  ∃ before read after, log = before ++ read :: after ∧ read.pid = pid ∧ event ∈ delivered read ∧
    event.sequence ∉ read.before.progress ∧
    ∀ entry ∈ after, entry.pid = pid → landed entry ≠ some event

theorem Delivered.snoc {event : AgentEvent} (holds : Delivered log pid event)
    (entry : Entry Pid Shared Request Answer) (other : entry.pid = pid → landed entry ≠ some event) :
    Delivered (log ++ [entry]) pid event := by
  obtain ⟨before,read,after,rfl,reader,inside,unknown,since⟩ := holds
  refine ⟨before,read,after ++ [entry],by simp,reader,inside,unknown,fun later here => ?_⟩
  rcases mem_append.mp here with old | new
  · exact since later old
  · exact mem_singleton.mp new ▸ other

/-- What a process holds is true of the rows, the stream and the log. -/
structure Knows (shared : Shared) (log : List (Entry Pid Shared Request Answer)) (pid : Pid)
    (phase : Phase) : Prop where
  known : ∀ n ∈ phase.known, n ∈ shared.stream.map (·.sequence)
  put : ∀ event ∈ phase.put, event ∈ shared.stream
  unique : phase.page.Nodup
  stored : ∀ event ∈ phase.page, event ∈ shared.agent_events
  read : ∀ event ∈ phase.page, Delivered log pid event

/-- Rows and stream have grown. -/
structure Grown (shared after : Shared) (more : List AgentEvent) : Prop where
  events : ∀ event ∈ shared.agent_events, event ∈ after.agent_events
  stream : after.stream = shared.stream ++ more

theorem Knows.grow (knows : Knows shared log pid phase) {more : List AgentEvent} (grown : Grown shared after more)
    (entry : Entry Pid Shared Request Answer)
    (other : entry.pid = pid → ∀ event ∈ phase.page, landed entry ≠ some event) :
    Knows after (log ++ [entry]) pid phase where
  known n here := by
    rw [grown.stream,map_append]
    exact mem_append_left _ (knows.known n here)
  put event here := by
    rw [grown.stream]
    exact mem_append_left _ (knows.put event here)
  unique := knows.unique
  stored event here := grown.events event (knows.stored event here)
  read event here := (knows.read event here).snoc entry fun same => other same event here

structure Orderly (shared : Shared) (phases : Pid → Phase) (log : List (Entry Pid Shared Request Answer)) : Prop where
  sound : Sound shared
  knows : ∀ pid, Knows shared log pid (phases pid)
  stream : shared.stream = log.filterMap landed
  landing : ∀ before entry after event, log = before ++ entry :: after → landed entry = some event →
    Delivered before entry.pid event

theorem Orderly.step [DecidableEq Pid] (orderly : Orderly shared phases log) (sound : Sound after)
    (grown : Grown shared after (landed ⟨pid,shared,event⟩).toList)
    (knows : Knows after (log ++ [⟨pid,shared,event⟩]) pid phase)
    (landing : ∀ put, landed ⟨pid,shared,event⟩ = some put → Delivered log pid put) :
    Orderly after (update phases pid phase) (log ++ [⟨pid,shared,event⟩]) where
  sound := sound
  knows other := by
    by_cases same : other = pid
    · subst same
      rw [update_self]
      exact knows
    · rw [update_of_ne same]
      exact (orderly.knows other).grow grown _ fun mine => absurd mine.symm same
  stream := by
    rw [grown.stream,orderly.stream,filterMap_append]
    cases found : landed ⟨pid,shared,event⟩ <;> simp [found]
  landing before entry rest put split here := by
    rcases eq_nil_or_concat' rest with rfl | ⟨front,last,rfl⟩
    · obtain ⟨rfl,same⟩ := append_inj' split rfl
      cases same
      exact landing put here
    · have parts : log ++ [⟨pid,shared,event⟩] = (before ++ entry :: front) ++ [last] := by rw [split]; simp
      exact orderly.landing before entry front put (append_inj' parts rfl).1 here

/-- A step that puts nothing into the stream, by a process that is left with the same knowledge. -/
theorem Orderly.quiet [DecidableEq Pid]
    (orderly : Orderly shared phases log) (nothing : landed ⟨pid,shared,event⟩ = none) (sound : Sound after)
    (grown : Grown shared after []) : Orderly after (update phases pid (phases pid))
    (log ++ [⟨pid,shared,event⟩]) := by
  refine orderly.step sound (by rw [nothing]; exact grown) ((orderly.knows pid).grow grown _
    fun _ put _ => ?_) fun put here => ?_
  · rw [nothing]
    nofun
  · rw [nothing] at here
    cases here

theorem written_cases (fate : Fate) (shared : Shared) (result : Except Error Shared) :
    (written fate shared result).2 = shared ∨ result = .ok (written fate shared result).2 := by
  cases result with
  | error error => exact .inl rfl
  | ok after => cases fate <;> simp [written]

variable {shared : Shared}

theorem Orderly.append [DecidableEq Pid] {event : AgentEvent} (orderly : Orderly shared phases log) (fate : Fate)
    (allowed : (phases pid).Allows (.append event)) :
    Orderly (append fate shared event).2
      (update phases pid ((phases pid).see ⟨.append event,(append fate shared event).1⟩))
      (log ++ [⟨pid,shared,⟨.append event,(append fate shared event).1⟩⟩]) := by
  obtain ⟨read,known,seen,near⟩ := allowed
  have knows := orderly.knows pid
  have stored := knows.stored event read
  have sound : Sound { shared with stream := shared.stream ++ [event] } := by
    refine orderly.sound.append stored ?_ near
    rcases mem_cons.mp seen with rfl | here
    · exact mem_cons_self
    · exact mem_cons_of_mem _ (knows.known known here)
  have grown : Grown shared { shared with stream := shared.stream ++ [event] } [event] := ⟨fun _ => id,rfl⟩
  have left : ∀ other ∈ (phases pid).page.erase event, other ≠ event ∧ other ∈ (phases pid).page := fun other here =>
    knows.unique.mem_erase_iff.mp here
  -- what is left of the page is not what has landed
  have page : Knows shared log pid { phases pid with page := (phases pid).page.erase event } :=
    { knows with
      unique := knows.unique.erase event
      stored := fun other here => knows.stored other (left other here).2
      read := fun other here => knows.read other (left other here).2 }
  have lands : ∀ put, some event = some put → Delivered log pid put :=
    fun put same => Option.some.inj same ▸ knows.read event read
  have apart : ∀ other ∈ (phases pid).page.erase event, some event ≠ some other := fun other here same =>
    (left other here).1 (Option.some.inj same).symm
  cases fate with
  | Refused =>
    have same : Grown shared shared [] := ⟨fun _ => id,by simp⟩
    exact orderly.step orderly.sound same (page.grow same _ fun _ _ _ => nofun) nofun
  | Lost => exact orderly.step sound grown (page.grow grown _ fun _ => apart) lands
  | Fine | Short =>
    have later := page.grow grown ⟨pid,shared,⟨.append event,.ok ()⟩⟩ fun _ => apart
    refine orderly.step sound grown { later with known := fun n here => ?_, put := fun put here => ?_ } lands
    · rcases mem_append.mp here with old | new
      · exact later.known n old
      · rw [mem_singleton.mp new]
        exact mem_map_of_mem (mem_append_right _ (mem_singleton_self _))
    · rcases mem_append.mp here with old | new
      · exact later.put put old
      · rw [mem_singleton.mp new]
        exact mem_append_right _ (mem_singleton_self _)

theorem read_after_known {fate : Fate} {after limit : Nat} {event : EventRecord}
    (here : event ∈ (read_after fate shared after limit).events) :
    event.agent_event_sequence ∈ shared.stream.map (·.sequence) := by
  have inside := mem_of_mem_drop (mem_of_mem_take here)
  obtain ⟨position,bound,rfl⟩ := mem_mapIdx.mp inside
  exact mem_map_of_mem (getElem_mem _)

theorem Orderly.read [DecidableEq Pid] {after limit : Nat} (orderly : Orderly shared phases log) (fate : Fate) :
    let event : Event Request Answer := ⟨.read_after after limit,.ok (read_after fate shared after limit)⟩
    Orderly shared (update phases pid ((phases pid).see event)) (log ++ [⟨pid,shared,event⟩]) := by
  intro event
  have same : Grown shared shared [] := ⟨fun _ => id,by simp⟩
  have knows := (orderly.knows pid).grow same ⟨pid,shared,event⟩ fun _ _ _ => nofun
  refine orderly.step orderly.sound same { knows with known := fun n here => ?_ } nofun
  rcases mem_append.mp here with old | new
  · exact knows.known n old
  · obtain ⟨event,inside,rfl⟩ := mem_map.mp new
    exact read_after_known inside

theorem unprojected_events_spec {limit : Nat} {page : OutboxPage} (sound : Sound shared)
    (answer : unprojected_events shared limit = .ok page) :
    page.items.Nodup ∧ ∀ event ∈ page.items, event ∈ shared.agent_events ∧ event.sequence ∉ shared.progress := by
  unfold unprojected_events at answer
  split_ifs at answer
  cases answer
  have perm := perm_insertionSort (fun one two : AgentEvent => one.sequence ≤ two.sequence)
    (shared.agent_events.filter (!shared.progress.contains ·.sequence))
  refine ⟨((perm.nodup_iff.mpr ((List.Nodup.of_map _ sound.ids).filter _)).sublist (take_sublist _ _)),
    fun event here => ?_⟩
  simpa using perm.mem_iff.mp (mem_of_mem_take here)

theorem store_step [DecidableEq Pid] (pid : Pid) (fate : Fate) (shared : Shared) (phases : Pid → Phase)
    (log : List (Entry Pid Shared Request Answer))
    (request : Request) (after : Phase) (orderly : Orderly shared phases log)
    (step : conduct (phases pid) ⟨request,((store Pid).perform pid fate shared request).1⟩ after) :
    Orderly ((store Pid).perform pid fate shared request).2 (update phases pid after)
      (log ++ [⟨pid,shared,⟨request,((store Pid).perform pid fate shared request).1⟩⟩]) := by
  obtain ⟨allowed,rfl⟩ := step
  have same : Grown shared shared [] := ⟨fun _ => id,by simp⟩
  cases request with
  | append event => exact orderly.append fate allowed
  | insert_event event_id =>
    suffices after : Sound (written fate shared (insert_event shared event_id)).2 ∧
      Grown shared (written fate shared (insert_event shared event_id)).2 [] from
      orderly.quiet rfl after.1 after.2
    rcases written_cases fate shared (insert_event shared event_id) with unchanged | inserted
    · rw [unchanged]
      exact ⟨orderly.sound,same⟩
    · obtain ⟨sound,events,stream⟩ := orderly.sound.insert inserted
      exact ⟨sound,events,by simp [stream]⟩
  | mark_projected event_id =>
    obtain ⟨event,put,rfl⟩ := allowed
    have there := (orderly.knows pid).put event put
    suffices after : Sound (written fate shared (mark_projected shared event.event_id)).2 ∧
        Grown shared (written fate shared (mark_projected shared event.event_id)).2 [] from
          orderly.quiet rfl after.1 after.2
    rcases written_cases fate shared (mark_projected shared event.event_id) with unchanged | marked
    · rw [unchanged]
      exact ⟨orderly.sound,same⟩
    · obtain ⟨sound,events,stream⟩ := orderly.sound.mark there marked
      exact ⟨sound,by simp [events],by simp [stream]⟩
  | unprojected_events limit =>
    show Orderly shared (update phases pid
      ((phases pid).see ⟨.unprojected_events limit,answered fate (unprojected_events shared limit)⟩))
      (log ++ [⟨pid,shared,⟨.unprojected_events limit,answered fate (unprojected_events shared limit)⟩⟩])
    cases answer : answered fate (unprojected_events shared limit) with
    | error error => exact orderly.quiet rfl orderly.sound same
    | ok page =>
      have found : unprojected_events shared limit = .ok page := by
        unfold answered at answer
        split at answer
        · exact answer
        · exact answer
        · cases answer
        · cases answer
      obtain ⟨unique,stored⟩ := unprojected_events_spec orderly.sound found
      have knows := (orderly.knows pid).grow same ⟨pid,shared,⟨.unprojected_events limit,.ok page⟩⟩ fun _ _ _ => nofun
      refine orderly.step orderly.sound same { knows with
        unique := unique
        stored := fun event here => (stored event here).1
        read := fun event here => ⟨log,_,[],rfl,rfl,here,(stored event here).2,nofun⟩ } nofun
  | read_after after limit =>
    cases fate with
    | Fine | Short => exact orderly.read _
    | Refused | Lost => exact orderly.quiet rfl orderly.sound same

/-- Nothing is stored yet, and the processes are about to start. -/
def start (processes : Pid → Option Process) : State Pid Shared Request Answer Unit :=
  ⟨⟨[],none,[],[]⟩,fun pid => (processes pid).map Process.program,[]⟩

theorem start_orderly (processes : Pid → Option Process) : Orderly (start processes).shared (fun _ => .start)
    (start processes).log where
  sound := ⟨.nil,.nil,nofun,Nat.le_refl _,nofun,⟨_,.nil⟩,nofun⟩
  knows pid := ⟨nofun,nofun,.nil,nofun,nofun⟩
  stream := rfl
  landing before entry after event split := by simp [start] at split

/-- Whatever projectors, writers and deaths there are: the first occurrences in the stream are numbered one after the
    other, what is acknowledged is in the stream, and an event is put there again only by a process that has read it,
    since it last put it there itself, at a time when no acknowledgement had followed. -/
theorem stream_is_in_order [DecidableEq Pid] (processes : Pid → Option Process) (moves : List (Move Pid Fate)) :
    let state := (start processes).run (store Pid) moves
    (∃ highest, (state.shared.stream.map (·.sequence)).eraseDups = range' 1 highest) ∧
    (∀ event ∈ state.shared.agent_events, event.sequence ∈ state.shared.progress → event ∈ state.shared.stream) ∧
    state.shared.stream = state.log.filterMap landed ∧
    ∀ before entry after event, state.log = before ++ entry :: after → landed entry = some event →
      Delivered before entry.pid event := by
  have guided : ∀ pid program, (start processes).threads pid = some program →
    Guides conduct .start program fun _ _ => True := by
    intro pid program running
    obtain ⟨process,_,rfl⟩ := Option.map_eq_some_iff.mp running
    exact process_guided process
  obtain ⟨phases,orderly,-⟩ :=
    run_conducted (store Pid) store_step (fun _ _ _ _ holds => holds) moves (start_orderly processes) guided
  obtain ⟨highest,gapless⟩ := orderly.sound.gapless
  refine ⟨⟨highest,gapless.eraseDups_eq⟩,fun event stored marked => ?_,orderly.stream,orderly.landing⟩
  obtain ⟨other,put,same⟩ := mem_map.mp (orderly.sound.projected _ marked)
  exact inj_on_of_nodup_map orderly.sound.numbers (orderly.sound.stored other put) stored same ▸ put

end

/-- A writer and one projector, which is called twice. -/
def alone : Bool → Option Process
  | false => some (.Writing ["a"])
  | true => some (.Projecting 1 [1,1])
def repeating : List (Move Bool Fate) :=
  [.step false .Fine,.step true .Fine,.step true .Fine,.step true .Fine,.step true .Refused,.step true .Fine,
    .step true .Fine,.step true .Fine]

/-- An acknowledgement that fails is enough for a repetition: no process dies, and only the one projector reads
    events. -/
theorem lone_projector_repeats :
    (∀ move ∈ repeating, ∃ pid fate, move = .step pid fate) ∧
    ((start alone).run (store Bool) repeating).shared.stream = [⟨"a",1⟩,⟨"a",1⟩] ∧
    ∀ entry ∈ ((start alone).run (store Bool) repeating).log, delivered entry ≠ [] → entry.pid = true :=
  ⟨by simp [repeating],by decide +kernel,by decide +kernel⟩

end Vyane.Projection
