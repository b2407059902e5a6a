import Vyane.SessionStore

/-!
What the mutations of a session do to it over whole histories. A call leaves the file as it is or publishes one envelope
(`run_cases`), which follows the rules of its mutation (`Follows`) and which the reader accepts (`parse_written`).
-/
namespace Vyane.SessionStore
open Vyane.Core Times Text Kernel Transactions

variable {sys : System} {owner session_id : String} {files : Files sys} {occasion : Occasion}
    {envelope : SessionEnvelope}
  {path : Path} {old : Option SessionEnvelope} {record : SessionRecord}
  {mutation : Mutation} {update : SessionUpdate} {expected : Option Nat} {fault : Option VyaneError}
  {found : Option SessionEnvelope} {before : Option sys.Bytes} {later : Files sys}

@[simp] theorem ensure_eq_ok {condition : Prop} [Decidable condition] {error : VyaneError} :
    ensure condition error = .ok () ↔ condition := by
  rw [ensure]
  split_ifs with holds
  · exact iff_of_true rfl holds
  · exact iff_of_false (by simp) holds

/-! ### Written envelopes are read -/

theorem reread_kind (kind : HarnessKind) : reread kind = kind := by
  cases kind with
  | ClaudeCode | CodexCli | OpenCode => rfl
  | Other name other =>
    simp only [List.mem_cons,List.not_mem_nil,or_false,not_or] at other
    simp [reread,HarnessKind.as_str,Routing.harness_kind,other]

/-- A file reads back as it was written, harnesses included. -/
theorem reread_envelope (envelope : SessionEnvelope) : envelope.reread = envelope := by
  have same : Vyane.SessionStore.reread = id := funext reread_kind
  obtain ⟨schema,record,revision,native⟩ := envelope
  cases native <;> simp [SessionEnvelope.reread,rereadRecord,rereadTarget,rereadNative,rereadBinding,same]

theorem decode_written (path : String) (noId : envelope.record.native_session_id = none) :
    decode_envelope sys (sys.envelopeToVec envelope) path = .ok envelope := by
  have shape : ∀ object, envelope.to_value sys.protocolValue sys.transcriptValue sys.timeValue sys.nativeValue =
    .Object object →
      contains_key object "schema" = true ∧ validate_v2_session_shape object path = .ok () := by
    intro object same
    cases same
    exact ⟨rfl,rfl⟩
  obtain ⟨schema,valid⟩ := shape _ rfl
  simp only [decode_envelope,sys.valueWritten noId,SessionEnvelope.to_value]
  rw [if_pos schema,valid]
  simp [sys.envelopeWritten,reread_envelope,bind,Except.bind]

theorem valid_no_id (valid : validate_envelope envelope = .ok ()) : envelope.record.native_session_id = none := by
  simp only [validate_envelope,then_eq_ok,ensure_eq_ok] at valid
  exact valid.2.1

theorem parse_written (path : Path) (valid : validate_envelope envelope = .ok ())
    (fits : sys.len (sys.envelopeToVec envelope) ≤ MAX_SESSION_RECORD_BYTES) :
    parseEnvelope sys path (sys.envelopeToVec envelope) = .ok envelope := by
  rw [parseEnvelope,then_eq_ok,ensure_eq_ok,bind_eq_ok]
  exact ⟨fits,envelope,decode_written path.display (valid_no_id valid),then_eq_ok.mpr ⟨valid,rfl⟩⟩

/-- What a file holds has passed the checks. -/
theorem parse_sound {bytes : sys.Bytes} (parsed : parseEnvelope sys path bytes = .ok envelope) :
    validate_envelope envelope = .ok () := by
  rw [parseEnvelope,then_eq_ok,bind_eq_ok] at parsed
  obtain ⟨-,read,decoded,checked⟩ := parsed
  obtain ⟨valid,same⟩ := then_eq_ok.mp checked
  cases same
  exact valid

/-! ### What a mutation may do -/

def Mutation.transition : Mutation → Option NativeSessionTransition
  | .ApplyNativeTransition transition | .LeaseApplyNativeTransition _ transition => some transition
  | _ => none

/-- The legacy id that a mutation brings with it. -/
def Mutation.supplied : Mutation → Option String
  | .Save record => record.native_session_id
  | .ApplyUpdate update | .LeaseApplyUpdate _ _ update => update.native_session_id
  | _ => none

/-- A reset or a fresh fork that names the current revision. -/
def Mutation.replaces (mutation : Mutation) (revision : Nat) : Prop :=
  mutation.transition = some (.Reset revision) ∨ ∃ update binding,
    mutation.transition = some (.ForkFresh revision update binding)

/-- How the record after a mutation follows from the one before it. -/
structure Follows (mutation : Mutation) (old : Option SessionEnvelope) (new : SessionEnvelope) : Prop where
  revision : new.session_revision = old.elim 0 (·.session_revision) + 1
  binding : ∀ envelope ∈ old, ∀ binding ∈ envelope.binding, new.binding = some binding ∨
    mutation.replaces envelope.session_revision
  commit : ∀ revision update binding, mutation.transition = some (.Commit revision update binding) →
    new.binding = some binding
    ∧ ∀ envelope ∈ old, envelope.legacy_unbound_id = none ∧ ∀ current ∈ envelope.binding, current = binding
  legacy : ∀ envelope ∈ old, ∀ native_session_id ∈ envelope.legacy_unbound_id,
    new.legacy_unbound_id = some (mutation.supplied.getD native_session_id) ∨
      mutation.replaces envelope.session_revision
  /-- The count is a `u64`. -/
  grows : (∀ record, mutation ≠ .Save record) → ∀ envelope ∈ old, envelope.record.transcript <+: new.record.transcript
    ∧ (envelope.record.run_count ≤ U64_MAX → envelope.record.run_count ≤ new.record.run_count)

/-- What a mutation publishes is accepted where it is read. -/
structure Accepted (owner session_id : String) (envelope : SessionEnvelope) : Prop where
  valid : validate_envelope envelope = .ok ()
  identity : ∀ path, validate_record_identity envelope.record owner session_id path = .ok ()

theorem next_revision_eq {revision next : Nat} (made : next_revision revision = .ok next) : next = revision + 1 := by
  rw [next_revision,ensure] at made
  split_ifs at made
  · cases made; rfl
  · cases made

theorem native_after_binding (supplied : Option String) : ∀ envelope ∈ old, ∀ binding ∈ envelope.binding,
    nativeSessionAfter (old.map (·.native_session)) supplied = .Bound binding := by
  rintro envelope rfl binding bound
  rw [SessionEnvelope.binding] at bound
  split at bound <;> cases bound
  next native => simp [nativeSessionAfter,native]

theorem native_after_legacy (supplied : Option String) : ∀ envelope ∈ old,
    ∀ native_session_id ∈ envelope.legacy_unbound_id,
    nativeSessionAfter (old.map (·.native_session)) supplied = .LegacyUnbound (supplied.getD native_session_id) := by
  rintro envelope rfl native_session_id unbound
  rw [SessionEnvelope.legacy_unbound_id] at unbound
  split at unbound <;> cases unbound
  next native => simp [nativeSessionAfter,native]

theorem apply_to_grows (update : SessionUpdate) (record : SessionRecord) :
    record.transcript <+: (update.apply_to (some record)).transcript
    ∧ (record.run_count ≤ U64_MAX → record.run_count ≤ (update.apply_to (some record)).run_count) := by
  refine ⟨List.prefix_append _ _,fun fits => ?_⟩
  simp only [SessionUpdate.apply_to,Option.getD_some,saturating_add]
  omega

/-- What a save publishes. -/
theorem savedEnvelope_ok (produced : savedEnvelope record old = .ok envelope)
    (identity : validate_identity record.owner record.session_id = .ok ()) :
    Follows (.Save record) old envelope ∧ Accepted record.owner record.session_id envelope := by
  rw [savedEnvelope,then_eq_ok,bind_eq_ok] at produced
  obtain ⟨-,revision,next,checked⟩ := produced
  obtain ⟨valid,same⟩ := then_eq_ok.mp checked
  cases same
  refine ⟨⟨next_revision_eq next,fun e member binding bound =>
    .inl ?_,by simp [Mutation.transition],fun e member id unbound => .inl ?_,
    fun other => absurd rfl (other record)⟩,⟨valid,fun path => then_eq_ok.mpr ⟨identity,by simp⟩⟩⟩
  · simp only [SessionEnvelope.binding]
    rw [native_after_binding _ e member binding bound]
  · simp only [SessionEnvelope.legacy_unbound_id]
    rw [native_after_legacy _ e member id unbound]
    rfl

/-- What an update publishes, under a lease or not. -/
theorem updatedEnvelope_ok {path : String}
    (noTransition : mutation.transition = none) (supplies : mutation.supplied = update.native_session_id)
    (produced : updatedEnvelope path owner session_id update expected old = .ok envelope)
    (oldSound : ∀ existing ∈ old, validate_envelope existing = .ok ()) :
    Follows mutation old envelope ∧ Accepted owner session_id envelope := by
  rw [updatedEnvelope,then_eq_ok,then_eq_ok,bind_eq_ok] at produced
  obtain ⟨-,-,revision,next,checked⟩ := produced
  obtain ⟨identity,checked⟩ := then_eq_ok.mp checked
  obtain ⟨valid,same⟩ := then_eq_ok.mp checked
  cases same
  have idOfUpdate : ∀ existing ∈ old,
    (update.apply_to (old.map (·.record))).native_session_id = update.native_session_id := by
    rintro existing rfl
    simp [SessionUpdate.apply_to,valid_no_id (oldSound existing rfl)]
  refine ⟨⟨next_revision_eq next,fun e member binding bound =>
    .inl ?_,by simp [noTransition],fun e member id unbound => .inl ?_,
    fun _ e member => ?_⟩,⟨valid,fun path' => ?_⟩⟩
  · simp only [SessionEnvelope.binding]
    rw [native_after_binding _ e member binding bound]
  · simp only [SessionEnvelope.legacy_unbound_id]
    rw [native_after_legacy _ e member id unbound,idOfUpdate e member,supplies]
  · cases member
    exact apply_to_grows update e.record
  · obtain ⟨fits,same⟩ := then_eq_ok.mp identity
    exact then_eq_ok.mpr ⟨fits,ensure_eq_ok.mpr (ensure_eq_ok.mp same)⟩

variable {transition : NativeSessionTransition}

/-- What a transition publishes, under a lease or not. -/
theorem transitionEnvelope_ok {path : String} (hasTransition : mutation.transition = some transition)
    (produced : transitionEnvelope path owner session_id transition old = .ok envelope) :
    Follows mutation old envelope ∧ Accepted owner session_id envelope := by
  rw [transitionEnvelope,then_eq_ok,ensure_eq_ok,bind_eq_ok] at produced
  obtain ⟨current,revision,next,made⟩ := produced
  obtain ⟨madeEnvelope,made,checked⟩ := bind_eq_ok.mp made
  obtain ⟨identity,checked⟩ := then_eq_ok.mp checked
  obtain ⟨valid,same⟩ := then_eq_ok.mp checked
  cases same
  have revisionEq := next_revision_eq next
  have accepted : Accepted owner session_id envelope := by
    obtain ⟨fits,same⟩ := then_eq_ok.mp identity
    exact ⟨valid,fun path => then_eq_ok.mpr ⟨fits,ensure_eq_ok.mpr (ensure_eq_ok.mp same)⟩⟩
  cases transition with
  | Reset expected =>
    cases old with
    | none => cases made
    | some existing =>
      cases made
      have replaces : mutation.replaces existing.session_revision := by
        rw [show existing.session_revision = expected from current]
        exact .inl hasTransition
      refine ⟨⟨revisionEq,?_,by simp [hasTransition],?_,?_⟩,accepted⟩
      · rintro e ⟨⟩ binding bound
        exact .inr replaces
      · rintro e ⟨⟩ id unbound
        exact .inr replaces
      · rintro other e ⟨⟩
        exact ⟨List.prefix_refl _,fun _ => le_rfl⟩
  | ForkFresh expected update binding =>
    cases old with
    | none => cases made
    | some existing =>
      obtain ⟨matchesUpdate,same⟩ := then_eq_ok.mp made
      cases same
      have replaces : mutation.replaces existing.session_revision := by
        rw [show existing.session_revision = expected from current]
        exact .inr ⟨update,binding,hasTransition⟩
      refine ⟨⟨revisionEq,?_,by simp [hasTransition],?_,?_⟩,accepted⟩
      · rintro e ⟨⟩ binding bound
        exact .inr replaces
      · rintro e ⟨⟩ id unbound
        exact .inr replaces
      · rintro other e ⟨⟩
        exact apply_to_grows update { existing.record with native_session_id := none }
  | Commit expected update binding =>
    obtain ⟨matchesUpdate,made⟩ := then_eq_ok.mp made
    rw [then_eq_ok,then_eq_ok,ensure_eq_ok,ensure_eq_ok] at made
    obtain ⟨noLegacy,noDrift,same⟩ := made
    cases same
    refine ⟨⟨revisionEq,?_,?_,?_,?_⟩,accepted⟩
    · rintro e ⟨⟩ currentBinding bound
      exact .inl (congrArg some (noDrift currentBinding (by simpa using bound)).symm)
    · intro expected' update' binding' same
      rw [hasTransition,Option.some.injEq,NativeSessionTransition.Commit.injEq] at same
      obtain ⟨-,-,rfl⟩ := same
      refine ⟨rfl,?_⟩
      rintro e ⟨⟩
      exact ⟨by simpa using noLegacy,fun currentBinding bound => noDrift currentBinding (by simpa using bound)⟩
    · rintro e ⟨⟩ id unbound
      rw [Option.bind_some] at noLegacy
      rw [noLegacy] at unbound
      cases unbound
    · rintro other e ⟨⟩
      exact apply_to_grows update e.record

/-! ### Calls -/

variable (sys owner session_id) in
/-- The record that is stored. -/
def stored (file : Option sys.Bytes) : Result (Option SessionEnvelope) :=
  read_envelope sys none (targetPath sys owner session_id) file

theorem no_fault : fault.elim (.ok ()) .error = (.ok () : Result Unit) ↔ fault = none := by
  cases fault <;> simp

theorem read_absent :
    read_envelope sys fault path none = .ok found ↔ fault = none ∧ named sys path.name = .ok () ∧ found = none := by
  rw [read_envelope,then_eq_ok,then_eq_ok,no_fault,Except.ok.injEq,eq_comm (a := found)]

theorem read_present {bytes : sys.Bytes} :
    read_envelope sys fault path (some bytes) = .ok found ↔ fault = none ∧ named sys path.name = .ok ()
      ∧ ∃ envelope, parseEnvelope sys path bytes = .ok envelope ∧ found = some envelope := by
  rw [read_envelope,then_eq_ok,then_eq_ok,no_fault]
  cases parseEnvelope sys path bytes with
  | error error => simp [Except.map]
  | ok envelope => simp [Except.map,eq_comm]

/-- A read that succeeds has met no fault, and what it found is sound. -/
theorem read_envelope_ok {file : Option sys.Bytes} (read : read_envelope sys fault path file = .ok found) :
    named sys path.name = .ok () ∧ read_envelope sys none path file = .ok found
      ∧ ∀ existing ∈ found, validate_envelope existing = .ok () := by
  cases file with
  | none =>
    obtain ⟨-,short,rfl⟩ := read_absent.mp read
    exact ⟨short,read_absent.mpr ⟨rfl,short,rfl⟩,by simp⟩
  | some bytes =>
    obtain ⟨-,short,envelope,parsed,rfl⟩ := read_present.mp read
    refine ⟨short,read_present.mpr ⟨rfl,short,envelope,parsed,rfl⟩,?_⟩
    rintro existing ⟨⟩
    exact parse_sound parsed

/-- What the files are after a mutation that published an envelope. -/
structure Published (sys : System) (owner session_id : String) (mutation : Mutation) (before : Option sys.Bytes)
    (files : Files sys)
    (envelope : SessionEnvelope) : Prop where
  follows : ∃ old, stored sys owner session_id before = .ok old ∧ Follows mutation old envelope
  identity : ∀ path, validate_record_identity envelope.record owner session_id path = .ok ()
  root : files.root = true
  read : stored sys owner session_id files.target = .ok (some envelope)

theorem Published.there (published : Published sys owner session_id mutation before files envelope) :
    files.target.isSome := by
  have read := published.read
  cases hasTarget : files.target with
  | some bytes => rfl
  | none =>
    rw [hasTarget] at read
    cases (read_absent.mp read).2.2

/-- The stored file is as it was. -/
def Kept (files later : Files sys) : Prop := later.target = files.target ∧ (files.root = true → later.root = true)
/-- A call fails and leaves the stored file as it is, or it publishes an envelope. -/
def Does (owner session_id : String) (mutation : Mutation) (files : Files sys)
    (result : Result SessionEnvelope × Files sys) : Prop :=
  (Kept files result.2 ∧ ∃ error, result.1 = .error error)
    ∨ ∃ envelope, Published sys owner session_id mutation files.target result.2 envelope ∧
      (result.1 = .ok envelope ∨ result.1 = .error UNSYNCED)

theorem Does.after {check : Result Unit} {rest : Result SessionEnvelope × Files sys}
    (kept : Kept files later) (does : check = .ok () → Does owner session_id mutation files rest) :
    Does owner session_id mutation files (after check later rest) := by
  cases check with
  | error error => exact .inl ⟨kept,error,rfl⟩
  | ok _ => exact does rfl

theorem Does.of_kept {result : Result SessionEnvelope × Files sys}
    (does : Does owner session_id mutation later result) (kept : Kept files later) :
    Does owner session_id mutation files result := by
  rcases does with ⟨again,failed⟩ | ⟨envelope,published,outcome⟩
  · exact .inl ⟨⟨again.1.trans kept.1,again.2 ∘ kept.2⟩,failed⟩
  · rw [kept.1] at published
    exact .inr ⟨envelope,published,outcome⟩

/-- A write that leaves the file as it is, or publishes the envelope. -/
theorem write_cases (occasion : Occasion) (key : String) (envelope : SessionEnvelope) (files : Files sys) :
    (∃ error, write_envelope_atomic sys occasion key envelope files = (.error error,files))
    ∨ sys.len (sys.envelopeToVec envelope) ≤ MAX_SESSION_RECORD_BYTES
      ∧ ∃ result, (result = .ok () ∨ result = .error UNSYNCED)
        ∧ write_envelope_atomic sys occasion key envelope files =
          (result,{ files with target := some (sys.envelopeToVec envelope) }) := by
  rw [write_envelope_atomic]
  by_cases large : MAX_SESSION_RECORD_BYTES < sys.len (sys.envelopeToVec envelope)
  · exact .inl ⟨_,if_pos large⟩
  · simp only [if_neg large]
    split
    · exact .inl ⟨_,rfl⟩
    · refine .inr ⟨Nat.le_of_not_lt large,_,?_,rfl⟩
      cases occasion.unsynced
      · exact .inl rfl
      · exact .inr rfl

theorem mutate_does {operation : String} {produce : Option SessionEnvelope → Result SessionEnvelope}
    (sound : ∀ old envelope, produce old = .ok envelope →
      (∀ existing ∈ old, validate_envelope existing = .ok ()) →
      Follows mutation old envelope ∧ Accepted owner session_id envelope) :
    Does owner session_id mutation files (mutate sys occasion owner session_id operation produce files) := by
  have kept : Kept files { files with root := true } := ⟨rfl,fun _ => rfl⟩
  refine .after ⟨rfl,fun root => by simp [root]⟩ fun _ => ?_
  simp only
  split
  · next error failed => exact .inl ⟨kept,error,rfl⟩
  · next envelope produced =>
    obtain ⟨old,existing,made⟩ := bind_eq_ok.mp produced
    rw [readExisting,bind_eq_ok] at existing
    obtain ⟨found,read,checked⟩ := existing
    obtain ⟨short,read,soundFound⟩ := read_envelope_ok read
    have same : found = old := by
      cases found with
      | none => exact Except.ok.inj (then_eq_ok.mp checked).2
      | some found => exact Except.ok.inj (then_eq_ok.mp checked).2
    subst same
    obtain ⟨follows,accepted⟩ := sound found envelope made soundFound
    rcases write_cases occasion (session_key sys session_id) envelope
      { files with root := true } with ⟨error,failed⟩ | ⟨fits,result,outcome,written⟩
    · rw [failed]
      exact .inl ⟨kept,error,rfl⟩
    · rw [written]
      have published : Published sys owner session_id mutation files.target
          { files with root := true, target := some (sys.envelopeToVec envelope) } envelope := by
        refine ⟨⟨found,read,follows⟩,accepted.identity,rfl,?_⟩
        exact read_present.mpr ⟨rfl,short,envelope,parse_written _ accepted.valid fits,rfl⟩
      rcases outcome with rfl | rfl
      · exact .inr ⟨envelope,published,.inl rfl⟩
      · exact .inr ⟨envelope,published,.inr rfl⟩

theorem kept_self : Kept files files := ⟨rfl,id⟩

/-- What the mutation does under its lease, it does under one of its own. -/
theorem leased_does {act : Lease → Files sys → Result SessionEnvelope × Files sys}
    (does : ∀ later, Does owner session_id mutation later (act ⟨owner,session_id,false⟩ later)) :
    Does owner session_id mutation files (leased sys occasion owner session_id act files) := by
  refine .after kept_self fun _ => .after ⟨rfl,fun root => by simp [root]⟩ fun _ => ?_
  have rest := does { files with root := true }
  exact rest.of_kept ⟨rfl,fun _ => rfl⟩

theorem save_does (lease : Lease) :
    Does lease.owner lease.session_id (.Save record) files (lease.save_record sys occasion record files) := by
  refine .after kept_self fun authorized => .after kept_self fun checked => ?_
  simp only [then_eq_ok,ensure_eq_ok] at authorized checked
  rw [← authorized.1.1,← authorized.1.2]
  exact mutate_does fun _ _ produced _ => savedEnvelope_ok produced checked.2.1

theorem update_does (lease : Lease)
    (noTransition : mutation.transition = none) (supplies : mutation.supplied = update.native_session_id) :
    Does lease.owner lease.session_id mutation files (lease.apply_update sys occasion expected update files) := by
  refine .after kept_self fun authorized => .after kept_self fun _ => ?_
  simp only [then_eq_ok,ensure_eq_ok] at authorized
  rw [← authorized.1.2]
  exact mutate_does fun _ _ produced sound => updatedEnvelope_ok noTransition supplies produced sound

theorem transition_does (lease : Lease) (hasTransition : mutation.transition = some transition) :
    Does lease.owner lease.session_id mutation files (lease.apply_native_transition sys occasion transition files) :=
  .after kept_self fun _ => .after kept_self fun _ =>
    mutate_does fun _ _ produced _ => transitionEnvelope_ok hasTransition produced

/-- What a mutation does to the files of its session. -/
theorem run_does (names : mutation.names session_id) :
    Does owner session_id mutation files (mutation.run sys occasion owner session_id files) := by
  cases mutation with
  | Save record =>
    obtain rfl := names
    exact leased_does fun later => save_does ⟨owner,record.session_id,false⟩
  | ApplyUpdate update =>
    obtain rfl := names
    exact leased_does fun later => update_does ⟨owner,update.session_id,false⟩ rfl rfl
  | ApplyNativeTransition transition => exact leased_does fun later => transition_does ⟨owner,session_id,false⟩ rfl
  | LeaseApplyUpdate consumed expected update => exact update_does ⟨owner,session_id,consumed⟩ rfl rfl
  | LeaseApplyNativeTransition consumed transition => exact transition_does ⟨owner,session_id,consumed⟩ rfl

/-- A load leaves a file that is there as it is. -/
theorem load_keeps (there : files.target.isSome) :
    (load_envelope_blocking sys occasion owner session_id files).2 = files := by
  obtain ⟨bytes,hasBytes⟩ := Option.isSome_iff_exists.mp there
  unfold load_envelope_blocking
  cases validate_identity owner session_id with
  | error error => rfl
  | ok _ =>
    simp only [after]
    split_ifs
    · rfl
    · split
      · rfl
      · rfl
      · next read =>
        rw [hasBytes] at read
        obtain ⟨-,-,envelope,-,different⟩ := read_present.mp read
        cases different

/-! ### Histories -/

def Call.names (session_id : String) : Call → Prop
  | .Mutate mutation => mutation.names session_id
  | .Load => True

variable (sys owner session_id) in
/-- None of the calls commits, and none is left indeterminate. -/
def idle (files : Files sys) : List (Call × Occasion) → Prop
  | [] => True
  | (call,occasion) :: rest =>
    (match call with
      | .Mutate mutation =>
          ∃ error, (mutation.run sys occasion owner session_id files).1 = .error error ∧ error.kind ≠ .Indeterminate
      | .Load => True) ∧ idle (call.filesAfter sys owner session_id files occasion) rest

/-- A call that fails otherwise than with `Indeterminate` leaves the stored file as it is. -/
theorem failed_keeps {error : VyaneError} (names : mutation.names session_id)
    (failed : (mutation.run sys occasion owner session_id files).1 = .error error)
    (known : error.kind ≠ .Indeterminate) :
    Kept files (mutation.run sys occasion owner session_id files).2 := by
  rcases run_does names with ⟨kept,-⟩ | ⟨envelope,-,done | unsynced⟩
  · exact kept
  · rw [failed] at done
    cases done
  · rw [failed,Except.error.injEq] at unsynced
    rw [unsynced] at known
    exact absurd rfl known

theorem idle_keeps (calls : List (Call × Occasion)) : ∀ files : Files sys, files.target.isSome →
    (∀ call ∈ calls, call.1.names session_id) →
    idle sys owner session_id files calls → Kept files (history sys owner session_id files calls) := by
  induction calls with
  | nil => exact fun files _ _ _ => kept_self
  | cons entry calls ih =>
    obtain ⟨call,occasion⟩ := entry
    intro files there names quiet
    rw [List.forall_mem_cons] at names
    have kept : Kept files (call.filesAfter sys owner session_id files occasion) := by
      cases call with
      | Mutate mutation =>
        obtain ⟨error,failed,known⟩ := quiet.1
        exact failed_keeps names.1 failed known
      | Load =>
        rw [Call.filesAfter,load_keeps there]
        exact kept_self
    have rest := ih _ (by rw [kept.1]; exact there) names.2 quiet.2
    exact ⟨rest.1.trans kept.1,rest.2 ∘ kept.2⟩

theorem load_published {processId : UInt32} {stamp : UInt64}
    (published : Published sys owner session_id mutation before files envelope) (kept : Kept files later) :
    (load_snapshot_blocking sys (.quiet processId stamp) owner session_id later).1 =
    .ok (some envelope.into_snapshot) := by
  have identity := (then_eq_ok.mp (published.identity "")).1
  have target := (ensure_eq_ok.mp (then_eq_ok.mp (published.identity "")).2)
  rw [target.1,target.2] at identity
  have read := published.read
  rw [← kept.1,stored] at read
  simp only [load_snapshot_blocking,load_envelope_blocking,identity,after,kept.2 published.root,Occasion.quiet,read,
    published.identity]
  rfl

/-- Along every sequence of calls, a mutation that commits counts the revision up by one and follows its rules, and
    loads return what it published until another commits; a failed call leaves the file as it is, unless its outcome is
    indeterminate, and then what it may have published follows the same rules. -/
theorem session_history (files : Files sys) (before later : List (Call × Occasion)) (mutation : Mutation)
    (occasion : Occasion) (names : mutation.names session_id) (laterNames : ∀ call ∈ later, call.1.names session_id) :
    let reached := history sys owner session_id files before
    let outcome := mutation.run sys occasion owner session_id reached
    (∀ envelope, outcome.1 = .ok envelope →
      (∃ old, stored sys owner session_id reached.target = .ok old ∧ Follows mutation old envelope)
      ∧ (idle sys owner session_id outcome.2 later → ∀ processId stamp,
        (load_snapshot_blocking sys (.quiet processId stamp) owner session_id
          (history sys owner session_id outcome.2 later)).1 =
          .ok (some envelope.into_snapshot)))
    ∧ (∀ error, outcome.1 = .error error → outcome.2.target = reached.target ∨ error.kind = .Indeterminate
      ∧ ∃ old envelope, stored sys owner session_id reached.target = .ok old ∧ Follows mutation old envelope
        ∧ stored sys owner session_id outcome.2.target = .ok (some envelope))
    ∧ (reached.target.isSome →
      (load_envelope_blocking sys occasion owner session_id reached).2.target = reached.target) := by
  refine ⟨fun envelope committed => ?_,fun error failed => ?_,fun there => by rw [load_keeps there]⟩
  · rcases run_does names with ⟨-,error,failed⟩ | ⟨publishedEnvelope,published,done | unsynced⟩
    · rw [committed] at failed
      cases failed
    · rw [committed,Except.ok.injEq] at done
      subst done
      refine ⟨published.follows,fun quiet processId stamp =>
        load_published published (idle_keeps later _ published.there laterNames quiet)⟩
    · rw [committed] at unsynced
      cases unsynced
  · rcases run_does names with ⟨kept,-⟩ | ⟨envelope,published,done | unsynced⟩
    · exact .inl kept.1
    · rw [failed] at done
      cases done
    · rw [failed,Except.error.injEq] at unsynced
      obtain ⟨old,read,follows⟩ := published.follows
      exact .inr ⟨by rw [unsynced]; rfl,old,envelope,read,follows,published.read⟩

end Vyane.SessionStore
