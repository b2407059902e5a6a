import Vyane.SessionHistories

/-!
Which session ids can be used. The names of the store's own files come from digests and always fit; the name of the old
flat file comes from the session id, and every load and first write asks for it.
-/
namespace Vyane.SessionStore
open Vyane.Core Times Text Kernel Transactions

variable {sys : System} {owner session_id : String} {files : Files sys} {processId : UInt32} {stamp : UInt64}
    {envelope : SessionEnvelope}
  {record : SessionRecord}

/-! ### Names -/

theorem session_key_size (session_id : String) : (session_key sys session_id).utf8ByteSize = 64 := by
  rw [session_key,hex_lower_size,sys.sha256Length]

theorem named_key {suffix : String} (names : sys.nameMax = 255) (small : suffix.utf8ByteSize ≤ 191) :
    named sys (session_key sys session_id ++ suffix) = .ok () := by
  rw [named,ensure_eq_ok,String.utf8ByteSize_append,session_key_size,names]
  omega

theorem named_temp (names : sys.nameMax = 255) :
    named sys (tempName (.quiet processId stamp) (session_key sys session_id)) = .ok () := by
  have process : (toString processId.toNat).utf8ByteSize ≤ 10 :=
    (decimal_clean (by decide) (processId.toNat_lt.trans (by decide))).2
  have stamped : (toString stamp.toNat).utf8ByteSize ≤ 20 :=
    (decimal_clean (by decide) (stamp.toNat_lt.trans (by decide))).2
  have dot : (".").utf8ByteSize = 1 := rfl
  have middle : (".json.tmp.").utf8ByteSize = 10 := rfl
  simp only [named,ensure_eq_ok,tempName,Occasion.quiet,String.utf8ByteSize_append,session_key_size,names,dot,middle]
  omega

/-- The old name has a byte for each byte of the id. -/
theorem legacy_safe_size (session_id : String) :
    (legacy_safe_id session_id).utf8ByteSize = session_id.utf8ByteSize := by
  have each : ∀ cs : List Char, String.utf8Len (cs.map fun c => if c = '/' ∨ c = '\\' ∨ c = Char.ofNat 0 then '_'
    else c) = String.utf8Len cs := by
    intro cs
    induction cs with
    | nil => rfl
    | cons c cs ih =>
      rw [List.map_cons,String.utf8Len_cons,String.utf8Len_cons,ih]
      congr 1
      split_ifs with special
      · rcases special with rfl | rfl | rfl <;> rfl
      · rfl
  rw [legacy_safe_id,String.utf8ByteSize_ofList,each,← String.utf8ByteSize_ofList,String.ofList_toList]

theorem named_legacy (names : sys.nameMax = 255) : named sys (legacy_path sys session_id).name = .ok () ↔
    session_id.utf8ByteSize ≤ 250 := by
  have suffix : (".json").utf8ByteSize = 5 := rfl
  rw [named,ensure_eq_ok,legacy_path,String.utf8ByteSize_append,legacy_safe_size,names,suffix]
  omega

/-! ### Sessions that are not there yet -/

/-- The store has no record of the session: no file of its own, and what may stand under the old name is none of it. -/
structure Vacant (owner session_id : String) (files : Files sys) : Prop where
  target : files.target = none
  legacy : ∀ bytes ∈ files.legacy, ∀ envelope, parseEnvelope sys (legacy_path sys session_id) bytes = .ok envelope →
    ¬(envelope.record.owner = owner ∧ envelope.record.session_id = session_id)

/-- The file under the old name. -/
def readFlat (sys : System) (session_id : String) (files : Files sys) : Result (Option SessionEnvelope) :=
  read_envelope sys none (legacy_path sys session_id) files.legacy

/-- It is read if its name is short enough and it is missing or can be parsed. -/
theorem readFlat_iff (names : sys.nameMax = 255) : (∃ found, readFlat sys session_id files = .ok found) ↔
    session_id.utf8ByteSize ≤ 250 ∧
      ∀ bytes ∈ files.legacy, ∃ envelope, parseEnvelope sys (legacy_path sys session_id) bytes = .ok envelope := by
  unfold readFlat
  cases files.legacy with
  | none => simp [read_absent,named_legacy names]
  | some bytes => simp [read_present,named_legacy names]

section
variable (vacant : Vacant owner session_id files)
include vacant

theorem Vacant.flat_other {found : Option SessionEnvelope} (read : readFlat sys session_id files = .ok found) :
    ∀ envelope ∈ found, ¬(envelope.record.owner = owner ∧ envelope.record.session_id = session_id) := by
  rintro envelope ⟨⟩
  unfold readFlat at read
  cases hasLegacy : files.legacy with
  | none =>
    rw [hasLegacy] at read
    cases (read_absent.mp read).2.2
  | some bytes =>
    rw [hasLegacy] at read
    obtain ⟨-,-,parsedEnvelope,parsed,same⟩ := read_present.mp read
    cases same
    exact vacant.legacy bytes hasLegacy envelope parsed

variable (names : sys.nameMax = 255)
include names

theorem Vacant.read_target : read_envelope sys none (targetPath sys owner session_id) files.target = .ok none := by
  rw [vacant.target]
  exact read_absent.mpr ⟨rfl,named_key names (by decide),rfl⟩

/-- Where the root is there, a load asks for the old name and finds nothing, or fails as the reading does. -/
theorem load_vacant (accepted : validate_identity owner session_id = .ok ()) :
    load_envelope_blocking sys (.quiet processId stamp) owner session_id files =
      (if files.root then (readFlat sys session_id files).map fun _ => none else .ok none,files) := by
  cases root : files.root with
  | false => simp [load_envelope_blocking,accepted,after,root]
  | true =>
    have noTarget := vacant.read_target names
    simp only [load_envelope_blocking,accepted,after,root,Occasion.quiet,noTarget,migrate_matching_legacy_record]
    cases read : readFlat sys session_id files with
    | error error =>
      rw [readFlat] at read
      simp [read,Except.map]
    | ok found =>
      have other := vacant.flat_other read
      rw [readFlat] at read
      cases found with
      | none => simp [read,Except.map]
      | some envelope => simp [read,other envelope rfl,Except.map]

theorem readExisting_vacant (operation : String) :
    readExisting sys (.quiet processId stamp) owner session_id operation files =
      (readFlat sys session_id files).map fun _ => none := by
  have noTarget := vacant.read_target names
  simp only [readExisting,reject_matching_legacy_record,Occasion.quiet,noTarget]
  cases read : readFlat sys session_id files with
  | error error =>
    rw [readFlat] at read
    simp [read,Except.map,bind,Except.bind]
  | ok found =>
    have other := vacant.flat_other read
    rw [readFlat] at read
    cases found with
    | none => simp [read,Except.map,bind,Except.bind,pure,Except.pure]
    | some envelope => simp [read,other envelope rfl,ensure,Except.map,bind,Except.bind,pure,Except.pure]

section
variable {operation : String} {produce : Option SessionEnvelope → Result SessionEnvelope}

/-- A first mutation fails where the old name cannot be read. -/
theorem mutate_unreadable {error : VyaneError} (unread : readFlat sys session_id files = .error error) :
    (mutate sys (.quiet processId stamp) owner session_id operation produce files).1 = .error error := by
  have rooted : Vacant owner session_id { files with root := true } := ⟨vacant.target,vacant.legacy⟩
  have ready : setUp sys (.quiet processId stamp) session_id = .ok () :=
    then_eq_ok.mpr ⟨rfl,named_key names (by decide)⟩
  have stillUnread : readFlat sys session_id { files with root := true } = .error error := unread
  simp only [mutate,ready,after,readExisting_vacant rooted names,stillUnread]
  rfl

/-- Else it writes what it makes of no record. -/
theorem mutate_vacant {found : Option SessionEnvelope} (read : readFlat sys session_id files = .ok found)
    (produced : produce none = .ok envelope) (fits : sys.len (sys.envelopeToVec envelope) ≤ MAX_SESSION_RECORD_BYTES) :
    mutate sys (.quiet processId stamp) owner session_id operation produce files =
      (.ok envelope,{ files with root := true, target := some (sys.envelopeToVec envelope) }) := by
  have rooted : Vacant owner session_id { files with root := true } := ⟨vacant.target,vacant.legacy⟩
  have ready : setUp sys (.quiet processId stamp) session_id = .ok () :=
    then_eq_ok.mpr ⟨rfl,named_key names (by decide)⟩
  have made : (do produce (← readExisting sys (.quiet processId stamp) owner session_id operation
    { files with root := true })) =
      .ok envelope := by
    rw [readExisting_vacant rooted names operation,show readFlat sys session_id
      { files with root := true } = _ from read]
    exact produced
  have written : write_envelope_atomic sys (.quiet processId stamp) (session_key sys session_id) envelope
    { files with root := true } =
      (.ok (),{ files with root := true, target := some (sys.envelopeToVec envelope) }) := by
    rw [write_envelope_atomic]
    simp only [if_neg (Nat.not_lt.mpr fits),named_temp names]
    rfl
  simp only [mutate,ready,after,made,written]

end
end

/-- The envelope of a record that is the first of its session. -/
def firstEnvelope (record : SessionRecord) : SessionEnvelope :=
  ⟨SESSION_ENVELOPE_SCHEMA,
    { record with native_session_id := none },1,record.native_session_id.elim .Absent .LegacyUnbound⟩
/-- Its checks pass and it is not too large. -/
def Storable (sys : System) (record : SessionRecord) : Prop :=
  validate_envelope (firstEnvelope record) = .ok ()
    ∧ sys.len (sys.envelopeToVec (firstEnvelope record)) ≤ MAX_SESSION_RECORD_BYTES

theorem saved_first (valid : validate_envelope (firstEnvelope record) = .ok ()) :
    savedEnvelope record none = .ok (firstEnvelope record) := by
  rw [savedEnvelope,then_eq_ok,bind_eq_ok]
  exact ⟨by simp,1,rfl,then_eq_ok.mpr ⟨valid,rfl⟩⟩

theorem updated_first {update : SessionUpdate} {path : String}
    (accepted : validate_identity update.owner update.session_id = .ok ())
    (valid : validate_envelope (firstEnvelope (update.apply_to none)) = .ok ()) :
    updatedEnvelope path update.owner update.session_id update none none =
      .ok (firstEnvelope (update.apply_to none)) := by
  rw [updatedEnvelope,then_eq_ok,then_eq_ok,bind_eq_ok]
  refine ⟨by simp,by simp,1,rfl,then_eq_ok.mpr ⟨then_eq_ok.mpr ⟨accepted,?_⟩,
    then_eq_ok.mpr ⟨valid,rfl⟩⟩⟩
  exact ensure_eq_ok.mpr ⟨rfl,rfl⟩

section
variable (names : sys.nameMax = 255)
include names
/-- What the loads return of a first record. -/
theorem load_first (accepted : validate_identity record.owner record.session_id = .ok ())
    (storable : Storable sys record) :
    let storedFiles : Files sys :=
  { files with root := true, target := some (sys.envelopeToVec (firstEnvelope record)) }
    (load_blocking sys (.quiet processId stamp) record.owner record.session_id storedFiles).1 = .ok (some (record))
    ∧ (load_snapshot_blocking sys (.quiet processId stamp) record.owner record.session_id storedFiles).1 =
      .ok (some ⟨record,1,record.native_session_id.elim .Absent .LegacyUnbound⟩) := by
  have read : read_envelope sys none (targetPath sys record.owner record.session_id)
    (some (sys.envelopeToVec (firstEnvelope record))) =
      .ok (some (firstEnvelope record)) :=
    read_present.mpr ⟨rfl,named_key names (by decide),_,parse_written _ storable.1 storable.2,rfl⟩
  have identity : ∀ path,
    validate_record_identity (firstEnvelope record).record record.owner record.session_id path = .ok () :=
    fun path => then_eq_ok.mpr ⟨accepted,ensure_eq_ok.mpr ⟨rfl,rfl⟩⟩
  have loaded : (load_envelope_blocking sys (.quiet processId stamp) record.owner record.session_id
      { files with root := true, target := some (sys.envelopeToVec (firstEnvelope record)) }).1 =
        .ok (some (firstEnvelope record)) := by
    simp only [load_envelope_blocking,accepted,after,Occasion.quiet,read,identity]
    rfl
  simp only [load_blocking,load_snapshot_blocking,loaded]
  obtain ⟨session_id,owner,target,native_session_id,transcript,created_at,updated_at,run_count⟩ := record
  cases native_session_id <;> exact ⟨rfl,rfl⟩

/-- A mutation of the store gets its lease. -/
theorem leased_quiet {act : Lease → Files sys → Result SessionEnvelope × Files sys}
    (accepted : validate_identity owner session_id = .ok ()) :
    leased sys (.quiet processId stamp) owner session_id act files = act ⟨owner,session_id,false⟩
      { files with root := true } := by
  have admitted : named sys (session_key sys session_id ++ ".execution.lock") = .ok () := named_key names (by decide)
  simp only [leased,accepted,after,Occasion.quiet,admitted]
  rfl

/-- Where the session is not there, every check of a first save before its own passes. -/
theorem run_save (accepted : validate_identity record.owner record.session_id = .ok ()) :
    (Mutation.Save record).run sys (.quiet processId stamp) record.owner record.session_id files =
      mutate sys (.quiet processId stamp) record.owner record.session_id "save" (savedEnvelope record)
        { files with root := true } := by
  have owned : validate_owner record.owner = .ok () := (then_eq_ok.mp accepted).1
  rw [Mutation.run,leased_quiet names accepted]
  simp [Lease.save_record,save_blocking,Lease.begin_commit,ensure,after,owned,accepted,bind,Except.bind]

theorem run_update {update : SessionUpdate} (accepted : validate_identity update.owner update.session_id = .ok ()) :
    (Mutation.ApplyUpdate update).run sys (.quiet processId stamp) update.owner update.session_id files =
      mutate sys (.quiet processId stamp) update.owner update.session_id "update"
        (updatedEnvelope
          (targetPath sys update.owner update.session_id).display update.owner update.session_id update none)
        { files with root := true } := by
  have owned : validate_owner update.owner = .ok () := (then_eq_ok.mp accepted).1
  rw [Mutation.run,leased_quiet names accepted]
  simp [Lease.apply_update,apply_update_envelope_blocking,Lease.begin_commit,ensure,after,owned,accepted,
    bind,Except.bind]

end

/-- What the calls on a session do that is not there: both loads return nothing, a save and an
    update succeed, and then both loads return the record. -/
def Usable (sys : System) (owner session_id : String) (files : Files sys) : Prop :=
  ∀ processId stamp,
    (load_blocking sys (.quiet processId stamp) owner session_id files).1 = .ok none
    ∧ (load_snapshot_blocking sys (.quiet processId stamp) owner session_id files).1 = .ok none
    ∧ ∀ record, record.owner = owner → record.session_id = session_id → Storable sys record →
      ∀ mutation : Mutation, mutation = .Save record ∨
        (∃ update : SessionUpdate, mutation = .ApplyUpdate update ∧ update.apply_to none = record) →
      ∃ envelope later, mutation.run sys (.quiet processId stamp) owner session_id files = (.ok envelope,later)
        ∧ (load_blocking sys (.quiet processId stamp) owner session_id later).1 = .ok (some (record))
        ∧ (load_snapshot_blocking sys (.quiet processId stamp) owner session_id later).1 =
          .ok (some ⟨record,1,record.native_session_id.elim .Absent .LegacyUnbound⟩)

/-- Where file names may have 255 bytes, a session that is not there can be used if and only if its id has at most 250
    bytes and a file under its old name can be parsed. -/
theorem usable_iff (names : sys.nameMax = 255) (accepted : validate_identity owner session_id = .ok ())
    (vacant : Vacant owner session_id files)
    (someRecord : ∃ record, record.owner = owner ∧ record.session_id = session_id ∧ Storable sys record) :
    Usable sys owner session_id files ↔ session_id.utf8ByteSize ≤ 250 ∧
      ∀ bytes ∈ files.legacy, ∃ envelope, parseEnvelope sys (legacy_path sys session_id) bytes = .ok envelope := by
  rw [← readFlat_iff names]
  constructor
  · intro usable
    obtain ⟨record,rfl,rfl,storable⟩ := someRecord
    have rooted : Vacant record.owner record.session_id { files with root := true } := ⟨vacant.target,vacant.legacy⟩
    obtain ⟨envelope,later,saved,-⟩ := (usable 0 0).2.2 record rfl rfl storable _ (.inl rfl)
    cases read : readFlat sys record.session_id files with
    | ok found => exact ⟨found,rfl⟩
    | error error =>
      have failed := congrArg Prod.fst saved
      rw [run_save names accepted,mutate_unreadable rooted names read] at failed
      cases failed
  · rintro ⟨found,read⟩ processId stamp
    have nothing := @load_vacant sys owner session_id files processId stamp vacant names accepted
    rw [read,show (Except.ok found : Result _).map (fun _ => (none : Option SessionEnvelope)) = .ok none from
      rfl,ite_self] at nothing
    refine ⟨by rw [load_blocking,nothing]; rfl,by rw [load_snapshot_blocking,nothing]; rfl,?_⟩
    rintro record rfl rfl storable mutation which
    have rooted : Vacant record.owner record.session_id { files with root := true } := ⟨vacant.target,vacant.legacy⟩
    have loads := @load_first sys files processId stamp record names accepted storable
    refine ⟨firstEnvelope record,_,?_,loads⟩
    rcases which with rfl | ⟨update,rfl,rfl⟩
    · rw [run_save names accepted,mutate_vacant rooted names read (saved_first storable.1) storable.2]
    · exact (run_update names accepted).trans
        (mutate_vacant rooted names read (updated_first accepted storable.1) storable.2)

/-! ### A sample store -/

section sample

/-- Files are envelopes as they are. -/
def sampleSystem : System where
  root := "sessions"
  nameMax := 255
  sha256 := Sha256.digest
  Bytes := SessionEnvelope
  len _ := 0
  envelopeToVec := id
  valueFromSlice envelope := some (envelope.to_value (fun _ => .Null) (fun _ => .Null) (fun _ => .Null) fun _ => .Null)
  envelopeFromSlice envelope := some envelope.reread
  recordFromSlice _ := none
  protocolValue _ := .Null
  transcriptValue _ := .Null
  timeValue _ := .Null
  nativeValue _ := .Null
  sha256Length := Sha256.digest_length
  valueWritten _ := rfl
  envelopeWritten _ := rfl

def sample_record (session_id : String) (harness : Option HarnessKind) : SessionRecord :=
  ⟨session_id,"owner",⟨"provider",.OpenaiChat,harness,"model"⟩,none,[],⟨0,epoch_in_range⟩,⟨0,epoch_in_range⟩,0⟩
def sampleFiles : Files sampleSystem := ⟨true,none,none⟩
theorem sample_vacant (session_id : String) : Vacant "owner" session_id sampleFiles := ⟨rfl,by simp [sampleFiles]⟩
theorem sample_storable (session_id : String) (harness : Option HarnessKind) :
    Storable sampleSystem (sample_record session_id harness) :=
  ⟨rfl,Nat.zero_le _⟩

theorem sample_save (harness : Option HarnessKind) :
    (Mutation.Save (sample_record "session" harness)).run sampleSystem (.quiet 1 0) "owner" "session" sampleFiles =
      (.ok (firstEnvelope (sample_record "session" harness)),
        { sampleFiles with target := some (firstEnvelope (sample_record "session" harness)) }) := by
  have accepted : validate_identity "owner" "session" = .ok () := by decide
  exact (@run_save sampleSystem sampleFiles 1 0 (sample_record "session" harness) rfl accepted).trans
    (mutate_vacant (sample_vacant "session") rfl (rfl : readFlat sampleSystem "session" sampleFiles = .ok none)
      (saved_first rfl)
      (Nat.zero_le _))

theorem saved_session_is_loaded :
    let record := sample_record "session" (some .ClaudeCode)
    let outcome := (Mutation.Save record).run sampleSystem (.quiet 1 0) "owner" "session" sampleFiles
    outcome.1 = .ok (firstEnvelope record) ∧ (firstEnvelope record).session_revision = 1
    ∧ (load_snapshot_blocking sampleSystem (.quiet 1 1) "owner" "session" outcome.2).1 =
      .ok (some (firstEnvelope record).into_snapshot) := by
  have laws := @session_history sampleSystem "owner" "session" sampleFiles [] []
    (.Save (sample_record "session" (some .ClaudeCode))) (.quiet 1 0) rfl
    (by simp)
  have saved := laws.1 _ (congrArg Prod.fst (sample_save (some .ClaudeCode)))
  exact ⟨congrArg Prod.fst (sample_save (some .ClaudeCode)),rfl,saved.2 trivial 1 1⟩

/-- The id `session` can be used. -/
theorem short_id_usable : Usable sampleSystem "owner" "session" sampleFiles :=
  (usable_iff rfl (by decide) (sample_vacant "session") ⟨sample_record "session" none,rfl,rfl,sample_storable _ _⟩).mpr
    ⟨by decide,by simp [sampleFiles]⟩

/-- An id with so many bytes. -/
def longId (size : Nat) : String := String.ofList (List.replicate size 'a')

theorem longId_size (size : Nat) : (longId size).utf8ByteSize = size := by
  rw [longId,String.utf8ByteSize_ofList,utf8Len_of_narrow,List.length_replicate]
  intro c member
  rw [List.eq_of_mem_replicate member]
  rfl

theorem longId_accepted : validate_identity "owner" (longId 251) = .ok () := by
  have owner : validate_owner "owner" = .ok () := by decide
  refine then_eq_ok.mpr ⟨owner,ensure_eq_ok.mpr ?_⟩
  have noNul : ∀ size, containsNul (longId size) = false := by
    intro size
    simp only [containsNul,longId,String.toList_ofList,List.contains_eq_mem,decide_eq_false_iff_not]
    exact fun member => absurd (List.eq_of_mem_replicate member) (by decide)
  rw [noNul,longId_size]
  simp [MAX_SESSION_ID_BYTES,← String.utf8ByteSize_eq_zero_iff,longId_size]

/-- An accepted id of 251 bytes, one more than the old name has room for: no call works. -/
theorem long_id_unusable :
    let unusable : VyaneError := ⟨.Io,"File name too long (os error 36)"⟩
    validate_identity "owner" (longId 251) = .ok () ∧ Vacant "owner" (longId 251) sampleFiles
    ∧ (load_blocking sampleSystem (.quiet 1 0) "owner" (longId 251) sampleFiles).1 = .error unusable
    ∧ (load_snapshot_blocking sampleSystem (.quiet 1 0) "owner" (longId 251) sampleFiles).1 = .error unusable
    ∧ Storable sampleSystem (sample_record (longId 251) none)
    ∧ ((Mutation.Save (sample_record (longId 251) none)).run sampleSystem (.quiet 1 0) "owner"
      (longId 251) sampleFiles).1 =
      .error unusable
    ∧ ¬Usable sampleSystem "owner" (longId 251) sampleFiles := by
  have vacant := sample_vacant (longId 251)
  have storable := sample_storable (longId 251) none
  have unnamed : ¬(named sampleSystem (legacy_path sampleSystem (longId 251)).name = .ok ()) := by
    rw [named_legacy (rfl : sampleSystem.nameMax = 255),longId_size]
    decide
  have unread : readFlat sampleSystem (longId 251) sampleFiles = .error ⟨.Io,"File name too long (os error 36)"⟩ := by
    rw [named,ensure] at unnamed
    split_ifs at unnamed with fits
    · exact absurd rfl unnamed
    · simp [readFlat,read_envelope,named,ensure,fits,bind,Except.bind]
  have notLoaded := @load_vacant sampleSystem "owner" (longId 251) sampleFiles 1 0 vacant rfl longId_accepted
  rw [unread] at notLoaded
  have notSaved : ((Mutation.Save (sample_record (longId 251) none)).run sampleSystem (.quiet 1 0) "owner"
    (longId 251) sampleFiles).1 =
      .error ⟨.Io,"File name too long (os error 36)"⟩ :=
    (congrArg Prod.fst (@run_save sampleSystem sampleFiles 1 0
      (sample_record (longId 251) none) rfl longId_accepted)).trans
      (mutate_unreadable vacant rfl unread)
  refine ⟨longId_accepted,vacant,?_,?_,storable,notSaved,fun usable => ?_⟩
  · rw [load_blocking,notLoaded]
    rfl
  · rw [load_snapshot_blocking,notLoaded]
    rfl
  · obtain ⟨envelope,later,saved,-⟩ := (usable 1 0).2.2 (sample_record (longId 251) none) rfl rfl storable _ (.inl rfl)
    rw [saved] at notSaved
    cases notSaved

end sample
end Vyane.SessionStore
