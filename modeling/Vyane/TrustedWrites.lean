import Vyane.TextEdits
import Vyane.TrustedReads

/-!
The trusted file tools that write (`trusted_files.rs`). Content is written to a staged file beside the target and
renamed; a staged file that is not published is removed by its destructor, whatever ends the call.
-/
namespace Vyane.TrustedFiles
open Vyane.Core Interactions Interactions.Program Utf8 Strs Function
open TextEdits (EditRequest EditError EditOutcome compute_edit_bounded)

def MAX_WRITE_BYTES : Nat := 1024 * 1024
def MAX_EDIT_MATCHES : Nat := 10000
def STAGING_ATTEMPTS : Nat := 16

/-! ### Host control paths -/

def HOST_CONTROL_COMPONENTS : List Text := [".git".toList,".vyane".toList,".codex".toList,".claude".toList]
def HOST_CONTROL_FILE_NAMES : List Text := [".mcp.json".toList]
def is_host_control_component (component : Name) : Bool :=
  (HOST_CONTROL_COMPONENTS ++ HOST_CONTROL_FILE_NAMES).any (Vyane.Text.eq_ignore_ascii_case component)
def reject_host_control_components (components : Path) : Except ToolError Unit :=
  if components.any is_host_control_component then .error ⟨"writes to host control paths are not allowed"⟩ else .ok ()

def checked_write_components (path : Text) : Except ToolError Path :=
  match checked_components path false with
  | .error error => .error error
  | .ok components =>
    match reject_host_control_components components with
    | .error error => .error error
    | .ok () => .ok components

/-! ### Snapshots -/

/-- The rest of a call, with a handle of its own. -/
def try_clone {α : Type} (lost : String) (next : Tool (Outcome α)) : Tool (Outcome α) := do
  match ← perform .try_clone with
  | false => deny lost
  | true => next

structure FileSnapshot where
  device : Nat
  inode : Nat
  size : Nat
  mode : Nat
  uid : Nat
  gid : Nat
  modified_seconds : Int
  modified_nanoseconds : Int
  changed_seconds : Int
  changed_nanoseconds : Int
deriving DecidableEq

structure FilePreservation where
  mode : Nat
  uid : Nat
  gid : Nat

def FileSnapshot.from_file (path : Path) : Tool (Except ToolError FileSnapshot) := do
  match ← perform (.metadata path) with
  | none => pure (.error ⟨"could not inspect workspace file for editing"⟩)
  | some metadata =>
    if metadata.kind ≠ .Regular then pure (.error ⟨"requested edit path is not a regular file"⟩)
    else pure (.ok ⟨metadata.dev,metadata.ino,metadata.size,metadata.mode &&& 0o7777,metadata.uid,metadata.gid,
      metadata.mtime,metadata.mtime_nsec,metadata.ctime,metadata.ctime_nsec⟩)

def FileSnapshot.preservation (snapshot : FileSnapshot) : FilePreservation := ⟨snapshot.mode,snapshot.uid,snapshot.gid⟩
structure DirectorySnapshot where
  device : Nat
  inode : Nat
deriving DecidableEq

def DirectorySnapshot.from_file (path : Path) : Tool (Except ToolError DirectorySnapshot) := do
  match ← perform (.metadata path) with
  | none => pure (.error ⟨"could not inspect workspace directory"⟩)
  | some metadata =>
    if metadata.kind ≠ .Directory then pure (.error ⟨"workspace parent is not a directory"⟩)
    else pure (.ok ⟨metadata.dev,metadata.ino⟩)

def directory_snapshot (directory : Path) : Tool (Outcome DirectorySnapshot) :=
  try_clone "could not duplicate workspace directory" <|
    blocking "could not inspect workspace directory" (DirectorySnapshot.from_file directory)

def reopen_unchanged_parent (device : Nat) (effect : NativeSideEffect) (components : Path)
    (expected : DirectorySnapshot) : Tool (Outcome Path) :=
  (open_directory_components device effect components).and_then fun
    | .error _ => deny "workspace parent changed before publication"
    | .ok parent => (directory_snapshot parent).and_then fun
      | .error _ => deny "workspace parent changed before publication"
      | .ok observed => if observed = expected then give parent else deny "workspace parent changed before publication"

def ensure_no_extended_attributes (path : Path) : Tool (Except ToolError Unit) := do
  match ← perform (.flistxattr path) with
  | .Empty => pure (.ok ())
  | .Present => pure (.error ⟨"workspace file security metadata cannot be preserved"⟩)
  | .Failed => pure (.error ⟨"could not inspect workspace file security metadata"⟩)

def ensure_no_extended_attributes_async (path : Path) : Tool (Outcome Unit) :=
  try_clone "could not duplicate workspace file" <|
    blocking "could not inspect workspace file security metadata" (ensure_no_extended_attributes path)
/-- An operation that is not awaited. -/
def atOnce {α : Type} (operation : Tool (Except ToolError α)) : Tool (Outcome α) := do
  let result ← operation
  pure (.ok result)

def read_regular_from_parent (effect : NativeSideEffect) (parent : Path) (name : Name) :
    Tool (Outcome (Text × FileSnapshot)) :=
  (revalidate effect).and_then fun _ => do
    match ← perform (.metadata parent) with
    | none => deny "could not inspect workspace directory"
    | some metadata =>
      try_clone "could not duplicate workspace directory" <|
        take (blocking "could not inspect workspace file" (inspect_entry metadata.dev (parent ++ [name]))) fun
          | .Directory | .Other => deny "requested edit path is not a regular file"
          | .Regular =>
            take (atOnce (FileSnapshot.from_file (parent ++ [name]))) fun before =>
              (revalidate effect).and_then fun _ =>
                try_clone "could not duplicate workspace file" <|
                  (blocking "could not open workspace file for editing" (reopen_for_read (parent ++ [name]))).and_then
                    fun
                    | .error _ => deny "could not open workspace file for editing"
                    | .ok () =>
                      take (ensure_no_extended_attributes_async (parent ++ [name])) fun _ =>
                        take (read_utf8_bounded (parent ++ [name])) fun content =>
                          take (atOnce (FileSnapshot.from_file (parent ++ [name]))) fun after =>
                            if before ≠ after then deny "workspace file changed while it was being read"
                              else give (content,before)

/-! ### Staging -/

structure StagedFile where
  parent : Path
  name : Name
  require_no_xattrs : Bool

def StagedFile.path (staged : StagedFile) : Path := staged.parent ++ [staged.name]
/-- The destructor of a staged file that was not published. -/
def StagedFile.drop (staged : StagedFile) : Tool Unit := perform (.unlink staged.path)
/-- A call that works or not. -/
def attempt (request : Request) (works : Answer request → Bool) (lost : String) : Tool (Except ToolError Unit) := do
  let answer ← perform request
  pure (if works answer then .ok () else .error ⟨lost⟩)
def writeStaged (staged : StagedFile) (content : Bytes) : Tool (Except ToolError Unit) :=
  attempt (.write_all staged.path content) (fun written : Bool => written) "could not stage workspace file"

def preserve (staged : StagedFile) : Option FilePreservation → Tool (Except ToolError Unit)
  | none => pure (.ok ())
  | some preservation => (ensure_no_extended_attributes staged.path).and_then fun _ => do
    match ← perform (.metadata staged.path) with
    | none => pure (.error ⟨"could not inspect staged workspace file"⟩)
    | some metadata =>
      if metadata.uid ≠ preservation.uid ∨ metadata.gid ≠ preservation.gid then
        pure (.error ⟨"could not preserve workspace file ownership"⟩)
      else attempt (.set_permissions staged.path preservation.mode) (fun done : Bool =>
        done) "could not stage workspace file"

/-- What is done with a new staged file before it is handed on. -/
def fillStaged (staged : StagedFile) (content : Bytes) (preservation : Option FilePreservation) :
    Tool (Except ToolError Unit) :=
  (writeStaged staged content).and_then fun _ =>
    (preserve staged preservation).and_then fun _ =>
      attempt (.sync_all staged.path) (fun synced : Bool => synced) "could not stage workspace file"

/-- The loop over the attempts. -/
def stageAttempts (parent : Path) (target : Name) (content : Bytes) (preservation : Option FilePreservation) :
    Nat → Tool (Except ToolError StagedFile)
  | 0 => pure (.error ⟨"could not allocate a temporary workspace file"⟩)
  | attempts + 1 => do
    let uuid : Text ← perform .now_v7
    let name := ".vyane-write-".toList ++ uuid ++ ".tmp".toList
    if name = target then stageAttempts parent target content preservation attempts
    else
      match ← perform (.create (parent ++ [name]) (if preservation.isSome then 0o600 else 0o666)) with
      | .Exists => stageAttempts parent target content preservation attempts
      | .Failed => pure (.error ⟨"could not stage workspace file"⟩)
      | .Done =>
        let staged : StagedFile := ⟨parent,name,preservation.isSome⟩
        match ← fillStaged staged content preservation with
        | .ok () => pure (.ok staged)
        | .error error =>
          staged.drop
          pure (.error error)

def stage_content_blocking (parent : Path) (target : Name) (content : Bytes) (preservation : Option FilePreservation) :
    Tool (Except ToolError StagedFile) := stageAttempts parent target content preservation STAGING_ATTEMPTS
/-- What was staged for a call that is gone. -/
def discard_staged : Except ToolError StagedFile → Tool Unit
  | .ok staged => staged.drop
  | .error _ => pure ()
def stage_content (parent : Path) (target : Name) (content : Bytes) (preservation : Option FilePreservation) :
    Tool (Outcome StagedFile) :=
  (tracked_blocking discard_staged (stage_content_blocking parent target content preservation)).and_then fun staged =>
    pure (.ok (staged.getD (.error ⟨"could not stage workspace file"⟩)))

/-! ### Publishing -/

def StagedFile.validate_named_inode (staged : StagedFile) : Tool (Except ToolError Unit) := do
  match ← perform (.openPath staged.path false) with
  | false => pure (.error ⟨"staged workspace file changed before publication"⟩)
  | true =>
    match ← perform (.metadata staged.path) with
    | none => pure (.error ⟨"could not inspect staged workspace file"⟩)
    | some held =>
      match ← perform (.metadata staged.path) with
      | none => pure (.error ⟨"could not inspect staged workspace file"⟩)
      | some named =>
        if held.kind ≠ .Regular ∨ named.kind ≠ .Regular ∨ held.dev ≠ named.dev ∨ held.ino ≠ named.ino then
          pure (.error ⟨"staged workspace file changed before publication"⟩)
        else if staged.require_no_xattrs then ensure_no_extended_attributes staged.path
        else pure (.ok ())

def StagedFile.publish_new (staged : StagedFile) (target : Name) : Tool (Except ToolError Unit) :=
  staged.validate_named_inode.and_then fun _ => do
    match ← perform (.rename_noreplace staged.path (staged.parent ++ [target])) with
    | .Done => pure (.ok ())
    | .Exists => pure (.error ⟨"workspace file already exists"⟩)
    | .Failed => pure (.error ⟨"could not publish workspace file"⟩)

def StagedFile.publish_replacement (staged : StagedFile) (target : Name) : Tool (Except ToolError Unit) :=
  staged.validate_named_inode.and_then fun _ =>
    attempt (.rename staged.path (staged.parent ++ [target])) (fun renamed : Bool => renamed)
      "could not publish workspace edit"

/-- The rest of a call that holds a staged file. Only a call that has published it succeeds; on every other way out it
    is dropped. -/
def withStaged {α : Type} (staged : StagedFile) (rest : Tool (Outcome α)) : Tool (Outcome α) := do
  match ← rest with
  | .ok (.ok value) => give value
  | .ok (.error error) =>
    staged.drop
    pure (.ok (.error error))
  | .error stop =>
    staged.drop
    pure (.error stop)

/-- The rest of a call, unless its token is cancelled. -/
def unlessCancelled {α : Type} (cancelled : String) (next : Tool (Outcome α)) : Tool (Outcome α) := do
  match ← perform .is_cancelled with
  | true => deny cancelled
  | false => next

/-- The directory and the name in it. -/
def withSplitLast {α : Type} (components : Path) (next : Name → Path → Tool (Outcome α)) : Tool (Outcome α) :=
  match components.getLast? with
  | none => deny "file path must not be empty"
  | some name => next name components.dropLast

/-! ### The tools -/

section
variable (device : Nat) (effect : NativeSideEffect)

def write_new_file (components : Path) (content : Bytes) : Tool (Outcome Text) :=
  checked (reject_host_control_components components) fun _ =>
    withSplitLast components fun name parents =>
      take (open_directory_components device effect parents) fun parent =>
        take (directory_snapshot parent) fun parent_snapshot =>
          (revalidate effect).and_then fun _ =>
            take (stage_content parent name content none) fun staged => withStaged staged <|
              unlessCancelled "file write cancelled" <|
                take (reopen_unchanged_parent device effect parents parent_snapshot) fun _ =>
                  (revalidate effect).and_then fun _ =>
                    unlessCancelled "file write cancelled" <|
                      take (atOnce (staged.publish_new name)) fun _ =>
                        give ("Created ".toList ++ display_components components ++ " (".toList ++
                          (toString content.length).toList ++
                          " bytes).".toList)

def str (text : Text) : Str := ⟨encode text,text,rfl⟩

/-- What the tool says of an edit that cannot be made. -/
def editError : EditError → String
  | .NoMatch => "old_string was not found in content"
  | .NotUnique count =>
      s!"old_string is not unique: {count} matches found — add surrounding context or set replace_all=true"
  | .Ambiguous => "old_string matched only under ambiguous normalization; edit refused for safety"
  | .EmptyOldStringOnNonEmptyContent =>
    "old_string is empty but content is non-empty; empty old_string is only valid to create new content"
  | .NoOpEdit => "old_string and new_string are identical; edit would change nothing"
  | .OutputTooLarge _ => "edited file exceeds the write limit"
  | .TooManyMatches _ => "edit exceeds the workspace match limit"

/-- The edit of a content, or what the tool says instead; there is no value where the computation panics. -/
def edited (content old_string new_string : Text) (replace_all : Bool) : Except ToolError EditOutcome :=
  match compute_edit_bounded ⟨str content,str old_string,str new_string,
    replace_all⟩ MAX_WRITE_BYTES MAX_EDIT_MATCHES with
  | none => .error ⟨"could not compute workspace edit"⟩
  | some (.error error) => .error ⟨editError error⟩
  | some (.ok outcome) => .ok outcome

def edit_existing_file (components : Path) (old_string new_string : Text) (replace_all : Bool) : Tool (Outcome Text) :=
  checked (reject_host_control_components components) fun _ =>
    withSplitLast components fun name parents =>
      take (open_directory_components device effect parents) fun parent =>
        take (directory_snapshot parent) fun parent_snapshot =>
          take (read_regular_from_parent effect parent name) fun (original,original_snapshot) =>
            take (blocking "could not compute workspace edit"
              (pure (edited original old_string new_string replace_all))) fun outcome =>
              (revalidate effect).and_then fun _ =>
                try_clone "could not duplicate workspace directory" <|
                  take (stage_content parent name outcome.new_content.bytes (some original_snapshot.preservation))
                    fun staged =>
                    withStaged staged <|
                      unlessCancelled "file edit cancelled" <|
                        take (reopen_unchanged_parent device effect parents parent_snapshot) fun current_parent =>
                          (read_regular_from_parent effect current_parent name).and_then fun
                            | .error _ => deny "workspace file changed before edit publication"
                            | .ok current =>
                              if current.2 ≠ original_snapshot ∨ current.1 ≠ original then
                                deny "workspace file changed before edit publication"
                              else
                                (revalidate effect).and_then fun _ =>
                                  unlessCancelled "file edit cancelled" <|
                                    take (atOnce (staged.publish_replacement name)) fun _ =>
                                      give ("Updated ".toList ++ display_components components ++ " (".toList ++
                                        (toString outcome.replacements).toList ++ " replacements).".toList)

end

def contentArgument (arguments : Arguments) : Except ToolError Text :=
  match required_string arguments "content" with
  | .error error => .error error
  | .ok content =>
      if MAX_WRITE_BYTES < (encode content).length then .error ⟨"file content exceeds the write limit"⟩ else .ok content

/-- The components of a path that can be written and that the policies allow. -/
def writableComponents (allowed : Path → Bool) (denied : String) (path : Text) : Except ToolError Path :=
  match checked_write_components path with
  | .error error => .error error
  | .ok components => if allowed components then .ok components else .error ⟨denied⟩

def write_file (policy : CompiledPathPolicy) (pinned : Pinned) (effect : NativeSideEffect) (arguments : Arguments) :
    Tool (Outcome Text) :=
  checked (reject_unknown_arguments arguments ["path","content"]) fun _ =>
    checked (required_string arguments "path") fun path =>
      checked (contentArgument arguments) fun content =>
        checked (writableComponents policy.allows "workspace write policy denied this path" path) fun components =>
          withPinned pinned fun device => write_new_file device effect components (encode content)

def edit_file (read_policy write_policy : CompiledPathPolicy) (pinned : Pinned) (effect : NativeSideEffect)
    (arguments : Arguments) :
    Tool (Outcome Text) :=
  checked (reject_unknown_arguments arguments ["path","old_string","new_string","replace_all"]) fun _ =>
    checked (required_string arguments "path") fun path =>
      checked (required_string arguments "old_string") fun old_string =>
        checked (required_string arguments "new_string") fun new_string =>
          checked (optional_bool arguments "replace_all" false) fun replace_all =>
            checked (writableComponents (fun components =>
              read_policy.allows components && write_policy.allows components)
                "workspace read or write policy denied this path" path) fun components =>
              withPinned pinned fun device =>
                edit_existing_file device effect components old_string new_string replace_all

/-! ### The files of a workspace -/

inductive Stored where
  | File (content : Bytes)
  | Other
/-- What is stored at each path. -/
abbrev Files : Type := Path → Option Stored

/-- What a step does to the files if nobody else writes. A call that fails leaves them, except that part of a content
    may have been written; removing a file works. -/
def Changes (files : Files) : Event Request Answer → Files → Prop
  | ⟨.create path _,answer⟩, after =>
    match (answer : Placed) with
    | .Done => files path = none ∧ after = update files path (some (.File []))
    | .Exists | .Failed => after = files
  | ⟨.write_all path content,answer⟩, after =>
    match files path with
    | some (.File old) => ∃ written, written <+: content ∧ ((answer : Bool) = true → written = content) ∧
      after = update files path (some (.File (old ++ written)))
    | _ => after = files
  | ⟨.rename_noreplace source target,answer⟩, after =>
    match (answer : Placed) with
    | .Done => files target = none ∧ after = update (update files target (files source)) source none
    | .Exists | .Failed => after = files
  | ⟨.rename source target,answer⟩, after =>
    match (answer : Bool) with
    | true => after = update (update files target (files source)) source none
    | false => after = files
  | ⟨.unlink path,_⟩, after => after = update files path none
  | ⟨.read_to_end path limit,answer⟩, after => after = files ∧ ∀ bytes, (answer : Option Bytes) = some bytes →
    ∃ content, files path = some (.File content) ∧ bytes = content.take limit
  | _, after => after = files

/-- Requests that change nothing. -/
def Still : Request → Prop
  | .create _ _ | .write_all _ _ | .rename_noreplace _ _ | .rename _ _ | .unlink _ => False
  | _ => True
/-- A result is as it should be, and without a result the files are as they were. -/
def Kept {α : Type} (files : Files) (post : α → Files → Prop) : Outcome α → Files → Prop
  | .ok (.ok value), after => post value after
  | _, after => after = files

section
variable {α β : Type} {files : Files} {post : β → Files → Prop} {device : Nat} {effect : NativeSideEffect}
  {next : α → Tool (Outcome β)} {first : Tool (Outcome α)} {components : Path} {path : Path} {staged : StagedFile}
  {parent : Path} {content : Bytes} {preservation : Option FilePreservation} {target : Name} {pinned : Pinned}
  {arguments : Arguments}

theorem leads_still {program : Tool α} (only : program.Only Still) : Leads Changes program files fun _ after =>
    after = files := by
  refine leads_of_only only fun {state after request answer} still changes => ?_
  cases request <;> first | exact still.elim | exact changes | exact changes.1
theorem perform_leads {request : Request} {next : Answer request → Tool β}
    (rest : ∀ answer after, Changes files ⟨request,answer⟩ after → Leads Changes (next answer) after post) :
    Leads Changes (perform request >>= next) files post := rest
theorem deny_keeps {message : String} : Leads Changes (deny message : Tool (Outcome β)) files (Kept files post) :=
  leads_pure rfl

theorem take_keeps {middle : α → Files → Prop} (leads : Leads Changes first files (Kept files middle))
    (rest : ∀ value after, middle value after → Leads Changes (next value) after (Kept files post)) :
    Leads Changes (take first next) files (Kept files post) := by
  refine leads_bind (leads.weaken fun outcome after kept => ?_)
  match outcome with
  | .error stop => exact leads_pure kept
  | .ok (.error error) => exact leads_pure kept
  | .ok (.ok value) => exact rest value after kept

theorem Kept.imp {other : β → Files → Prop} {outcome : Outcome β} {after : Files} (kept : Kept files post outcome after)
    (implied : ∀ value after, post value after → other value after) : Kept files other outcome after := by
  match outcome with
  | .error stop => exact kept
  | .ok (.error error) => exact kept
  | .ok (.ok value) => exact implied value after kept

theorem and_then_keeps {first : Tool (Except Stop α)} (only : first.Only Still)
    (rest : ∀ value, Leads Changes (next value) files (Kept files post)) : Leads Changes (first.and_then next) files
    (Kept files post) := by
  refine leads_bind ((leads_still only).weaken fun result after same => ?_)
  subst same
  cases result with
  | error stop => exact leads_pure rfl
  | ok value => exact rest value

theorem take_still (only : first.Only Still)
    (rest : ∀ value, Leads Changes (next value) files (Kept files post)) : Leads Changes (take first next) files
    (Kept files post) := by
  refine and_then_keeps only fun result => ?_
  cases result with
  | error error => exact deny_keeps
  | ok value => exact rest value

theorem checked_keeps {first : Except ToolError α}
    (rest : ∀ value, first = .ok value → Leads Changes (next value) files (Kept files post)) :
    Leads Changes (checked first next) files (Kept files post) := by
  cases first with
  | error error => exact deny_keeps
  | ok value => exact rest value rfl

theorem still_of_exact {program : Tool α} (only : program.Only (Exact fun _ => True)) : program.Only Still :=
  only.weaken fun request exact => by cases request <;> trivial

variable {lost : String} {next : Tool (Outcome β)}

theorem try_clone_keeps (rest : Leads Changes next files (Kept files post)) :
    Leads Changes (try_clone lost next) files (Kept files post) := by
  rintro cloned _ rfl
  match cloned with
  | false => exact deny_keeps
  | true => exact rest

theorem unlessCancelled_keeps {cancelled : String} (rest : Leads Changes next files (Kept files post)) :
    Leads Changes (unlessCancelled cancelled next) files (Kept files post) := by
  rintro answer _ rfl
  match answer with
  | true => exact deny_keeps
  | false => exact rest

/-! ### Looking does not change -/

theorem revalidate_still : (revalidate effect).Only Still := still_of_exact revalidate_only

theorem open_directory_components_still : (open_directory_components device effect components).Only Still :=
  still_of_exact (open_directory_components_only (fun _ _ _ => trivial) trivial)

theorem directory_snapshot_still {directory : Path} : (directory_snapshot directory).Only Still := by
  refine ⟨trivial,fun cloned => ?_⟩
  match cloned with
  | false => trivial
  | true =>
    refine blocking_only trivial trivial ⟨trivial,fun metadata => ?_⟩
    match metadata with
    | none => trivial
    | some metadata => exact only_ite trivial trivial

theorem reopen_unchanged_parent_still {expected : DirectorySnapshot} :
    (reopen_unchanged_parent device effect components expected).Only Still := by
  refine only_and_then open_directory_components_still fun opened => ?_
  cases opened with
  | error error => trivial
  | ok parent =>
    refine only_and_then directory_snapshot_still fun observed => ?_
    cases observed with
    | error error => trivial
    | ok observed => exact only_ite trivial trivial

theorem ensure_no_extended_attributes_still : (ensure_no_extended_attributes path).Only Still := by
  refine ⟨trivial,fun attributes => ?_⟩
  match attributes with
  | .Empty | .Present | .Failed => trivial

theorem ensure_no_extended_attributes_async_still : (ensure_no_extended_attributes_async path).Only Still := by
  refine ⟨trivial,fun cloned => ?_⟩
  match cloned with
  | false => trivial
  | true => exact blocking_only trivial trivial ensure_no_extended_attributes_still

theorem from_file_still : (atOnce (FileSnapshot.from_file path)).Only Still := by
  refine only_bind ⟨trivial,fun metadata => ?_⟩ fun _ => trivial
  match metadata with
  | none => trivial
  | some metadata => exact only_ite trivial trivial

theorem validate_named_inode_still : staged.validate_named_inode.Only Still := by
  refine ⟨trivial,fun opened => ?_⟩
  match opened with
  | false => trivial
  | true =>
    refine ⟨trivial,fun held => ?_⟩
    match held with
    | none => trivial
    | some held =>
      refine ⟨trivial,fun named => ?_⟩
      match named with
      | none => trivial
      | some named => exact only_ite trivial (only_ite ensure_no_extended_attributes_still trivial)

/-! ### Reading -/

/-- The text that is stored at a path. -/
def Files.Reads (files : Files) (path : Path) (text : Text) : Prop := files path = some (.File (encode text))

theorem read_utf8_bounded_reads :
    Leads Changes (read_utf8_bounded path) files
      (Kept files fun text after => after = files ∧ files.Reads path text) := by
  have read : Leads Changes (read_utf8_bounded_blocking path) files fun result after =>
      after = files ∧ ∀ text, result = .ok text → files.Reads path text := by
    rintro answer _ ⟨rfl,truthful⟩
    match answer with
    | none => exact ⟨rfl,nofun⟩
    | some bytes =>
      obtain ⟨content,stored,rfl⟩ := truthful bytes rfl
      show Leads Changes (if _ then _ else _) _ _
      split_ifs with long
      · exact ⟨rfl,nofun⟩
      · rw [List.take_of_length_le (by rw [List.length_take] at long; omega)]
        cases decoded : from_utf8 content with
        | none => exact ⟨rfl,nofun⟩
        | some text =>
          refine ⟨rfl,fun other same => ?_⟩
          cases same
          rw [Files.Reads,encode_of_from_utf8 decoded]
          exact stored
  rw [read_utf8_bounded,blocking]
  refine leads_bind (leads_bind ?_)
  rintro spawned _ rfl
  match spawned with
  | false => exact rfl
  | true =>
    refine leads_bind (read.weaken fun result after reads => ?_)
    obtain ⟨rfl,reads⟩ := reads
    rintro joined _ rfl
    match joined with
    | .Dropped => exact rfl
    | .Ready () =>
      cases result with
      | error error => exact rfl
      | ok text => exact ⟨rfl,reads text rfl⟩

theorem read_regular_from_parent_reads {name : Name} :
    Leads Changes (read_regular_from_parent effect parent name) files
      (Kept files fun source after => after = files ∧ files.Reads (parent ++ [name]) source.1) := by
  refine and_then_keeps revalidate_still fun _ => ?_
  rintro metadata _ rfl
  match metadata with
  | none => exact deny_keeps
  | some metadata =>
    refine try_clone_keeps (take_still (still_of_exact (blocking_only trivial trivial (inspect_entry_only trivial)))
      fun kind => ?_)
    match kind with
    | .Directory => exact deny_keeps
    | .Other => exact deny_keeps
    | .Regular =>
      refine take_still from_file_still fun before => and_then_keeps revalidate_still fun _ => try_clone_keeps ?_
      refine and_then_keeps (blocking_only trivial trivial ⟨trivial,fun opened => ?_⟩) fun opened => ?_
      · match opened with
        | false | true => trivial
      · cases opened with
        | error error => exact deny_keeps
        | ok _ =>
          refine take_still ensure_no_extended_attributes_async_still fun _ => take_keeps read_utf8_bounded_reads ?_
          rintro text _ ⟨rfl,reads⟩
          refine take_still from_file_still fun after => ?_
          show Leads Changes (if _ then _ else _) _ _
          split_ifs
          · exact deny_keeps
          · exact leads_pure ⟨rfl,reads⟩

/-! ### Staging -/

/-- The files with a staged file among them. -/
def Files.staging (files : Files) (path : Path) (content : Bytes) : Files :=
  update files path (some (.File content))

theorem unlink_staging (fresh : files path = none) :
    update (files.staging path content) path none = files := by
  rw [Files.staging,update_idem,← fresh,update_eq_self]

theorem drop_leads (fresh : files staged.path = none) :
    Leads Changes staged.drop (files.staging staged.path content) fun _ after => after = files := by
  rintro _ _ rfl
  exact unlink_staging fresh

theorem attempt_still {request : Request} {works : Answer request → Bool} (still : Still request) :
    (attempt request works lost).Only Still := ⟨still,fun _ => trivial⟩

theorem preserve_still : (preserve staged preservation).Only Still := by
  cases preservation with
  | none => trivial
  | some preservation =>
    refine only_and_then ensure_no_extended_attributes_still fun _ => ⟨trivial,fun metadata => ?_⟩
    match metadata with
    | none => trivial
    | some metadata => exact only_ite trivial (attempt_still trivial)

/-- A staged file has its content, or some of it. -/
theorem fillStaged_leads :
    Leads Changes (fillStaged staged content preservation) (files.staging staged.path []) fun result after =>
      ∃ written, after = files.staging staged.path written ∧ (result = .ok () → written = content) := by
  refine leads_bind (leads_bind ?_)
  intro answer after changes
  simp only [Changes,Files.staging,update_self] at changes
  obtain ⟨written,_,complete,rfl⟩ := changes
  change Leads _ _ (update (files.staging staged.path []) staged.path _) _
  have stagedNow : update (files.staging staged.path []) staged.path (some (.File ([] ++ written))) =
      files.staging staged.path written := by rw [Files.staging,update_idem,List.nil_append,Files.staging]
  rw [stagedNow]
  cases wrote : (answer : Bool) with
  | false => exact ⟨written,rfl,nofun⟩
  | true =>
    have rest : ((preserve staged preservation).and_then fun _ =>
        attempt (.sync_all staged.path) (fun synced : Bool => synced) "could not stage workspace file").Only Still :=
      only_and_then preserve_still fun _ => attempt_still trivial
    refine (leads_still rest).weaken ?_
    rintro result _ rfl
    exact ⟨written,rfl,fun _ => complete wrote⟩

/-- Content was staged beside the target, at a path that was free. -/
def Staged (files : Files) (parent : Path) (target : Name) (content : Bytes) (staged : StagedFile)
    (after : Files) : Prop :=
  staged.parent = parent ∧ staged.name ≠ target ∧ files staged.path = none ∧ after = files.staging staged.path content

theorem stageAttempts_leads :
    ∀ {attempts : Nat}, Leads Changes
      (stageAttempts parent target content preservation attempts) files fun result after =>
      match result with
      | .ok staged => Staged files parent target content staged after
      | .error _ => after = files := by
  intro attempts
  induction attempts with
  | zero => exact rfl
  | succ attempts ih =>
    rintro uuid _ rfl
    change Text at uuid
    show Leads Changes (if ".vyane-write-".toList ++ uuid ++ ".tmp".toList = target then _ else _) _ _
    by_cases taken : ".vyane-write-".toList ++ uuid ++ ".tmp".toList = target
    · rw [if_pos taken]
      exact ih
    · rw [if_neg taken]
      refine perform_leads fun placed after changes => ?_
      match placed with
      | .Exists =>
        obtain rfl : after = _ := changes
        exact ih
      | .Failed => exact changes
      | .Done =>
        obtain ⟨fresh,rfl⟩ := changes
        refine leads_bind (fillStaged_leads.weaken fun result after filled => ?_)
        obtain ⟨written,rfl,complete⟩ := filled
        cases result with
        | error error => exact leads_bind ((drop_leads fresh).weaken fun _ after same => same)
        | ok _ => exact ⟨rfl,taken,fresh,by rw [complete rfl]⟩

theorem stage_content_leads :
    Leads Changes (stage_content parent target content preservation) files
      (Kept files (Staged files parent target content)) := by
  refine leads_bind (leads_bind ?_)
  rintro spawned _ rfl
  match spawned with
  | false => exact rfl
  | true =>
    refine leads_bind (stageAttempts_leads.weaken fun result after staged => ?_)
    intro joined _ same
    obtain rfl : _ = after := same
    match joined with
    | .Ready () =>
      cases result with
      | error error => exact staged
      | ok value => exact staged
    | .Dropped =>
      cases result with
      | error error => exact staged
      | ok value =>
        obtain ⟨_,_,fresh,rfl⟩ := staged
        exact leads_bind ((drop_leads fresh).weaken fun _ after same => same)

/-- Whatever ends the rest of a call, a staged file that was not published is gone. -/
theorem withStaged_keeps {rest : Tool (Outcome β)} (fresh : files staged.path = none)
    (leads : Leads Changes rest (files.staging staged.path content) (Kept (files.staging staged.path content) post)) :
    Leads Changes (withStaged staged rest) (files.staging staged.path content) (Kept files post) := by
  refine leads_bind (leads.weaken fun outcome after kept => ?_)
  match outcome with
  | .ok (.ok value) => exact leads_pure kept
  | .ok (.error error) =>
    obtain rfl : after = _ := kept
    exact leads_bind ((drop_leads fresh).weaken fun _ after same => same)
  | .error stop =>
    obtain rfl : after = _ := kept
    exact leads_bind ((drop_leads fresh).weaken fun _ after same => same)

/-! ### Publishing -/

/-- A staged file that takes another name leaves nothing behind. -/
theorem rename_staging {path target : Path} (fresh : files path = none) (apart : path ≠ target) :
    update (update (files.staging path content) target (files.staging path content path)) path none =
      update files target (some (.File content)) := by
  rw [update_comm apart.symm,unlink_staging fresh,Files.staging,update_self]

theorem publish_new_leads (fresh : files staged.path = none) (apart : staged.name ≠ target) :
    Leads Changes (atOnce (staged.publish_new target)) (files.staging staged.path content)
      (Kept (files.staging staged.path content)
      fun _ after => files (staged.parent ++ [target]) = none ∧
        after = update files (staged.parent ++ [target]) (some (.File content))) := by
  have different : staged.path ≠ staged.parent ++ [target] := by simpa [StagedFile.path] using apart
  refine leads_bind (leads_bind ((leads_still validate_named_inode_still).weaken fun valid after same => ?_))
  subst same
  cases valid with
  | error error => exact rfl
  | ok _ =>
    intro placed after changes
    match placed with
    | .Exists => exact changes
    | .Failed => exact changes
    | .Done =>
      obtain ⟨free,rfl⟩ := changes
      rw [Files.staging,update_of_ne different.symm] at free
      exact ⟨free,rename_staging fresh different⟩

theorem publish_replacement_leads (fresh : files staged.path = none) (apart : staged.name ≠ target) :
    Leads Changes (atOnce (staged.publish_replacement target)) (files.staging staged.path content)
      (Kept (files.staging staged.path content)
      fun _ after => after = update files (staged.parent ++ [target]) (some (.File content))) := by
  have different : staged.path ≠ staged.parent ++ [target] := by simpa [StagedFile.path] using apart
  refine leads_bind (leads_bind ((leads_still validate_named_inode_still).weaken fun valid after same => ?_))
  subst same
  cases valid with
  | error error => exact rfl
  | ok _ =>
    intro renamed after changes
    match renamed with
    | false => exact changes
    | true =>
      obtain rfl : after = _ := changes
      exact rename_staging fresh different

/-! ### Whole calls -/

theorem open_directory_components_leads {next : Path → Tool (Outcome β)}
    (rest : Leads Changes (next components) files (Kept files post)) :
    Leads Changes (take (open_directory_components device effect components) next) files (Kept files post) := by
  have opens : ∀ {components directory : Path}, Leads Changes (openComponents device effect directory components) files
      (Kept files fun parent after => after = files ∧ parent = directory ++ components) := by
    intro components
    induction components with
    | nil => exact fun {directory} => leads_pure ⟨rfl,(List.append_nil directory).symm⟩
    | cons component rest ih =>
      intro directory
      refine and_then_keeps revalidate_still fun _ =>
        take_still (still_of_exact (blocking_only trivial trivial (open_directory_component_only trivial))) fun _ => ?_
      rw [show directory ++ component :: rest = directory ++ [component] ++ rest by simp]
      exact ih
  have opened : Leads Changes (open_directory_components device effect components) files
      (Kept files fun parent after => after = files ∧ parent = components) := by
    refine perform_leads fun cloned after same => ?_
    obtain rfl : after = files := same
    match cloned with
    | false => exact deny_keeps
    | true => exact opens
  refine take_keeps opened ?_
  rintro _ _ ⟨rfl,rfl⟩
  exact rest

theorem withSplitLast_keeps {next : Name → Path → Tool (Outcome β)}
    (rest : ∀ name parents, components = parents ++ [name] →
      Leads Changes (next name parents) files (Kept files post)) :
    Leads Changes (withSplitLast components next) files (Kept files post) := by
  unfold withSplitLast
  cases last : components.getLast? with
  | none => exact deny_keeps
  | some name => exact rest name components.dropLast (List.dropLast_append_getLast? name last).symm

theorem write_new_file_keeps :
    Leads Changes (write_new_file device effect components content) files (Kept files fun _ after =>
      files components = none ∧ after = update files components (some (.File content))) := by
  refine checked_keeps fun _ _ => withSplitLast_keeps fun name parents split => open_directory_components_leads ?_
  subst split
  refine take_still directory_snapshot_still fun snapshot => and_then_keeps revalidate_still fun _ => ?_
  refine take_keeps stage_content_leads ?_
  rintro staged _ ⟨rfl,apart,fresh,rfl⟩
  refine withStaged_keeps fresh (unlessCancelled_keeps (take_still reopen_unchanged_parent_still fun _ => ?_))
  refine and_then_keeps revalidate_still fun _ => unlessCancelled_keeps ?_
  exact take_keeps (publish_new_leads fresh apart) fun _ after published => leads_pure published

/-- What a successful edit makes of a text. -/
def Edits (content old_string new_string : Text) (replace_all : Bool) (result : Bytes) : Prop :=
  ∃ outcome, compute_edit_bounded ⟨str content,str old_string,str new_string,
    replace_all⟩ MAX_WRITE_BYTES MAX_EDIT_MATCHES = some (.ok outcome) ∧
    result = outcome.new_content.bytes

theorem edited_ok {content old_string new_string : Text} {replace_all : Bool} {outcome : EditOutcome}
    (made : edited content old_string new_string replace_all = .ok outcome) :
    Edits content old_string new_string replace_all outcome.new_content.bytes := by
  unfold edited at made
  split at made
  · cases made
  · cases made
  · rename_i computed
    cases made
    exact ⟨_,computed,rfl⟩

theorem blocking_pure_leads {result : Except ToolError α} :
    Leads Changes (blocking lost (pure result)) files
      (Kept files fun value after => after = files ∧ result = .ok value) := by
  refine leads_bind (perform_leads fun spawned after same => ?_)
  obtain rfl : after = files := same
  match spawned with
  | false => exact rfl
  | true =>
    refine perform_leads fun joined after same => ?_
    obtain rfl : after = _ := same
    match joined with
    | .Dropped => exact rfl
    | .Ready () =>
      cases result with
      | error error => exact rfl
      | ok value => exact ⟨rfl,rfl⟩

theorem edit_existing_file_keeps {old_string new_string : Text} {replace_all : Bool} :
    Leads Changes (edit_existing_file device effect components old_string new_string replace_all) files
      (Kept files fun _ after =>
      ∃ content result, files.Reads components content ∧ Edits content old_string new_string replace_all result ∧
        after = update files components (some (.File result))) := by
  refine checked_keeps fun _ _ => withSplitLast_keeps fun name parents split => open_directory_components_leads ?_
  subst split
  refine take_still directory_snapshot_still fun snapshot => take_keeps read_regular_from_parent_reads ?_
  rintro ⟨original,original_snapshot⟩ _ ⟨rfl,reads⟩
  refine take_keeps blocking_pure_leads ?_
  rintro outcome _ ⟨rfl,made⟩
  refine and_then_keeps revalidate_still fun _ => try_clone_keeps (take_keeps stage_content_leads ?_)
  rintro staged _ ⟨rfl,apart,fresh,rfl⟩
  refine withStaged_keeps fresh
    (unlessCancelled_keeps (take_still reopen_unchanged_parent_still fun current_parent => ?_))
  refine leads_bind (read_regular_from_parent_reads.weaken fun current after kept => ?_)
  match current with
  | .error stop => exact kept
  | .ok (.error error) => exact kept
  | .ok (.ok current) =>
    obtain ⟨rfl,_⟩ := kept
    show Leads Changes (if _ then _ else _) _ _
    split_ifs
    · exact deny_keeps
    · refine and_then_keeps revalidate_still fun _ => unlessCancelled_keeps ?_
      exact take_keeps (publish_replacement_leads fresh apart) fun _ after published =>
        leads_pure ⟨original,_,reads,edited_ok made,published⟩

theorem withPinned_keeps {next : Nat → Tool (Outcome β)}
    (rest : ∀ device, Leads Changes (next device) files (Kept files post)) :
    Leads Changes (withPinned pinned next) files (Kept files post) := by
  cases pinned with
  | none => exact deny_keeps
  | some device => exact rest device

theorem writableComponents_ok {allowed : Path → Bool} {denied : String} {path : Text}
    (writable : writableComponents allowed denied path = .ok components) :
    checked_write_components path = .ok components := by
  unfold writableComponents at writable
  split at writable
  · cases writable
  · rename_i parsed
    split_ifs at writable
    cases writable
    exact parsed

theorem contentArgument_ok {content : Text} (given : contentArgument arguments = .ok content) :
    required_string arguments "content" = .ok content := by
  unfold contentArgument at given
  split at given
  · cases given
  · rename_i parsed
    split_ifs at given
    cases given
    exact parsed

/-- One new file with the content that was given, where nothing was before. -/
def Written (arguments : Arguments) (files after : Files) : Prop :=
  ∃ path content components, required_string arguments "path" = .ok path ∧
    required_string arguments "content" = .ok content ∧
    checked_write_components path = .ok components ∧ files components = none ∧
    after = update files components (some (.File (encode content)))

/-- One file changed, to the edit of its previous content. -/
def Edited (arguments : Arguments) (files after : Files) : Prop :=
  ∃ path old_string new_string replace_all components content result, required_string arguments "path" = .ok path ∧
    required_string arguments "old_string" = .ok old_string ∧ required_string arguments "new_string" = .ok new_string ∧
    optional_bool arguments "replace_all" false = .ok replace_all ∧ checked_write_components path = .ok components ∧
    files.Reads components content ∧ Edits content old_string new_string replace_all result ∧
    after = update files components (some (.File result))

theorem write_file_keeps {policy : CompiledPathPolicy} :
    Leads Changes (write_file policy pinned effect arguments) files
      (Kept files fun _ after => Written arguments files after) := by
  refine checked_keeps fun _ _ => checked_keeps fun path named => checked_keeps fun content given =>
    checked_keeps fun components writable =>
    withPinned_keeps fun device => write_new_file_keeps.weaken fun outcome after kept =>
      kept.imp fun _ after published => ?_
  exact ⟨path,content,components,named,contentArgument_ok given,writableComponents_ok writable,published⟩

theorem edit_file_keeps {read_policy write_policy : CompiledPathPolicy} :
    Leads Changes (edit_file read_policy write_policy pinned effect arguments) files
      (Kept files fun _ after => Edited arguments files after) := by
  refine checked_keeps fun _ _ => checked_keeps fun path named => checked_keeps fun old_string old =>
    checked_keeps fun new_string new =>
    checked_keeps fun replace_all all => checked_keeps fun components writable => withPinned_keeps fun device =>
      edit_existing_file_keeps.weaken fun outcome after kept => kept.imp fun _ after published => ?_
  obtain ⟨content,result,reads,edits,rfl⟩ := published
  exact ⟨path,old_string,new_string,replace_all,components,content,result,named,old,new,all,
    writableComponents_ok writable,reads,edits,rfl⟩

/-- Wherever a call is stopped, it has changed the files as it reports or not at all. -/
theorem calls_are_all_or_nothing {after : Files} {trace : List (Event Request Answer)}
    (follows : Follows Changes files trace after)
    (pinned : Pinned) (effect : NativeSideEffect) (arguments : Arguments) (outcome : Outcome Text) :
    (∀ policy, Runs (write_file policy pinned effect arguments) trace outcome →
      Kept files (fun _ after => Written arguments files after) outcome after) ∧
    ∀ read_policy write_policy, Runs (edit_file read_policy write_policy pinned effect arguments) trace outcome →
      Kept files (fun _ after => Edited arguments files after) outcome after :=
  ⟨fun _ runs => Leads.follows runs write_file_keeps follows,fun _ _ runs => Leads.follows runs edit_file_keeps follows⟩

end

/-! ### A disk on which everything works -/

def Files.answer (files : Files) : (request : Request) → Answer request
  | .revalidate _ => .Ready (.ok ())
  | .is_cancelled => false
  | .spawn_blocking => true
  | .joinBlocking => .Ready ()
  | .try_clone => true
  | .openPath path _ => (files path).isSome
  | .metadata path => (files path).map fun
    | .File _ => plainMetadata .Regular
    | .Other => plainMetadata .Directory
  | .openRead path => (files path).isSome
  | .read_to_end path limit =>
    match files path with
    | some (.File content) => some (content.take limit)
    | _ => none
  | .read_dir _ => none
  | .flistxattr _ => .Empty
  | .now_v7 => []
  | .create path _ => if (files path).isNone then .Done else .Exists
  | .write_all _ _ => true
  | .set_permissions _ _ => true
  | .sync_all _ => true
  | .rename_noreplace _ target => if (files target).isNone then .Done else .Exists
  | .rename _ _ => true
  | .unlink _ => ()

def Files.next (files : Files) : Request → Files
  | .create path _ => if (files path).isNone then update files path (some (.File [])) else files
  | .write_all path content =>
    match files path with
    | some (.File old) => update files path (some (.File (old ++ content)))
    | _ => files
  | .rename_noreplace source target =>
    if (files target).isNone then update (update files target (files source)) source none else files
  | .rename source target => update (update files target (files source)) source none
  | .unlink path => update files path none
  | _ => files

def Files.run {α : Type} : Files → Tool α → Files × α
  | files, .done value => (files,value)
  | files, .ask request next => (files.next request).run (next (files.answer request))

theorem next_changes {files : Files} {request : Request} :
    Changes files ⟨request,files.answer request⟩ (files.next request) := by
  cases request with
  | create path mode =>
    by_cases free : (files path).isNone = true
    · rw [show files.answer (.create path mode) = Placed.Done from if_pos free,
        show files.next (.create path mode) = update files path (some (.File [])) from if_pos free]
      exact ⟨Option.isNone_iff_eq_none.mp free,rfl⟩
    · rw [show files.answer (.create path mode) = Placed.Exists from if_neg free,show files.next (.create path mode) =
        files from if_neg free]
      rfl
  | rename_noreplace source target =>
    by_cases free : (files target).isNone = true
    · rw [show files.answer (.rename_noreplace source target) = Placed.Done from if_pos free,
        show files.next (.rename_noreplace source target) = update
          (update files target (files source)) source none
          from if_pos free]
      exact ⟨Option.isNone_iff_eq_none.mp free,rfl⟩
    · rw [show files.answer (.rename_noreplace source target) = Placed.Exists from if_neg free,
        show files.next (.rename_noreplace source target) = files from if_neg free]
      rfl
  | write_all path content =>
    simp only [Changes,Files.next]
    cases here : files path with
    | none => rfl
    | some stored =>
      cases stored with
      | File old => exact ⟨content,List.prefix_rfl,fun _ => rfl,rfl⟩
      | Other => rfl
  | read_to_end path limit =>
    refine ⟨rfl,fun bytes same => ?_⟩
    replace same : (match files path with | some (.File content) => some (content.take limit) | _ => none) =
      some bytes := same
    cases here : files path with
    | none => simp [here] at same
    | some stored =>
      cases stored with
      | File content =>
        simp only [here,Option.some.injEq] at same
        exact ⟨content,rfl,same.symm⟩
      | Other => simp [here] at same
  | _ => rfl

theorem run_follows {α : Type} {program : Tool α} : ∀ {files : Files}, ∃ trace,
    Runs program trace (files.run program).2 ∧ Follows Changes files trace (files.run program).1 := by
  induction program with
  | done value => exact fun {files} => ⟨[],.done value,.nil⟩
  | ask request next ih =>
    intro files
    obtain ⟨trace,runs,follows⟩ := @ih (files.answer request) (files.next request)
    exact ⟨⟨request,files.answer request⟩ :: trace,.ask runs,.cons next_changes follows⟩

def delivered : Outcome Text → Option Text
  | .ok (.ok text) => some text
  | _ => none

theorem Kept.delivered {files after : Files} {post : Text → Files → Prop} {outcome : Outcome Text}
    (kept : Kept files post outcome after)
    {text : Text} (given : delivered outcome = some text) : post text after := by
  match outcome with
  | .ok (.ok value) =>
    cases given
    exact kept
  | .ok (.error _) => cases given
  | .error _ => cases given

/-- A workdir with one file in it. -/
def oneFile : Files := fun path => if path = [] then some .Other else if path = [['a']] then
    some (.File (encode ['h','i'])) else none
def writeCall : Arguments := [("path",.String ['b']),("content",.String ['x'])]
def editCall : Arguments := [("path",.String ['a']),("old_string",.String ['i']),("new_string",.String ['o'])]

theorem new_file_and_edit :
    (Written writeCall oneFile (oneFile.run (write_file ⟨plainGlob,[]⟩ (some 1) (.ToolOperation 1 0) writeCall)).1 ∧
      delivered (oneFile.run (write_file ⟨plainGlob,[]⟩ (some 1) (.ToolOperation 1 0) writeCall)).2 =
        some "Created b (1 bytes).".toList) ∧
    Edited editCall oneFile
      (oneFile.run (edit_file ⟨plainGlob,[]⟩ ⟨plainGlob,[]⟩ (some 1) (.ToolOperation 1 0) editCall)).1 ∧
    delivered (oneFile.run (edit_file ⟨plainGlob,[]⟩ ⟨plainGlob,[]⟩ (some 1) (.ToolOperation 1 0) editCall)).2 =
      some "Updated a (1 replacements).".toList := by
  have written : delivered (oneFile.run (write_file ⟨plainGlob,[]⟩ (some 1) (.ToolOperation 1 0) writeCall)).2 =
      some "Created b (1 bytes).".toList := by decide +kernel
  have edited : delivered
    (oneFile.run (edit_file ⟨plainGlob,[]⟩ ⟨plainGlob,[]⟩ (some 1) (.ToolOperation 1 0) editCall)).2 =
      some "Updated a (1 replacements).".toList := by decide +kernel
  obtain ⟨writing,wrote,changed⟩ :=
    @run_follows _ (write_file ⟨plainGlob,[]⟩ (some 1) (.ToolOperation 1 0) writeCall) oneFile
  obtain ⟨editing,did,replaced⟩ :=
    @run_follows _ (edit_file ⟨plainGlob,[]⟩ ⟨plainGlob,[]⟩ (some 1) (.ToolOperation 1 0) editCall) oneFile
  exact ⟨⟨((calls_are_all_or_nothing changed _ _ _ _).1 _ wrote).delivered written,written⟩,
    ((calls_are_all_or_nothing replaced _ _ _ _).2 _ _ did).delivered edited,edited⟩

end Vyane.TrustedFiles
