import Vyane.Core
import Vyane.Interactions
import Vyane.Utf8

/-!
The trusted file tools of a native run (`trusted_files.rs`): which paths a policy leaves open, how a path is opened
component by component beneath the workdir, and the tools that read and search. Every step to the outside is a request;
an open file stands for the path it was opened at. Texts are their characters. Names that are not UTF-8 can only be
listed.
-/
namespace Vyane.TrustedFiles
open Vyane.Core Interactions Utf8

def MAX_READ_BYTES : Nat := 1024 * 1024
def MAX_SEARCH_FILES : Nat := 10000
def MAX_SEARCH_ENTRIES : Nat := 20000
def MAX_SEARCH_DEPTH : Nat := 32
def MAX_PATH_COMPONENTS : Nat := 32
def DEFAULT_SEARCH_RESULTS : Nat := 100
def MAX_SEARCH_RESULTS : Nat := 200
def MAX_QUERY_CHARS : Nat := 1024
def MAX_EXCLUDED_PATTERNS : Nat := 128
def MAX_EXCLUDED_PATTERN_BYTES : Nat := 4096
def MAX_EXCLUDED_TOTAL_BYTES : Nat := 64 * 1024
def MAX_TOOL_OUTPUT_CHARS : Nat := 30000
abbrev Text : Type := List Char
abbrev Name : Type := Text
abbrev Path : Type := List Name
def SEARCH_OUTPUT_LIMIT_MARKER : Text := "\n... [search output limit reached]".toList

/-! ### Paths -/

inductive Component where
  | RootDir
  | CurDir
  | ParentDir
  | Normal (name : Name)
deriving DecidableEq

/-- `split`, at one character. -/
def split (separator : Char) : Text → List Text
  | [] => [[]]
  | c :: rest =>
    if c = separator then [] :: split separator rest
    else
      match split separator rest with
      | [] => [[c]]
      | part :: parts => (c :: part) :: parts

/-- `Path::components`: doubled separators and inner dots are dropped. -/
def components (path : Text) : List Component :=
  let parts := split '/' path
  (if path.head? = some '/' then [.RootDir] else if parts.head? = some ['.'] then [.CurDir] else []) ++
    (parts.filter fun part => part ≠ [] ∧ part ≠ ['.']).map fun part => if part = ['.','.'] then .ParentDir
      else .Normal part

structure ToolError where
  message : String
deriving DecidableEq

/-- The loop over the components. -/
def checkComponents : List Component → Except ToolError Path
  | [] => .ok []
  | .Normal name :: rest => (checkComponents rest).map (name :: ·)
  | .CurDir :: rest => checkComponents rest
  | .ParentDir :: _ | .RootDir :: _ => .error ⟨"path traversal is not allowed"⟩

def checked_components (path : Text) (allow_root : Bool) : Except ToolError Path :=
  if path.head? = some '/' then .error ⟨"absolute paths are not allowed"⟩
  else
    match checkComponents (components path) with
    | .error error => .error error
    | .ok components =>
      if components.isEmpty && !allow_root then .error ⟨"file path must not be empty"⟩
      else if MAX_PATH_COMPONENTS < components.length then .error ⟨"path exceeds the component limit"⟩
      else .ok components

def display_components (components : Path) : Text := List.intercalate ['/'] components

/-! ### The policy -/

inductive NativeReadPolicyError where
  | TooManyPatterns
  | InvalidPattern
deriving DecidableEq, Repr

/-- `contains`, a text. -/
def contains (text pattern : Text) : Bool := text.tails.any pattern.isPrefixOf
/-- `strip_suffix`. -/
def stripEnd (suffix text : Text) : Option Text :=
  if suffix.isSuffixOf text then some (text.take (text.length - suffix.length)) else none

/-- What is wrong with a pattern by itself; `total_bytes` are those of all patterns so far. -/
def invalid_pattern (raw : Text) (total_bytes : Nat) : Bool :=
  raw.isEmpty || MAX_EXCLUDED_PATTERN_BYTES < (encode raw).length || MAX_EXCLUDED_TOTAL_BYTES < total_bytes ||
    raw.contains (Char.ofNat 0) || raw.contains '\\' || raw.head? == some '/' || raw.getLast? == some '/' ||
    contains raw ['/','/'] || (split '/' raw).any (fun component => component == ['.'] || component == ['.','.']) ||
    (components raw).any fun component => component == .CurDir || component == .ParentDir

/-- The globs of a pattern: itself, and what is below what it matches, or for a pattern that ends so what it is
    below. -/
def exclusionGlobs (pattern : Text) : List Text :=
  match stripEnd "/**".toList pattern with
  | some directory => if directory.isEmpty then [pattern] else [pattern,directory]
  | none => [pattern,pattern ++ "/**".toList]

section
variable (builds : Text → Bool) (setBuilds : List Text → Bool)

/-- The loop over the patterns; a glob can be refused by the library. -/
def compilePatterns (total_bytes : Nat) : List Text → Except NativeReadPolicyError (List Text)
  | [] => .ok []
  | raw :: rest =>
    let total_bytes := total_bytes + (encode raw).length
    if invalid_pattern raw total_bytes || !(exclusionGlobs raw).all builds then .error .InvalidPattern
    else (compilePatterns total_bytes rest).map (exclusionGlobs raw ++ ·)

def from_exclusions (exclude : List Text) : Except NativeReadPolicyError (List Text) :=
  if MAX_EXCLUDED_PATTERNS < exclude.length then .error .TooManyPatterns
  else
    match compilePatterns builds 0 exclude with
    | .error error => .error error
    | .ok excluded => if setBuilds excluded then .ok excluded else .error .InvalidPattern

end

/-- A policy in force: its globs, and how the library matches a glob with a path. -/
structure CompiledPathPolicy where
  glob : Text → Text → Bool
  excluded : List Text
def CompiledPathPolicy.allows (policy : CompiledPathPolicy) (components : Path) : Bool :=
  !policy.excluded.any (policy.glob · (display_components components))

/-! ### Requests -/

inductive Kind where
  | Directory
  | Regular
  | Symlink
  | Other
deriving DecidableEq, Repr

structure Metadata where
  kind : Kind
  dev : Nat
  ino : Nat
  size : Nat
  mode : Nat
  uid : Nat
  gid : Nat
  mtime : Int
  mtime_nsec : Int
  ctime : Int
  ctime_nsec : Int
deriving DecidableEq

/-- An entry as a directory gives it; name and type can be missing. -/
inductive DirEntry where
  | Unreadable
  | Named (name : Option Name) (file_type : Option Kind)
/-- A future that is done, or that was dropped while it was awaited. -/
inductive Awaited (α : Type) where
  | Ready (value : α)
  | Dropped

inductive Xattrs where
  | Empty
  | Present
  | Failed

/-- A call that says so if the name is taken. -/
inductive Placed where
  | Done
  | Exists
  | Failed

inductive Request where
  | revalidate (effect : NativeSideEffect)
  | is_cancelled
  | spawn_blocking
  | joinBlocking
  | try_clone
  | openPath (path : Path) (directory : Bool)
  | metadata (path : Path)
  | openRead (path : Path)
  | read_to_end (path : Path) (limit : Nat)
  | read_dir (path : Path)
  | flistxattr (path : Path)
  | now_v7
  | create (path : Path) (mode : Nat)
  | write_all (path : Path) (content : Bytes)
  | set_permissions (path : Path) (mode : Nat)
  | sync_all (path : Path)
  | rename_noreplace (source target : Path)
  | rename (source target : Path)
  | unlink (path : Path)

def Answer : Request → Type
  | .revalidate _ => Awaited (Except VyaneError Unit)
  | .is_cancelled => Bool
  | .spawn_blocking => Bool
  | .joinBlocking => Awaited Unit
  | .try_clone => Bool
  | .openPath _ _ => Bool
  | .metadata _ => Option Metadata
  | .openRead _ => Bool
  | .read_to_end _ _ => Option Bytes
  | .read_dir _ => Option (List DirEntry)
  | .flistxattr _ => Xattrs
  | .now_v7 => Text
  | .create _ _ => Placed
  | .write_all _ _ => Bool
  | .set_permissions _ _ => Bool
  | .sync_all _ => Bool
  | .rename_noreplace _ _ => Placed
  | .rename _ _ => Bool
  | .unlink _ => Unit

abbrev Tool (α : Type) : Type := Program Request Answer α
def perform (request : Request) : Tool (Answer request) := Program.request request

/-- Why a call has no result: an error that leaves it, or it was dropped, or a search that has not come to its end. -/
inductive Stop where
  | Failed (error : VyaneError)
  | Dropped
  | Running

/-- A result for the model, unless the call stops. -/
abbrev Outcome (α : Type) : Type := Except Stop (Except ToolError α)

section
variable {α β : Type}

def deny (message : String) : Tool (Outcome α) := pure (.ok (.error ⟨message⟩))
def give (value : α) : Tool (Outcome α) := pure (.ok (.ok value))

/-- The rest of a call, unless there is an error to return. -/
def take (first : Tool (Outcome α)) (next : α → Tool (Outcome β)) : Tool (Outcome β) :=
  first.and_then fun
    | .error error => pure (.ok (.error error))
    | .ok value => next value

def revalidate (effect : NativeSideEffect) : Tool (Except Stop Unit) := do
  match ← perform (.revalidate effect) with
  | .Dropped => pure (.error .Dropped)
  | .Ready (.error error) => pure (.error (.Failed error))
  | .Ready (.ok ()) => pure (.ok ())

/-- `tracked_blocking`: the operation runs to its end even if nobody waits for it any more; what it made is then
    dropped. There is no value if it could not be started. -/
def tracked_blocking (discard : α → Tool Unit) (operation : Tool α) : Tool (Except Stop (Option α)) := do
  match ← perform .spawn_blocking with
  | false => pure (.ok none)
  | true =>
    let value ← operation
    match ← perform .joinBlocking with
    | .Ready () => pure (.ok (some value))
    | .Dropped =>
      discard value
      pure (.error .Dropped)

/-- A blocking operation that leaves nothing behind, with the error for one that was not run. -/
def blocking (lost : String) (operation : Tool (Except ToolError α)) : Tool (Outcome α) :=
  (tracked_blocking (fun _ => pure ()) operation).and_then fun value => pure (.ok (value.getD (.error ⟨lost⟩)))

end

/-! ### Opening -/

def open_directory_component (expected_device : Nat) (path : Path) : Tool (Except ToolError Unit) := do
  match ← perform (.openPath path true) with
  | false => pure (.error ⟨"could not open requested workspace directory"⟩)
  | true =>
    match ← perform (.metadata path) with
    | none => pure (.error ⟨"could not inspect requested workspace directory"⟩)
    | some metadata =>
      if metadata.dev ≠ expected_device then
        pure (.error ⟨"requested workspace directory crosses a filesystem boundary"⟩)
      else pure (.ok ())

/-- The loop over the components, with the directory that is open. -/
def openComponents (device : Nat) (effect : NativeSideEffect) (directory : Path) : List Name → Tool (Outcome Path)
  | [] => give directory
  | component :: rest =>
    (revalidate effect).and_then fun _ =>
      take (blocking "could not open requested workspace directory"
        (open_directory_component device (directory ++ [component]))) fun _ =>
        openComponents device effect (directory ++ [component]) rest

def open_directory_components (device : Nat) (effect : NativeSideEffect) (components : Path) : Tool (Outcome Path) := do
  match ← perform .try_clone with
  | false => deny "could not duplicate pinned workspace handle"
  | true => openComponents device effect [] components

inductive EntryKind where
  | Directory
  | Regular
  | Other
deriving DecidableEq

def EntryKind.of : Kind → EntryKind
  | .Regular => .Regular
  | .Directory => .Directory
  | .Symlink | .Other => .Other

def inspect_entry (expected_device : Nat) (path : Path) : Tool (Except ToolError EntryKind) := do
  match ← perform (.openPath path false) with
  | false => pure (.error ⟨"could not open requested workspace entry"⟩)
  | true =>
    match ← perform (.metadata path) with
    | none => pure (.error ⟨"could not inspect requested workspace entry"⟩)
    | some metadata =>
      if metadata.dev ≠ expected_device then pure (.error ⟨"requested workspace entry crosses a filesystem boundary"⟩)
      else pure (.ok (.of metadata.kind))

/-- `inspect_components`; as `classify_entry` it gives the same without the open file. -/
def inspect_components (device : Nat) (effect : NativeSideEffect) (components : Path) : Tool (Outcome EntryKind) :=
  if components.isEmpty then deny "file path must not be empty"
  else
    take (open_directory_components device effect components.dropLast) fun _ =>
      (revalidate effect).and_then fun _ =>
        blocking "could not inspect requested workspace entry" (inspect_entry device components)

def reopen_for_read (path : Path) : Tool (Except ToolError Unit) := do
  match ← perform (.openRead path) with
  | false => pure (.error ⟨"could not open requested workspace file for reading"⟩)
  | true => pure (.ok ())

def open_regular_components (device : Nat) (effect : NativeSideEffect) (components : Path) : Tool (Outcome Unit) :=
  take (inspect_components device effect components) fun
    | .Regular => (revalidate effect).and_then fun _ =>
      blocking "could not open requested workspace file for reading" (reopen_for_read components)
    | .Directory | .Other => deny "requested path is not a regular file"

def read_utf8_bounded_blocking (path : Path) : Tool (Except ToolError Text) := do
  match ← perform (.read_to_end path (MAX_READ_BYTES + 1)) with
  | none => pure (.error ⟨"could not read requested workspace file"⟩)
  | some bytes =>
    if MAX_READ_BYTES < bytes.length then pure (.error ⟨"workspace file exceeds the read limit"⟩)
    else
      match from_utf8 bytes with
      | none => pure (.error ⟨"workspace file is not UTF-8 text"⟩)
      | some text => pure (.ok text)

def read_utf8_bounded (path : Path) : Tool (Outcome Text) :=
  blocking "could not read requested workspace file" (read_utf8_bounded_blocking path)

/-! ### Arguments -/

inductive Value where
  | String (text : Text)
  | Number (n : Nat)
  | Boolean (value : Bool)
  | Other

/-- The fields of a call; a number that is no `u64` is something else. -/
abbrev Arguments : Type := List (String × Value)
def Value.as_str : Value → Option Text
  | .String text => some text
  | _ => none
def Value.as_u64 : Value → Option Nat
  | .Number n => some n
  | _ => none
def Value.as_bool : Value → Option Bool
  | .Boolean value => some value
  | _ => none
def withoutNul (text : Text) : Bool := !text.contains (Char.ofNat 0)
def reject_unknown_arguments (arguments : Arguments) (allowed : List String) : Except ToolError Unit :=
  if arguments.any (!allowed.contains ·.1) then .error ⟨"tool call contains an unknown argument"⟩ else .ok ()

def required_string (arguments : Arguments) (name : String) : Except ToolError Text :=
  match ((arguments.lookup name).bind Value.as_str).filter withoutNul with
  | some text => .ok text
  | none => .error ⟨s!"argument `{name}` must be a string without NUL"⟩

def optional_string (arguments : Arguments) (name : String) (default : Text) : Except ToolError Text :=
  match arguments.lookup name with
  | none => .ok default
  | some value =>
    match value.as_str.filter withoutNul with
    | some text => .ok text
    | none => .error ⟨s!"argument `{name}` must be a string without NUL"⟩

def optional_usize (arguments : Arguments) (name : String) (default maximum : Nat) : Except ToolError Nat :=
  match arguments.lookup name with
  | none => .ok default
  | some value =>
    match value.as_u64.filter fun n => 1 ≤ n && n ≤ maximum with
    | some n => .ok n
    | none => .error ⟨s!"argument `{name}` must be an integer between 1 and {maximum}"⟩

def optional_bool (arguments : Arguments) (name : String) (default : Bool) : Except ToolError Bool :=
  match arguments.lookup name with
  | none => .ok default
  | some value =>
    match value.as_bool with
    | some value => .ok value
    | none => .error ⟨s!"argument `{name}` must be a boolean"⟩

/-- The rest of a call, unless an argument is wrong. -/
def checked {α β : Type} (first : Except ToolError α) (next : α → Tool (Outcome β)) : Tool (Outcome β) :=
  match first with
  | .error error => pure (.ok (.error error))
  | .ok value => next value

/-! ### `read_file` -/

/-- The device of the pinned workdir, if there is one. -/
abbrev Pinned : Type := Option Nat

def withPinned {β : Type} (pinned : Pinned) (next : Nat → Tool (Outcome β)) : Tool (Outcome β) :=
  match pinned with
  | none => deny "trusted filesystem tools require a pinned Linux workdir"
  | some device => next device

/-- The components of a path that the policy allows. -/
def allowedComponents (policy : CompiledPathPolicy) (path : Text) (allow_root : Bool) : Except ToolError Path :=
  match checked_components path allow_root with
  | .error error => .error error
  | .ok components =>
      if policy.allows components then .ok components else .error ⟨"workspace read policy denied this path"⟩

def read_file (policy : CompiledPathPolicy) (pinned : Pinned) (effect : NativeSideEffect) (arguments : Arguments) :
    Tool (Outcome Text) :=
  checked (reject_unknown_arguments arguments ["path"]) fun _ =>
    checked (required_string arguments "path") fun path =>
      withPinned pinned fun device =>
        checked (allowedComponents policy path false) fun components =>
          take (open_regular_components device effect components) fun _ => read_utf8_bounded components

/-! ### `search_files` -/

/-- An entry that can be read, is no link and has a name in UTF-8. -/
def usable : DirEntry → Option Name
  | .Named (some name) (some file_type) => if file_type = .Symlink then none else some name
  | _ => none

/-- The loop over the entries of a directory: names that can be used, and how many entries there are. -/
def listEntries (remaining : Nat) : List DirEntry → List Name → Nat → Except ToolError (List Name × Nat)
  | [], names, observed => .ok (names,observed)
  | entry :: rest, names, observed =>
    if observed = remaining then .error ⟨"search exceeded the workspace entry limit"⟩
    else listEntries remaining rest (names ++ (usable entry).toList) (observed + 1)

def listed (remaining : Nat) : Option (List DirEntry) → Except ToolError (List Name × Nat)
  | none => .error ⟨"could not enumerate requested workspace directory"⟩
  | some entries => listEntries remaining entries [] 0
def directory_entries_blocking (path : Path) (remaining : Nat) : Tool (Except ToolError (List Name × Nat)) := do
  let entries ← perform (.read_dir path)
  pure (listed remaining entries)
def directory_entries (path : Path) (remaining : Nat) : Tool (Outcome (List Name × Nat)) :=
  blocking "could not enumerate requested workspace directory" (directory_entries_blocking path remaining)

/-- What the walk has found so far. -/
structure Found where
  regular_paths : List Path
  visited_files : Nat
  visited_entries : Nat

section
variable (policy : CompiledPathPolicy) (device : Nat) (effect : NativeSideEffect)

/-- The loop over the entries of a directory, with the directories among them. -/
def visitEntries (directory : Path) (depth : Nat) : List Name → List Path → Found → Tool (Outcome (List Path × Found))
  | [], children, found => give (children,found)
  | entry :: rest, children, found =>
    let relative := directory ++ [entry]
    if !policy.allows relative || MAX_PATH_COMPONENTS < relative.length then
      visitEntries directory depth rest children found
    else
      (inspect_components device effect relative).and_then fun
        | .ok .Directory => visitEntries directory depth rest (if depth < MAX_SEARCH_DEPTH then children ++ [relative]
            else children) found
        | .ok .Regular =>
          if MAX_SEARCH_FILES < found.visited_files + 1 then deny "search exceeded the workspace file limit"
          else visitEntries directory depth rest children { found with
            regular_paths := found.regular_paths ++ [relative]
            visited_files := found.visited_files + 1 }
        | .ok .Other | .error _ => visitEntries directory depth rest children found

/-- `OsString` names compare by their bytes, as characters do. -/
def sortedNames (names : List Name) : List Name := names.insertionSort (· ≤ ·)
def sortedPaths (paths : List Path) : List Path := paths.insertionSort (· ≤ ·)

/-- The walk over the directories; the first of the pending ones is on top. -/
def walkDirectories : Nat → List (Path × Nat) → Found → Tool (Outcome (List Path))
  | _, [], found => give found.regular_paths
  | 0, _ :: _, _ => pure (.error .Running)
  | rounds + 1, (directory,depth) :: pending, found => do
    match ← perform .is_cancelled with
    | true => deny "search cancelled"
    | false =>
      take (open_directory_components device effect directory) fun _ =>
        (revalidate effect).and_then fun _ =>
          take (directory_entries directory (MAX_SEARCH_ENTRIES - found.visited_entries)) fun (entries,observed) =>
            take (visitEntries policy device effect directory depth (sortedNames entries) []
                { found with visited_entries := found.visited_entries + observed }) fun (children,found) =>
              walkDirectories rounds (children.map (·,depth + 1) ++ pending) found

end

def lines (text : Text) : List Text := Vyane.Text.lines '\n' '\r' text

def truncate_to_chars (value : Text) (limit : Nat) : Text := if limit < value.length then value.take limit else value
def append_up_to_chars (output value : Text) (limit : Nat) : Text :=
  if value.length ≤ limit then output ++ value else output ++ value.take limit

/-- The output with one more match, and whether there was room for it. -/
def append_search_match (output path : Text) (line_number : Nat) (line : Text) : Text × Bool :=
  let separator := if output.isEmpty then [] else ['\n']
  let head := separator ++ path ++ ':' :: (toString line_number).toList ++ [':']
  if output.length + (head.length + line.length) ≤ MAX_TOOL_OUTPUT_CHARS then (output ++ head ++ line,true)
  else
    let content_limit := MAX_TOOL_OUTPUT_CHARS - SEARCH_OUTPUT_LIMIT_MARKER.length
    let output := truncate_to_chars output content_limit
    let output := append_up_to_chars output head (content_limit - output.length)
    let output := append_up_to_chars output line (content_limit - output.length)
    (output ++ SEARCH_OUTPUT_LIMIT_MARKER,false)

/-- The loop over the lines of a file; what is on the left is returned. -/
def searchLines (query : Text) (max_results : Nat) (path : Text) : List Text → Nat → Text → Nat → Text ⊕ (Text × Nat)
  | [], _, output, match_count => .inr (output,match_count)
  | line :: rest, index, output, match_count =>
    if contains line query then
      let appended := append_search_match output path (index + 1) line
      if !appended.2 || match_count + 1 == max_results then .inl appended.1
      else searchLines query max_results path rest (index + 1) appended.1 (match_count + 1)
    else searchLines query max_results path rest (index + 1) output match_count

def noMatches : Text := "No matches found.".toList

/-- The loop over the files; a file that cannot be read as text is passed over. -/
def searchContents (device : Nat) (effect : NativeSideEffect) (query : Text) (max_results : Nat) : List Path → Text →
    Nat → Tool (Outcome Text)
  | [], output, _ => give (if output.isEmpty then noMatches else output)
  | relative :: rest, output, match_count => do
    match ← perform .is_cancelled with
    | true => deny "search cancelled"
    | false =>
      (open_regular_components device effect relative).and_then fun
        | .error _ => searchContents device effect query max_results rest output match_count
        | .ok () =>
          (read_utf8_bounded relative).and_then fun
            | .error _ => searchContents device effect query max_results rest output match_count
            | .ok text =>
              match searchLines query max_results (display_components relative) (lines text) 0 output match_count with
              | .inl output => give output
              | .inr (output,match_count) => searchContents device effect query max_results rest output match_count

def queryArgument (arguments : Arguments) : Except ToolError Text :=
  match required_string arguments "query" with
  | .error error => .error error
  | .ok query =>
    if query.isEmpty || MAX_QUERY_CHARS < query.length then .error ⟨"query must contain between 1 and 1024 characters"⟩
      else .ok query

/-- Each directory that is walked was an entry of another, so that many rounds are enough. -/
def search_files (policy : CompiledPathPolicy) (pinned : Pinned) (effect : NativeSideEffect) (arguments : Arguments) :
    Tool (Outcome Text) :=
  checked (reject_unknown_arguments arguments ["query","path","max_results"]) fun _ =>
    checked (queryArgument arguments) fun query =>
      checked (optional_string arguments "path" ['.']) fun path =>
        checked (optional_usize arguments "max_results" DEFAULT_SEARCH_RESULTS MAX_SEARCH_RESULTS) fun max_results =>
          withPinned pinned fun device =>
            checked (allowedComponents policy path true) fun root =>
              take (walkDirectories policy device effect (MAX_SEARCH_ENTRIES + 1) [(root,0)] ⟨[],0,0⟩)
                fun regular_paths =>
                searchContents device effect query max_results (sortedPaths regular_paths) [] 0

end Vyane.TrustedFiles
