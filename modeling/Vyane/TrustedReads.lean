import Mathlib.Data.List.Sort
import Vyane.TrustedFiles
import Vyane.Worlds

/-!
What the reading tools can tell about a workspace. They ask only about paths that the policy leaves open, and see the
entries of a directory in one order; so two workspaces that differ only at or below excluded paths are the same to them.
-/
namespace Vyane.TrustedFiles
open Vyane.Core Interactions Interactions.Program Utf8 List

/-! ### Workspaces -/

structure Node where
  metadata : Metadata
  content : Bytes
deriving DecidableEq

/-- What is at each path, and the names in each directory; a name that is not UTF-8 has none here. -/
structure Workspace where
  node : Path → Option Node
  listing : Path → List (Option Name)
def Workspace.kind (workspace : Workspace) (path : Path) : Option Kind := (workspace.node path).map (·.metadata.kind)
def Workspace.opens (workspace : Workspace) (path : Path) (directory : Bool) : Bool :=
  (workspace.kind path).any fun kind => !directory || kind == .Directory
def Workspace.entries (workspace : Workspace) (path : Path) : Option (List DirEntry) :=
  if workspace.kind path = some .Directory then
    some ((workspace.listing path).map fun name => .Named name (name.bind fun name => workspace.kind (path ++ [name])))
  else none

/-- The answers of a workspace that is only read. -/
def Workspace.answer (workspace : Workspace) : (request : Request) → Answer request
  | .revalidate _ => .Ready (.ok ())
  | .is_cancelled => false
  | .spawn_blocking => true
  | .joinBlocking => .Ready ()
  | .try_clone => true
  | .openPath path directory => workspace.opens path directory
  | .metadata path => (workspace.node path).map (·.metadata)
  | .openRead path => (workspace.node path).isSome
  | .read_to_end path limit => (workspace.node path).map (·.content.take limit)
  | .read_dir path => workspace.entries path
  | .flistxattr _ => .Empty
  | .now_v7 => []
  | .create _ _ => .Failed
  | .write_all _ _ => false
  | .set_permissions _ _ => false
  | .sync_all _ => false
  | .rename_noreplace _ _ => .Failed
  | .rename _ _ => false
  | .unlink _ => ()

/-- What comes from elsewhere at any step, in the light of what was asked so far: revoked authority, cancellation,
    failures. -/
abbrev Environment : Type := List Request → (request : Request) → Option (Answer request)
def Workspace.world (workspace : Workspace) (environment : Environment) : World Request Answer := fun past request =>
  (environment (past.map Sigma.fst) request).getD (workspace.answer request)

/-! ### Exclusion -/

/-- The path, or one of its ancestors inside the workspace, matches an exclude pattern. -/
def Excluded (glob : Text → Text → Bool) (exclude : List Text) (path : Path) : Prop :=
  ∃ front rest, path = front ++ rest ∧ front ≠ [] ∧ ∃ pattern ∈ exclude, glob pattern (display_components front) = true

/-- How patterns with a trailing `/**` match: everything below what the pattern before it matches, and with a path
    everything below it. -/
structure Documented (glob : Text → Text → Bool) : Prop where
  below : ∀ pattern front rest, front ≠ [] → rest ≠ [] → glob pattern (display_components front) = true →
    glob (pattern ++ "/**".toList) (display_components (front ++ rest)) = true
  closed : ∀ pattern front rest, glob (pattern ++ "/**".toList) (display_components front) = true →
    glob (pattern ++ "/**".toList) (display_components (front ++ rest)) = true

variable {glob : Text → Text → Bool} {exclude : List Text} {builds : Text → Bool} {one two : Workspace}

theorem Excluded.append {path : Path} (excluded : Excluded glob exclude path) (more : Path) :
    Excluded glob exclude (path ++ more) := by
  obtain ⟨front,rest,rfl,someFront,matched⟩ := excluded
  exact ⟨front,rest ++ more,by simp,someFront,matched⟩

theorem compilePatterns_mem : ∀ {exclude excluded : List Text} {total : Nat},
    compilePatterns builds total exclude = .ok excluded → ∀ pattern ∈ exclude, ∀ glob ∈ exclusionGlobs pattern,
      glob ∈ excluded := by
  intro exclude
  induction exclude with
  | nil => exact fun _ _ here => absurd here not_mem_nil
  | cons raw rest ih =>
    intro excluded total compiled
    rw [compilePatterns] at compiled
    split_ifs at compiled
    cases more : compilePatterns builds (total + (encode raw).length) rest with
    | error error => simp [more,Except.map] at compiled
    | ok globs =>
      simp only [more,Except.map,Except.ok.injEq] at compiled
      subst compiled
      refine forall_mem_cons.mpr ⟨fun glob here => mem_append_left _ here,fun pattern inside glob here => ?_⟩
      exact mem_append_right _ (ih more pattern inside glob here)

variable {setBuilds : List Text → Bool} {exclude excluded : List Text}

theorem from_exclusions_mem (valid : from_exclusions builds setBuilds exclude = .ok excluded) :
    ∀ pattern ∈ exclude, ∀ glob ∈ exclusionGlobs pattern, glob ∈ excluded := by
  unfold from_exclusions at valid
  split_ifs at valid
  split at valid
  · cases valid
  · rename_i globs compiled
    split_ifs at valid
    cases valid
    exact compilePatterns_mem compiled

theorem stripEnd_eq_some {suffix text front : Text} (stripped : stripEnd suffix text = some front) :
    text = front ++ suffix := by
  unfold stripEnd at stripped
  split_ifs at stripped with ends
  obtain ⟨begins,rfl⟩ := isSuffixOf_iff_suffix.mp ends
  cases stripped
  simp

/-- Whatever is excluded the compiled policy denies: a pattern that does not end in `/**` is compiled with that ending
    too. -/
theorem allows_not_excluded (documented : Documented glob)
    (valid : from_exclusions builds setBuilds exclude = .ok excluded) {path : Path}
    (allowed : CompiledPathPolicy.allows ⟨glob,excluded⟩ path = true) : ¬Excluded glob exclude path := by
  rintro ⟨front,rest,rfl,someFront,pattern,listed,matched⟩
  have unmatched : ∀ compiled ∈ exclusionGlobs pattern, glob compiled (display_components (front ++ rest)) = false := by
    intro compiled here
    simp only [CompiledPathPolicy.allows,Bool.not_eq_true',any_eq_false,Bool.not_eq_true] at allowed
    exact allowed compiled (from_exclusions_mem valid pattern listed compiled here)
  have itself : pattern ∈ exclusionGlobs pattern := by
    unfold exclusionGlobs
    split <;> [split_ifs; skip] <;> simp
  have someRest : rest ≠ [] := by
    rintro rfl
    rw [append_nil] at unmatched
    exact absurd matched (by simp [unmatched pattern itself])
  cases stripped : stripEnd "/**".toList pattern with
  | some directory =>
    have ending := stripEnd_eq_some stripped
    have matchesBelow := documented.closed directory front rest (ending ▸ matched)
    rw [← ending] at matchesBelow
    simp [unmatched pattern itself] at matchesBelow
  | none =>
    have matchesBelow := documented.below pattern front rest someFront someRest matched
    have compiled : pattern ++ "/**".toList ∈ exclusionGlobs pattern := by
      rw [exclusionGlobs,stripped]
      exact mem_cons_of_mem _ (mem_singleton_self _)
    rw [unmatched _ compiled] at matchesBelow
    cases matchesBelow

/-! ### What is asked -/

/-- Questions about paths that can be seen; the order of the entries of a directory is left out. -/
def Exact (visible : Path → Prop) : Request → Prop
  | .revalidate _ | .is_cancelled | .spawn_blocking | .joinBlocking | .try_clone => True
  | .openPath path _ | .metadata path | .openRead path | .read_to_end path _ => visible path
  | _ => False

def Asks (visible : Path → Prop) : Request → Prop
  | .read_dir path => visible path
  | request => Exact visible request
/-- Answers that are the same: entries may come in another order. -/
def Alike : (request : Request) → Answer request → Answer request → Prop
  | .read_dir _, one, two => Option.Rel List.Perm one two
  | _, one, two => one = two

section
variable {visible : Path → Prop} {device : Nat} {effect : NativeSideEffect} {α β : Type} {allowed : Request → Prop}
  {path : Path} {components : Path}

theorem blind_of_exact {program : Tool α} (only : program.Only (Exact visible)) :
    program.Blind (Asks visible) Alike fun _ => True := by
  refine blind_of_only only (fun request exact => ?_) (fun request exact one two alike => ?_)
  · cases request <;> first | exact exact.elim | exact exact
  · cases request <;> first | exact alike | exact exact.elim

theorem take_only {first : Tool (Outcome α)} {next : α → Tool (Outcome β)} (started : first.Only allowed)
    (rest : ∀ value, (next value).Only allowed) : (take first next).Only allowed := by
  refine only_and_then started fun value => ?_
  cases value with
  | error error => trivial
  | ok value => exact rest value

theorem revalidate_only : (revalidate effect).Only (Exact visible) := by
  refine ⟨trivial,fun answer => ?_⟩
  match answer with
  | .Dropped | .Ready (.error _) | .Ready (.ok ()) => trivial

theorem blocking_only {lost : String} {operation : Tool (Except ToolError α)} (starts : allowed .spawn_blocking)
    (ends : allowed .joinBlocking) (only : operation.Only allowed) : (blocking lost operation).Only allowed := by
  refine only_and_then (only_bind (only_request starts) fun spawned => ?_) fun _ => trivial
  match spawned with
  | false => trivial
  | true =>
    refine only_bind only fun value => only_bind (only_request ends) fun joined => ?_
    match joined with
    | .Ready () | .Dropped => trivial

theorem open_directory_component_only (seen : visible path) : (open_directory_component device path).Only
    (Exact visible) := by
  refine ⟨seen,fun opened => ?_⟩
  match opened with
  | false => trivial
  | true =>
    refine ⟨seen,fun metadata => ?_⟩
    match metadata with
    | none => trivial
    | some metadata => exact only_ite trivial trivial

theorem inspect_entry_only (seen : visible path) : (inspect_entry device path).Only (Exact visible) := by
  refine ⟨seen,fun opened => ?_⟩
  match opened with
  | false => trivial
  | true =>
    refine ⟨seen,fun metadata => ?_⟩
    match metadata with
    | none => trivial
    | some metadata => exact only_ite trivial trivial

theorem read_utf8_bounded_only (seen : visible path) : (read_utf8_bounded path).Only (Exact visible) := by
  refine blocking_only trivial trivial ⟨seen,fun bytes => ?_⟩
  match bytes with
  | none => trivial
  | some bytes => exact only_ite trivial (by cases from_utf8 bytes <;> trivial)

variable (closed : ∀ front rest, visible (front ++ rest) → visible front)
include closed
theorem openComponents_only : ∀ {components directory : Path}, visible (directory ++ components) →
    (openComponents device effect directory components).Only (Exact visible) := by
  intro components
  induction components with
  | nil => exact fun _ => trivial
  | cons component rest ih =>
    intro directory seen
    rw [append_cons] at seen
    exact only_and_then revalidate_only fun _ =>
      take_only (blocking_only trivial trivial (open_directory_component_only (closed _ rest seen))) fun _ => ih seen

theorem open_directory_components_only (seen : visible components) :
    (open_directory_components device effect components).Only (Exact visible) := by
  refine ⟨trivial,fun cloned => ?_⟩
  match cloned with
  | false => trivial
  | true => exact openComponents_only closed seen

theorem inspect_components_only (seen : visible components) :
    (inspect_components device effect components).Only (Exact visible) := by
  unfold inspect_components
  split_ifs with empty
  · trivial
  · have parts := dropLast_append_getLast (fun nothing => empty (isEmpty_iff.mpr nothing))
    refine take_only (open_directory_components_only closed
      (closed _ [components.getLast _] (by rw [parts]; exact seen))) fun _ => ?_
    exact only_and_then revalidate_only fun _ => blocking_only trivial trivial (inspect_entry_only seen)

theorem open_regular_components_only (seen : visible components) :
    (open_regular_components device effect components).Only (Exact visible) := by
  refine take_only (inspect_components_only closed seen) fun kind => ?_
  cases kind with
  | Regular =>
    refine only_and_then revalidate_only fun _ => blocking_only trivial trivial ⟨seen,fun opened => ?_⟩
    match opened with
    | false | true => trivial
  | Directory => trivial
  | Other => trivial

end

/-! ### Entries in any order -/

/-- The loop over the entries counts them all and keeps the usable names. -/
theorem listEntries_eq {remaining : Nat} : ∀ {entries : List DirEntry} {names : List Name} {observed : Nat},
    observed ≤ remaining →
    listEntries remaining entries names observed =
      if remaining < observed + entries.length then .error ⟨"search exceeded the workspace entry limit"⟩
      else .ok (names ++ entries.filterMap usable,observed + entries.length) := by
  intro entries
  induction entries with
  | nil =>
    intro names observed room
    rw [listEntries,if_neg (by simpa using room)]
    simp
  | cons entry rest ih =>
    intro names observed room
    rw [listEntries]
    by_cases full : observed = remaining
    · rw [if_pos full,if_pos (by rw [length_cons]; omega)]
    · rw [if_neg full,ih (by omega),length_cons,show observed + 1 + rest.length = observed + (rest.length + 1) by omega]
      cases kept : usable entry <;> simp [kept]

/-- Entries in another order give the same names in another order. -/
theorem listEntries_perm {remaining : Nat} {one two : List DirEntry} (perm : one.Perm two) :
    (∃ error, listEntries remaining one [] 0 = .error error ∧ listEntries remaining two [] 0 = .error error) ∨
    ∃ names others observed, listEntries remaining one [] 0 = .ok (names,observed) ∧ listEntries remaining two
      [] 0 = .ok (others,observed) ∧
      names.Perm others := by
  rw [listEntries_eq (Nat.zero_le _),listEntries_eq (Nat.zero_le _),perm.length_eq]
  split_ifs
  · exact .inl ⟨_,rfl,rfl⟩
  · exact .inr ⟨_,_,_,rfl,rfl,perm.filterMap _⟩

theorem sortedNames_perm {names others : List Name} (perm : names.Perm others) :
    sortedNames names = sortedNames others :=
  List.Perm.eq_of_pairwise (fun _ _ _ _ first second => le_antisymm first second) (pairwise_insertionSort _ _)
    (pairwise_insertionSort _ _) (((perm_insertionSort _ _).trans perm).trans (perm_insertionSort _ _).symm)

/-! ### The tools are blind -/

/-- A value for the model is so. -/
def Gives {α : Type} (post : α → Prop) (outcome : Outcome α) : Prop := ∀ value, outcome = .ok (.ok value) → post value

section
variable {visible : Path → Prop} {device : Nat} {effect : NativeSideEffect} {α β γ : Type} {post : β → Prop}
  {next : α → Tool (Outcome β)} {arguments : Arguments}

theorem give_blind {value : β} (holds : post value) : (give value).Blind (Asks visible) Alike (Gives post) := by
  intro other same
  cases same
  exact holds

theorem take_blind {first : Tool (Outcome α)} (blind : first.Blind (Asks visible) Alike (Gives fun value =>
      (next value).Blind (Asks visible) Alike (Gives post))) :
    (take first next).Blind (Asks visible) Alike (Gives post) := by
  refine blind_bind (blind.weaken fun outcome gives => ?_)
  match outcome with
  | .error stop => exact blind_pure nofun
  | .ok (.error error) => exact blind_pure nofun
  | .ok (.ok value) => exact gives value rfl

theorem and_then_blind {first : Tool (Except Stop α)} (blind : first.Blind (Asks visible) Alike fun _ => True)
    (rest : ∀ value, (next value).Blind (Asks visible) Alike (Gives post)) :
    (first.and_then next).Blind (Asks visible) Alike (Gives post) := by
  refine blind_bind (blind.weaken fun outcome _ => ?_)
  cases outcome with
  | error stop => exact blind_pure nofun
  | ok value => exact rest value

theorem checked_blind {first : Except ToolError α}
    (rest : ∀ value, first = .ok value → (next value).Blind (Asks visible) Alike (Gives post)) :
    (checked first next).Blind (Asks visible) Alike (Gives post) := by
  cases first with
  | error error => exact blind_pure nofun
  | ok value => exact rest value rfl

/-- What follows when the entries were listed. -/
def afterListing (next : List Name × Nat → Tool (Outcome β)) (value : Except ToolError (List Name × Nat)) :
    Tool (Outcome β) := do
  match ← perform .joinBlocking with
  | .Dropped => pure (.error .Dropped)
  | .Ready () =>
    match value with
    | .error error => pure (.ok (.error error))
    | .ok value => next value

theorem take_directory_entries (path : Path) (remaining : Nat) (next : List Name × Nat → Tool (Outcome β)) :
    take (directory_entries path remaining) next = Program.ask Request.spawn_blocking fun
      | false => pure (.ok (.error ⟨"could not enumerate requested workspace directory"⟩))
      | true => Program.ask (.read_dir path) fun entries => afterListing next (listed remaining entries) := by
  refine congrArg (Program.ask Request.spawn_blocking) (funext fun spawned => ?_)
  match spawned with
  | false => rfl
  | true =>
    refine congrArg (Program.ask (Request.read_dir path)) (funext fun entries =>
      congrArg (Program.ask Request.joinBlocking) (funext fun joined => ?_))
    match joined with
    | .Dropped => rfl
    | .Ready () =>
      generalize listed remaining entries = value
      cases value <;> rfl

theorem directory_entries_blind {path : Path} {remaining : Nat} {next : List Name × Nat → Tool (Outcome β)}
    (seen : visible path) (unordered : ∀ one two observed, one.Perm two → next (one,observed) = next (two,observed))
    (rest : ∀ value, (next value).Blind (Asks visible) Alike (Gives post)) :
    (take (directory_entries path remaining) next).Blind (Asks visible) Alike (Gives post) := by
  rw [take_directory_entries]
  refine ⟨trivial,fun one two same => by cases same; rfl,fun spawned => ?_⟩
  match spawned with
  | false => exact blind_pure nofun
  | true =>
    refine ⟨seen,fun one two alike => ?_,fun entries =>
      ⟨trivial,fun one two same => by cases same; rfl,fun joined => ?_⟩⟩
    · cases alike with
      | none => rfl
      | some perm =>
        rcases listEntries_perm perm with ⟨error,first,second⟩ | ⟨names,others,observed,first,second,perm⟩
        · show afterListing next (listEntries _ _ _ _) = afterListing next (listEntries _ _ _ _)
          rw [first,second]
        · show afterListing next (listEntries _ _ _ _) = afterListing next (listEntries _ _ _ _)
          rw [first,second]
          simp only [afterListing,unordered names others observed perm]
    · match joined with
      | .Dropped => exact blind_pure nofun
      | .Ready () =>
        show Program.Blind _ _ (match listed remaining entries with | .error error => _ | .ok value => _) _
        cases listed remaining entries with
        | error error => exact blind_pure nofun
        | ok value => exact rest value

variable {policy : CompiledPathPolicy} (closed : ∀ front rest, visible (front ++ rest) → visible front)
  (shown : ∀ path, policy.allows path = true → visible path)
include closed shown
theorem visitEntries_blind {directory : Path} {depth : Nat} : ∀ {entries : List Name} {children : List Path}
    {found : Found},
    (∀ child ∈ children, visible child) → (∀ path ∈ found.regular_paths, visible path) →
      (visitEntries policy device effect directory depth entries children found).Blind (Asks visible) Alike
        (Gives fun value => (∀ child ∈ value.1, visible child) ∧ ∀ path ∈ value.2.regular_paths, visible path) := by
  intro entries
  induction entries with
  | nil => exact fun seen known => give_blind ⟨seen,known⟩
  | cons entry rest ih =>
    intro children found seen known
    rw [visitEntries]
    split
    · exact ih seen known
    · rename_i skipped
      have allowed : visible (directory ++ [entry]) := shown _ (by simp at skipped; exact skipped.1)
      refine and_then_blind (blind_of_exact (inspect_components_only closed allowed)) fun kind => ?_
      have more : ∀ {paths : List Path}, (∀ path ∈ paths, visible path) → ∀ path ∈ paths ++ [directory ++ [entry]],
        visible path := by
        intro paths seen path here
        rcases mem_append.mp here with old | new
        · exact seen path old
        · exact mem_singleton.mp new ▸ allowed
      match kind with
      | .error error => exact ih seen known
      | .ok .Other => exact ih seen known
      | .ok .Directory =>
        refine ih (fun child here => ?_) known
        split_ifs at here
        · exact more seen child here
        · exact seen child here
      | .ok .Regular =>
        show Program.Blind _ _ (if _ then _ else _) _
        split_ifs
        · exact blind_pure nofun
        · exact ih seen (more known)

theorem walkDirectories_blind : ∀ {rounds : Nat} {pending : List (Path × Nat)} {found : Found},
    (∀ item ∈ pending, visible item.1) →
    (∀ path ∈ found.regular_paths, visible path) →
      (walkDirectories policy device effect rounds pending found).Blind (Asks visible) Alike
      (Gives fun paths => ∀ path ∈ paths, visible path) := by
  intro rounds
  induction rounds with
  | zero =>
    intro pending found seen known
    cases pending with
    | nil => exact give_blind known
    | cons item pending => exact blind_pure nofun
  | succ rounds ih =>
    intro pending found seen known
    cases pending with
    | nil => exact give_blind known
    | cons item pending =>
      obtain ⟨directory,depth⟩ := item
      have here : visible directory := seen _ mem_cons_self
      refine ⟨trivial,fun one two same => by cases same; rfl,fun is_cancelled => ?_⟩
      match is_cancelled with
      | true => exact blind_pure nofun
      | false =>
        refine take_blind ((blind_of_exact (open_directory_components_only closed here)).weaken fun _ _ _ _ => ?_)
        refine and_then_blind (blind_of_exact revalidate_only) fun _ => ?_
        refine directory_entries_blind here (fun one two observed perm => ?_) fun value => ?_
        · show take (visitEntries policy device effect directory depth (sortedNames one) _ _) _ =
            take (visitEntries policy device effect directory depth (sortedNames two) _ _) _
          rw [sortedNames_perm perm]
        · have blind := @visitEntries_blind visible device effect policy closed shown directory depth
            (sortedNames value.1) []
            { found with visited_entries := found.visited_entries + value.2 } (forall_mem_nil _) known
          refine take_blind (blind.weaken fun outcome gives visited same => ?_)
          obtain ⟨children,regular⟩ := gives visited same
          refine ih (fun item inside => ?_) regular
          rcases mem_append.mp inside with new | old
          · obtain ⟨child,listed,rfl⟩ := mem_map.mp new
            exact children child listed
          · exact seen item (mem_cons_of_mem _ old)

omit shown in
theorem searchContents_blind {query : Text} {max_results : Nat} : ∀ {paths : List Path} {output : Text}
    {match_count : Nat},
    (∀ path ∈ paths, visible path) →
      (searchContents device effect query max_results paths output match_count).Blind (Asks visible) Alike
      (Gives fun _ => True) := by
  intro paths
  induction paths with
  | nil => exact fun _ => give_blind trivial
  | cons relative rest ih =>
    intro output match_count seen
    obtain ⟨here,later⟩ := forall_mem_cons.mp seen
    refine ⟨trivial,fun one two same => by cases same; rfl,fun is_cancelled => ?_⟩
    cases (is_cancelled : Bool) with
    | true => exact blind_pure fun _ same => by cases same
    | false =>
      refine and_then_blind (blind_of_exact (open_regular_components_only closed here)) fun opened => ?_
      cases opened with
      | error error => exact ih later
      | ok =>
        refine and_then_blind (blind_of_exact (read_utf8_bounded_only here)) fun text => ?_
        cases text with
        | error error => exact ih later
        | ok text =>
          dsimp only
          cases searchLines query max_results (display_components relative) (lines text) 0 output match_count with
          | inl output => exact give_blind trivial
          | inr state => exact ih later

omit closed in
theorem allowedComponents_visible {path : Text} {allow_root : Bool} {components : Path}
    (allowed : allowedComponents policy path allow_root = .ok components) : visible components := by
  unfold allowedComponents at allowed
  split at allowed
  · cases allowed
  · split_ifs at allowed with fits
    cases allowed
    exact shown _ fits

theorem read_file_blind {pinned : Pinned} :
    (read_file policy pinned effect arguments).Blind (Asks visible) Alike (Gives fun _ => True) := by
  refine checked_blind fun _ _ => checked_blind fun path _ => ?_
  cases pinned with
  | none => exact blind_pure nofun
  | some device =>
    refine checked_blind fun components allowed => ?_
    have seen := allowedComponents_visible shown allowed
    refine take_blind ((blind_of_exact (open_regular_components_only closed seen)).weaken fun _ _ _ _ => ?_)
    exact (blind_of_exact (read_utf8_bounded_only seen)).weaken fun _ _ _ _ => trivial

theorem search_files_blind {pinned : Pinned} :
    (search_files policy pinned effect arguments).Blind (Asks visible) Alike (Gives fun _ => True) := by
  refine checked_blind fun _ _ => checked_blind fun query _ => checked_blind fun path _ =>
    checked_blind fun max_results _ => ?_
  cases pinned with
  | none => exact blind_pure nofun
  | some device =>
    refine checked_blind fun root allowed => ?_
    have seen : ∀ item ∈ [(root,0)], visible item.1 := by
      intro item here
      rw [mem_singleton.mp here]
      exact allowedComponents_visible shown allowed
    refine take_blind ((walkDirectories_blind closed shown seen (forall_mem_nil _)).weaken
      fun outcome gives paths same => ?_)
    exact searchContents_blind closed fun path here => gives paths same path ((perm_insertionSort _ _).mem_iff.mp here)

end

/-! ### Two workspaces -/

/-- The workspaces have the same entries outside the excluded paths, and the same names and kinds at these. -/
structure Agree (glob : Text → Text → Bool) (exclude : List Text) (one two : Workspace) : Prop where
  outside : ∀ path, ¬Excluded glob exclude path → one.node path = two.node path
  names : ∀ path, ¬Excluded glob exclude path → (one.listing path).Perm (two.listing path)
  kinds : ∀ path, Excluded glob exclude path → one.kind path = two.kind path

theorem Agree.kind (agree : Agree glob exclude one two) (path : Path) :
    one.kind path = two.kind path := by
  by_cases excluded : Excluded glob exclude path
  · exact agree.kinds path excluded
  · rw [Workspace.kind,Workspace.kind,agree.outside path excluded]

theorem Agree.alike (agree : Agree glob exclude one two)
    (request : Request) (asked : Asks (fun path => ¬Excluded glob exclude path) request) :
    Alike request (one.answer request) (two.answer request) := by
  cases request with
  | openPath path directory => exact congrArg (Option.any _) (agree.kind path)
  | metadata path => exact congrArg (Option.map Node.metadata) (agree.outside path asked)
  | openRead path => exact congrArg Option.isSome (agree.outside path asked)
  | read_to_end path limit =>
      exact congrArg (Option.map fun node : Node => node.content.take limit) (agree.outside path asked)
  | read_dir path =>
    have kinds : two.kind = one.kind := funext fun path => (agree.kind path).symm
    show Option.Rel List.Perm (one.entries path) (two.entries path)
    rw [Workspace.entries,Workspace.entries,kinds]
    split_ifs
    · exact .some ((agree.names path asked).map _)
    · exact .none
  | _ => rfl

theorem alike_refl (request : Request) (answer : Answer request) : Alike request answer answer := by
  cases request with
  | read_dir path =>
    cases (answer : Option (List DirEntry)) with
    | none => exact .none
    | some entries => exact .some (.refl _)
  | _ => rfl

theorem world_alike (agree : Agree glob exclude one two) (environment : Environment)
    (past past' : List (Event Request Answer)) (same : past.map Sigma.fst = past'.map Sigma.fst) (request : Request)
    (asked : Asks (fun path => ¬Excluded glob exclude path) request) :
    Alike request (one.world environment past request) (two.world environment past' request) := by
  simp only [Workspace.world,same]
  cases environment (past'.map Sigma.fst) request with
  | none => exact agree.alike request asked
  | some answer => exact alike_refl request answer

/-- Of two workspaces that differ only in what is stored at or below excluded paths, the tools give the same results,
    whatever happens besides. -/
theorem excluded_content_is_hidden {glob : Text → Text → Bool} (documented : Documented glob) {builds : Text → Bool}
    {setBuilds : List Text → Bool} {exclude excluded : List Text}
    (valid : from_exclusions builds setBuilds exclude = .ok excluded) {one two : Workspace}
    (agree : Agree glob exclude one two) (environment : Environment) (pinned : Pinned) (effect : NativeSideEffect)
    (arguments : Arguments) :
    ((read_file ⟨glob,excluded⟩ pinned effect arguments).play (one.world environment) []).2 =
      ((read_file ⟨glob,excluded⟩ pinned effect arguments).play (two.world environment) []).2 ∧
    ((search_files ⟨glob,excluded⟩ pinned effect arguments).play (one.world environment) []).2 =
      ((search_files ⟨glob,excluded⟩ pinned effect arguments).play (two.world environment) []).2 := by
  have closed : ∀ front rest, ¬Excluded glob exclude (front ++ rest) → ¬Excluded glob exclude front :=
    fun front rest outside inside =>
    outside (inside.append rest)
  have shown : ∀ path, CompiledPathPolicy.allows ⟨glob,excluded⟩ path = true → ¬Excluded glob exclude path :=
    fun path allowed =>
    allows_not_excluded documented valid allowed
  exact ⟨(play_blind (world_alike agree environment) (read_file_blind closed shown) rfl).1,
    (play_blind (world_alike agree environment) (search_files_blind closed shown) rfl).1⟩

/-! ### Two workspaces with a secret -/

def unstar : Text → Text
  | '*' :: '*' :: '/' :: rest => unstar rest
  | other => other
/-- A pattern without the endings `/**`. -/
def stem (pattern : Text) : Text := (unstar pattern.reverse).reverse
/-- Enough of a matcher for patterns without wildcards. -/
def plainGlob (pattern text : Text) : Bool :=
  if stem pattern = pattern then text == pattern else (stem pattern ++ ['/']).isPrefixOf text
theorem stem_append (pattern : Text) : stem (pattern ++ "/**".toList) = stem pattern := by
  rw [stem,reverse_append]
  rfl

theorem stem_length (pattern : Text) : (stem pattern).length ≤ pattern.length := by
  have shorter : ∀ text : Text, (unstar text).length ≤ text.length := by
    intro text
    fun_induction unstar text with
    | case1 rest ih => simp only [length_cons]; omega
    | case2 other => exact le_rfl
  simpa [stem] using shorter pattern.reverse

theorem intercalate_append (separator : Text) {first second : List Text} (someFirst : first ≠ [])
    (someSecond : second ≠ []) :
    intercalate separator (first ++ second) = intercalate separator first ++
      (separator ++ intercalate separator second) := by
  induction first with
  | nil => exact absurd rfl someFirst
  | cons head more ih =>
    cases more with
    | nil =>
      obtain ⟨next,rest,rfl⟩ := exists_cons_of_ne_nil someSecond
      simp [intercalate]
    | cons next more =>
      have later := ih (cons_ne_nil _ _)
      simp only [intercalate,cons_append,intersperse_cons_cons,flatten_cons] at later ⊢
      rw [later]
      simp

theorem display_append {front rest : Path} (someFront : front ≠ []) (someRest : rest ≠ []) :
    display_components (front ++ rest) = display_components front ++ '/' :: display_components rest :=
  intercalate_append ['/'] someFront someRest

theorem plainGlob_documented : Documented plainGlob := by
  have starred : ∀ pattern, stem (pattern ++ "/**".toList) ≠ pattern ++ "/**".toList := by
    intro pattern same
    have length := congrArg length same
    rw [stem_append,length_append] at length
    have := stem_length pattern
    have : "/**".toList.length = 3 := rfl
    omega
  have grows : ∀ {pattern : Text} {front rest : Path}, front ≠ [] →
    (stem pattern ++ ['/']).isPrefixOf (display_components front) = true →
      (stem pattern ++ ['/']).isPrefixOf (display_components (front ++ rest)) = true := by
    intro pattern front rest someFront here
    by_cases someRest : rest = []
    · rwa [someRest,append_nil]
    · rw [display_append someFront someRest]
      exact List.isPrefixOf_iff_prefix.mpr ((List.isPrefixOf_iff_prefix.mp here).trans (prefix_append _ _))
  refine ⟨fun pattern front rest someFront someRest matched => ?_,fun pattern front rest matched => ?_⟩
  · rw [plainGlob,if_neg (starred pattern),stem_append]
    unfold plainGlob at matched
    split_ifs at matched with plain
    · rw [display_append someFront someRest,plain,beq_iff_eq.mp matched]
      exact List.isPrefixOf_iff_prefix.mpr ⟨display_components rest,by simp⟩
    · exact grows someFront matched
  · rw [plainGlob,if_neg (starred pattern),stem_append] at matched ⊢
    refine grows ?_ matched
    rintro rfl
    have := (List.isPrefixOf_iff_prefix.mp matched).length_le
    simp [display_components] at this

def plainMetadata (kind : Kind) : Metadata := ⟨kind,1,1,1,0o600,0,0,0,0,0,0⟩

/-- A workspace with one file. -/
def holding (content : Bytes) : Workspace where
  node path :=
    if path = [] then some ⟨plainMetadata .Directory,[]⟩
    else if path = ["secret".toList] then some ⟨plainMetadata .Regular,content⟩
    else none
  listing path := if path = [] then [some "secret".toList] else []

theorem holding_agree (content other : Bytes) : Agree plainGlob ["secret".toList] (holding content)
    (holding other) := by
  have kinds : ∀ path, (holding content).kind path = (holding other).kind path := by
    intro path
    simp only [Workspace.kind,holding]
    split_ifs <;> rfl
  refine ⟨fun path outside => ?_,fun path _ => .refl _,fun path _ => kinds path⟩
  have elsewhere : path ≠ ["secret".toList] := by
    rintro rfl
    exact outside ⟨["secret".toList],[],rfl,nofun,"secret".toList,by simp,by decide⟩
  simp only [holding,if_neg elsewhere]

theorem secret_is_hidden :
    from_exclusions (fun _ => true) (fun _ => true) ["secret".toList] = .ok ["secret".toList,"secret/**".toList] ∧
    (holding [0x61]).node ["secret".toList] ≠ (holding [0x62]).node ["secret".toList] ∧
    ((search_files ⟨plainGlob,["secret".toList,"secret/**".toList]⟩ (some 1) (.ToolOperation 1 0)
      [("query",.String ['a'])]).play
        ((holding [0x61]).world fun _ _ => none) []).2 =
      ((search_files ⟨plainGlob,["secret".toList,"secret/**".toList]⟩ (some 1) (.ToolOperation 1 0)
        [("query",.String ['a'])]).play
        ((holding [0x62]).world fun _ _ => none) []).2 :=
  ⟨by rfl,by decide,(excluded_content_is_hidden plainGlob_documented (by rfl : from_exclusions (fun _ => true)
    (fun _ => true) ["secret".toList] = _)
    (holding_agree _ _) _ _ _ _).2⟩

end Vyane.TrustedFiles
