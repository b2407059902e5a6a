import Vyane.TrustedReads

/-!
What `search_files` finds in a workspace that nobody changes. The walk keeps a stack of directories and a list of files;
together they cover what can be reached, each file once. The loop over the files then gives the first matches.
-/
namespace Vyane.TrustedFiles
open Vyane.Core Interactions Interactions.Program Utf8 List Workspace

/-! ### A workspace at rest -/

/-- What is at a path on the device of the workspace. -/
def Workspace.kindOn (workspace : Workspace) (device : Nat) (path : Path) : Option Kind :=
  ((workspace.node path).filter (·.metadata.dev = device)).map (·.metadata.kind)
/-- The text of a file that can be read as text. -/
def Workspace.text (workspace : Workspace) (path : Path) : Option Text :=
  (workspace.node path).bind fun node => if node.content.length ≤ MAX_READ_BYTES then from_utf8 node.content else none

/-- The workdir is there, what is there is listed, and no name is listed twice. -/
structure Workspace.Tree (workspace : Workspace) (device : Nat) : Prop where
  pinned : workspace.kindOn device [] = some .Directory
  present : ∀ directory name, (workspace.node (directory ++ [name])).isSome → some name ∈ workspace.listing directory
  distinct : ∀ directory, ((workspace.listing directory).filterMap id).Nodup

/-- The file system answers as the workspace is; authority and cancellation are left open. -/
def Workspace.Truthful (workspace : Workspace) : Event Request Answer → Prop
  | ⟨.revalidate _,_⟩ | ⟨.is_cancelled,_⟩ | ⟨.joinBlocking,_⟩ => True
  | ⟨request,answer⟩ => answer = workspace.answer request
/-- Where the file system answers so, the program ends so. -/
def Workspace.Tells (workspace : Workspace) {α : Type} (program : Tool α) (post : α → Prop) : Prop :=
  Leads (fun (_ : Unit) event _ => workspace.Truthful event) program () fun value _ => post value
/-- The call comes to its end, and what it gives is so. -/
def Reports {α : Type} (post : α → Prop) : Except Stop α → Prop
  | .error stop => stop ≠ .Running
  | .ok value => post value

section
variable {workspace : Workspace} {device : Nat} {effect : NativeSideEffect} {α β : Type}
    {post other : α → Prop} {path : Path}
  {name : Name} {policy : CompiledPathPolicy}

theorem Workspace.Tells.runs {program : Tool α} {trace : List (Event Request Answer)} {value : α}
    (tells : workspace.Tells program post) (runs : Runs program trace value)
    (truthful : ∀ event ∈ trace, workspace.Truthful event) :
    post value := by
  have follows : ∀ trace : List (Event Request Answer), (∀ event ∈ trace, workspace.Truthful event) →
      Follows (fun (_ : Unit) event _ => workspace.Truthful event) () trace () := by
    intro trace
    induction trace with
    | nil => exact fun _ => .nil
    | cons event rest ih =>
      intro truthful
      exact .cons (truthful event mem_cons_self) (ih fun later here => truthful later (mem_cons_of_mem _ here))
  exact Leads.follows runs tells (follows trace truthful)

theorem Workspace.Tells.weaken {program : Tool α} (tells : workspace.Tells program post)
    (implied : ∀ value, post value → other value) : workspace.Tells program other :=
  Leads.weaken (fun value _ => implied value) tells

theorem Workspace.Tells.imp {program : Tool (Except Stop α)} (tells : workspace.Tells program (Reports post))
    (implied : ∀ value, post value → other value) : workspace.Tells program (Reports other) :=
  tells.weaken fun
    | .error _ => id
    | .ok value => implied value

theorem tells_pure {value : α} (holds : post value) : workspace.Tells (pure value) post := leads_pure holds

variable {post : β → Prop}

theorem tells_bind {first : Tool α} {next : α → Tool β}
    (tells : workspace.Tells first fun value => workspace.Tells (next value) post) :
    workspace.Tells (first >>= next) post := leads_bind tells
theorem perform_tells {request : Request} {next : Answer request → Tool β}
    (rest : ∀ answer, workspace.Truthful ⟨request,answer⟩ → workspace.Tells (next answer) post) :
    workspace.Tells (perform request >>= next) post := fun answer _ truthful => rest answer truthful

theorem tells_and_then {first : Tool (Except Stop α)} {next : α → Tool (Except Stop β)}
    (tells : workspace.Tells first (Reports fun value => workspace.Tells (next value) (Reports post))) :
    workspace.Tells (first.and_then next) (Reports post) := by
  refine tells_bind (tells.weaken fun result rest => ?_)
  cases result with
  | error stop => exact tells_pure rest
  | ok value => exact rest

variable {post : Except ToolError β → Prop}

theorem tells_take {first : Tool (Outcome α)} {next : α → Tool (Outcome β)} (failed : ∀ error, post (.error error))
    (tells : workspace.Tells first (Reports fun result => ∀ value, result = .ok value →
      workspace.Tells (next value) (Reports post))) :
    workspace.Tells (take first next) (Reports post) := by
  refine tells_and_then (tells.imp fun result rest => ?_)
  cases result with
  | error error => exact tells_pure (failed error)
  | ok value => exact rest value rfl

theorem revalidate_tells {next : Unit → Tool (Outcome β)}
    (rest : workspace.Tells (next ()) (Reports post)) : workspace.Tells ((revalidate effect).and_then next)
    (Reports post) := by
  refine tells_and_then (perform_tells fun answer _ => ?_)
  match answer with
  | .Dropped | .Ready (.error _) => exact tells_pure nofun
  | .Ready (.ok ()) => exact tells_pure rest

theorem blocking_tells {lost : String} {operation : Tool (Except ToolError α)} {post : Except ToolError α → Prop}
    (tells : workspace.Tells operation post) : workspace.Tells (blocking lost operation) (Reports post) := by
  refine tells_and_then (perform_tells fun spawned truthful => ?_)
  obtain rfl : spawned = true := truthful
  refine tells_bind (tells.weaken fun result holds => perform_tells fun joined _ => ?_)
  match joined with
  | .Dropped => exact tells_pure nofun
  | .Ready () => exact tells_pure (tells_pure holds)

/-! ### Opening what is there -/

theorem kindOn_some {kind : Kind} :
    workspace.kindOn device path = some kind ↔
      ∃ node, workspace.node path = some node ∧ node.metadata.dev = device ∧ node.metadata.kind = kind := by
  simp only [kindOn,Option.map_eq_some_iff,Option.filter_eq_some_iff,decide_eq_true_eq,and_assoc]

theorem inspect_entry_tells : workspace.Tells (inspect_entry device path) fun result =>
    result.toOption = (workspace.kindOn device path).map EntryKind.of := by
  refine perform_tells fun opened truthful => ?_
  replace truthful : opened = workspace.opens path false := truthful
  cases here : workspace.node path with
  | none =>
    obtain rfl : opened = false := by rw [truthful,opens,kind,here]; rfl
    exact tells_pure (by rw [kindOn,here]; rfl)
  | some node =>
    obtain rfl : opened = true := by rw [truthful,opens,kind,here]; rfl
    refine perform_tells fun metadata truthful => ?_
    obtain rfl : metadata = some node.metadata := by rw [show metadata = _ from truthful,answer,here]; rfl
    show workspace.Tells (if _ then _ else _) _
    split_ifs with foreign
    · exact tells_pure (by simp [kindOn,here,Option.filter,foreign,Except.toOption])
    · exact tells_pure (by simp [kindOn,here,Option.filter,not_not.mp foreign,Except.toOption])

theorem open_directory_component_tells : workspace.Tells (open_directory_component device path) fun result =>
    result.isOk ↔ workspace.kindOn device path = some .Directory := by
  refine perform_tells fun opened truthful => ?_
  replace truthful : opened = workspace.opens path true := truthful
  cases here : workspace.node path with
  | none =>
    obtain rfl : opened = false := by rw [truthful,opens,kind,here]; rfl
    exact tells_pure (by simp [kindOn,here,Except.isOk,Except.toBool])
  | some node =>
    have opens : workspace.opens path true = (node.metadata.kind == .Directory) := by
      rw [opens,kind,here]
      rfl
    by_cases real : node.metadata.kind = .Directory
    · obtain rfl : opened = true := truthful.trans (opens.trans (beq_iff_eq.mpr real))
      refine perform_tells fun metadata truthful => ?_
      obtain rfl : metadata = some node.metadata := by rw [show metadata = _ from truthful,answer,here]; rfl
      show workspace.Tells (if _ then _ else _) _
      split_ifs with foreign
      · exact tells_pure (by simp [kindOn,here,Option.filter,foreign,Except.isOk,Except.toBool])
      · exact tells_pure (by simp [kindOn,here,Option.filter,not_not.mp foreign,real,Except.isOk,
          Except.toBool])
    · obtain rfl : opened = false := truthful.trans (opens.trans (beq_false_of_ne real))
      exact tells_pure (by simp [kindOn_some,here,real,Except.isOk,Except.toBool])

/-- Every directory on the way is a real one. -/
def Workspace.grounded (workspace : Workspace) (device : Nat) (directory : Path) : List Name → Prop
  | [] => True
  | component :: rest =>
    workspace.kindOn device (directory ++ [component]) = some .Directory ∧
      workspace.grounded device (directory ++ [component]) rest

theorem openComponents_tells : ∀ {components directory : Path},
    workspace.Tells (openComponents device effect directory components) (Reports fun result =>
      result.isOk ↔ workspace.grounded device directory components) := by
  intro components
  induction components with
  | nil =>
    intro directory
    exact tells_pure (by simp [Reports,grounded,Except.isOk,Except.toBool])
  | cons component rest ih =>
    intro directory
    refine revalidate_tells
      (tells_and_then ((blocking_tells open_directory_component_tells).imp fun result opened => ?_))
    cases result with
    | error error =>
      refine tells_pure ?_
      simp only [Reports,Except.isOk,Except.toBool,Bool.false_eq_true,false_iff] at opened ⊢
      exact fun grounded => opened grounded.1
    | ok _ =>
      simp only [Except.isOk,Except.toBool,true_iff] at opened
      refine ih.imp fun result reports => reports.trans ?_
      simp [grounded,opened]

theorem open_directory_components_tells {components : Path} :
    workspace.Tells (open_directory_components device effect components) (Reports fun result =>
      result.isOk ↔ workspace.grounded device [] components) := by
  refine perform_tells fun cloned truthful => ?_
  obtain rfl : cloned = true := truthful
  exact openComponents_tells

theorem inspect_components_tells {directory : Path} (grounded : workspace.grounded device [] directory) :
    workspace.Tells (inspect_components device effect (directory ++ [name])) (Reports fun result =>
      result.toOption = (workspace.kindOn device (directory ++ [name])).map EntryKind.of) := by
  rw [inspect_components,if_neg (by simp),dropLast_concat]
  refine tells_and_then (open_directory_components_tells.imp fun result opened => ?_)
  replace opened := opened.mpr grounded
  cases result with
  | error error => cases opened
  | ok _ => exact revalidate_tells (blocking_tells inspect_entry_tells)

theorem open_regular_components_tells {directory : Path} (grounded : workspace.grounded device [] directory)
    (regular : workspace.kindOn device (directory ++ [name]) = some .Regular) :
    workspace.Tells (open_regular_components device effect (directory ++ [name]))
      (Reports fun result => result = .ok ()) := by
  refine tells_and_then ((inspect_components_tells grounded).imp fun result inspected => ?_)
  rw [regular] at inspected
  cases result with
  | error error => cases inspected
  | ok kind =>
    cases inspected
    refine revalidate_tells (blocking_tells (perform_tells fun opened truthful => ?_))
    obtain ⟨node,here,_⟩ := kindOn_some.mp regular
    obtain rfl : opened = true := by rw [show opened = _ from truthful,answer,here]; rfl
    exact tells_pure rfl

theorem read_utf8_bounded_tells {kind : Kind} (present : workspace.kindOn device path = some kind) :
    workspace.Tells (read_utf8_bounded path) (Reports fun result => result.toOption = workspace.text path) := by
  obtain ⟨node,here,_⟩ := kindOn_some.mp present
  refine blocking_tells (perform_tells fun bytes truthful => ?_)
  obtain rfl : bytes = some (node.content.take (MAX_READ_BYTES + 1)) := by
    rw [show bytes = _ from truthful,answer,here]
    rfl
  show workspace.Tells (if _ then _ else _) _
  split_ifs with long
  · refine tells_pure ?_
    rw [text,here,Option.bind_some,if_neg (by rw [length_take] at long; omega)]
    rfl
  · have short : node.content.length ≤ MAX_READ_BYTES := by
      rw [length_take] at long
      omega
    rw [take_of_length_le (by omega)]
    have read : workspace.text path = from_utf8 node.content := by
      rw [text,here,Option.bind_some,if_pos short]
    rw [read]
    cases from_utf8 node.content <;> exact tells_pure rfl

/-! ### The walk -/

/-- An entry is reached from a real directory, if the policy allows it. -/
def Workspace.Enters (workspace : Workspace) (policy : CompiledPathPolicy) (device : Nat)
    (directory path : Path) : Prop :=
  workspace.kindOn device directory = some .Directory ∧ ∃ name, path = directory ++ [name] ∧ policy.allows path = true
/-- What can be reached from a directory through real directories that the policy allows. -/
def Workspace.Reachable (workspace : Workspace) (policy : CompiledPathPolicy) (device : Nat) : Path → Path → Prop :=
  Relation.ReflTransGen (workspace.Enters policy device)

/-- The entries of a directory that the walk looks at, of one kind. -/
def Workspace.ofKind (workspace : Workspace) (policy : CompiledPathPolicy) (device : Nat) (directory : Path)
    (kind : Kind) (names : List Name) :
    List Path :=
  (names.map fun name => directory ++ [name]).filter fun path =>
    policy.allows path && path.length ≤ MAX_PATH_COMPONENTS && workspace.kindOn device path == some kind

theorem ofKind_cons {directory : Path} {kind : Kind} {rest : List Name}
    (allowed : policy.allows (directory ++ [name]) = true)
    (short : (directory ++ [name]).length ≤ MAX_PATH_COMPONENTS) : workspace.ofKind policy device directory kind
    (name :: rest) =
      (if workspace.kindOn device (directory ++ [name]) = some kind then [directory ++ [name]] else []) ++
        workspace.ofKind policy device directory kind rest := by
  rw [ofKind,map_cons,filter_cons,allowed,decide_eq_true short,ofKind]
  by_cases here : workspace.kindOn device (directory ++ [name]) = some kind
  · rw [if_pos (by simp [here]),if_pos here]
    rfl
  · rw [if_neg (by simp [here]),if_neg here]
    rfl

theorem visitEntries_tells {directory : Path} {depth : Nat} (grounded : workspace.grounded device [] directory)
    (shallow : depth ≤ directory.length) : ∀ {names : List Name} {children : List Path} {found : Found},
    workspace.Tells (visitEntries policy device effect directory depth names children found)
      (Reports fun result => ∀ value,
      result = .ok value → value.1 = children ++ workspace.ofKind policy device directory .Directory names ∧
        value.2.regular_paths = found.regular_paths ++ workspace.ofKind policy device directory .Regular names ∧
        value.2.visited_entries = found.visited_entries) := by
  intro names
  induction names with
  | nil =>
    intro children found
    refine tells_pure fun value equal => ?_
    cases equal
    simp [ofKind]
  | cons name rest ih =>
    intro children found
    unfold visitEntries
    -- the rest of the loop, once it is known where this entry went
    have goOn : ∀ {more : List Path} {later : Found}, later.visited_entries = found.visited_entries →
        more ++ workspace.ofKind policy device directory .Directory rest =
          children ++ workspace.ofKind policy device directory .Directory (name :: rest) →
        later.regular_paths ++ workspace.ofKind policy device directory .Regular rest =
          found.regular_paths ++ workspace.ofKind policy device directory .Regular (name :: rest) →
        workspace.Tells (visitEntries policy device effect directory depth rest more later)
          (Reports fun result => ∀ value,
          result = .ok value →
            value.1 = children ++ workspace.ofKind policy device directory .Directory (name :: rest) ∧
            value.2.regular_paths = found.regular_paths ++ workspace.ofKind policy device directory .Regular
              (name :: rest) ∧
            value.2.visited_entries = found.visited_entries) := by
      intro more later entries directories files
      refine ih.imp fun result reports value equal => ?_
      rw [← entries,← directories,← files]
      exact reports value equal
    by_cases seen : policy.allows (directory ++ [name]) = true ∧ (directory ++ [name]).length ≤ MAX_PATH_COMPONENTS
    · rw [if_neg (by simpa [seen.1] using seen.2)]
      refine tells_and_then ((inspect_components_tells grounded).imp fun result inspected => ?_)
      have placed : ∀ wanted, workspace.ofKind policy device directory wanted (name :: rest) =
          (if workspace.kindOn device (directory ++ [name]) = some wanted then [directory ++ [name]] else []) ++
            workspace.ofKind policy device directory wanted rest := fun wanted => ofKind_cons seen.1 seen.2
      cases kind : workspace.kindOn device (directory ++ [name]) with
      | none =>
        rw [kind] at inspected
        simp only [kind] at placed
        cases result with
        | error error => exact goOn rfl (by simp [placed]) (by simp [placed])
        | ok kind => cases inspected
      | some kind' =>
        rw [kind] at inspected
        simp only [kind] at placed
        cases result with
        | error error => cases inspected
        | ok entry =>
          cases inspected
          cases kind' with
          | Directory =>
            have deep : depth < MAX_SEARCH_DEPTH := by
              have := seen.2
              rw [length_append,length_singleton] at this
              exact lt_of_le_of_lt shallow this
            exact goOn rfl (by simp [placed,deep]) (by simp [placed])
          | Regular =>
            show workspace.Tells (if _ then _ else _) _
            split_ifs with full
            · exact tells_pure fun _ same => by cases same
            · exact goOn rfl (by simp [placed]) (by simp [placed])
          | Symlink => exact goOn rfl (by simp [placed]) (by simp [placed])
          | Other => exact goOn rfl (by simp [placed]) (by simp [placed])
    · rw [if_pos (by simpa [or_iff_not_imp_left,not_le] using seen)]
      have skipped : ∀ kind, workspace.ofKind policy device directory kind (name :: rest) =
        workspace.ofKind policy device directory kind rest := by
        intro kind
        rw [ofKind,map_cons,filter_cons_of_neg (fun kept =>
          seen (by simpa using (Bool.and_eq_true_iff.mp kept).1)),
          ofKind]
      exact goOn rfl (by rw [skipped]) (by rw [skipped])

/-- The names of a directory that the walk can use, in order. -/
def Workspace.names (workspace : Workspace) (directory : Path) : List Name :=
  sortedNames (((workspace.entries directory).getD []).filterMap usable)

theorem directory_entries_tells {directory : Path} {remaining : Nat} :
    workspace.Tells (directory_entries directory remaining) (Reports fun result => ∀ value, result = .ok value →
      sortedNames value.1 = workspace.names directory ∧ value.1.length ≤ value.2 ∧ value.2 ≤ remaining) := by
  refine blocking_tells (perform_tells fun entries truthful => tells_pure fun value equal => ?_)
  replace truthful : entries = workspace.entries directory := truthful
  rw [names,← truthful]
  cases (entries : Option (List DirEntry)) with
  | none => cases equal
  | some entries =>
    rw [listed,listEntries_eq (Nat.zero_le _)] at equal
    split_ifs at equal with full
    cases equal
    refine ⟨rfl,?_,not_lt.mp full⟩
    rw [Nat.zero_add]
    exact length_filterMap_le _ _

/-- The directories right in a directory. -/
def Workspace.directories (workspace : Workspace) (policy : CompiledPathPolicy) (device : Nat)
    (directory : Path) : List Path :=
  workspace.ofKind policy device directory .Directory (workspace.names directory)
/-- The files right in a directory. -/
def Workspace.files (workspace : Workspace) (policy : CompiledPathPolicy) (device : Nat)
    (directory : Path) : List Path :=
  workspace.ofKind policy device directory .Regular (workspace.names directory)

/-- The files below a directory, so many levels down. -/
def Workspace.covered (workspace : Workspace) (policy : CompiledPathPolicy) (device : Nat) : Nat → Path → List Path
  | 0, _ => []
  | levels + 1, directory => workspace.files policy device directory ++
    (workspace.directories policy device directory).flatMap (workspace.covered policy device levels)

/-- The files below a directory. -/
def Workspace.below (workspace : Workspace) (policy : CompiledPathPolicy) (device : Nat)
    (directory : Path) : List Path :=
  workspace.covered policy device (MAX_PATH_COMPONENTS - directory.length) directory

variable {directory path : Path}

theorem mem_ofKind {kind : Kind} {names : List Name} :
    path ∈ workspace.ofKind policy device directory kind names ↔ ∃ name ∈ names, path = directory ++ [name] ∧
      policy.allows path = true ∧
      path.length ≤ MAX_PATH_COMPONENTS ∧ workspace.kindOn device path = some kind := by
  simp only [ofKind,mem_filter,mem_map,Bool.and_eq_true,decide_eq_true_eq,beq_iff_eq]
  constructor
  · rintro ⟨⟨name,here,rfl⟩,⟨allowed,short⟩,kind⟩
    exact ⟨name,here,rfl,allowed,short,kind⟩
  · rintro ⟨name,here,rfl,allowed,short,kind⟩
    exact ⟨⟨name,here,rfl⟩,⟨allowed,short⟩,kind⟩

theorem below_eq : workspace.below policy device directory =
    workspace.files policy device directory ++ (workspace.directories policy device directory).flatMap
      (workspace.below policy device) := by
  have noneDeeper : ∀ kind, MAX_PATH_COMPONENTS ≤ directory.length →
      workspace.ofKind policy device directory kind (workspace.names directory) = [] := by
    intro kind long
    refine eq_nil_iff_forall_not_mem.mpr fun path here => ?_
    obtain ⟨name,_,rfl,_,short,_⟩ := mem_ofKind.mp here
    rw [length_append,length_singleton] at short
    omega
  rw [below]
  cases levels : MAX_PATH_COMPONENTS - directory.length with
  | zero =>
    rw [files,directories,noneDeeper _ (Nat.le_of_sub_eq_zero levels),
      noneDeeper _ (Nat.le_of_sub_eq_zero levels)]
    rfl
  | succ more =>
    rw [covered]
    refine congrArg _ (flatMap_congr fun child here => ?_)
    obtain ⟨name,_,rfl,_⟩ := mem_ofKind.mp here
    rw [below,show MAX_PATH_COMPONENTS - (directory ++ [name]).length =
      more by rw [length_append,length_singleton]; omega]

/-- A file whose directory can be opened again. -/
def Workspace.Readable (workspace : Workspace) (device : Nat) (path : Path) : Prop :=
  ∃ directory name, path = directory ++ [name] ∧ workspace.grounded device [] directory ∧
    workspace.kindOn device path = some .Regular

/-- The walk ends with what is below the pending directories, in some order; its rounds are enough. -/
theorem walkDirectories_tells : ∀ {rounds : Nat} {pending : List (Path × Nat)} {found : Found},
    pending.length + (MAX_SEARCH_ENTRIES - found.visited_entries) ≤ rounds →
      found.visited_entries ≤ MAX_SEARCH_ENTRIES →
    (∀ entry ∈ pending, entry.2 ≤ entry.1.length) → (∀ path ∈ found.regular_paths, workspace.Readable device path) →
    workspace.Tells (walkDirectories policy device effect rounds pending found)
      (Reports fun result => ∀ paths, result = .ok paths →
      paths.Perm (found.regular_paths ++ pending.flatMap fun entry => workspace.below policy device entry.1) ∧
      (∀ path ∈ paths, workspace.Readable device path) ∧ ∀ entry ∈ pending, workspace.grounded device [] entry.1) := by
  intro rounds
  induction rounds with
  | zero =>
    intro pending found enough _ _ readable
    obtain rfl : pending = [] := length_eq_zero_iff.mp (by omega)
    refine tells_pure fun paths equal => ?_
    cases equal
    exact ⟨by simp,readable,nofun⟩
  | succ rounds ih =>
    intro pending found enough counted shallow readable
    match pending with
    | [] =>
      refine tells_pure fun paths equal => ?_
      cases equal
      exact ⟨by simp,readable,nofun⟩
    | (directory,depth) :: pending =>
      refine perform_tells fun cancelled _ => ?_
      match cancelled with
      | true => exact tells_pure nofun
      | false =>
        refine tells_take nofun (open_directory_components_tells.imp fun result opened _ ok => ?_)
        have grounded : workspace.grounded device [] directory := opened.mp (by rw [ok]; rfl)
        refine revalidate_tells (tells_take nofun (directory_entries_tells.imp fun result entries value ok => ?_))
        obtain ⟨names,counts,room⟩ := entries value ok
        obtain ⟨names',observed⟩ := value
        show workspace.Tells (take _ _) _
        rw [names]
        have shallowHere := shallow _ mem_cons_self
        refine tells_take nofun ((visitEntries_tells grounded shallowHere).imp fun result visited value ok => ?_)
        obtain ⟨children,found'⟩ := value
        obtain ⟨rfl,files,visited_entries⟩ := visited _ ok
        have few : (workspace.directories policy device directory).length ≤ observed := by
          refine (length_filter_le _ _).trans ?_
          rw [length_map,← names,sortedNames,length_insertionSort]
          exact counts
        simp only [nil_append] at visited_entries files ⊢
        refine (ih ?_ ?_ ?_ ?_).imp fun result walked paths ok => ?_
        · rw [visited_entries,length_append,length_map]
          have same : (workspace.ofKind policy device directory .Directory (workspace.names directory)).length ≤
            observed := few
          simp only [length_cons] at enough
          omega
        · rw [visited_entries]
          show found.visited_entries + observed ≤ _
          omega
        · intro entry here
          rcases mem_append.mp here with new | old
          · obtain ⟨child,inside,rfl⟩ := mem_map.mp new
            obtain ⟨name,_,rfl,_⟩ := mem_ofKind.mp inside
            simpa using shallowHere
          · exact shallow entry (mem_cons_of_mem _ old)
        · intro path here
          rw [files] at here
          rcases mem_append.mp here with old | new
          · exact readable path old
          · obtain ⟨name,_,rfl,_,_,regular⟩ := mem_ofKind.mp new
            exact ⟨directory,name,rfl,grounded,regular⟩
        · obtain ⟨perm,each,others⟩ := walked paths ok
          refine ⟨perm.trans ?_,each,forall_mem_cons.mpr ⟨grounded,fun entry here =>
            others entry (mem_append_right _ here)⟩⟩
          rw [files,flatMap_append,flatMap_map,flatMap_cons,below_eq]
          simp only [append_assoc]
          exact .refl _

/-! ### What is below a directory -/

theorem Workspace.Reachable.extends (reachable : workspace.Reachable policy device directory path) :
    ∃ rest, path = directory ++ rest := by
  induction reachable with
  | refl => exact ⟨[],by simp⟩
  | tail _ enters ih =>
    obtain ⟨rest,rfl⟩ := ih
    obtain ⟨_,name,rfl,_⟩ := enters
    exact ⟨rest ++ [name],by simp⟩

theorem mem_below : ∀ {directory : Path}, path ∈ workspace.below policy device directory →
    workspace.kindOn device directory = some .Directory →
      workspace.Reachable policy device directory path ∧ path.length ≤ MAX_PATH_COMPONENTS ∧
        workspace.kindOn device path = some .Regular := by
  have inside : ∀ {levels : Nat} {directory : Path}, path ∈ workspace.covered policy device levels directory →
      workspace.kindOn device directory = some .Directory →
        workspace.Reachable policy device directory path ∧ path.length ≤ MAX_PATH_COMPONENTS ∧
          workspace.kindOn device path = some .Regular := by
    intro levels
    induction levels with
    | zero => exact fun here => absurd here not_mem_nil
    | succ levels ih =>
      intro directory here real
      rcases mem_append.mp here with file | deeper
      · obtain ⟨name,_,named,allowed,short,regular⟩ := mem_ofKind.mp file
        exact ⟨.single ⟨real,name,named,allowed⟩,short,regular⟩
      · obtain ⟨child,listed,here⟩ := mem_flatMap.mp deeper
        obtain ⟨name,_,named,allowed,_,realChild⟩ := mem_ofKind.mp listed
        obtain ⟨reachable,rest⟩ := ih here realChild
        exact ⟨.head ⟨real,name,named,allowed⟩ reachable,rest⟩
  intro directory here real
  exact inside here real

theorem mem_names {kind : Kind} (tree : workspace.Tree device)
    (real : workspace.kindOn device directory = some .Directory)
    (present : workspace.kindOn device (directory ++ [name]) = some kind)
    (plain : kind ≠ .Symlink) : name ∈ workspace.names directory := by
  obtain ⟨parent,atParent,_,is_directory⟩ := kindOn_some.mp real
  obtain ⟨node,atPath,_,rfl⟩ := kindOn_some.mp present
  have entries : workspace.entries directory = some ((workspace.listing directory).map fun name =>
      .Named name (name.bind fun name => workspace.kind (directory ++ [name]))) := by
    rw [entries,if_pos (by rw [kind,atParent,Option.map_some,is_directory])]
  refine (mem_insertionSort _).mpr ?_
  rw [entries,Option.getD_some]
  refine mem_filterMap.mpr ⟨_,mem_map_of_mem (tree.present directory name (by rw [atPath]; rfl)),?_⟩
  simp [usable,kind,atPath,plain]

theorem below_of_reachable (tree : workspace.Tree device) (short : path.length ≤ MAX_PATH_COMPONENTS)
    (regular : workspace.kindOn device path = some .Regular)
    (reachable : workspace.Reachable policy device directory path) :
    path = directory ∨ path ∈ workspace.below policy device directory := by
  induction reachable using Relation.ReflTransGen.head_induction_on with
  | refl => exact .inl rfl
  | @head directory child enters later ih =>
    obtain ⟨real,name,rfl,allowed⟩ := enters
    right
    rw [below_eq]
    rcases later.cases_head with rfl | ⟨_,next,_⟩
    · exact mem_append_left _ (mem_ofKind.mpr ⟨name,mem_names tree real regular nofun,rfl,allowed,short,regular⟩)
    · have deeper : path ∈ workspace.below policy device (directory ++ [name]) := by
        refine ih.resolve_left ?_
        rintro rfl
        exact absurd (regular.symm.trans next.1) nofun
      have shorter : (directory ++ [name]).length ≤ MAX_PATH_COMPONENTS := by
        obtain ⟨rest,rfl⟩ := Workspace.Reachable.extends later
        rw [length_append] at short
        exact le_trans (Nat.le_add_right _ _) short
      exact mem_append_right _ (mem_flatMap.mpr ⟨_,mem_ofKind.mpr
        ⟨name,mem_names tree real next.1 nofun,rfl,allowed,shorter,next.1⟩,deeper⟩)

theorem filterMap_sublist {f g : α → Option β} (fewer : ∀ item, f item = none ∨ f item = g item) :
    ∀ items : List α, (items.filterMap f).Sublist (items.filterMap g) := by
  intro items
  induction items with
  | nil => exact .refl _
  | cons item rest ih =>
    rcases fewer item with unused | same
    · rw [filterMap_cons_none unused,filterMap_cons]
      cases g item with
      | none => exact ih
      | some value => exact ih.cons value
    · rw [filterMap_cons,filterMap_cons,same]
      cases g item with
      | none => exact ih
      | some value => exact ih.cons_cons value

theorem usable_named (name : Option Name) (file_type : Option Kind) :
    usable (.Named name file_type) = none ∨ usable (.Named name file_type) = name := by
  unfold usable
  split
  · split_ifs
    · exact .inl rfl
    · rename_i same _
      cases same
      exact .inr rfl
  · exact .inl rfl

theorem ofKind_nodup {kind : Kind} (tree : workspace.Tree device) :
    (workspace.ofKind policy device directory kind (workspace.names directory)).Nodup := by
  have names : (workspace.names directory).Nodup := by
    refine (perm_insertionSort _ _).nodup_iff.mpr ?_
    rw [entries]
    split_ifs
    · rw [Option.getD_some,filterMap_map]
      refine (tree.distinct directory).sublist ?_
      exact filterMap_sublist (fun name => usable_named name _) _
    · exact nodup_nil
  exact (names.map fun _ _ same => by simpa using same).filter _

/-- Each file is below a directory once. -/
theorem below_nodup (tree : workspace.Tree device) : (workspace.below policy device directory).Nodup := by
  have beneath : ∀ {levels : Nat} {directory path : Path}, path ∈ workspace.covered policy device levels directory →
      ∃ rest, path = directory ++ rest ∧ rest ≠ [] := by
    intro levels
    induction levels with
    | zero => exact fun here => absurd here not_mem_nil
    | succ levels ih =>
      intro directory path here
      rcases mem_append.mp here with file | deeper
      · obtain ⟨name,_,rfl,_⟩ := mem_ofKind.mp file
        exact ⟨[name],rfl,nofun⟩
      · obtain ⟨child,listed,here⟩ := mem_flatMap.mp deeper
        obtain ⟨name,_,rfl,_⟩ := mem_ofKind.mp listed
        obtain ⟨rest,rfl,_⟩ := ih here
        exact ⟨name :: rest,by simp,nofun⟩
  have once : ∀ {levels : Nat} {directory : Path}, (workspace.covered policy device levels directory).Nodup := by
    intro levels
    induction levels with
    | zero => exact nodup_nil
    | succ levels ih =>
      intro directory
      refine nodup_append'.mpr ⟨ofKind_nodup tree,nodup_flatMap.mpr ⟨fun child _ => ih,?_⟩,?_⟩
      · refine (@ofKind_nodup _ _ _ directory .Directory tree).imp_of_mem fun
          {one two} first second different path here there => ?_
        obtain ⟨name,_,rfl,_⟩ := mem_ofKind.mp first
        obtain ⟨other,_,rfl,_⟩ := mem_ofKind.mp second
        obtain ⟨rest,rfl,_⟩ := beneath here
        obtain ⟨rest',same,_⟩ := beneath there
        simp only [append_assoc,singleton_append,append_cancel_left_eq,cons.injEq] at same
        exact different (by rw [same.1])
      · intro path file deeper
        obtain ⟨name,_,rfl,_⟩ := mem_ofKind.mp file
        obtain ⟨child,listed,here⟩ := mem_flatMap.mp deeper
        obtain ⟨other,_,rfl,_⟩ := mem_ofKind.mp listed
        obtain ⟨rest,same,someRest⟩ := beneath here
        simp only [append_assoc,singleton_append,append_cancel_left_eq,cons.injEq] at same
        exact someRest same.2.symm
  exact once

end

/-! ### The output -/

/-- A match as it is shown. -/
def rendered (path : Path) (line_number : Nat) (line : Text) : Text :=
  display_components path ++ ':' :: (toString line_number).toList ++ ':' :: line
/-- The lines that contain the query, numbered from here. -/
def matchingLines (query : Text) (path : Path) (lines : List Text) (first : Nat) : List Text :=
  (lines.zipIdx first).filterMap fun (line,number) => if contains line query then
    some (rendered path number line) else none
def joined (results : List Text) : Text := intercalate ['\n'] results
/-- A text cut to the output limit, with the marker. -/
def bounded (text : Text) : Text :=
  if text.length ≤ MAX_TOOL_OUTPUT_CHARS then text
  else text.take (MAX_TOOL_OUTPUT_CHARS - SEARCH_OUTPUT_LIMIT_MARKER.length) ++ SEARCH_OUTPUT_LIMIT_MARKER
theorem joined_append {first second : List Text} (someFirst : first ≠ []) (someSecond : second ≠ []) :
    joined (first ++ second) = joined first ++ '\n' :: joined second := intercalate_append ['\n'] someFirst someSecond

theorem joined_begins (first second : List Text) : joined first <+: joined (first ++ second) := by
  by_cases someFirst : first = []
  · subst someFirst
    exact List.nil_prefix
  · by_cases someSecond : second = []
    · subst someSecond
      rw [append_nil]
    · rw [joined_append someFirst someSecond]
      exact prefix_append _ _

/-- What comes after does not show once the limit is passed. -/
theorem bounded_append {first : List Text} (long : MAX_TOOL_OUTPUT_CHARS < (joined first).length) (second : List Text) :
    bounded (joined (first ++ second)) = bounded (joined first) := by
  obtain ⟨rest,same⟩ := joined_begins first second
  have longer : ¬(joined (first ++ second)).length ≤ MAX_TOOL_OUTPUT_CHARS := by
    rw [← same,length_append]
    omega
  rw [bounded,if_neg longer,bounded,if_neg (by omega),← same,take_append_of_le_length (by omega)]

theorem bounded_length (text : Text) : (bounded text).length ≤ MAX_TOOL_OUTPUT_CHARS := by
  unfold bounded
  split_ifs with short
  · exact short
  · have : SEARCH_OUTPUT_LIMIT_MARKER.length ≤ MAX_TOOL_OUTPUT_CHARS := by decide
    rw [length_append,length_take]
    omega

/-- Matches are shown with colons, and `noMatches` has none. -/
theorem bounded_ne_noMatches {text : Text} (shown : ':' ∈ text) : bounded text ≠ noMatches := by
  unfold bounded
  split_ifs with short
  · rintro rfl
    exact absurd shown (by decide)
  · intro same
    have length := congrArg length same
    have marker : SEARCH_OUTPUT_LIMIT_MARKER.length = 34 := by decide
    have message : noMatches.length = 17 := by decide
    have limit : MAX_TOOL_OUTPUT_CHARS = 30000 := rfl
    rw [length_append,length_take,message] at length
    omega

/-- The matches so far, all of them shown. -/
structure Progress (max_results : Nat) (shown : List Text) (output : Text) (match_count : Nat) : Prop where
  output : output = joined shown
  count : match_count = shown.length
  more : shown.length < max_results
  room : (joined shown).length ≤ MAX_TOOL_OUTPUT_CHARS
  colons : ∀ line ∈ shown, ':' ∈ line

theorem joined_colon {shown : List Text} (colons : ∀ line ∈ shown, ':' ∈ line) (someShown : shown ≠ []) :
    ':' ∈ joined shown := by
  obtain ⟨line,rest,rfl⟩ := exists_cons_of_ne_nil someShown
  exact (joined_begins [line] rest).subset (by simpa [joined,intercalate] using colons line mem_cons_self)
theorem rendered_colon {path : Path} {number : Nat} {line : Text} : ':' ∈ rendered path number line := by
  simp [rendered]

theorem truncate_to_chars_eq (value : Text) (limit : Nat) : truncate_to_chars value limit = value.take limit := by
  unfold truncate_to_chars
  split_ifs with long
  · rfl
  · rw [take_of_length_le (not_lt.mp long)]

theorem append_up_to_chars_take (output value : Text) (limit : Nat) :
    append_up_to_chars (output.take limit) value (limit - (output.take limit).length) =
      (output ++ value).take limit := by
  have room : limit - (output.take limit).length = limit - output.length := by
    rw [length_take]
    omega
  rw [take_append,append_up_to_chars,room]
  split_ifs with short
  · rw [take_of_length_le short]
  · rfl

theorem append_search_match_eq {shown : List Text} (colons : ∀ line ∈ shown, ':' ∈ line) {path : Path} {number : Nat}
    {line : Text} :
    append_search_match (joined shown) (display_components path) number line =
      (bounded (joined (shown ++ [rendered path number line])),
        decide ((joined (shown ++ [rendered path number line])).length ≤ MAX_TOOL_OUTPUT_CHARS)) := by
  have next : joined (shown ++ [rendered path number line]) = joined shown ++ ((if (joined shown).isEmpty then []
    else ['\n']) ++
      display_components path ++ ':' :: (toString number).toList ++ [':']) ++ line := by
    have alone : joined [rendered path number line] = rendered path number line := by simp [joined,intercalate]
    by_cases first : shown = []
    · subst first
      rw [nil_append,alone]
      simp [joined,rendered]
    · have started : (joined shown).isEmpty = false := by
        rw [isEmpty_eq_false_iff]
        exact ne_nil_of_mem (joined_colon colons first)
      rw [joined_append first (cons_ne_nil _ _),alone,started]
      simp [rendered]
  rw [next]
  generalize headEq : (if (joined shown).isEmpty then []
    else ['\n']) ++ display_components path ++ ':' :: (toString number).toList ++ [':'] = head
  rw [append_search_match,headEq]
  have length : (joined shown ++ head ++ line).length = (joined shown).length + (head.length + line.length) := by
    simp only [length_append]
    omega
  rw [bounded,length]
  by_cases short : (joined shown).length + (head.length + line.length) ≤ MAX_TOOL_OUTPUT_CHARS
  · simp only [if_pos short,decide_eq_true short]
  · simp only [if_neg short,decide_eq_false short,truncate_to_chars_eq,append_up_to_chars_take]

/-- The first results, as they are given: joined, and cut where there is no room. -/
def Answers (max_results : Nat) (found : List Text) (output : Text) : Prop :=
  found ≠ [] ∧ output = bounded (joined (found.take max_results))

theorem searchLines_progress {query : Text} {max_results : Nat} {path : Path} :
    ∀ {lines : List Text} {index : Nat} {shown : List Text} {output : Text} {match_count : Nat},
      Progress max_results shown output match_count →
      match searchLines query max_results (display_components path) lines index output match_count with
      | .inl output => ∀ later, Answers max_results (shown ++ matchingLines query path lines
        (index + 1) ++ later) output
      | .inr (output,match_count) =>
          Progress max_results (shown ++ matchingLines query path lines (index + 1)) output match_count := by
  intro lines
  induction lines with
  | nil =>
    intro index shown output match_count progress
    rw [searchLines]
    simpa [matchingLines] using progress
  | cons line rest ih =>
    intro index shown output match_count progress
    rw [searchLines]
    by_cases found : contains line query = true
    · have here : matchingLines query path (line :: rest) (index + 1) =
          rendered path (index + 1) line :: matchingLines query path rest (index + 1 + 1) := by
        simp [matchingLines,zipIdx_cons,found]
      rw [if_pos found,here,progress.output,append_search_match_eq progress.colons]
      simp only
      set shown' := shown ++ [rendered path (index + 1) line] with shownEq
      have longer : shown'.length = shown.length + 1 := by simp [shownEq]
      have regroup : ∀ more later :
        List Text, shown ++ rendered path (index + 1) line :: more ++ later = shown' ++ (more ++ later) := by
        simp [shownEq]
      have answers : ∀ more later, (MAX_TOOL_OUTPUT_CHARS < (joined shown').length ∨ shown'.length = max_results) →
          Answers max_results (shown ++ rendered path (index + 1) line :: more ++ later) (bounded (joined shown')) := by
        intro more later stops
        rw [regroup,Answers,take_append,take_of_length_le (by rw [longer]; exact progress.more)]
        refine ⟨by simp [shownEq],?_⟩
        rcases stops with long | full
        · rw [bounded_append long]
        · rw [full,Nat.sub_self,take_zero,append_nil]
      by_cases long : (joined shown').length ≤ MAX_TOOL_OUTPUT_CHARS
      · by_cases full : match_count + 1 = max_results
        · rw [if_pos (by simp [full])]
          exact fun later => answers _ later (.inr (by rw [longer,← progress.count,full]))
        · rw [if_neg (by simp [long,full]),bounded,if_pos long]
          have grown : Progress max_results shown' (joined shown') (match_count + 1) := by
            refine ⟨rfl,by rw [longer,progress.count],?_,long,?_⟩
            · have := progress.more
              have := progress.count
              omega
            · rw [shownEq,forall_mem_append]
              exact ⟨progress.colons,by simpa using rendered_colon⟩
          have restFound := @ih (index + 1) shown' (joined shown') (match_count + 1) grown
          rw [show shown ++ rendered path (index + 1) line :: matchingLines query path rest (index + 1 + 1) =
            shown' ++ matchingLines query path rest (index + 1 + 1) by simp [shownEq]]
          exact restFound
      · rw [if_pos (by simp [long])]
        exact fun later => answers _ later (.inl (not_le.mp long))
    · have here : matchingLines query path (line :: rest) (index + 1) = matchingLines query path rest (index + 1 + 1) :=
        by
        simp [matchingLines,zipIdx_cons,found]
      rw [if_neg found,here]
      exact ih progress

/-- The matches in these files, in this order. -/
def Workspace.matching (workspace : Workspace) (query : Text) (files : List Path) : List Text :=
  files.flatMap fun path => ((workspace.text path).map fun text => matchingLines query path (lines text) 1).getD []

/-- What a search gives for what there is to find. -/
structure Listed (max_results : Nat) (found : List Text) (output : Text) : Prop where
  no_match : output = noMatches ↔ found = []
  first : found ≠ [] → output = bounded (joined (found.take max_results))
  short : output.length ≤ MAX_TOOL_OUTPUT_CHARS

section
variable {workspace : Workspace} {device : Nat} {effect : NativeSideEffect} {query : Text} {max_results : Nat}
  {arguments : Arguments} {policy : CompiledPathPolicy}

theorem matching_colon {files : List Path} {line : Text} (here : line ∈ workspace.matching query files) :
    ':' ∈ line := by
  obtain ⟨path,_,inside⟩ := mem_flatMap.mp here
  cases text : workspace.text path with
  | none => simp [text] at inside
  | some text' =>
    rw [text] at inside
    obtain ⟨⟨line',number⟩,_,shown⟩ := mem_filterMap.mp inside
    simp only at shown
    split_ifs at shown
    cases shown
    exact rendered_colon

theorem searchContents_tells : ∀ {files : List Path} {shown : List Text} {output : Text} {match_count : Nat},
    (∀ path ∈ files, workspace.Readable device path) → Progress max_results shown output match_count →
    workspace.Tells (searchContents device effect query max_results files output match_count)
      (Reports fun result => ∀ text,
      result = .ok text → Answers max_results (shown ++ workspace.matching query files) text ∨
        shown ++ workspace.matching query files = [] ∧ text = noMatches) := by
  intro files
  induction files with
  | nil =>
    intro shown output match_count _ progress
    refine tells_pure fun text equal => ?_
    cases equal
    rw [matching,flatMap_nil,append_nil,progress.output]
    by_cases nothing : shown = []
    · subst nothing
      exact .inr ⟨rfl,rfl⟩
    · have started : (joined shown).isEmpty = false := by
        rw [isEmpty_eq_false_iff]
        exact ne_nil_of_mem (joined_colon progress.colons nothing)
      rw [started]
      exact .inl ⟨nothing,by rw [take_of_length_le progress.more.le,bounded,if_pos progress.room]; rfl⟩
  | cons path rest ih =>
    intro shown output match_count readable progress
    obtain ⟨directory,name,rfl,grounded,regular⟩ := readable _ mem_cons_self
    have later : ∀ path ∈ rest, workspace.Readable device path :=
      fun path here => readable path (mem_cons_of_mem _ here)
    refine perform_tells fun cancelled _ => ?_
    match cancelled with
    | true => exact tells_pure nofun
    | false =>
      refine tells_and_then ((open_regular_components_tells grounded regular).imp ?_)
      rintro _ rfl
      refine tells_and_then ((read_utf8_bounded_tells regular).imp fun result read => ?_)
      have head : workspace.matching query ((directory ++ [name]) :: rest) =
          ((result.toOption).map fun text => matchingLines query (directory ++ [name]) (lines text) 1).getD
            [] ++ workspace.matching query rest := by
        rw [matching,flatMap_cons,← read,matching]
      rw [head]
      cases result with
      | error error => exact ih later progress
      | ok text =>
        have searched := @searchLines_progress query max_results (directory ++ [name]) (lines text) 0 _ _ _ progress
        simp only [Except.toOption,Option.map_some,Option.getD_some]
        rw [← append_assoc]
        split at searched
        · rename_i output' stopped
          rw [stopped]
          exact tells_pure fun text equal => by cases equal; exact .inl (searched _)
        · rename_i output' count wentOn
          rw [wentOn]
          exact ih later searched

theorem grounded_real (tree : workspace.Tree device) {directory : Path}
    (grounded : workspace.grounded device [] directory) :
    workspace.kindOn device directory = some .Directory := by
  have last : ∀ {components directory : Path}, workspace.grounded device directory components →
      workspace.kindOn device directory = some .Directory →
        workspace.kindOn device (directory ++ components) = some .Directory := by
    intro components
    induction components with
    | nil => exact fun _ real => by rwa [append_nil]
    | cons component rest ih =>
      intro directory grounded _
      rw [append_cons]
      exact ih grounded.2 grounded.1
  exact last grounded tree.pinned

/-- Files that cannot be read as text have no lines. -/
theorem matching_filter (files : List Path) :
    workspace.matching query
      (files.filter fun path => (workspace.text path).isSome) = workspace.matching query files := by
  induction files with
  | nil => rfl
  | cons path rest ih =>
    rw [filter_cons]
    cases text : workspace.text path with
    | none =>
      rw [if_neg (by simp),ih]
      simp [matching,text]
    | some text' =>
      rw [if_pos (by simp)]
      simp only [matching,flatMap_cons] at ih ⊢
      rw [ih]

theorem checked_tells {α β : Type} {first : Except ToolError α} {next : α → Tool (Outcome β)} {post : β → Prop}
    (rest : ∀ value, first = .ok value →
      workspace.Tells (next value) (Reports fun result => ∀ output, result = .ok output → post output)) :
    workspace.Tells (checked first next) (Reports fun result => ∀ output, result = .ok output → post output) := by
  cases first with
  | error error => exact tells_pure nofun
  | ok value => exact rest value rfl

theorem optional_usize_pos {name : String} {default maximum n : Nat} (positive : 0 < default)
    (parsed : optional_usize arguments name default maximum = .ok n) : 0 < n := by
  unfold optional_usize at parsed
  split at parsed
  · cases parsed
    exact positive
  · split at parsed
    · rename_i kept
      cases parsed
      have := (Option.filter_eq_some_iff.mp kept).2
      simp only [Bool.and_eq_true,decide_eq_true_eq] at this
      exact this.1
    · cases parsed

/-- Nothing that can be reached is deeper than a path may be. -/
def Workspace.Within (workspace : Workspace) (policy : CompiledPathPolicy) (device : Nat) (root : Path) : Prop :=
  ∀ path, workspace.Reachable policy device root path → path.length ≤ MAX_PATH_COMPONENTS

/-- What the walk found, in order. -/
theorem sortedPaths_below (tree : workspace.Tree device) {root : Path} {paths : List Path}
    (grounded : workspace.grounded device [] root) (perm : paths.Perm (workspace.below policy device root)) :
    (sortedPaths paths).Pairwise (· < ·) ∧ ∀ path, path ∈ sortedPaths paths ↔
      workspace.Reachable policy device root path ∧
      path.length ≤ MAX_PATH_COMPONENTS ∧ workspace.kindOn device path = some .Regular := by
  have real := grounded_real tree grounded
  have sorted : (sortedPaths paths).Pairwise (· ≤ ·) := pairwise_insertionSort _ _
  have all : (sortedPaths paths).Perm (workspace.below policy device root) := (perm_insertionSort _ _).trans perm
  have distinct : (sortedPaths paths).Nodup := all.nodup_iff.mpr (below_nodup tree)
  refine ⟨(sorted.and distinct).imp fun ordered => lt_of_le_of_ne ordered.1 ordered.2,fun path => ?_⟩
  rw [all.mem_iff]
  constructor
  · exact fun here => mem_below here real
  · rintro ⟨reachable,short,regular⟩
    refine (below_of_reachable tree short regular reachable).resolve_left ?_
    rintro rfl
    exact absurd (regular.symm.trans real) nofun

theorem Answers.listed {found : List Text} {output : Text} (colons : ∀ line ∈ found, ':' ∈ line)
    (positive : 0 < max_results) (answers : Answers max_results found output ∨ found = [] ∧ output = noMatches) :
    Listed max_results found output := by
  rcases answers with ⟨someFound,rfl⟩ | ⟨rfl,rfl⟩
  · refine ⟨⟨fun same =>
      absurd same (bounded_ne_noMatches (joined_colon (fun line here => colons line (mem_of_mem_take here)) ?_)),
      fun nothing => absurd nothing someFound⟩,fun _ => rfl,bounded_length _⟩
    rw [Ne,take_eq_nil_iff]
    exact fun noneTaken => noneTaken.elim (fun zero => absurd zero positive.ne') someFound
  · exact ⟨⟨fun _ => rfl,fun _ => rfl⟩,fun someFound => absurd rfl someFound,by decide⟩

/-- An output is what these arguments ask for: the first matches in the files that can be reached and read as text, in
    the order of their paths. -/
def Workspace.Searched (workspace : Workspace) (policy : CompiledPathPolicy) (device : Nat) (arguments : Arguments)
    (output : Text) : Prop :=
  ∃ query path max_results root, queryArgument arguments = .ok query ∧
    optional_string arguments "path" ['.'] = .ok path ∧
    optional_usize arguments "max_results" DEFAULT_SEARCH_RESULTS MAX_SEARCH_RESULTS = .ok max_results ∧
    allowedComponents policy path true = .ok root ∧ (workspace.Within policy device root →
      ∃ files : List Path, files.Pairwise (· < ·) ∧
        (∀ file, file ∈ files ↔ workspace.Reachable policy device root file ∧
          workspace.kindOn device file = some .Regular ∧
          (workspace.text file).isSome) ∧
        Listed max_results (workspace.matching query files) output)

theorem search_files_tells (tree : workspace.Tree device) :
    workspace.Tells (search_files policy (some device) effect arguments)
      (Reports fun result => ∀ output, result = .ok output → workspace.Searched policy device arguments output) := by
  refine checked_tells fun _ _ => checked_tells fun query queried => checked_tells fun path named =>
    checked_tells fun max_results limited =>
    checked_tells fun root rooted =>
      tells_take nofun ((walkDirectories_tells ?_ ?_ ?_ ?_).imp fun result walked paths ok => ?_)
  · exact le_of_eq (by simp [Nat.add_comm])
  · exact Nat.zero_le _
  · simp
  · simp
  · obtain ⟨perm,readable,grounded⟩ := walked paths ok
    obtain ⟨ordered,members⟩ := sortedPaths_below tree (grounded _ mem_cons_self) (by simpa using perm)
    have positive := optional_usize_pos (by decide) limited
    have begun : Progress max_results [] [] 0 := ⟨rfl,rfl,positive,Nat.zero_le _,nofun⟩
    refine (searchContents_tells (fun path here => readable path ((mem_insertionSort _).mp here)) begun).imp
      fun result searched output ok => ⟨query,path,max_results,root,queried,named,limited,rooted,fun within => ?_⟩
    refine ⟨(sortedPaths paths).filter fun path => (workspace.text path).isSome,ordered.filter _,fun file => ?_,?_⟩
    · rw [mem_filter,members,and_assoc]
      exact ⟨fun ⟨reachable,⟨_,regular⟩,text⟩ => ⟨reachable,regular,text⟩,
        fun ⟨reachable,regular,text⟩ => ⟨reachable,⟨within file reachable,regular⟩,text⟩⟩
    · rw [matching_filter]
      exact Answers.listed (fun line here => matching_colon here) positive (searched output ok)

/-- In a workspace at rest a search comes to its end, and what a successful one gives is what was asked for. -/
theorem search_gives_first_matches {policy : CompiledPathPolicy} {arguments : Arguments} (tree : workspace.Tree device)
    {trace : List (Event Request Answer)} {outcome : Outcome Text}
    (runs : Runs (search_files policy (some device) effect arguments) trace outcome)
    (truthful : ∀ event ∈ trace, workspace.Truthful event) :
    outcome ≠ .error .Running ∧ ∀ output, outcome = .ok (.ok output) →
      workspace.Searched policy device arguments output := by
  have reports := (search_files_tells tree).runs runs truthful
  cases outcome with
  | error stop =>
    refine ⟨fun same => ?_,nofun⟩
    cases same
    exact reports rfl
  | ok result =>
    refine ⟨nofun,fun output same => ?_⟩
    cases same
    exact reports output rfl

theorem play_truthful {α : Type} {program : Tool α} : ∀ {past : List (Event Request Answer)},
    ∀ event ∈ (program.play (workspace.world fun _ _ => none) past).1, workspace.Truthful event := by
  induction program with
  | done value => exact fun event here => absurd here not_mem_nil
  | ask request next ih =>
    intro past event here
    rcases mem_cons.mp here with rfl | later
    · cases request <;> trivial
    · exact ih _ event later

end

theorem holding_tree (content : Bytes) : (holding content).Tree 1 := by
  refine ⟨rfl,fun directory name present => ?_,fun directory => ?_⟩
  · by_cases named : directory ++ [name] = ["secret".toList]
    · obtain ⟨rfl,rfl⟩ : directory = [] ∧ name = "secret".toList := by
        cases directory with
        | nil => exact ⟨rfl,by simpa using named⟩
        | cons first rest => simp at named
      exact mem_singleton_self _
    · simp only [holding,if_neg named,if_neg (append_ne_nil_of_right_ne_nil _ (cons_ne_nil _ _))] at present
      cases present
  · simp only [holding]
    split_ifs <;> simp

/-- One file with two lines, the second with what is sought. -/
theorem second_line_is_found :
    ((search_files ⟨plainGlob,[]⟩ (some 1) (.ToolOperation 1 0) [("query",.String ['b'])]).play
        ((holding [0x61,0x0a,0x62]).world fun _ _ => none) []).2 = .ok (.ok "secret:2:b".toList) ∧
      (holding [0x61,0x0a,0x62]).Searched ⟨plainGlob,[]⟩ 1 [("query",.String ['b'])] "secret:2:b".toList := by
  have found : ((search_files ⟨plainGlob,[]⟩ (some 1) (.ToolOperation 1 0) [("query",.String ['b'])]).play
      ((holding [0x61,0x0a,0x62]).world fun _ _ => none) []).2 = .ok (.ok "secret:2:b".toList) := by rfl
  exact ⟨found,(search_gives_first_matches (holding_tree _) (runs_play _ _ _) play_truthful).2 _ found⟩

end Vyane.TrustedFiles
