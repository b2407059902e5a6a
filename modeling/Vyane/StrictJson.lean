import Vyane.JsonMaps
import Vyane.JsonText
import Vyane.ToolChat

/-!
Arguments that a model wrote (`parse_object_arguments` and the strict visitor of `wire.rs`). What `serde_json` finds in
a text, from left to right, is a parameter: a document, which may break off anywhere. `Document.read` is the parser of
plain values, which keeps the last of repeated keys; the strict visitor refuses them and counts every value against a
budget that all calls of a response share.
-/
namespace Vyane.Wire
open Vyane.Core Json ToolChat Option ToolChatLimits

/-- `if bad { return Err(error) }`. -/
def rejectIf (bad : Bool) (error : VyaneError) : Result Unit := if bad then .error error else .ok ()
theorem rejectIf_eq_ok {bad : Bool} {error : VyaneError} : rejectIf bad error = .ok () ↔ bad = false := by
  cases bad <;> simp [rejectIf]
def protocolError (message : String) : VyaneError := ⟨.Protocol,message⟩

/-- `outcome.validate().map_err(..)?; Ok(outcome)`. -/
def validated (writer : Writer) (context : String) (outcome : ToolChatOutcome) : Result ToolChatOutcome :=
  match outcome.validate writer with
  | .ok () => .ok outcome
  | .error error => .error (protocolError (context ++ error.to_string))

theorem validated_eq_ok {writer : Writer} {context : String} {outcome result : ToolChatOutcome} :
    validated writer context outcome = .ok result ↔ outcome.validate writer = .ok () ∧ outcome = result := by
  rw [validated]
  cases outcome.validate writer <;> simp

/-! ### Documents -/

/-- What a deserializer finds. An array or object that is not closed breaks off behind its items. -/
inductive Document where
  | Null
  | Bool (value : Bool)
  | Number (text : String)
  | String (value : String)
  | Array (elements : List Document) (closed : Bool)
  | Object (members : List (String × Document)) (closed : Bool)
  | Broken

mutual

/-- `Value`'s own parser: a member takes the place of an earlier one of its key. -/
def Document.read : Document → Option Value
  | .Null => some .Null
  | .Bool value => some (.Bool value)
  | .Number text => some (.Number text)
  | .String value => some (.String value)
  | .Array elements closed => if closed then (readElements elements).map .Array else none
  | .Object members closed =>
      if closed then (readMembers members).map fun fields => .Object (mapCollect fields) else none
  | .Broken => none

def readElements : List Document → Option (List Value)
  | [] => some []
  | document :: rest => document.read.bind fun value => (readElements rest).map (value :: ·)
def readMembers : List (String × Document) → Option Fields
  | [] => some []
  | (key,document) :: rest => document.read.bind fun value => (readMembers rest).map ((key,value) :: ·)

end

mutual

/-- An object somewhere in the document has a key twice. -/
def Document.Repeats : Document → Prop
  | .Null | .Bool _ | .Number _ | .String _ | .Broken => False
  | .Array elements _ => ElementsRepeat elements
  | .Object members _ => ¬(members.map Prod.fst).Nodup ∨ MembersRepeat members

def ElementsRepeat : List Document → Prop
  | [] => False
  | document :: rest => document.Repeats ∨ ElementsRepeat rest
def MembersRepeat : List (String × Document) → Prop
  | [] => False
  | (_,document) :: rest => document.Repeats ∨ MembersRepeat rest

end

mutual

/-- The document of a value that was written. -/
def documentOf : Value → Document
  | .Null => .Null
  | .Bool value => .Bool value
  | .Number text => .Number text
  | .String value => .String value
  | .Array values => .Array (documentsOf values) true
  | .Object fields => .Object (membersOf fields) true

def documentsOf : List Value → List Document
  | [] => []
  | value :: values => documentOf value :: documentsOf values
def membersOf : Fields → List (String × Document)
  | [] => []
  | (key,value) :: fields => (key,documentOf value) :: membersOf fields

end

/-- `serde_json`, as the wire formats use it: what it finds in a text, and whether nothing but blanks follows, and the
    text that it writes for an object. -/
structure SerdeJson where
  find : String → Document × Bool
  to_string : Fields → String

def SerdeJson.from_str (json : SerdeJson) (raw : String) : Option Value :=
  if (json.find raw).2 then (json.find raw).1.read else none

/-- What it writes it finds again, unless that nests too deep, if each number is read again as it was written. Floats
    need not be: without `float_roundtrip` the parser may read a neighbour. -/
structure JsonLibrary extends SerdeJson where
  readsBack : String → Prop
  findToString {fields : Fields} : OrderedValue (.Object fields) → (Value.Object fields).Numbers readsBack →
    (Value.Object fields).nesting ≤ MAX_NESTING → find (to_string fields) = (documentOf (.Object fields),true)
  read_to_string {fields : Fields} : (find (to_string fields)).1.read = some (.Object fields) →
    (Value.Object fields).Numbers readsBack

variable (json : SerdeJson)

/-! ### The strict visitor -/

inductive ArgumentParseError where
  | Invalid
  | Limit
deriving DecidableEq, Repr

structure StrictJsonBudget where
  nodes : Nat
  limit_hit : Bool
deriving DecidableEq, Repr

/-- `StrictJsonBudget::default()`. -/
def StrictJsonBudget.empty : StrictJsonBudget := ⟨0,false⟩
/-- The check before a value is visited. -/
def StrictJsonBudget.exhausted (budget : StrictJsonBudget) (depth : Nat) : Bool :=
  JSON_DEPTH < depth || JSON_NODES ≤ budget.nodes
def StrictJsonBudget.hit (budget : StrictJsonBudget) : StrictJsonBudget := { budget with limit_hit := true }
def StrictJsonBudget.count (budget : StrictJsonBudget) : StrictJsonBudget := { budget with nodes := budget.nodes + 1 }
/-- The end of an array or object that was read. -/
def close {α : Type} (closed : Bool) (make : α → Value) : Option α × StrictJsonBudget → Option Value × StrictJsonBudget
  | (found,budget) => (if closed then found.map make else none,budget)

mutual

/-- `StrictJsonSeed::deserialize`, with the visitor it calls. -/
def strictValue (depth : Nat) (budget : StrictJsonBudget) (document : Document) : Option Value × StrictJsonBudget :=
  if budget.exhausted depth then (none,budget.hit)
  else match document with
    | .Null => (some .Null,budget.count)
    | .Bool value => (some (.Bool value),budget.count)
    | .Number text => (some (.Number text),budget.count)
    | .String value => (some (.String value),budget.count)
    | .Array elements closed => close closed .Array (strictElements (depth + 1) budget.count elements)
    | .Object members closed => close closed .Object (strictMembers (depth + 1) budget.count [] members)
    | .Broken => (none,budget.count)

def strictElements (depth : Nat) (budget : StrictJsonBudget) : List Document → Option (List Value) × StrictJsonBudget
  | [] => (some [],budget)
  | document :: rest =>
    match strictValue depth budget document with
    | (none,budget) => (none,budget)
    | (some value,budget) =>
      let (values,budget) := strictElements depth budget rest
      (values.map (value :: ·),budget)

/-- The members behind those of a map, which has no key of theirs. -/
def strictMembers (depth : Nat) (budget : StrictJsonBudget) (values : Fields) : List (String × Document) →
    Option Fields × StrictJsonBudget
  | [] => (some values,budget)
  | (key,document) :: rest =>
    if values.any fun field => field.1 == key then (none,budget)
    else match strictValue depth budget document with
      | (none,budget) => (none,budget)
      | (some value,budget) => strictMembers depth budget (mapInsert key value values) rest

end

def parse_object_arguments (raw : String) (budget : StrictJsonBudget) :
    Except ArgumentParseError Fields × StrictJsonBudget :=
  if ARGUMENT_BYTES < raw.utf8ByteSize then (.error .Limit,budget)
  else match strictValue 0 budget (json.find raw).1 with
    | (none,budget) => (.error (if budget.limit_hit then .Limit else .Invalid),budget)
    | (some value,budget) =>
      if !(json.find raw).2 then (.error .Invalid,budget)
      else match value with
        | .Object values => (.ok values,budget)
        | _ => (.error .Invalid,budget)

/-! ### What is delivered -/

mutual

/-- How many values there are in a value, itself included. -/
def nodeCount : Value → Nat
  | .Null | .Bool _ | .Number _ | .String _ => 1
  | .Array values => nodesOfValues values + 1
  | .Object fields => nodesOfFields fields + 1

def nodesOfValues : List Value → Nat
  | [] => 0
  | value :: values => nodeCount value + nodesOfValues values
def nodesOfFields : Fields → Nat
  | [] => 0
  | (_,value) :: fields => nodeCount value + nodesOfFields fields

end

mutual

/-- No value is nested deeper than the limit, where this one stands at a depth. -/
def Within (depth : Nat) : Value → Prop
  | .Null | .Bool _ | .Number _ | .String _ => depth ≤ JSON_DEPTH
  | .Array values => depth ≤ JSON_DEPTH ∧ ValuesWithin (depth + 1) values
  | .Object fields => depth ≤ JSON_DEPTH ∧ FieldsWithin (depth + 1) fields

def ValuesWithin (depth : Nat) : List Value → Prop
  | [] => True
  | value :: values => Within depth value ∧ ValuesWithin depth values
def FieldsWithin (depth : Nat) : Fields → Prop
  | [] => True
  | (_,value) :: fields => Within depth value ∧ FieldsWithin depth fields

end

variable {value : Value}

theorem nodes_mapInsert {key : String} {fields : Fields} (new : (fields.any fun field => field.1 == key) = false) :
    nodesOfFields (mapInsert key value fields) = nodeCount value + nodesOfFields fields := by
  induction fields with
  | nil => rfl
  | cons field fields ih =>
    rw [List.any_cons,Bool.or_eq_false_iff,beq_eq_false_iff_ne] at new
    rw [mapInsert,if_neg (Ne.symm new.1)]
    split_ifs
    · rfl
    · rw [nodesOfFields,nodesOfFields,ih new.2]
      omega

theorem within_mapInsert {depth : Nat} {key : String} (within : Within depth value) {fields : Fields}
    (all : FieldsWithin depth fields) :
    FieldsWithin depth (mapInsert key value fields) := by
  induction fields with
  | nil => exact ⟨within,trivial⟩
  | cons field fields ih =>
    rw [mapInsert]
    split_ifs
    · exact ⟨within,all⟩
    · exact ⟨within,all.2⟩
    · exact ⟨all.1,ih all.2⟩

theorem key_mapInsert (key : String) (value : Value) (fields : Fields) (other : String) :
    ((mapInsert key value fields).any fun field => field.1 == other) =
    (key == other || fields.any fun field => field.1 == other) := by
  induction fields with
  | nil => rfl
  | cons field fields ih =>
    rw [mapInsert]
    split_ifs with before same
    · rfl
    · rw [List.any_cons,List.any_cons,same]
      simp
    · rw [List.any_cons,List.any_cons,ih]
      simp only [Bool.or_left_comm]

/-- A visit that ends with a value found a whole document without repeated keys, and counted what the value holds. -/
structure Visited (depth : Nat) (budget : StrictJsonBudget) (document : Document) (value : Value)
    (after : StrictJsonBudget) : Prop where
  read : document.read = some value
  strict : ¬document.Repeats
  within : Within depth value
  nodes : after.nodes = budget.nodes + nodeCount value
  limit_hit : after.limit_hit = budget.limit_hit

theorem exhausted_eq_false {budget : StrictJsonBudget} {depth : Nat} :
    budget.exhausted depth = false ↔ depth ≤ JSON_DEPTH ∧ budget.nodes < JSON_NODES := by
  simp [StrictJsonBudget.exhausted]

theorem close_eq_some {α : Type} {closed : Bool} {make : α → Value} {found : Option α × StrictJsonBudget}
    {after : StrictJsonBudget}
    (ends : close closed make found = (some value,after)) : closed = true ∧ ∃ inner, found = (some inner,after) ∧
      make inner = value := by
  obtain ⟨inner,budget⟩ := found
  simp only [close,Prod.mk.injEq,ite_none_right_eq_some] at ends
  obtain ⟨⟨rfl,mapped⟩,rfl⟩ := ends
  obtain ⟨inner,rfl,rfl⟩ := map_eq_some_iff.mp mapped
  exact ⟨rfl,inner,rfl,rfl⟩

mutual

theorem strictValue_some : ∀ (document : Document) {depth : Nat} {budget after : StrictJsonBudget} {value : Value},
    strictValue depth budget document = (some value,after) → Visited depth budget document value after := by
  intro document depth budget after value visited
  rw [strictValue.eq_def] at visited
  split_ifs at visited with exhausted
  · cases visited
  rw [Bool.not_eq_true,exhausted_eq_false] at exhausted
  match document, visited with
  | .Null, visited =>
    cases visited
    exact ⟨rfl,id,exhausted.1,rfl,rfl⟩
  | .Bool value, visited =>
    cases visited
    exact ⟨rfl,id,exhausted.1,rfl,rfl⟩
  | .Number text, visited =>
    cases visited
    exact ⟨rfl,id,exhausted.1,rfl,rfl⟩
  | .String text, visited =>
    cases visited
    exact ⟨rfl,id,exhausted.1,rfl,rfl⟩
  | .Array elements closed, visited =>
    obtain ⟨rfl,values,inner,rfl⟩ := close_eq_some visited
    obtain ⟨read,strict,within,nodes,limit_hit⟩ := strictElements_some elements inner
    refine ⟨by simp [Document.read,read],by simpa [Document.Repeats] using strict,⟨exhausted.1,within⟩,?_,limit_hit⟩
    simp only [StrictJsonBudget.count] at nodes
    rw [nodeCount]
    omega
  | .Object members closed, visited =>
    obtain ⟨rfl,fields,inner,rfl⟩ := close_eq_some visited
    obtain ⟨found,read,extended,distinct,-,strict,within,nodes,limit_hit⟩ := strictMembers_some members inner trivial
    refine ⟨by simp [Document.read,read,mapCollect,extended],by simp [Document.Repeats,strict,distinct],⟨exhausted.1,
      within⟩,?_,limit_hit⟩
    simp only [StrictJsonBudget.count,nodesOfFields] at nodes
    rw [nodeCount]
    omega
  | .Broken, visited => cases visited

theorem strictElements_some : ∀ (elements : List Document) {depth : Nat} {budget after : StrictJsonBudget}
    {values : List Value},
    strictElements depth budget elements = (some values,after) →
    readElements elements = some values ∧ ¬ElementsRepeat elements ∧ ValuesWithin depth values ∧
      after.nodes = budget.nodes + nodesOfValues values
      ∧ after.limit_hit = budget.limit_hit
  | [], _, _, _, _, visited => by
    cases visited
    exact ⟨rfl,id,trivial,rfl,rfl⟩
  | document :: rest, depth, budget, after, values, visited => by
    rw [strictElements] at visited
    split at visited
    · cases visited
    · rename_i value between first
      have found := strictValue_some document first
      obtain ⟨values,rfl⟩ : ∃ tail, values = value :: tail := by
        obtain ⟨tail,-,made⟩ := map_eq_some_iff.mp (Prod.ext_iff.mp visited).1
        exact ⟨tail,made.symm⟩
      have others : strictElements depth between rest = (some values,after) := by
        obtain ⟨tail,visited',made⟩ := map_eq_some_iff.mp (Prod.ext_iff.mp visited).1
        obtain ⟨-,rfl⟩ := List.cons.inj made
        exact Prod.ext visited' (Prod.ext_iff.mp visited).2
      obtain ⟨read,strict,within,nodes,limit_hit⟩ := strictElements_some rest others
      refine ⟨by simp [readElements,found.read,read],by simp [ElementsRepeat,found.strict,strict],⟨found.within,
        within⟩,?_,limit_hit.trans found.limit_hit⟩
      rw [nodes,found.nodes,nodesOfValues]
      omega

theorem strictMembers_some : ∀ (members : List (String × Document)) {depth : Nat} {budget after : StrictJsonBudget}
    {values fields : Fields},
    strictMembers depth budget values members = (some fields,after) → FieldsWithin depth values →
    ∃ found, readMembers members = some found ∧ mapExtend values found = fields ∧ (members.map Prod.fst).Nodup
      ∧ (∀ member ∈ members, (values.any fun field => field.1 == member.1) = false) ∧ ¬MembersRepeat members ∧
        FieldsWithin depth fields
      ∧ after.nodes + nodesOfFields values = budget.nodes + nodesOfFields fields ∧ after.limit_hit = budget.limit_hit
  | [], _, _, _, _, _, visited, within => by
    cases visited
    exact ⟨[],rfl,rfl,List.nodup_nil,by simp,id,within,rfl,rfl⟩
  | (key,document) :: rest, depth, budget, after, values, fields, visited, within => by
    rw [strictMembers] at visited
    split_ifs at visited with taken
    · cases visited
    rw [Bool.not_eq_true] at taken
    split at visited
    · cases visited
    · rename_i value between first
      have one := strictValue_some document first
      obtain ⟨found,read,extended,distinct,free,strict,within',nodes,limit_hit⟩ :=
        strictMembers_some rest visited (within_mapInsert one.within within)
      simp only [key_mapInsert,Bool.or_eq_false_iff,beq_eq_false_iff_ne] at free
      refine ⟨(key,value) :: found,by simp [readMembers,one.read,read],extended,?_,List.forall_mem_cons.mpr ⟨taken,
        fun member inside => (free member inside).2⟩,
        by simp [MembersRepeat,one.strict,strict],within',?_,limit_hit.trans one.limit_hit⟩
      · rw [List.map_cons,List.nodup_cons]
        refine ⟨fun repeated => ?_,distinct⟩
        obtain ⟨member,inside,same⟩ := List.mem_map.mp repeated
        exact (free member inside).1 same.symm
      · rw [nodes_mapInsert taken] at nodes
        have := one.nodes
        omega

end

/-! ### The budget -/

/-- A visit counts, and no further than the limit. -/
def Counts (before after : StrictJsonBudget) : Prop :=
  before.nodes ≤ after.nodes ∧ (before.nodes ≤ JSON_NODES → after.nodes ≤ JSON_NODES)
theorem Counts.refl (budget : StrictJsonBudget) : Counts budget budget := ⟨le_refl _,id⟩
theorem Counts.trans {before between after : StrictJsonBudget} (first : Counts before between)
    (second : Counts between after) : Counts before after :=
  ⟨first.1.trans second.1,second.2 ∘ first.2⟩

mutual

theorem strictValue_counts : ∀ (document : Document) (depth : Nat) (budget : StrictJsonBudget), Counts budget
    (strictValue depth budget document).2 := by
  intro document depth budget
  rw [strictValue.eq_def]
  split_ifs with exhausted
  · exact .refl budget
  rw [Bool.not_eq_true,exhausted_eq_false] at exhausted
  have counted : Counts budget budget.count := ⟨Nat.le_succ _,fun _ => exhausted.2⟩
  match document with
  | .Null => exact counted
  | .Bool _ => exact counted
  | .Number _ => exact counted
  | .String _ => exact counted
  | .Broken => exact counted
  | .Array elements _ => exact counted.trans (strictElements_counts elements (depth + 1) budget.count)
  | .Object members _ => exact counted.trans (strictMembers_counts members (depth + 1) budget.count [])

theorem strictElements_counts : ∀ (elements : List Document) (depth : Nat) (budget : StrictJsonBudget),
    Counts budget (strictElements depth budget elements).2
  | [], _, budget => .refl budget
  | document :: rest, depth, budget => by
    have one := strictValue_counts document depth budget
    rw [strictElements]
    split
    · rename_i between first
      rwa [first] at one
    · rename_i value between first
      rw [first] at one
      exact one.trans (strictElements_counts rest depth between)

theorem strictMembers_counts : ∀ (members : List (String × Document)) (depth : Nat) (budget : StrictJsonBudget)
    (values : Fields),
    Counts budget (strictMembers depth budget values members).2
  | [], _, budget, _ => .refl budget
  | (key,document) :: rest, depth, budget, values => by
    have one := strictValue_counts document depth budget
    rw [strictMembers]
    split_ifs
    · exact .refl budget
    · split
      · rename_i between first
        rwa [first] at one
      · rename_i value between first
        rw [first] at one
        exact one.trans (strictMembers_counts rest depth between _)

end

/-- What arguments that were read carry: the object of a document without repeated keys, within the limits. -/
structure Carries (document : Document) (arguments : Fields) : Prop where
  read : document.read = some (.Object arguments)
  strict : ¬document.Repeats
  within : Within 0 (.Object arguments)

variable {json} {raw : String} {budget after : StrictJsonBudget}

theorem parse_object_arguments_ok {arguments : Fields}
    (parsed : parse_object_arguments json raw budget = (.ok arguments,after)) :
    (json.find raw).2 = true ∧ Carries (json.find raw).1 arguments ∧ after.nodes = budget.nodes + nodeCount
    (.Object arguments) := by
  rw [parse_object_arguments] at parsed
  split at parsed
  · cases parsed
  split at parsed
  · cases parsed
  · rename_i value between found
    split_ifs at parsed with trailing
    · cases parsed
    · split at parsed
      · cases parsed
        have visited := strictValue_some _ found
        exact ⟨by simpa using trailing,⟨visited.read,visited.strict,visited.within⟩,visited.nodes⟩
      · cases parsed

/-- The budget behind arguments that did not hit a limit. -/
theorem parse_object_arguments_budget {result : Except ArgumentParseError Fields}
    (parsed : parse_object_arguments json raw budget = (result,after))
    (other : result ≠ .error .Limit) (free : budget.limit_hit = false) :
    Counts budget after ∧ after.limit_hit = false := by
  rw [parse_object_arguments] at parsed
  split at parsed
  · cases parsed
    exact absurd rfl other
  have counts := strictValue_counts (json.find raw).1 0 budget
  split at parsed
  · rename_i between found
    rw [found] at counts
    cases parsed
    refine ⟨counts,Bool.eq_false_iff.mpr fun hit => other ?_⟩
    rw [if_pos hit]
  · rename_i value between found
    rw [found] at counts
    have kept : between.limit_hit = false := (strictValue_some _ found).limit_hit.trans free
    split_ifs at parsed
    · cases parsed
      exact ⟨counts,kept⟩
    · split at parsed
      all_goals
        cases parsed
        exact ⟨counts,kept⟩

/-! ### Values that were read -/

mutual

/-- A value that was read has its objects in order. -/
theorem read_ordered : ∀ (document : Document) {value : Value}, document.read = some value → OrderedValue value
  | .Null, _, found => by cases found; trivial
  | .Bool _, _, found => by cases found; trivial
  | .Number _, _, found => by cases found; trivial
  | .String _, _, found => by cases found; trivial
  | .Array elements closed, value, found => by
    rw [Document.read,ite_none_right_eq_some] at found
    obtain ⟨values,read,rfl⟩ := map_eq_some_iff.mp found.2
    exact readElements_ordered elements read
  | .Object members closed, value, found => by
    rw [Document.read,ite_none_right_eq_some] at found
    obtain ⟨fields,read,rfl⟩ := map_eq_some_iff.mp found.2
    exact mapCollect_ordered (readMembers_ordered members read)
  | .Broken, _, found => by cases found

theorem readElements_ordered : ∀ (elements : List Document) {values : List Value}, readElements elements = some values →
    OrderedValues values
  | [], _, found => by cases found; trivial
  | document :: rest, values, found => by
    obtain ⟨value,read,found⟩ := bind_eq_some_iff.mp found
    obtain ⟨values,others,rfl⟩ := map_eq_some_iff.mp found
    exact ⟨read_ordered document read,readElements_ordered rest others⟩

theorem readMembers_ordered : ∀ (members : List (String × Document)) {fields : Fields},
    readMembers members = some fields → OrderedFields fields
  | [], _, found => by cases found; trivial
  | (key,document) :: rest, fields, found => by
    obtain ⟨value,read,found⟩ := bind_eq_some_iff.mp found
    obtain ⟨fields,others,rfl⟩ := map_eq_some_iff.mp found
    exact ⟨read_ordered document read,readMembers_ordered rest others⟩

end

mutual

/-- What is written for such a value is read as it. -/
theorem documentOf_read : ∀ {value : Value}, OrderedValue value → (documentOf value).read = some value
  | .Null, _ => rfl
  | .Bool _, _ => rfl
  | .Number _, _ => rfl
  | .String _, _ => rfl
  | .Array values, ordered => by simp [documentOf,Document.read,documentsOf_read ordered]
  | .Object fields, ordered => by
    simp [documentOf,Document.read,membersOf_read ordered.2,mapCollect_ascending ordered.1]

theorem documentsOf_read : ∀ {values : List Value}, OrderedValues values →
    readElements (documentsOf values) = some values
  | [], _ => rfl
  | value :: values, ordered => by simp [documentsOf,readElements,documentOf_read ordered.1,documentsOf_read ordered.2]
theorem membersOf_read : ∀ {fields : Fields}, OrderedFields fields → readMembers (membersOf fields) = some fields
  | [], _ => rfl
  | (key,value) :: fields, ordered => by simp [membersOf,readMembers,documentOf_read ordered.1,membersOf_read ordered.2]

end

mutual

theorem within_nesting : ∀ {value : Value} {depth : Nat}, Within depth value →
    depth + value.nesting ≤ JSON_DEPTH + 1
  | .Null, _, within | .Bool _, _, within | .Number _, _, within | .String _, _, within => Nat.le_succ_of_le within
  | .Array values, depth, within => by
    have inner := values_within_nesting within.2
    have := within.1
    rw [Value.nesting]
    omega
  | .Object fields, depth, within => by
    have inner := fields_within_nesting within.2
    have := within.1
    rw [Value.nesting]
    omega

theorem values_within_nesting : ∀ {values : List Value} {depth : Nat}, ValuesWithin depth values →
    valuesNesting values = 0 ∨ depth + valuesNesting values ≤ JSON_DEPTH + 1
  | [], _, _ => .inl rfl
  | value :: values, depth, within => by
    have first := within_nesting within.1
    have rest := values_within_nesting within.2
    rw [valuesNesting]
    omega

theorem fields_within_nesting : ∀ {fields : Fields} {depth : Nat}, FieldsWithin depth fields →
    fieldsNesting fields = 0 ∨ depth + fieldsNesting fields ≤ JSON_DEPTH + 1
  | [], _, _ => .inl rfl
  | (key,value) :: fields, depth, within => by
    have first := within_nesting within.1
    have rest := fields_within_nesting within.2
    rw [fieldsNesting]
    omega

end

/-- Arguments that were read from a text are read again from what is written for them, just if their numbers are. -/
theorem Carries.written_iff {json : JsonLibrary} {document : Document} {arguments : Fields}
    (carries : Carries document arguments) :
    json.from_str (json.to_string arguments) = some (.Object arguments) ↔
      (Value.Object arguments).Numbers json.readsBack := by
  rw [SerdeJson.from_str]
  constructor
  · intro read
    split_ifs at read
    exact json.read_to_string read
  · intro numbers
    have ordered := read_ordered document carries.read
    have shallow : (Value.Object arguments).nesting ≤ MAX_NESTING := by
      have := within_nesting carries.within
      simp only [JSON_DEPTH] at this
      rw [MAX_NESTING]
      omega
    rw [json.findToString ordered numbers shallow,if_pos rfl]
    exact documentOf_read ordered

section sample
/-- A float as a model may write it, and as it is written after it was read. -/
def longFloat : String := "\x7b\"x\":31.24527019143943425\x7d"
def shortFloat : String := "\x7b\"x\":31.245270191439438\x7d"

theorem float_read (text : String) : (Document.Object [("x",.Number text)] true).read =
    some (.Object [("x",.Number text)]) := by
  simp [Document.read,readMembers,mapCollect,mapExtend,mapInsert]

/-- What `serde_json` reads in these two texts; else the reader of compact texts, for objects in the order of their
    keys. -/
def sampleJson : JsonLibrary where
  find raw :=
    if raw = longFloat then (.Object [("x",.Number "31.245270191439438")] true,true)
    else if raw = shortFloat then (.Object [("x",.Number "31.24527019143944")] true,true)
    else match Json.read (raw.length + 1) raw.toList with
      | some (value,rest) =>
          if (documentOf value).read = some value then (documentOf value,rest.isEmpty) else (.Broken,false)
      | none => (.Broken,false)
  to_string fields := String.ofList (write (.Object fields))
  readsBack := Integer
  findToString {fields} ordered plain _ := by
    have reads := read_written plain
    have other : ∀ text : String, (Json.read (text.length + 1) text.toList).isNone = true →
      String.ofList (write (.Object fields)) ≠ text := by
      rintro _ unread rfl
      simp [reads] at unread
    rw [if_neg (other longFloat (by decide +kernel)),if_neg (other shortFloat (by decide +kernel))]
    simp [reads,documentOf_read ordered]
  read_to_string {fields} read := by
    split_ifs at read with long short
    · rw [float_read] at read
      cases read
      exact absurd long (by decide +kernel)
    · rw [float_read] at read
      cases read
      exact absurd short (by decide +kernel)
    · split at read
      · rename_i value rest found
        split_ifs at read with same
        · rw [read] at same
          cases same
          exact read_plain _ found
        · cases read
      · cases read

end sample
end Vyane.Wire
