import Vyane.Core
import Vyane.JsonText
import Vyane.Latest
import Vyane.TornLines

/-!
The ratings of runs (`vyane-ledger/src/feedback.rs`): one file of lines for all owners, in which the last line of an
owner, a run and a source counts. Appends come one after the other, as the lock has it, and any can be killed. A missing
file reads as an empty one; failures of the file system are not modelled.
-/
namespace Vyane.Feedback
open Vyane.Core Json Text Times TornLines List

def FEEDBACK_SCHEMA : Nat := 1
def MAX_KEY_BYTES : Nat := 256
def AUTO_RULE_MAX_BYTES : Nat := 32

/-! ### Records -/

structure Rating where
  value : Nat
  inRange : 1 ≤ value ∧ value ≤ 5
deriving DecidableEq

def Rating.try_from (value : Nat) : Option Rating := if inRange : 1 ≤ value ∧ value ≤ 5 then
    some ⟨value,inRange⟩ else none
def is_ascii_lowercase (c : Char) : Bool := 0x61 ≤ c.toNat && c.toNat ≤ 0x7A
def is_ascii_digit (c : Char) : Bool := 0x30 ≤ c.toNat && c.toNat ≤ 0x39
/-- The check on bytes, on characters: no other character encodes to bytes that pass it. -/
def isRuleName (value : String) : Bool :=
  value.utf8ByteSize ≤ AUTO_RULE_MAX_BYTES && value.toList.head?.any (fun c =>
    is_ascii_lowercase c || is_ascii_digit c) &&
    value.toList.all fun c => is_ascii_lowercase c || is_ascii_digit c || c == '_' || c == '-'
structure AutoRule where
  name : String
  valid : isRuleName name = true
deriving DecidableEq

def AutoRule.from_str (value : String) : Option AutoRule := if valid : isRuleName value = true then
    some ⟨value,valid⟩ else none
inductive FeedbackSource where
  | Human
  | Auto (rule : AutoRule)
deriving DecidableEq

namespace FeedbackSource
def is_human : FeedbackSource → Bool
  | .Human => true
  | .Auto _ => false
def to_string : FeedbackSource → String
  | .Human => "human"
  | .Auto rule => "auto:" ++ rule.name

def from_str (value : String) : Option FeedbackSource :=
  if value = "human" then some .Human
  else if starts_with value "auto:" then (AutoRule.from_str (String.ofList (value.toList.drop 5))).map .Auto
  else none

theorem from_str_to_string (source : FeedbackSource) : from_str source.to_string = some source := by
  cases source with
  | Human => rfl
  | Auto rule =>
    have other : "auto:" ++ rule.name ≠ "human" := by
      intro same
      have first := congrArg (fun text : String => text.toList.head?) same
      simp at first
    have starts : starts_with ("auto:" ++ rule.name) "auto:" = true := by simp [starts_with]
    have rest : String.ofList (("auto:" ++ rule.name).toList.drop 5) = rule.name := by simp
    rw [to_string,from_str,if_neg other,if_pos starts,rest,AutoRule.from_str,dif_pos rule.valid]
    rfl

end FeedbackSource

structure FeedbackRecord where
  feedback_id : String
  owner : String
  run_id : String
  rating : Rating
  source : FeedbackSource
  recorded_at : DateTime
deriving DecidableEq

/-! ### Lines -/


/-- `serde_json` and `chrono`, as the lines use them. The stream of values on a line ends with the first
    error, which is none. An object reads back, and no value begins where it begins but ends before it. -/
structure LineLibrary where
  to_vec : Value → Bytes
  stream : Bytes → List (Option Value)
  writeTime : DateTime → String
  readTime : String → Option DateTime
  streamToVec {fields : List (String × Value)} : (Value.Object fields).Fits MAX_NESTING →
    stream (to_vec (.Object fields)) = [some (.Object fields)]
  streamCut {fields : List (String × Value)} {part : Bytes} : part <+: to_vec (.Object fields) →
    part ≠ to_vec (.Object fields) →
    ∀ item ∈ stream part, item = none
  opens (fields : List (String × Value)) : (to_vec (.Object fields)).head? = some 0x7b
  oneLine (value : Value) : NEWLINE ∉ to_vec value
  readWriteTime (time : DateTime) : readTime (writeTime time) = some time

variable (lib : LineLibrary)

def LINE_FIELDS : List String := ["schema","feedback_id","owner","run_id","rating","source","recorded_at"]
def lineFields (record : FeedbackRecord) : List (String × Value) :=
  [("schema",number FEEDBACK_SCHEMA),("feedback_id",.String record.feedback_id),("owner",.String record.owner),
    ("run_id",.String record.run_id),
    ("rating",number record.rating.value),("source",.String record.source.to_string),
      ("recorded_at",.String (lib.writeTime record.recorded_at))]
/-- A line without its newline. -/
def lineOf (record : FeedbackRecord) : Bytes := lib.to_vec (.Object (lineFields lib record))

/-- `from_value::<FeedbackLineV1>`. -/
def from_value (value : Value) : Option FeedbackRecord := do
  let fields ← knownFields LINE_FIELDS value
  let _ ← required fields "schema" (asUnsigned (2 ^ 32))
  return {
    feedback_id := ← required fields "feedback_id" asText
    owner := ← required fields "owner" asText
    run_id := ← required fields "run_id" asText
    rating := ← (← required fields "rating" (asUnsigned 256)) |> Rating.try_from
    source := ← (← required fields "source" asText) |> FeedbackSource.from_str
    recorded_at := ← (← required fields "recorded_at" asText) |> lib.readTime }

/-- `value.get(name)`. -/
def get (value : Value) (name : String) : Option Value :=
  match value with
  | .Object fields => fields.lookup name
  | _ => none

/-- What a value on a line is to an owner. -/
inductive Item where
  | Ignored
  | Skipped
  | Read (record : FeedbackRecord)

def checked (value : Value) : Item :=
  if (get value "schema").bind (asUnsigned (2 ^ 64)) ≠ some FEEDBACK_SCHEMA then .Skipped
  else match from_value lib value with
    | some record => .Read record
    | none => .Skipped

/-- A value that names another owner is not even counted. -/
def itemOf (owner : String) (value : Value) : Item :=
  match (get value "owner").bind asText with
  | some line_owner => if line_owner ≠ owner then .Ignored else checked lib value
  | none => checked lib value

/-- The loop over the values of a line. -/
def readItems (owner : String) : List (Option Value) → List FeedbackRecord × Nat
  | [] => ([],0)
  | none :: _ => ([],1)
  | some value :: rest =>
    let (records,skipped) := readItems owner rest
    match itemOf lib owner value with
    | .Ignored => (records,skipped)
    | .Skipped => (records,skipped + 1)
    | .Read record => (record :: records,skipped)

def records_on_line (line : Bytes) (owner : String) : List FeedbackRecord × Nat :=
  let items := lib.stream line
  let parsed_any := items.head?.any Option.isSome
  let (records,skipped) := readItems lib owner items
  (records,if !parsed_any && skipped == 0 then 1 else skipped)

/-! ### Queries -/

structure Folded where
  skipped : Nat
  position : Nat
  latest : List (Nat × FeedbackRecord)

def key (record : FeedbackRecord) : String × FeedbackSource := (record.run_id,record.source)
def addRecord (found : Folded) (record : FeedbackRecord) : Folded :=
  { found with position := found.position + 1, latest := Latest.insert key found.latest (found.position + 1,record) }

def addLine (owner : String) (found : Folded) (line : Bytes) : Folded :=
  if line.all is_ascii_whitespace then found
  else
    let (records,bad) := records_on_line lib line owner
    records.foldl addRecord { found with skipped := found.skipped + bad }

def fold_blocking (order : Latest.HashOrder) (bytes : Bytes) (owner : String) : List FeedbackRecord × Nat :=
  let found := (bytes.splitOnP (· == NEWLINE)).foldl (addLine lib owner) ⟨0,0,[]⟩
  (Latest.sorted order found.latest,found.skipped)
def validate_key (value message : String) : Result Unit :=
  if isBlank value || MAX_KEY_BYTES < value.utf8ByteSize || value.toList.any is_control then
    .error (.config message) else .ok ()
def validate_owner (owner : String) : Result Unit :=
  validate_key owner "feedback owner must be non-blank text of at most 256 bytes without control characters"

structure FeedbackQuery where
  owner : String
  run_id : Option String
  limit : Option Nat

structure FeedbackPage where
  records : List FeedbackRecord
  skipped_lines : Nat

/-- `truncate`, where there is a limit. -/
def truncate (limit : Option Nat) (records : List FeedbackRecord) : List FeedbackRecord :=
  match limit with
  | some limit => records.take limit
  | none => records

def ofRun (run_id : Option String) (records : List FeedbackRecord) : List FeedbackRecord :=
  match run_id with
  | some run_id => records.filter fun record => record.run_id == run_id
  | none => records

def query (order : Latest.HashOrder) (bytes : Bytes) (query : FeedbackQuery) : Result FeedbackPage := do
  validate_owner query.owner
  let (records,skipped_lines) := fold_blocking lib order bytes query.owner
  return ⟨truncate query.limit (ofRun query.run_id records).reverse,skipped_lines⟩

/-- The ratings of runs, as a map gives them. -/
abbrev Ratings : Type := String → Option Rating
structure RatingIndex where
  ratings : Ratings
  skipped_lines : Nat

/-- A rating goes to those of people, or to the automatic ones if they are wanted. -/
def addRating (include_auto : Bool) (found : Ratings × Ratings) (record : FeedbackRecord) : Ratings × Ratings :=
  if record.source.is_human then (Function.update found.1 record.run_id (some record.rating),found.2)
  else if include_auto then (found.1,Function.update found.2 record.run_id (some record.rating))
  else found

def latest_by_run (order : Latest.HashOrder) (bytes : Bytes) (owner : String) (include_auto : Bool) :
    Result RatingIndex := do
  validate_owner owner
  let (records,skipped_lines) := fold_blocking lib order bytes owner
  let (human,auto) := records.foldl (addRating include_auto) (fun _ => none,fun _ => none)
  return ⟨fun run_id => (human run_id).or (auto run_id),skipped_lines⟩

structure Append where
  record : FeedbackRecord
  outcome : Outcome

def validateRecord (record : FeedbackRecord) : Result Unit := do
  validate_owner record.owner
  validate_key record.run_id "feedback run_id must be non-blank text of at most 256 bytes without control characters"
  validate_key record.feedback_id "feedback_id must be non-blank text of at most 256 bytes without control characters"

/-- What an append returns, unless it is killed, and the file that it leaves. -/
def append (file : Bytes) (call : Append) : Option (Result Unit) × Bytes :=
  match validateRecord call.record with
  | .error error => (some (.error error),file)
  | .ok () => (if call.outcome = .Returned then some (.ok ())
      else none,writeLine NEWLINE file (lineOf lib call.record) call.outcome)

def after (history : List Append) : Bytes := history.foldl (fun file call => (append lib file call).2) []

/-! ### What a line gives -/

variable {lib} {owner : String}

theorem line_fits (record : FeedbackRecord) : (Value.Object (lineFields lib record)).Fits MAX_NESTING := by
  refine fits_object fun field member => ?_
  simp only [lineFields,mem_cons,not_mem_nil,or_false] at member
  rcases member with rfl | rfl | rfl | rfl | rfl | rfl | rfl
  · exact fits_number _ _
  · exact fits_string _ _
  · exact fits_string _ _
  · exact fits_string _ _
  · exact fits_number _ _
  · exact fits_string _ _
  · exact fits_string _ _

theorem from_value_line (record : FeedbackRecord) : from_value lib (.Object (lineFields lib record)) = some record := by
  have known : knownFields LINE_FIELDS (.Object (lineFields lib record)) = some (lineFields lib record) :=
    knownFields_object (by decide) (List.Sublist.refl _)
  have rating : Rating.try_from record.rating.value = some record.rating := dif_pos record.rating.inRange
  have small : record.rating.value < 256 := by
    have := record.rating.inRange
    omega
  have schema := @asUnsigned_number FEEDBACK_SCHEMA 4294967296 (by decide)
  rw [from_value,known]
  simp [required,lineFields,lookup,asText,asUnsigned_number small,schema,rating,FeedbackSource.from_str_to_string,
    lib.readWriteTime]

theorem itemOf_line (record : FeedbackRecord) :
    itemOf lib owner (.Object (lineFields lib record)) = if record.owner = owner then .Read record else .Ignored := by
  have schema := @asUnsigned_number FEEDBACK_SCHEMA 18446744073709551616 (by decide)
  have passes : checked lib (.Object (lineFields lib record)) = .Read record := by
    rw [checked,from_value_line]
    simp [get,lineFields,schema]
  have named : (get (.Object (lineFields lib record)) "owner").bind asText = some record.owner := by
    simp [get,lineFields,lookup,asText]
  rw [itemOf,named]
  by_cases own : record.owner = owner <;> simp [own,passes]

/-- The records that a line gives an owner. -/
def lineRecords (lib : LineLibrary) (owner : String) (line : Bytes) : List FeedbackRecord :=
  if line.all is_ascii_whitespace then [] else (records_on_line lib line owner).1

theorem line_not_blank {fields : List (String × Value)} {part : Bytes} (within : part <+: lib.to_vec (.Object fields))
    (filled : part ≠ []) :
    part.all is_ascii_whitespace = false := by
  obtain ⟨rest,whole⟩ := within
  obtain ⟨first,part,rfl⟩ := exists_cons_of_ne_nil filled
  have opens := lib.opens fields
  rw [← whole,cons_append,head?_cons] at opens
  cases opens
  rfl

theorem lineRecords_whole (record : FeedbackRecord) :
    lineRecords lib owner (lineOf lib record) = if record.owner = owner then [record] else [] := by
  have filled : lineOf lib record ≠ [] := by
    intro empty
    have opens := lib.opens (lineFields lib record)
    rw [show lib.to_vec (.Object (lineFields lib record)) = [] from empty] at opens
    cases opens
  have stream : lib.stream (lineOf lib record) = [some (.Object (lineFields lib record))] :=
    lib.streamToVec (line_fits record)
  rw [lineRecords,line_not_blank (prefix_refl (lineOf lib record)) filled,if_neg Bool.false_ne_true,
    records_on_line,stream]
  simp only [readItems,itemOf_line]
  split_ifs <;> rfl

theorem readItems_none {items : List (Option Value)} (all : ∀ item ∈ items, item = none) :
    (readItems lib owner items).1 = [] := by
  cases items with
  | nil => rfl
  | cons item items =>
    rw [all item mem_cons_self]
    rfl

theorem lineRecords_cut {record : FeedbackRecord} {part : Bytes} (within : part <+: lineOf lib record)
    (cut : part ≠ lineOf lib record) :
    lineRecords lib owner part = [] := by
  rw [lineRecords]
  split_ifs
  · rfl
  · exact readItems_none (lib.streamCut within cut)

/-! ### What a file gives -/

theorem add_records (records : List FeedbackRecord) : ∀ found : Folded,
    ((records.foldl addRecord found).position,(records.foldl addRecord found).latest)
      = records.foldl (fun found record => (found.1 + 1,Latest.insert key found.2 (found.1 + 1,record)))
        (found.position,found.latest) := by
  induction records with
  | nil => exact fun found => rfl
  | cons record records ih => exact fun found => ih (addRecord found record)

theorem add_lines (lines : List Bytes) : ∀ found : Folded,
    ((lines.foldl (addLine lib owner) found).position,(lines.foldl (addLine lib owner) found).latest)
      = (lines.flatMap (lineRecords lib owner)).foldl
        (fun found record => (found.1 + 1,Latest.insert key found.2 (found.1 + 1,record)))
        (found.position,found.latest) := by
  induction lines with
  | nil => exact fun found => rfl
  | cons line lines ih =>
    intro found
    rw [foldl_cons,ih,flatMap_cons,foldl_append,lineRecords,addLine]
    split_ifs
    · rfl
    · rw [add_records]

theorem flatMap_lines (lines : List Bytes) : (lines.filter (· ≠ [])).flatMap (lineRecords lib owner) = lines.flatMap
    (lineRecords lib owner) := by
  induction lines with
  | nil => rfl
  | cons line lines ih =>
    rw [filter_cons,flatMap_cons,← ih]
    by_cases empty : line = []
    · rw [empty]
      rfl
    · simp [empty]

/-- The last record of each run and source on the lines of the file. -/
theorem fold_blocking_eq (order : Latest.HashOrder) (bytes : Bytes) :
    (fold_blocking lib order bytes owner).1 = Latest.lastPerKey key
    ((lines NEWLINE bytes).flatMap (lineRecords lib owner)) := by
  rw [TornLines.lines,flatMap_lines,← Latest.sorted_insertAll order]
  exact congrArg (fun found : Nat × List (Nat × FeedbackRecord) =>
    Latest.sorted order found.2) (add_lines (bytes.splitOnP (· == NEWLINE)) ⟨0,0,[]⟩)

/-! ### What a history gives -/

def Append.accepted (call : Append) : Bool :=
  match validateRecord call.record with
  | .ok () => true
  | .error _ => false

/-- Whether the append left its whole value in the file, which it did if it returned. -/
def Append.whole (lib : LineLibrary) (call : Append) : Bool :=
  call.accepted && leftOf (lineOf lib call.record) call.outcome == lineOf lib call.record
/-- The ratings that an owner appended, in order. -/
def appended (lib : LineLibrary) (owner : String) (history : List Append) : List FeedbackRecord :=
  (history.filter fun call => call.whole lib && call.record.owner == owner).map (·.record)

theorem after_eq (history : List Append) :
    after lib history = TornLines.after NEWLINE
      ((history.filter Append.accepted).map fun call => (lineOf lib call.record,call.outcome)) := by
  induction history using reverseRecOn with
  | nil => rfl
  | append_singleton history call ih =>
    rw [after,foldl_append,filter_append,map_append,TornLines.after,foldl_append,foldl_cons,foldl_nil]
    change (append lib (after lib history) call).2 = _
    rw [append,ih,filter_singleton,Append.accepted]
    cases validateRecord call.record <;> rfl

theorem leftOf_within (text : Bytes) (outcome : Outcome) : leftOf text outcome <+: text := by
  cases outcome with
  | Returned => exact prefix_refl _
  | KilledBefore => exact List.nil_prefix
  | Killed written => exact List.take_prefix _ _

/-- An owner is given what the owner appended. -/
theorem history_records (history : List Append) :
    (lines NEWLINE (after lib history)).flatMap (lineRecords lib owner) = appended lib owner history := by
  rw [after_eq,lines_after fun call member => ?_,flatMap_lines,map_map]
  swap
  · obtain ⟨made,-,rfl⟩ := mem_map.mp member
    exact lib.oneLine _
  rw [appended]
  induction history with
  | nil => rfl
  | cons call history ih =>
    rw [filter_cons,filter_cons]
    cases accepted : call.accepted with
    | false => simpa [Append.whole,accepted] using ih
    | true =>
      rw [if_pos rfl,map_cons,flatMap_cons,ih]
      by_cases all : leftOf (lineOf lib call.record) call.outcome = lineOf lib call.record
      · by_cases own : call.record.owner = owner <;> simp [Append.whole,accepted,all,own,lineRecords_whole]
      · simp [Append.whole,accepted,all,lineRecords_cut (leftOf_within _ _) all]

theorem fold_history (order : Latest.HashOrder) (history : List Append) :
    (fold_blocking lib order (after lib history) owner).1 = Latest.lastPerKey key (appended lib owner history) := by
  rw [fold_blocking_eq,history_records]
/-- The last rating of a run among those of a kind. -/
def lastRating (human : Bool) (run_id : String) (records : List FeedbackRecord) : Option Rating :=
  ((records.filter fun record => record.source.is_human == human && record.run_id == run_id).getLast?).map (·.rating)

theorem lastRating_append (human : Bool) (run_id : String) (records : List FeedbackRecord) (record : FeedbackRecord) :
    lastRating human run_id (records ++ [record])
      = if record.source.is_human = human ∧ record.run_id = run_id then some record.rating
        else lastRating human run_id records := by
  rw [lastRating,filter_append,filter_singleton]
  split_ifs with last
  · simp [last.1,last.2]
  · have other : (record.source.is_human == human && record.run_id == run_id) = false := by simpa using last
    rw [other,cond_false,append_nil]
    rfl

theorem fold_ratings (include_auto : Bool) (records : List FeedbackRecord) :
    records.foldl (addRating include_auto) (fun _ => none,fun _ => none)
      = (fun run_id => lastRating true run_id records,fun run_id => if include_auto then lastRating false run_id records
        else none) := by
  induction records using reverseRecOn with
  | nil =>
    refine Prod.ext rfl (funext fun run_id => ?_)
    cases include_auto <;> rfl
  | append_singleton records record ih =>
    rw [foldl_append,ih,foldl_cons,foldl_nil,addRating]
    simp only [lastRating_append]
    cases record.source.is_human <;> cases include_auto <;>
      simp [Function.update,funext_iff,Prod.ext_iff,@eq_comm _ record.run_id]

/-- Who a rating is from and which run it is for is told by the key. -/
theorem lastRating_lastPerKey (human : Bool) (run_id : String) (records : List FeedbackRecord) :
    lastRating human run_id (Latest.lastPerKey key records) = lastRating human run_id records := by
  rw [lastRating,Latest.last_filter_lastPerKey]
  · rfl
  · intro first second same
    obtain ⟨run,source⟩ := Prod.mk.inj same
    rw [run,source]

theorem appended_own (history : List Append) :
    appended lib owner (history.filter fun call => call.record.owner == owner) = appended lib owner history := by
  rw [appended,filter_filter]
  simp [appended]

theorem query_eq (order : Latest.HashOrder) (history : List Append) (run_id : Option String) (limit : Option Nat) :
    ∃ skipped, query lib order (after lib history) ⟨owner,run_id,limit⟩
      = (validate_owner owner).map fun _ =>
        ⟨truncate limit (ofRun run_id (Latest.lastPerKey key (appended lib owner history))).reverse,skipped⟩ := by
  refine ⟨(fold_blocking lib order (after lib history) owner).2,?_⟩
  rw [query,← fold_history order history]
  cases validate_owner owner <;> rfl

theorem latest_by_run_eq (order : Latest.HashOrder) (history : List Append) (include_auto : Bool) :
    ∃ skipped, latest_by_run lib order (after lib history) owner include_auto = (validate_owner owner).map fun _ =>
      ⟨fun run_id => (lastRating true run_id (appended lib owner history)).or
        (if include_auto then lastRating false run_id (appended lib owner history) else none),skipped⟩ := by
  refine ⟨(fold_blocking lib order (after lib history) owner).2,?_⟩
  have folded := fold_ratings include_auto (fold_blocking lib order (after lib history) owner).1
  rw [fold_history] at folded
  simp only [lastRating_lastPerKey] at folded
  have found : fold_blocking lib order (after lib history) owner
      = (Latest.lastPerKey key (appended lib owner history),(fold_blocking lib order (after lib history) owner).2) :=
        Prod.ext (fold_history order history) rfl
  rw [latest_by_run,found]
  simp only [folded]
  cases validate_owner owner <;> rfl

/-- After any history, an owner is given the last rating of each run and source that the owner appended whole,
    newest first, and for each run the last of a person or else the last automatic one; what others
    appended makes no difference to either. -/
theorem ratings_of_owner (lib : LineLibrary) (order otherOrder : Latest.HashOrder) (history : List Append)
    (owner : String) :
    (∀ run_id limit, ∃ skipped, query lib order (after lib history) ⟨owner,run_id,limit⟩
      = (validate_owner owner).map fun _ =>
        ⟨truncate limit (ofRun run_id (Latest.lastPerKey key (appended lib owner history))).reverse,skipped⟩)
    ∧ (∀ include_auto, ∃ skipped, latest_by_run lib order (after lib history) owner include_auto
      = (validate_owner owner).map fun _ =>
        ⟨fun run_id => (lastRating true run_id (appended lib owner history)).or
        (if include_auto then lastRating false run_id (appended lib owner history) else none),skipped⟩)
    ∧ (∀ run_id limit, (query lib order (after lib history) ⟨owner,run_id,limit⟩).map FeedbackPage.records
      = (query lib otherOrder (after lib (history.filter fun call => call.record.owner == owner))
        ⟨owner,run_id,limit⟩).map FeedbackPage.records)
    ∧ ∀ include_auto, (latest_by_run lib order (after lib history) owner include_auto).map RatingIndex.ratings
      = (latest_by_run lib otherOrder (after lib (history.filter fun call => call.record.owner == owner))
        owner include_auto).map RatingIndex.ratings := by
  refine ⟨query_eq order history,latest_by_run_eq order history,fun run_id limit => ?_,fun include_auto => ?_⟩
  · obtain ⟨skipped,here⟩ := @query_eq lib owner order history run_id limit
    obtain ⟨skipped',alone⟩ :=
      @query_eq lib owner otherOrder (history.filter fun call => call.record.owner == owner) run_id limit
    rw [here,alone,appended_own]
    cases validate_owner owner <;> rfl
  · obtain ⟨skipped,here⟩ := @latest_by_run_eq lib owner order history include_auto
    obtain ⟨skipped',alone⟩ :=
      @latest_by_run_eq lib owner otherOrder (history.filter fun call => call.record.owner == owner) include_auto
    rw [here,alone,appended_own]
    cases validate_owner owner <;> rfl

/-! ### A killed append that counts -/

/-- Bytes without a newline and without a closing brace. -/
def spell : Bytes → Bytes
  | [] => []
  | byte :: rest =>
      if byte = 1 then 1 :: 1 :: spell rest else if byte = 10 then 1 :: 2 :: spell rest else if byte = 0x7d then
      1 :: 3 :: spell rest else byte :: spell rest

def unspell : Bytes → Option Bytes
  | [] => none
  | [0x7d] => some []
  | 1 :: 1 :: rest => (unspell rest).map (1 :: ·)
  | 1 :: 2 :: rest => (unspell rest).map (10 :: ·)
  | 1 :: 3 :: rest => (unspell rest).map (0x7d :: ·)
  | byte :: rest => (unspell rest).map (byte :: ·)

theorem unspell_spell (bytes : Bytes) : unspell (spell bytes ++ [0x7d]) = some bytes := by
  induction bytes with
  | nil => rfl
  | cons byte bytes ih =>
    rw [spell]
    split_ifs with one newline brace
    · simp [unspell,ih,one]
    · simp [unspell,ih,newline]
    · simp [unspell,ih,brace]
    · rw [cons_append,unspell.eq_def]
      split <;> simp_all

theorem spell_plain (bytes : Bytes) : 10 ∉ spell bytes ∧ 0x7d ∉ spell bytes := by
  induction bytes with
  | nil => simp [spell]
  | cons byte bytes ih =>
    rw [spell]
    split_ifs with one newline brace
    · simp [ih]
    · simp [ih]
    · simp [ih]
    · simp [ih,Ne.symm newline,Ne.symm brace]

theorem brace_of_unspell (bytes : Bytes) : unspell bytes ≠ none → 0x7d ∈ bytes := by
  fun_induction unspell bytes <;> simp_all
/-- A time of `DateTime` that lies in its range. -/
def timeOf (nanos : Int) : Option DateTime :=
  if inRange : MIN_MILLIS * 1000000 ≤ nanos ∧ nanos < (MAX_MILLIS + 1) * 1000000 then some ⟨nanos,inRange⟩ else none

/-- A library of this kind: objects are spelled between braces, times are numbered. -/
def spellingLibrary : LineLibrary where
  to_vec value := 0x7b :: spell (compact.to_vec value) ++ [0x7d]
  stream
    | 0x7b :: rest =>
      match unspell rest with
      | some text => [(compact.from_slice text).toOption]
      | none => [none]
    | _ => [none]
  writeTime time := toString (Encodable.encode time.nanos)
  readTime text := (text.toNat?.bind Encodable.decode).bind timeOf
  streamToVec {fields} fits := by
    rw [cons_append]
    simp only [unspell_spell,compact.readsBack fits.1 fits.2]
    rfl
  streamCut {fields part} within cut := by
    have short := (prefix_concat_iff.mp within).resolve_left cut
    cases part with
    | nil => exact fun item member => mem_singleton.mp member
    | cons byte rest =>
      obtain ⟨rfl,inside⟩ := cons_prefix_cons.mp short
      have unread : unspell rest = none := by
        by_contra closed
        exact (spell_plain _).2 (inside.subset (brace_of_unspell rest closed))
      simp [unread]
  opens fields := rfl
  oneLine value := by
    simp [NEWLINE,spell_plain]
  readWriteTime time := by
    show ((Encodable.encode time.nanos).repr.toNat?.bind Encodable.decode).bind timeOf = some time
    rw [Nat.toNat?_repr,Option.bind_some,Encodable.encodek,Option.bind_some,timeOf,dif_pos time.inRange]

def sample_record (rating : Rating) : FeedbackRecord := ⟨"f1","ann","run",rating,.Human,DateTime.atMillis 0⟩
/-- A rating that was appended, and another whose append was killed before its newline. -/
def killedHistory : List Append :=
  [⟨sample_record ⟨1,by decide⟩,.Returned⟩,
    ⟨sample_record ⟨5,by decide⟩,.Killed (lineOf spellingLibrary (sample_record ⟨5,by decide⟩)).length⟩]

/-- The append that was killed did not return, but its rating is the one that counts. -/
theorem killed_append_counts : killedHistory.map (fun call => (append spellingLibrary [] call).1) = [some (.ok ()),none]
    ∧ ∃ skipped, query spellingLibrary .inserted (after spellingLibrary killedHistory) ⟨"ann",none,none⟩ =
      .ok ⟨[sample_record ⟨5,by decide⟩],skipped⟩ := by
  constructor
  · rfl
  · obtain ⟨skipped,found⟩ := @query_eq spellingLibrary "ann" .inserted killedHistory none none
    refine ⟨skipped,found.trans ?_⟩
    have whole : appended spellingLibrary "ann" killedHistory = [sample_record ⟨1,by decide⟩,
      sample_record ⟨5,by decide⟩] := by
      have accepted (rating : Rating) (outcome : Outcome) : Append.accepted ⟨sample_record rating,outcome⟩ = true := by
        have valid : validateRecord (sample_record rating) = .ok () := by
          simp only [validateRecord,sample_record]
          decide
        rw [Append.accepted,valid]
      have kept : ∀ call ∈ killedHistory, (call.whole spellingLibrary && call.record.owner == "ann") = true := by
        rw [killedHistory,forall_mem_cons,forall_mem_singleton,Append.whole,Append.whole,accepted,accepted,leftOf,
          leftOf,take_length]
        simp [sample_record]
      rw [appended,filter_eq_self.mpr kept]
      rfl
    rw [whole]
    rfl

end Vyane.Feedback
