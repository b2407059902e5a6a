import Vyane.Json

/-!
JSON objects as maps (`BTreeMap<String, Value>`, and the `Map` of `serde_json` without `preserve_order`): fields in
ascending order of their keys.
-/
namespace Vyane.Json
open List
/-- `insert`: the value under a key, in its place. -/
def mapInsert (key : String) (value : Value) : List (String × Value) → List (String × Value)
  | [] => [(key,value)]
  | other :: rest =>
    if key < other.1 then (key,value) :: other :: rest
    else if key = other.1 then (key,value) :: rest
    else other :: mapInsert key value rest

/-- The fields that are collected into a map, which may hold some already. -/
def mapExtend (map fields : List (String × Value)) : List (String × Value) :=
  fields.foldl (fun map field => mapInsert field.1 field.2 map) map
def mapCollect (fields : List (String × Value)) : List (String × Value) := mapExtend [] fields
def Ascending (fields : List (String × Value)) : Prop := fields.Pairwise fun first second => first.1 < second.1

variable {fields : List (String × Value)} {value : Value} {key : String}

theorem mapInsert_last (before : ∀ field ∈ fields, field.1 < key) :
    mapInsert key value fields = fields ++ [(key,value)] := by
  induction fields with
  | nil => rfl
  | cons field fields ih =>
    rw [forall_mem_cons] at before
    rw [mapInsert,if_neg before.1.not_gt,if_neg before.1.ne',ih before.2]
    rfl

theorem mapExtend_ascending (fields : List (String × Value)) : ∀ map, Ascending (map ++ fields) →
    mapExtend map fields = map ++ fields := by
  induction fields with
  | nil => exact fun map _ => (append_nil map).symm
  | cons field fields ih =>
    intro map ascending
    have before : ∀ other ∈ map, other.1 < field.1 :=
      fun other member => (pairwise_append.mp ascending).2.2 other member field mem_cons_self
    rw [append_cons] at ascending ⊢
    rw [← ih _ ascending,← mapInsert_last before]
    rfl

/-- Fields in the order of their keys are a map as they stand. -/
theorem mapCollect_ascending (ascending : Ascending fields) : mapCollect fields = fields :=
  mapExtend_ascending fields [] ascending

mutual

/-- A value of `serde_json`: the objects in it are maps. -/
def OrderedValue : Value → Prop
  | .Null | .Bool _ | .String _ | .Number _ => True
  | .Array values => OrderedValues values
  | .Object fields => Ascending fields ∧ OrderedFields fields

def OrderedValues : List Value → Prop
  | [] => True
  | value :: values => OrderedValue value ∧ OrderedValues values
def OrderedFields : List (String × Value) → Prop
  | [] => True
  | (_,value) :: fields => OrderedValue value ∧ OrderedFields fields

end

theorem mem_mapInsert {field : String × Value} (member : field ∈ mapInsert key value fields) :
    field = (key,value) ∨ field ∈ fields := by
  induction fields with
  | nil => exact .inl (mem_singleton.mp member)
  | cons other rest ih =>
    rw [mapInsert] at member
    split_ifs at member
    · exact mem_cons.mp member
    · rcases mem_cons.mp member with new | later
      · exact .inl new
      · exact .inr (mem_cons_of_mem _ later)
    · rcases mem_cons.mp member with first | later
      · exact .inr (first ▸ mem_cons_self)
      · exact (ih later).imp_right (mem_cons_of_mem _)

theorem mapInsert_ascending (ascending : Ascending fields) :
    Ascending (mapInsert key value fields) := by
  induction fields with
  | nil => exact pairwise_singleton _ _
  | cons other rest ih =>
    have tail := pairwise_cons.mp ascending
    rw [mapInsert]
    split_ifs with before same
    · refine pairwise_cons.mpr ⟨forall_mem_cons.mpr ⟨before,fun field member => ?_⟩,ascending⟩
      exact before.trans (tail.1 field member)
    · refine pairwise_cons.mpr ⟨fun field member => ?_,tail.2⟩
      rw [same]
      exact tail.1 field member
    · have behind : other.1 < key := lt_of_le_of_ne (not_lt.mp before) (Ne.symm same)
      refine pairwise_cons.mpr ⟨fun field member => ?_,ih tail.2⟩
      rcases mem_mapInsert member with rfl | later
      · exact behind
      · exact tail.1 field later

theorem orderedFields_iff : OrderedFields fields ↔ ∀ field ∈ fields, OrderedValue field.2 := by
  induction fields with
  | nil => simp [OrderedFields]
  | cons field fields ih =>
    obtain ⟨key,value⟩ := field
    rw [OrderedFields,ih,forall_mem_cons]

theorem mapExtend_ordered (fields : List (String × Value)) : ∀ {map}, Ascending map → OrderedFields map →
    OrderedFields fields →
    Ascending (mapExtend map fields) ∧ OrderedFields (mapExtend map fields) := by
  induction fields with
  | nil => exact fun ascending ordered _ => ⟨ascending,ordered⟩
  | cons field fields ih =>
    intro map ascending ordered rest
    refine ih (mapInsert_ascending ascending) (orderedFields_iff.mpr fun other member => ?_) rest.2
    rcases mem_mapInsert member with rfl | before
    · exact rest.1
    · exact orderedFields_iff.mp ordered other before

/-- What is collected from ordered values is an ordered value. -/
theorem mapCollect_ordered (ordered : OrderedFields fields) : OrderedValue (.Object (mapCollect fields)) :=
  mapExtend_ordered fields List.Pairwise.nil trivial ordered

end Vyane.Json
