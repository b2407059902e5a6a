import Mathlib

/-!
The last item of each key. A hash map that is filled from a list keeps it with its position; the entries come out in any
order, and sorted by position they are the items that no later one has the key of.
-/
namespace Vyane.Latest
open List
variable {α κ : Type} [DecidableEq κ] (key : α → κ)

/-- The items that no later item has the key of. -/
def lastPerKey : List α → List α
  | [] => []
  | item :: rest => if rest.any fun later => key later == key item then lastPerKey rest else item :: lastPerKey rest
/-- `HashMap::insert`: the entry takes the place of one with its key. -/
def insert (latest : List (Nat × α)) (entry : Nat × α) : List (Nat × α) :=
  latest.filter (fun other => key other.2 != key entry.2) ++ [entry]
/-- Inserts the items, each with its position, which begins at one. -/
def insertAll (items : List α) : Nat × List (Nat × α) :=
  items.foldl (fun found item => (found.1 + 1,insert key found.2 (found.1 + 1,item))) (0,[])
/-- The order in which the entries of a hash map come out. -/
structure HashOrder where
  values {β : Type} : List β → List β
  perm {β : Type} (entries : List β) : (values entries).Perm entries
def HashOrder.inserted : HashOrder := ⟨id,fun _ => List.Perm.refl _⟩
/-- The items of all entries, sorted by position. -/
def sorted (order : HashOrder) (latest : List (Nat × α)) : List α :=
  ((order.values latest).mergeSort fun first second => first.1 ≤ second.1).map Prod.snd

variable {key}

theorem lastPerKey_append (items : List α) (item : α) :
    lastPerKey key (items ++ [item]) = (lastPerKey key items).filter
      (fun other => key other != key item) ++ [item] := by
  induction items with
  | nil => rfl
  | cons first items ih =>
    rw [cons_append,lastPerKey,any_append,ih,lastPerKey]
    by_cases later : (items.any fun later => key later == key first) = true
    · rw [later,Bool.true_or,if_pos rfl,if_pos rfl]
    · rw [Bool.not_eq_true] at later
      by_cases same : key item = key first
      · simp [later,same]
      · simp [later,same,Ne.symm same]

/-- The last item with a property that only depends on the key is among them. -/
theorem last_filter_lastPerKey {p : α → Bool} (byKey : ∀ first second, key first = key second → p first = p second)
    (items : List α) :
    ((lastPerKey key items).filter p).getLast? = (items.filter p).getLast? := by
  induction items using reverseRecOn with
  | nil => rfl
  | append_singleton items item ih =>
    rw [lastPerKey_append,filter_append,filter_append,filter_singleton]
    cases holds : p item with
    | true => simp
    | false =>
      rw [cond_false,append_nil,append_nil,← ih,filter_filter]
      congr 1
      refine filter_congr fun other _ => ?_
      cases otherHolds : p other with
      | false => rfl
      | true =>
        have apart : key other ≠ key item := by
          intro same
          rw [byKey other item same,holds] at otherHolds
          cases otherHolds
        simpa using apart

variable (key) in
/-- What the map holds after all items. -/
structure Holds (items : List α) (found : Nat × List (Nat × α)) : Prop where
  position : found.1 = items.length
  latest : found.2.map Prod.snd = lastPerKey key items
  below : ∀ entry ∈ found.2, entry.1 ≤ found.1
  ascending : found.2.Pairwise fun first second => first.1 < second.1

theorem insertAll_holds (items : List α) : Holds key items (insertAll key items) := by
  induction items using reverseRecOn with
  | nil => exact ⟨rfl,rfl,by simp [insertAll],List.Pairwise.nil⟩
  | append_singleton items item ih =>
    rw [insertAll,foldl_append]
    change Holds key (items ++ [item]) (_,insert key (insertAll key items).2 ((insertAll key items).1 + 1,item))
    obtain ⟨position,latest,below,ascending⟩ := ih
    refine ⟨?_,?_,fun entry member => ?_,?_⟩
    · rw [length_append,← position]
      rfl
    · rw [lastPerKey_append,← latest,insert,map_append,filter_map]
      rfl
    · rcases mem_append.mp member with before | last
      · exact Nat.le_succ_of_le (below entry (mem_filter.mp before).1)
      · exact (congrArg Prod.fst (mem_singleton.mp last)).le
    · refine pairwise_append.mpr ⟨ascending.filter _,pairwise_singleton _ _,fun entry before other last => ?_⟩
      rw [mem_singleton.mp last]
      exact Nat.lt_succ_of_le (below entry (mem_filter.mp before).1)

/-- In whatever order the entries come out, they are sorted into the last items of the keys. -/
theorem sorted_insertAll (order : HashOrder) (items : List α) :
    sorted order (insertAll key items).2 = lastPerKey key items := by
  obtain ⟨-,latest,-,ascending⟩ := @insertAll_holds _ _ _ key items
  have sortedFirst := @pairwise_mergeSort _ (fun first second : Nat × α => decide (first.1 ≤ second.1))
    (fun a b c => by simpa using Nat.le_trans) (fun a b => by simpa using Nat.le_total a.1 b.1)
      (order.values (insertAll key items).2)
  have same := (mergeSort_perm (order.values (insertAll key items).2) fun first second =>
    decide (first.1 ≤ second.1)).trans (order.perm _)
  rw [sorted,← latest]
  congr 1
  refine List.Perm.eq_of_pairwise (fun first second listed there before after =>
    ?_) sortedFirst (ascending.imp fun less => by simpa using less.le) same
  by_contra apart
  have level : first.1 = second.1 := Nat.le_antisymm (by simpa using before) (by simpa using after)
  have distinct := (pairwise_map.mpr ascending : ((insertAll key items).2.map Prod.fst).Pairwise (· < ·)).nodup
  exact apart (inj_on_of_nodup_map distinct (same.subset listed) there level)

end Vyane.Latest
