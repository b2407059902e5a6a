import Mathlib

/-!
Files of lines whose writers can be killed. A writer ends the last line where that was not ended and writes its text and
a separator; of all this any beginning may be left.
-/
namespace Vyane.TornLines
open List
variable {α : Type} [DecidableEq α] {separator : α}

/-- How a writer ends: it returns, or it is killed before it writes or with so much of its line written. -/
inductive Outcome where
  | Returned
  | KilledBefore
  | Killed (written : Nat)
deriving DecidableEq, Repr

/-- Whether the file is empty or its last item is the separator. -/
def ends_at_line_boundary (separator : α) (file : List α) : Bool := file.getLast?.all (· == separator)
/-- What is written before a line. -/
def freshLine (separator : α) (file : List α) : List α := if ends_at_line_boundary separator file then []
    else [separator]

def writeLine (separator : α) (file text : List α) : Outcome → List α
  | .Returned => file ++ freshLine separator file ++ (text ++ [separator])
  | .KilledBefore => file
  | .Killed written => file ++ freshLine separator file ++ (text ++ [separator]).take written

/-- What is left of a text. -/
def leftOf (text : List α) : Outcome → List α
  | .Returned => text
  | .KilledBefore => []
  | .Killed written => text.take written

/-- The lines that are not empty. -/
def lines (separator : α) (file : List α) : List (List α) := (file.splitOnP (· == separator)).filter (· ≠ [])

theorem lines_split (first second : List α) :
    lines separator (first ++ separator :: second) = lines separator first ++ lines separator second := by
  have split := @splitOnP_append_cons _ (· == separator) first second separator (beq_self_eq_true separator)
  rw [lines,split,filter_append]
  rfl

theorem lines_nil : lines separator [] = [] := rfl
theorem lines_ended (file : List α) : lines separator (file ++ [separator]) = lines separator file := by
  rw [lines_split,lines_nil,append_nil]

theorem lines_text {text : List α} (oneLine : separator ∉ text) : lines separator text = if text = [] then []
    else [text] := by
  have absent : ∀ item ∈ text, (item == separator) = false :=
    fun item member => beq_eq_false_iff_ne.mpr fun same => oneLine (same ▸ member)
  rw [lines,splitOnP_eq_singleton absent,filter_singleton]
  by_cases empty : text = [] <;> simp [empty]

/-- What is written behind the file stands on lines of its own. -/
theorem lines_fresh (file more : List α) :
    lines separator (file ++ freshLine separator file ++ more) = lines separator file ++ lines separator more := by
  rw [freshLine]
  split_ifs with ended
  · rw [append_nil]
    cases file using reverseRecOn with
    | nil => rfl
    | append_singleton before last =>
      have same : last = separator := by simpa [ends_at_line_boundary] using ended
      rw [same,append_assoc,singleton_append,lines_split,lines_ended]
  · rw [append_assoc,singleton_append,lines_split]

theorem lines_writeLine {file text : List α} (oneLine : separator ∉ text) (outcome : Outcome) :
    lines separator (writeLine separator file text outcome) = lines separator file ++ if leftOf text outcome = [] then
      [] else [leftOf text outcome] := by
  cases outcome with
  | Returned => rw [writeLine,lines_fresh,lines_ended,lines_text oneLine,leftOf]
  | KilledBefore => rw [writeLine,leftOf,if_pos rfl,append_nil]
  | Killed written =>
    have part : separator ∉ text.take written := fun member => oneLine (mem_of_mem_take member)
    rw [writeLine,lines_fresh,leftOf,← lines_text part,take_append]
    congr 1
    rcases Nat.eq_zero_or_pos (written - text.length) with within | beyond
    · rw [within,take_zero,append_nil]
    · have all : [separator].take (written - text.length) = [separator] := take_of_length_le beyond
      rw [all,lines_ended]

/-- A history of writers, each with its text. -/
def after (separator : α) (history : List (List α × Outcome)) : List α :=
  history.foldl (fun file call => writeLine separator file call.1 call.2) []

/-- The lines that are not empty are what the writers left. -/
theorem lines_after {history : List (List α × Outcome)} (oneLine : ∀ call ∈ history, separator ∉ call.1) :
    lines separator (after separator history) = (history.map fun call => leftOf call.1 call.2).filter (· ≠ []) := by
  induction history using reverseRecOn with
  | nil => rfl
  | append_singleton history call ih =>
    rw [forall_mem_append,forall_mem_singleton] at oneLine
    rw [after,foldl_append] at *
    rw [foldl_cons,foldl_nil,lines_writeLine oneLine.2,ih oneLine.1,map_append,filter_append,map_singleton,
      filter_singleton]
    by_cases empty : leftOf call.1 call.2 = [] <;> simp [empty]

end Vyane.TornLines
