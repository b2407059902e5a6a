import Vyane.Text

/-!
JSON values and the number of bytes that a compact writer needs for them. The bytes of a character are the writer's
choice, up to the six of `\u0000`.
-/
namespace Vyane.Json
/-- A JSON value; a number is kept as the text that is written for it. -/
inductive Value where
  | Null
  | Bool (value : Bool)
  | Number (text : String)
  | String (value : String)
  | Array (values : List Value)
  | Object (values : List (String × Value))

mutual
/-- Whether two values are the same. -/
def Value.same : Value → Value → Bool
  | .Null, .Null => true
  | .Bool first, .Bool second => first == second
  | .Number first, .Number second => first == second
  | .String first, .String second => first == second
  | .Array first, .Array second => sameValues first second
  | .Object first, .Object second => sameFields first second
  | _, _ => false
def sameValues : List Value → List Value → Bool
  | [], [] => true
  | first :: rest, second :: rest' => first.same second && sameValues rest rest'
  | _, _ => false
def sameFields : List (String × Value) → List (String × Value) → Bool
  | [], [] => true
  | (name,first) :: rest, (name',second) :: rest' => name == name' && first.same second && sameFields rest rest'
  | _, _ => false
end

mutual
theorem same_iff : ∀ first second : Value, first.same second = true ↔ first = second
  | .Null, second => by cases second <;> simp [Value.same]
  | .Bool value, second => by cases second <;> simp [Value.same]
  | .Number text, second => by cases second <;> simp [Value.same]
  | .String text, second => by cases second <;> simp [Value.same]
  | .Array values, second => by cases second <;> simp [Value.same,sameValues_iff values]
  | .Object values, second => by cases second <;> simp [Value.same,sameFields_iff values]
theorem sameValues_iff : ∀ first second : List Value, sameValues first second = true ↔ first = second
  | [], second => by cases second <;> simp [sameValues]
  | first :: rest, second => by cases second <;> simp [sameValues,same_iff first,sameValues_iff rest]
theorem sameFields_iff : ∀ first second : List (String × Value), sameFields first second = true ↔ first = second
  | [], second => by cases second <;> simp [sameFields]
  | (name,first) :: rest, second => by
    rcases second with _ | ⟨⟨name',second⟩,rest'⟩ <;> simp [sameFields,same_iff first,sameFields_iff rest]
end

instance : DecidableEq Value := fun first second => decidable_of_iff _ (same_iff first second)

/-- How a writer spells the characters of a string. -/
structure Writer where
  charSize : Char → Nat
  atMostSix (c : Char) : charSize c ≤ 6
  nulIsSix : charSize (Char.ofNat 0) = 6

/-- `serde_json`: short escapes for seven characters, `\u00XX` for the other control characters, everything else as it
    is. -/
def serde_json : Writer where
  charSize c :=
    if c.toNat < 0x20 then (if c.toNat ∈ [8,9,10,12,13] then 2 else 6)
    else if c = '"' ∨ c = '\\' then 2
    else c.utf8Size
  atMostSix c := by
    have := c.utf8Size_le_four
    split_ifs <;> omega
  nulIsSix := by decide

variable (writer : Writer)

/-- The bytes of a string between its quotes. -/
def Writer.charsSize (text : String) : Nat := (text.toList.map writer.charSize).sum
/-- The bytes of a string with its quotes. -/
def Writer.stringSize (text : String) : Nat := writer.charsSize text + 2
/-- The commas between a number of items. -/
def separators (items : Nat) : Nat := items - 1

mutual
/-- The bytes of a value. -/
def Writer.size : Value → Nat
  | .Null => 4
  | .Bool true => 4
  | .Bool false => 5
  | .Number text => text.utf8ByteSize
  | .String text => writer.stringSize text
  | .Array values => Writer.valuesSize values + separators values.length + 2
  | .Object values => Writer.fieldsSize values + separators values.length + 2
def Writer.valuesSize : List Value → Nat
  | [] => 0
  | value :: rest => Writer.size value + Writer.valuesSize rest
def Writer.fieldsSize : List (String × Value) → Nat
  | [] => 0
  | (key,value) :: rest => writer.stringSize key + 1 + Writer.size value + Writer.fieldsSize rest
end
variable {writer}

theorem size_bool (value : Bool) : writer.size (.Bool value) = if value then 4 else 5 := by
  cases value <;> simp [Writer.size]
theorem size_string (text : String) : writer.size (.String text) = writer.charsSize text + 2 := by
  simp [Writer.size,Writer.stringSize]
theorem size_array (values : List Value) :
    writer.size (.Array values) = writer.valuesSize values + separators values.length + 2 := by rw [Writer.size]
theorem size_object (values : List (String × Value)) :
    writer.size (.Object values) = writer.fieldsSize values + separators values.length + 2 := by rw [Writer.size]

theorem valuesSize_append {first second : List Value} :
    writer.valuesSize (first ++ second) = writer.valuesSize first + writer.valuesSize second := by
  induction first with
  | nil => simp [Writer.valuesSize]
  | cons value rest ih =>
    simp only [List.cons_append,Writer.valuesSize,ih]
    omega

theorem fieldsSize_append {first second : List (String × Value)} :
    writer.fieldsSize (first ++ second) = writer.fieldsSize first + writer.fieldsSize second := by
  induction first with
  | nil => simp [Writer.fieldsSize]
  | cons field rest ih =>
    simp only [List.cons_append,Writer.fieldsSize,ih]
    omega

/-- A field takes no more than its object. -/
theorem size_le_object {fields : List (String × Value)} (name : String) {value : Value}
    (member : (name,value) ∈ fields) :
    writer.size value ≤ writer.size (.Object fields) := by
  obtain ⟨before,after,rfl⟩ := List.append_of_mem member
  rw [size_object,fieldsSize_append,Writer.fieldsSize]
  omega

/-- No text takes more than six bytes a character. -/
theorem charsSize_le (text : String) : writer.charsSize text ≤ 6 * text.length := by
  rw [Writer.charsSize,← String.length_toList]
  induction text.toList with
  | nil => simp
  | cons c rest ih =>
    have := writer.atMostSix c
    simp only [List.map_cons,List.sum_cons,List.length_cons]
    omega

/-- A text of NUL characters takes the six bytes of each. -/
theorem charsSize_nul (count : Nat) :
    writer.charsSize (String.ofList (List.replicate count (Char.ofNat 0))) = 6 * count := by
  simp only [Writer.charsSize,String.toList_ofList,List.map_replicate,List.sum_replicate,writer.nulIsSix,smul_eq_mul]
  omega

/-! ### Shapes -/

mutual
/-- How many arrays and objects are inside each other. -/
def Value.nesting : Value → Nat
  | .Null | .Bool _ | .Number _ | .String _ => 0
  | .Array values => valuesNesting values + 1
  | .Object values => fieldsNesting values + 1
def valuesNesting : List Value → Nat
  | [] => 0
  | value :: rest => max value.nesting (valuesNesting rest)
def fieldsNesting : List (String × Value) → Nat
  | [] => 0
  | (_,value) :: rest => max value.nesting (fieldsNesting rest)
end

/-- The bounds on the shape of a value, with the errors for what breaks them. -/
structure ShapeLimits (ε : Type) where
  depth : Nat
  keyBytes : Nat
  tooDeep : ε
  tooManyNodes : ε
  keyTooLarge : ε

/-- Pops values from a stack, counts them against a budget and pushes their children. -/
def visitShape {ε : Type} (limits : ShapeLimits ε) : Nat → List (Value × Nat) → Except ε Nat
  | budget, [] => .ok budget
  | 0, _ :: _ => .error limits.tooManyNodes
  | budget + 1, (.Array values,depth) :: stack =>
    if limits.depth < depth + 1 then .error limits.tooDeep
    else visitShape limits budget ((values.map fun value => (value,depth + 1)).reverse ++ stack)
  | budget + 1, (.Object values,depth) :: stack =>
    if limits.depth < depth + 1 then .error limits.tooDeep
    else if values.any fun (key,_) => limits.keyBytes < key.utf8ByteSize then .error limits.keyTooLarge
    else visitShape limits budget ((values.map fun (_,value) => (value,depth + 1)).reverse ++ stack)
  | budget + 1, _ :: stack => visitShape limits budget stack

end Vyane.Json
