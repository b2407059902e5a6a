import Vyane.Strs

/-!
Search and replace (`text_edit.rs`). A pattern is located through four passes of decreasing strictness; each scans the
normalized text and maps the hits back to byte offsets. Where the source would panic, on a slice inside a character or
an index out of range, the model has no value.
-/
namespace Vyane.TextEdits
open Strs Utf8

inductive MatchPass where
  | Exact
  | TrailingWhitespace
  | LineTrim
  | UnicodeNormalized
  | NewContent
deriving DecidableEq, Repr

/-- `Range<usize>`. -/
structure Range where
  start : Nat
  stop : Nat
deriving DecidableEq, Repr

structure ReplacedSpan where
  original : Range
  new_start : Nat
  new_len : Nat
deriving DecidableEq, Repr

structure EditOutcome where
  new_content : Str
  replacements : Nat
  matched_pass : MatchPass
  spans : List ReplacedSpan
deriving DecidableEq

inductive MatchSearch where
  | Found (pass : MatchPass) (spans : List Range)
  | NoMatch
  | Ambiguous
deriving DecidableEq, Repr

inductive EditError where
  | NoMatch
  | NotUnique (count : Nat)
  | Ambiguous
  | EmptyOldStringOnNonEmptyContent
  | NoOpEdit
  | OutputTooLarge (limit : Nat)
  | TooManyMatches (limit : Nat)
deriving DecidableEq, Repr

structure EditRequest where
  content : Str
  old_string : Str
  new_string : Str
  replace_all : Bool

/-! ### Normalization -/

inductive LineEdge where
  | TrailingOnly
  | BothSides
deriving DecidableEq, Repr

def is_edge_whitespace (byte : UInt8) : Bool := byte == 0x20 || byte == 0x09 || byte == 0x0d

def next_newline (bytes : Bytes) (start : Nat) : Nat :=
  match (bytes.drop start).findIdx? (· == 0x0a) with
  | none => bytes.length
  | some relative => start + relative

/-- The loop that moves `content_start` forward. -/
def skipLeading (bytes : Bytes) (line_end : Nat) : Nat → Nat → Nat
  | 0, content_start => content_start
  | fuel + 1, content_start =>
    if content_start < line_end && (bytes[content_start]?).any is_edge_whitespace then
      skipLeading bytes line_end fuel (content_start + 1)
    else content_start

def lineContentStart (mode : LineEdge) (bytes : Bytes) (line_start line_end : Nat) : Nat :=
  match mode with
  | .BothSides => skipLeading bytes line_end (line_end - line_start) line_start
  | .TrailingOnly => line_start

/-- The loop that moves `content_end` back. -/
def skipTrailing (bytes : Bytes) (content_start : Nat) : Nat → Nat
  | 0 => 0
  | content_end + 1 =>
    if content_start < content_end + 1 && (bytes[content_end]?).any is_edge_whitespace then
      skipTrailing bytes content_start content_end
    else content_end + 1

def newline : Str := .of "\n"

/-- One round of the loop for every line; each round starts behind the last. -/
def stripLines (input : Str) (mode : LineEdge) : Nat → Nat → Option (Str × List Nat)
  | 0, _ => none
  | fuel + 1, line_start => do
    let line_end := next_newline input.bytes line_start
    let content_start := lineContentStart mode input.bytes line_start line_end
    let content_end := skipTrailing input.bytes content_start line_end
    let kept ← input.slice content_start content_end
    let offsets := List.range' content_start (content_end - content_start)
    if line_end < input.len then
      let (text,map) ← stripLines input mode fuel (line_end + 1)
      some (kept.append (newline.append text),offsets ++ line_end :: map)
    else some (kept,offsets)

def strip_line_edges (input : Str) (mode : LineEdge) : Option (Str × List Nat) :=
  (stripLines input mode (input.len + 1) 0).map fun stripped => (stripped.1,stripped.2 ++ [input.len])

/-- The ASCII fold of a confusable character. -/
def fold_character (character : Char) : Option (List Char) :=
  let code := character.toNat
  if code ∈ [0x2010,0x2011,0x2012,0x2013,0x2212] then some ['-']
  else if code ∈ [0x2014,0x2015] then some ['-','-']
  else if code = 0x2026 then some ['.','.','.']
  else if code ∈ [0x2018,0x2019,0x201a,0x201b] then some [Char.ofNat 0x27]
  else if code ∈ [0x201c,0x201d,0x201e,0x201f] then some ['"']
  else if code = 0xa0 ∨ (0x2002 ≤ code ∧ code ≤ 0x200a) ∨ code ∈ [0x202f,0x205f,0x3000] then some [' ']
  else none

/-- The folded characters from an offset on, and the offset of the source character for every byte of them. -/
def foldChars : Nat → List Char → List Char × List Nat
  | _, [] => ([],[])
  | offset, character :: rest =>
    let folded := (fold_character character).getD [character]
    let later := foldChars (offset + character.utf8Size) rest
    (folded ++ later.1,List.replicate (encode folded).length offset ++ later.2)

/-- `s.chars()`. -/
def chars (s : Str) : List Char := (from_utf8 s.bytes).getD []
def fold_confusables (input : Str) : Str × List Nat :=
  let folded := foldChars 0 (chars input)
  (⟨encode folded.1,folded.1,rfl⟩,folded.2 ++ [input.len])
def identity_map (input : Str) : Str × List Nat := (input,List.range (input.len + 1))

def normalize (pass : MatchPass) (input : Str) : Option (Str × List Nat) :=
  match pass with
  | .Exact | .NewContent => some (identity_map input)
  | .TrailingWhitespace => strip_line_edges input .TrailingOnly
  | .LineTrim => strip_line_edges input .BothSides
  | .UnicodeNormalized => do
    let (folded,fold_map) := fold_confusables input
    let (trimmed,trim_map) ← strip_line_edges folded .BothSides
    let composed ← trim_map.mapM fun offset => fold_map[offset]?
    some (trimmed,composed)

/-! ### Locating -/

/-- The starts of the occurrences, each behind the last, or the limit they exceed. -/
def matchesFrom (text pattern : Str) (max_matches : Option Nat) : Nat → Nat → List Nat → Option (Except Nat (List Nat))
  | 0, _, _ => none
  | fuel + 1, cursor, starts => do
    let rest ← text.slice cursor text.len
    match rest.find pattern with
    | none => some (.ok starts)
    | some relative =>
      if max_matches = some starts.length then some (.error starts.length)
      else matchesFrom text pattern max_matches fuel (cursor + relative + pattern.len) (starts ++ [cursor + relative])
def non_overlapping_matches (text pattern : Str) (max_matches : Option Nat) : Option (Except Nat (List Nat)) :=
  matchesFrom text pattern max_matches (text.len + 1) 0 []

/-- The candidates whose slice of the content normalizes to the pattern. -/
def validateCandidates (pass : MatchPass) (content normalized_pattern : Str) (offset_map : List Nat) :
    List Nat → Option (List Range)
  | [] => some []
  | normalized_start :: rest => do
    let original_start ← offset_map[normalized_start]?
    let original_end ← offset_map[normalized_start + normalized_pattern.len]?
    if original_end ≤ original_start then validateCandidates pass content normalized_pattern offset_map rest
    else
      let removed ← content.slice original_start original_end
      let (text,_) ← normalize pass removed
      let validated ← validateCandidates pass content normalized_pattern offset_map rest
      some (if text ≠ normalized_pattern then validated else ⟨original_start,original_end⟩ :: validated)

def has_overlap : List Range → Bool
  | first :: second :: rest => second.start < first.stop || has_overlap (second :: rest)
  | _ => false

inductive PassResult where
  | Found (spans : List Range)
  | Ambiguous
  | TooMany (limit : Nat)
  | NoCandidates

def try_pass (pass : MatchPass) (content old_string : Str) (max_matches : Option Nat) : Option PassResult := do
  let (normalized_text,offset_map) ← normalize pass content
  let (normalized_pattern,_) ← normalize pass old_string
  if normalized_pattern.is_empty then some .NoCandidates
  else
    match ← non_overlapping_matches normalized_text normalized_pattern max_matches with
    | .error limit => some (.TooMany limit)
    | .ok [] => some .NoCandidates
    | .ok raw_starts =>
      let validated ← validateCandidates pass content normalized_pattern offset_map raw_starts
      if validated.isEmpty then some .Ambiguous
      else if has_overlap validated then some .Ambiguous
      else some (.Found validated)

def LADDER : List MatchPass := [.Exact,.TrailingWhitespace,.LineTrim,.UnicodeNormalized]

def climb (content old_string : Str) (max_matches : Option Nat) : List MatchPass → Option (Except Nat MatchSearch)
  | [] => some (.ok .NoMatch)
  | pass :: rest => do
    match ← try_pass pass content old_string max_matches with
    | .Found spans => some (.ok (.Found pass spans))
    | .Ambiguous => some (.ok .Ambiguous)
    | .TooMany limit => some (.error limit)
    | .NoCandidates => climb content old_string max_matches rest
def locate_with_limit (content old_string : Str) (max_matches : Option Nat) : Option (Except Nat MatchSearch) :=
  if old_string.is_empty then some (.ok .NoMatch) else climb content old_string max_matches LADDER

/-! ### Replacing -/

def USIZE : Nat := 2 ^ 64
def checked (n : Nat) : Option Nat := if n < USIZE then some n else none

/-- `None` where a sum, a product or a difference leaves the range of `usize`. -/
def replacement_output_len (content_len : Nat) (spans : List Range) (replacement_len : Nat) : Option Nat := do
  let removed ← spans.foldlM (fun total span => checked (total + (span.stop - span.start))) 0
  let inserted ← checked (replacement_len * spans.length)
  if removed ≤ content_len then checked (content_len - removed + inserted) else none

def enforce_output_limit (output_len : Nat) : Option Nat → Except EditError Unit
  | some limit => if limit < output_len then .error (.OutputTooLarge limit) else .ok ()
  | none => .ok ()

/-- The loop of `splice`: the text built so far and the spans recorded. -/
def spliceSpans (content new_string : Str) : Nat → List Range → Str → List ReplacedSpan →
    Option (Str × List ReplacedSpan)
  | cursor, [], new_content, replaced => do
    let rest ← content.slice cursor content.len
    some (new_content.append rest,replaced)
  | cursor, span :: rest, new_content, replaced => do
    let kept ← content.slice cursor span.start
    spliceSpans content new_string span.stop rest ((new_content.append kept).append new_string)
      (replaced ++ [⟨span,(new_content.append kept).len,new_string.len⟩])
def splice (content : Str) (spans : List Range) (new_string : Str) (pass : MatchPass) : Option EditOutcome := do
  let (new_content,replaced) ← spliceSpans content new_string 0 spans .empty []
  some ⟨new_content,spans.length,pass,replaced⟩

def compute_edit_inner (request : EditRequest) (max_output_bytes max_matches : Option Nat) :
    Option (Except EditError EditOutcome) :=
  if request.old_string.is_empty then
    if request.content.is_empty then
      match enforce_output_limit request.new_string.len max_output_bytes with
      | .error error => some (.error error)
      | .ok () => some (.ok ⟨request.new_string,1,.NewContent,[⟨⟨0,0⟩,0,request.new_string.len⟩]⟩)
    else some (.error .EmptyOldStringOnNonEmptyContent)
  else if request.old_string = request.new_string then some (.error .NoOpEdit)
  else do
    match ← locate_with_limit request.content request.old_string max_matches with
    | .error limit => some (.error (.TooManyMatches limit))
    | .ok .NoMatch => some (.error .NoMatch)
    | .ok .Ambiguous => some (.error .Ambiguous)
    | .ok (.Found pass spans) =>
      if !request.replace_all && 1 < spans.length then some (.error (.NotUnique spans.length))
      else
        match replacement_output_len request.content.len spans request.new_string.len with
        | none => some (.error (.OutputTooLarge (max_output_bytes.getD (USIZE - 1))))
        | some output_len =>
          match enforce_output_limit output_len max_output_bytes with
          | .error error => some (.error error)
          | .ok () => (splice request.content spans request.new_string pass).map .ok

def compute_edit (request : EditRequest) : Option (Except EditError EditOutcome) := compute_edit_inner request none none
def compute_edit_bounded (request : EditRequest) (max_output_bytes max_matches : Nat) :
    Option (Except EditError EditOutcome) :=
  compute_edit_inner request (some max_output_bytes) (some max_matches)

end Vyane.TextEdits
