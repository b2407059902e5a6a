import Vyane.WorkflowJournal

/-!
Prompt templates (`template.rs`). A placeholder stands between double braces, and four opening braces are an escaped
pair. The three loops of the source share `scan`, which finds the next pair of opening braces.
-/
namespace Vyane.Workflows
open Std Text

/-- `"\x7b\x7b"`: what opens a placeholder. -/
def opening : List Char := ['\x7b','\x7b']
/-- `"\x7d\x7d"`: what closes it. -/
def closing : List Char := ['\x7d','\x7d']

/-- `text.find(pattern)`: what stands before the first occurrence, and the text from that occurrence on. -/
def splitFind (pattern : List Char) : List Char → Option (List Char × List Char)
  | [] => if pattern.isEmpty then some ([],[]) else none
  | c :: cs =>
    if pattern.isPrefixOf (c :: cs) then some ([],c :: cs)
    else (splitFind pattern cs).map fun found => (c :: found.1,found.2)

/-- What the next opening braces of a text begin. -/
inductive Scan where
  | Done
  | Escaped (before rest : List Char)
  | Unclosed (before : List Char)
  | Found (before raw rest : List Char)
deriving DecidableEq, Repr

def scan (text : List Char) : Scan :=
  match splitFind opening text with
  | none => .Done
  | some (before,rest) =>
    if (opening ++ opening).isPrefixOf rest then .Escaped before (rest.drop 4)
    else
      match splitFind closing (rest.drop 2) with
      | none => .Unclosed before
      | some (inner,after) => .Found before (trimChars inner) (after.drop 2)

inductive Placeholder where
  | WorkflowName
  | Var (key : String)
  | StepOutput (step : String) (fan_out : Bool)
  | Unknown (raw : String)
deriving DecidableEq, Repr

/-- `text.strip_prefix(pattern)`. -/
def withoutFront (pattern text : List Char) : Option (List Char) :=
  if pattern.isPrefixOf text then some (text.drop pattern.length) else none
/-- `text.strip_suffix(pattern)`. -/
def withoutBack (pattern text : List Char) : Option (List Char) :=
  if pattern.isSuffixOf text then some (text.take (text.length - pattern.length)) else none

/-- `steps.<id>.outputs` and `steps.<id>.output`, in this order of preference. -/
def parseStepOutput (rest : List Char) : Option Placeholder :=
  match withoutBack ".outputs".toList rest with
  | some (c :: cs) => some (.StepOutput (String.ofList (c :: cs)) true)
  | _ =>
    match withoutBack ".output".toList rest with
    | some (c :: cs) => some (.StepOutput (String.ofList (c :: cs)) false)
    | _ => none

def parse_placeholder (raw : List Char) : Placeholder :=
  if raw = "workflow.name".toList then .WorkflowName
  else
    match withoutFront "vars.".toList raw with
    | some (c :: cs) => .Var (String.ofList (c :: cs))
    | _ =>
      match (withoutFront "steps.".toList raw).bind parseStepOutput with
      | some placeholder => placeholder
      | none => .Unknown (String.ofList raw)

/-- The placeholders of a template, or the error of an unclosed one. Every round
    consumes input, so the length of the text is enough fuel. -/
def placeholdersLoop : Nat → List Char → List (List Char) → Except (List String) (List (List Char))
  | 0, _, out => .ok out
  | fuel + 1, rest, out =>
    match scan rest with
    | .Done => .ok out
    | .Escaped _ rest => placeholdersLoop fuel rest out
    | .Unclosed _ => .error ["template has an unclosed placeholder"]
    | .Found _ raw rest => placeholdersLoop fuel rest (out ++ [raw])
def placeholders (template : String) : Except (List String) (List (List Char)) :=
  placeholdersLoop (template.toList.length + 1) template.toList []
/-- A step reference that is a fully closed placeholder. -/
structure ReferencedStep where
  step : String
  fan_out : Bool
deriving DecidableEq, Repr

/-- An unclosed tail does not erase an earlier reference. -/
def stepPlaceholdersLoop : Nat → List Char → List ReferencedStep → List ReferencedStep
  | 0, _, out => out
  | fuel + 1, rest, out =>
    match scan rest with
    | .Done => out
    | .Escaped _ rest => stepPlaceholdersLoop fuel rest out
    | .Unclosed _ => out
    | .Found _ raw rest =>
      match parse_placeholder raw with
      | .StepOutput step fan_out => stepPlaceholdersLoop fuel rest (out ++ [⟨step,fan_out⟩])
      | _ => stepPlaceholdersLoop fuel rest out
def step_placeholders (template : String) : List ReferencedStep :=
  stepPlaceholdersLoop (template.toList.length + 1) template.toList []

/-- The problems of one placeholder in the template of `owner_step`. -/
def placeholderProblems (owner_step workflow_name : String) (vars : TreeMap String String)
    (available_steps : TreeSet String) (step_is_fan_out : String → Option Bool) : Placeholder → List String
  | .WorkflowName =>
    if workflow_name.isEmpty then
      [s!"step `{owner_step}` references \x7b\x7bworkflow.name\x7d\x7d but [workflow].name is missing"]
    else []
  | .Var key =>
    if vars.contains key then [] else [s!"step `{owner_step}` references unknown variable `{key}`"]
  | .StepOutput step fan_out =>
    if available_steps.contains step then
      match step_is_fan_out step with
      | some true =>
        if fan_out then []
        else [s!"step `{owner_step}` references fan_out step `{step}` with `.output`; use `.outputs`"]
      | some false =>
        if fan_out then
          [s!"step `{owner_step}` references single-target step `{step}` with `.outputs`; use `.output`"]
        else []
      | none => [s!"step `{owner_step}` references unknown step `{step}`"]
    else [s!"step `{owner_step}` references `{step}` but it is not in its transitive needs"]
  | .Unknown raw => [s!"step `{owner_step}` uses unknown placeholder `\x7b\x7b{raw}\x7d\x7d`"]

def validate_template (owner_step template workflow_name : String) (vars : TreeMap String String)
    (available_steps : TreeSet String) (step_is_fan_out : String → Option Bool) : List String :=
  match placeholders template with
  | .error errors => errors
  | .ok found => found.flatMap fun raw =>
      placeholderProblems owner_step workflow_name vars available_steps step_is_fan_out (parse_placeholder raw)

/-- The successful outputs of a fan-out step, each under its target's heading. -/
def render_fan_out (step : JournalStep) : List Char :=
  (((step.outputs).getD []).filter JournalTargetOutput.ok).flatMap fun item =>
    match item.output with
    | none => []
    | some text => "## ".toList ++ item.target.toList ++ ['\n'] ++ text.toList ++
        (if text.toList.getLast? = some '\n' then [] else ['\n'])

/-- The text that replaces a placeholder at dispatch time. -/
def replacement (workflow_name : String) (vars : TreeMap String String) (steps : TreeMap String JournalStep) :
    Placeholder → Except WorkflowError (List Char)
  | .WorkflowName => .ok workflow_name.toList
  | .Var key =>
    match vars[key]? with
    | some value => .ok value.toList
    | none => .error (.Validation [s!"unknown workflow variable `{key}`"])
  | .StepOutput step fan_out =>
    match steps[step]? with
    | none => .error (.Validation [s!"unknown workflow step `{step}`"])
    | some state =>
      if fan_out then .ok (render_fan_out state)
      else
        match state.output with
        | some output => .ok output.toList
        | none => .error (.Validation [s!"workflow step `{step}` has no recorded output"])
  | .Unknown raw => .error (.Validation [s!"unknown placeholder `\x7b\x7b{raw}\x7d\x7d`"])

def renderTemplateLoop (workflow_name : String) (vars : TreeMap String String)
    (steps : TreeMap String JournalStep) : Nat → List Char → List Char → Except WorkflowError (List Char)
  | 0, rest, out => .ok (out ++ rest)
  | fuel + 1, rest, out =>
    match scan rest with
    | .Done => .ok (out ++ rest)
    | .Escaped before rest =>
      renderTemplateLoop workflow_name vars steps fuel rest (out ++ before ++ opening)
    | .Unclosed _ => .error (.Validation ["template has an unclosed placeholder"])
    | .Found before raw rest =>
      match replacement workflow_name vars steps (parse_placeholder raw) with
      | .error error => .error error
      | .ok text => renderTemplateLoop workflow_name vars steps fuel rest (out ++ before ++ text)
def render_template_inner (template workflow_name : String) (vars : TreeMap String String)
    (steps : TreeMap String JournalStep) : Except WorkflowError String :=
  (renderTemplateLoop workflow_name vars steps (template.toList.length + 1) template.toList []).map String.ofList

end Vyane.Workflows
