import Vyane.WorkflowTemplate

/-!
Rendering a template is a single pass. A grammar says how a template is divided; the validation and the renderer follow
it, and what a placeholder stands for is copied as it is.
-/
namespace Vyane.Workflows
open Std Text List

/-! ### The grammar of templates -/

inductive Segment where
  | Literal (text : List Char)
  /-- Four opening braces, which stand for two. -/
  | Escape
  | Placeholder (raw : List Char)
deriving DecidableEq

/-- The first occurrence of a pattern in a text: what stands before it, and the text from it on. -/
structure FirstAt (pattern text before rest : List Char) : Prop where
  splits : text = before ++ rest
  occurs : pattern <+: rest
  first : ∀ position < before.length, ¬pattern <+: text.drop position

/-- How a template is divided: from left to right, at the next opening braces. -/
inductive Reads : List Char → List Segment → Prop
  | last {text : List Char} (plain : ∀ position, ¬opening <+: text.drop position) : Reads text [.Literal text]
  | escape {text before rest : List Char} {segments : List Segment} (next : FirstAt opening text before rest)
      (four : opening ++ opening <+: rest) (more : Reads (rest.drop 4) segments) : Reads text
        (.Literal before :: .Escape :: segments)
  | placeholder {text before rest inner after : List Char} {segments : List Segment}
      (next : FirstAt opening text before rest)
      (two : ¬opening ++ opening <+: rest) (closed : FirstAt closing (rest.drop 2) inner after)
        (more : Reads (after.drop 2) segments) :
      Reads text (.Literal before :: .Placeholder (trimChars inner) :: segments)

variable {pattern text before rest : List Char}

theorem splitFind_some (found : splitFind pattern text = some (before,rest)) :
    FirstAt pattern text before rest := by
  induction text generalizing before with
  | nil =>
    rw [splitFind] at found
    split_ifs at found with empty
    cases found
    exact ⟨rfl,by simp [isEmpty_iff.mp empty],by simp⟩
  | cons c cs ih =>
    rw [splitFind] at found
    split_ifs at found with here
    · cases found
      exact ⟨rfl,List.isPrefixOf_iff_prefix.mp here,by simp⟩
    · obtain ⟨⟨early,late⟩,later,same⟩ := Option.map_eq_some_iff.mp found
      cases same
      obtain ⟨splits,occurs,first⟩ := ih later
      refine ⟨by rw [splits]; rfl,occurs,?_⟩
      intro position earlyEnough
      cases position with
      | zero => exact fun begins => here (List.isPrefixOf_iff_prefix.mpr begins)
      | succ position => exact first position (by simpa using earlyEnough)

theorem splitFind_none (missing : splitFind pattern text = none) : ∀ position, ¬pattern <+: text.drop position := by
  induction text with
  | nil =>
    rw [splitFind] at missing
    split_ifs at missing with somePattern
    intro position begins
    rw [drop_nil,prefix_nil] at begins
    exact somePattern (by simp [begins])
  | cons c cs ih =>
    rw [splitFind] at missing
    split_ifs at missing with here
    intro position
    cases position with
    | zero => exact fun begins => here (List.isPrefixOf_iff_prefix.mpr begins)
    | succ position => exact ih (Option.map_eq_none_iff.mp missing) position

/-- There is only one first occurrence. -/
theorem FirstAt.unique {early late : List Char} (one : FirstAt pattern text before rest)
    (other : FirstAt pattern text early late) : before = early ∧ rest = late := by
  have lengths : before.length = early.length := by
    rcases Nat.lt_trichotomy before.length early.length with less | same | more
    · refine absurd one.occurs ?_
      have noneThere := other.first before.length less
      rwa [one.splits,drop_left] at noneThere
    · exact same
    · refine absurd other.occurs ?_
      have noneThere := one.first early.length more
      rwa [other.splits,drop_left] at noneThere
  exact append_inj (one.splits.symm.trans other.splits) lengths

theorem FirstAt.not_plain (next : FirstAt pattern text before rest) : pattern <+: text.drop before.length := by
  rw [next.splits,drop_left]
  exact next.occurs

variable {text : List Char}

/-- A template is divided in one way only. -/
theorem Reads.unique {segments others : List Segment} (one : Reads text segments) (other : Reads text others) :
    segments = others := by
  induction one generalizing others with
  | last plain =>
    cases other with
    | last _ => rfl
    | escape next _ _ => exact absurd next.not_plain (plain _)
    | placeholder next _ _ _ => exact absurd next.not_plain (plain _)
  | escape next four more ih =>
    cases other with
    | last plain => exact absurd next.not_plain (plain _)
    | escape again _ rest =>
      obtain ⟨rfl,rfl⟩ := next.unique again
      rw [ih rest]
    | placeholder again two _ _ =>
      obtain ⟨rfl,rfl⟩ := next.unique again
      exact absurd four two
  | placeholder next two closed more ih =>
    cases other with
    | last plain => exact absurd next.not_plain (plain _)
    | escape again four _ =>
      obtain ⟨rfl,rfl⟩ := next.unique again
      exact absurd four two
    | placeholder again _ shut rest =>
      obtain ⟨rfl,rfl⟩ := next.unique again
      obtain ⟨rfl,rfl⟩ := closed.unique shut
      rw [ih rest]

/-! ### The scanner follows the grammar -/

theorem scan_done (scanned : scan text = .Done) : ∀ position, ¬opening <+: text.drop position := by
  unfold scan at scanned
  split at scanned
  · rename_i missing
    exact splitFind_none missing
  · split_ifs at scanned
    split at scanned <;> cases scanned

theorem scan_escaped (scanned : scan text = .Escaped before rest) :
    ∃ braces, FirstAt opening text before braces ∧ opening ++ opening <+: braces ∧ rest = braces.drop 4 ∧
      rest.length < text.length := by
  unfold scan at scanned
  split at scanned
  · cases scanned
  · rename_i early braces found
    have next := splitFind_some found
    split_ifs at scanned with four
    · cases scanned
      have four := List.isPrefixOf_iff_prefix.mp four
      refine ⟨braces,next,four,rfl,?_⟩
      have long := four.length_le
      rw [next.splits,length_append,length_drop]
      simp only [opening,length_append,length_cons,length_nil] at long
      omega
    · split at scanned <;> cases scanned

theorem scan_found {raw : List Char} (scanned : scan text = .Found before raw rest) :
    ∃ braces inner after, FirstAt opening text before braces ∧ ¬opening ++ opening <+: braces ∧ FirstAt closing
      (braces.drop 2) inner after ∧
      raw = trimChars inner ∧ rest = after.drop 2 ∧ rest.length < text.length := by
  unfold scan at scanned
  split at scanned
  · cases scanned
  · rename_i early braces found
    have next := splitFind_some found
    split_ifs at scanned with four
    split at scanned
    · cases scanned
    · rename_i inner after shut
      cases scanned
      have closed := splitFind_some shut
      refine ⟨braces,inner,after,next,fun begins => four (List.isPrefixOf_iff_prefix.mpr begins),closed,rfl,rfl,?_⟩
      have long := next.occurs.length_le
      have inside := congrArg length closed.splits
      rw [next.splits,length_append,length_drop]
      simp only [opening,length_cons,length_nil,length_drop,length_append] at long inside
      omega

/-! ### Values -/

/-- What a placeholder stands for, as it is. -/
def value (workflow_name : String) (vars : TreeMap String String) (steps : TreeMap String JournalStep) :
    Placeholder → List Char
  | .WorkflowName => workflow_name.toList
  | .Var key => (vars[key]?.getD "").toList
  | .StepOutput step true => (steps[step]?.map render_fan_out).getD []
  | .StepOutput step false => ((steps[step]?.bind JournalStep.output).getD "").toList
  | .Unknown _ => []

/-- The single-pass expansion: literal text, two braces for each escape, and the values of the placeholders. -/
def expansion (workflow_name : String) (vars : TreeMap String String) (steps : TreeMap String JournalStep) :
    List Segment → List Char
  | [] => []
  | .Literal text :: segments => text ++ expansion workflow_name vars steps segments
  | .Escape :: segments => opening ++ expansion workflow_name vars steps segments
  | .Placeholder raw :: segments =>
      value workflow_name vars steps (parse_placeholder raw) ++ expansion workflow_name vars steps segments

def raws : List Segment → List (List Char)
  | [] => []
  | .Placeholder raw :: segments => raw :: raws segments
  | .Literal _ :: segments => raws segments
  | .Escape :: segments => raws segments

theorem placeholders_error {fuel : Nat} {out : List (List Char)} {errors : List String}
    (failed : placeholdersLoop fuel text out = .error errors) : errors = ["template has an unclosed placeholder"] := by
  induction fuel generalizing text out with
  | zero => cases failed
  | succ fuel ih =>
    rw [placeholdersLoop] at failed
    split at failed
    · cases failed
    · exact ih failed
    · cases failed
      rfl
    · exact ih failed

section Rendering
variable {workflow_name : String} {vars : TreeMap String String} {steps : TreeMap String JournalStep}

/-- The loop that lists the placeholders and the one that replaces them divide a template alike. -/
theorem loops_agree {fuel : Nat} {text : List Char} {out found : List (List Char)} (enough : text.length < fuel)
    (listed : placeholdersLoop fuel text out = .ok found) :
    ∃ segments, Reads text segments ∧ found = out ++ raws segments ∧
      ((∀ raw ∈ raws segments, replacement workflow_name vars steps (parse_placeholder raw) =
        .ok (value workflow_name vars steps (parse_placeholder raw))) →
        ∀ rendered, renderTemplateLoop workflow_name vars steps fuel text rendered =
          .ok (rendered ++ expansion workflow_name vars steps segments)) := by
  induction fuel generalizing text out with
  | zero => omega
  | succ fuel ih =>
    rw [placeholdersLoop] at listed
    simp only [renderTemplateLoop]
    cases scanned : scan text with
    | Done =>
      rw [scanned] at listed
      cases listed
      exact ⟨[.Literal text],.last (scan_done scanned),by simp [raws],by simp [expansion]⟩
    | Escaped before rest =>
      rw [scanned] at listed
      obtain ⟨braces,next,four,rfl,shorter⟩ := scan_escaped scanned
      obtain ⟨segments,reads,same,renders⟩ := ih (by omega) listed
      refine ⟨.Literal before :: .Escape :: segments,.escape next four reads,same,?_⟩
      intro known rendered
      simp only [renders known,expansion,append_assoc]
    | Unclosed before =>
      rw [scanned] at listed
      cases listed
    | Found before raw rest =>
      rw [scanned] at listed
      obtain ⟨braces,inner,after,next,two,closed,rfl,rfl,shorter⟩ := scan_found scanned
      obtain ⟨segments,reads,same,renders⟩ := ih (by omega) listed
      refine ⟨.Literal before :: .Placeholder (trimChars inner) :: segments,.placeholder next two closed reads,?_,?_⟩
      · rw [same,raws,raws,append_assoc]
        rfl
      · intro known rendered
        have own := known (trimChars inner) (by simp [raws])
        have others : ∀ raw ∈ raws segments, _ := fun raw inside => known raw (by simp [raws,inside])
        simp only [own,renders others,expansion,append_assoc]

/-- A placeholder without a problem has its value in the journal. -/
theorem replacement_of_valid {owner_step : String} {available_steps : TreeSet String}
    {step_is_fan_out : String → Option Bool}
    (recorded : ∀ step, available_steps.contains step = true →
      ∃ state, steps[step]? = some state ∧ (step_is_fan_out step = some false → state.output.isSome = true))
    {placeholder : Placeholder}
    (valid : placeholderProblems owner_step workflow_name vars available_steps step_is_fan_out placeholder = []) :
    replacement workflow_name vars steps placeholder = .ok (value workflow_name vars steps placeholder) := by
  cases placeholder with
  | WorkflowName => rfl
  | Var key =>
    rw [placeholderProblems] at valid
    split_ifs at valid with known
    rw [TreeMap.contains_eq_isSome_getElem?,Option.isSome_iff_exists] at known
    obtain ⟨text,stored⟩ := known
    simp [replacement,value,stored]
  | StepOutput step fan_out =>
    rw [placeholderProblems] at valid
    have available : available_steps.contains step = true := by
      by_contra missing
      simp [missing] at valid
    rw [if_pos available] at valid
    obtain ⟨state,stored,output⟩ := recorded step available
    cases kind : step_is_fan_out step with
    | none => simp [kind] at valid
    | some fans =>
      rw [kind] at valid output
      cases fans with
      | true =>
        cases fan_out with
        | true => simp [replacement,value,stored]
        | false => simp at valid
      | false =>
        cases fan_out with
        | true => simp at valid
        | false =>
          obtain ⟨text,given⟩ := Option.isSome_iff_exists.mp (output rfl)
          simp [replacement,value,stored,given]
  | Unknown raw => simp [placeholderProblems] at valid

/-- A template without problems, whose steps are recorded, is rendered as its single-pass expansion: the division into
    segments is the only one, and no inserted text is looked at again. -/
theorem rendering_is_single_pass (owner_step template : String) (workflow_name : String) (vars : TreeMap String String)
    (steps : TreeMap String JournalStep)
    (available_steps : TreeSet String) (step_is_fan_out : String → Option Bool)
    (valid : validate_template owner_step template workflow_name vars available_steps step_is_fan_out = [])
    (recorded : ∀ step, available_steps.contains step = true →
      ∃ state, steps[step]? = some state ∧ (step_is_fan_out step = some false → state.output.isSome = true)) :
    ∃ segments, Reads template.toList segments ∧ (∀ others, Reads template.toList others → others = segments) ∧
      placeholders template = .ok (raws segments) ∧
      render_template_inner template workflow_name vars steps =
        .ok (String.ofList (expansion workflow_name vars steps segments)) := by
  unfold validate_template at valid
  cases listed : placeholders template with
  | error errors =>
    have text := placeholders_error listed
    simp [listed,text] at valid
  | ok found =>
    rw [listed] at valid
    obtain ⟨segments,reads,same,renders⟩ := @loops_agree workflow_name vars steps _ _ _ _ (Nat.lt_succ_self _) listed
    rw [nil_append] at same
    refine ⟨segments,reads,fun others again => (reads.unique again).symm,by rw [same],?_⟩
    rw [render_template_inner,renders,nil_append]
    · rfl
    · intro raw inside
      rw [flatMap_eq_nil_iff] at valid
      exact replacement_of_valid recorded (valid raw (same ▸ inside))

/-- A template with an escape and a step's output, which has braces itself. -/
def sampleTemplate : String := "\x7b\x7b\x7b\x7bis \x7b\x7b steps.plan.output \x7d\x7d"
def sampleSteps : TreeMap String JournalStep :=
  TreeMap.empty.insert "plan" { JournalStep.pending with output := some "\x7b\x7bvars.x\x7d\x7d" }

theorem sample_is_rendered_once :
    validate_template "next" sampleTemplate "" {} (TreeSet.empty.insert "plan") (fun _ => some false) = [] ∧
      ∃ segments, Reads sampleTemplate.toList segments ∧
        render_template_inner sampleTemplate ""
          {} sampleSteps = .ok (String.ofList (expansion "" {} sampleSteps segments)) := by
  have valid : validate_template "next" sampleTemplate "" {} (TreeSet.empty.insert "plan") (fun _ => some false) =
    [] := by decide +kernel
  refine ⟨valid,?_⟩
  have recorded : ∀ step, (TreeSet.empty.insert "plan" : TreeSet String).contains step = true →
      ∃ state, sampleSteps[step]? = some state ∧ (some false = some false → state.output.isSome = true) := by
    intro step available
    have same : step = "plan" := by
      rw [TreeSet.contains_insert,Bool.or_eq_true] at available
      rcases available with equal | inside
      · exact Eq.symm (by simpa using equal)
      · cases inside
    rw [same]
    exact ⟨{ JournalStep.pending with output := some "\x7b\x7bvars.x\x7d\x7d" },by simp [sampleSteps],fun _ => rfl⟩
  obtain ⟨segments,reads,_,_,rendered⟩ := rendering_is_single_pass "next" sampleTemplate "" {} sampleSteps _ (fun _ =>
    some false) valid recorded
  exact ⟨segments,reads,rendered⟩

example : render_template_inner sampleTemplate "" {} sampleSteps = .ok "\x7b\x7bis \x7b\x7bvars.x\x7d\x7d" :=
  by decide +kernel

end Rendering
end Vyane.Workflows
