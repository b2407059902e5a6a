import Vyane.JsonText
import Vyane.Sha256
import Vyane.WorkflowPlan

/-!
The wire form of a plan (`plan.rs`, `from_json` and `to_canonical_json`), with the derived `Serialize` and `Deserialize`
instances. The derived readers also take a sequence for a structure, which `to_canonical_json` never writes.
-/
namespace Vyane.Workflows
open Text Json List
set_option linter.unusedSimpArgs false

def WORKFLOW_PLAN_MAX_WIRE_BYTES : Nat := 32 * 1024 * 1024

/-! ### Values of the plan types -/

/-- A unit variant, written as its name. -/
def asVariant {α : Type} (variants : List (String × α)) (value : Value) : Option α :=
  (asText value).bind (lookup · variants)

def Sandbox.name : Sandbox → String
  | .ReadOnly => "read-only"
  | .Write => "write"
  | .Full => "full"
def Sandbox.ofValue : Value → Option Sandbox :=
  asVariant [("read-only",.ReadOnly),("write",.Write),("full",.Full)]
def Effort.name : Effort → String
  | .Low => "low"
  | .Medium => "medium"
  | .High => "high"
  | .Xhigh => "xhigh"
def Effort.ofValue : Value → Option Effort :=
  asVariant [("low",.Low),("medium",.Medium),("high",.High),("xhigh",.Xhigh)]
def WorkflowIsolation.name : WorkflowIsolation → String
  | .None => "none"
  | .Worktree => "worktree"
def WorkflowIsolation.ofValue : Value → Option WorkflowIsolation :=
  asVariant [("none",.None),("worktree",.Worktree)]
def OnError.name : OnError → String
  | .Abort => "abort"
  | .Continue => "continue"
def OnError.ofValue : Value → Option OnError := asVariant [("abort",.Abort),("continue",.Continue)]
def asU32 (value : Value) : Option UInt32 := (asUnsigned (2 ^ 32) value).map UInt32.ofNat
def as_u64 (value : Value) : Option UInt64 := (asUnsigned (2 ^ 64) value).map UInt64.ofNat
def strings (texts : List String) : Value := .Array (texts.map .String)
def orNull : Option Value → Value
  | none => .Null
  | some value => value
def WorkflowPlanDuration.to_value (duration : WorkflowPlanDuration) : Value :=
  .Object [("secs",number duration.secs.toNat),("nanos",number duration.nanos.toNat)]
def WorkflowPlanDuration.ofValue (value : Value) : Option WorkflowPlanDuration := do
  let fields ← knownFields ["secs","nanos"] value
  some ⟨← required fields "secs" as_u64,← required fields "nanos" asU32⟩
/-- `tag = "kind"`: the variant's name is a field beside its own. -/
def WorkflowPlanTargets.to_value : WorkflowPlanTargets → Value
  | .Single target => .Object [("kind",.String "single"),("target",.String target)]
  | .FanOut targets => .Object [("kind",.String "fan_out"),("targets",strings targets)]
def WorkflowPlanTargets.ofValue : Value → Option WorkflowPlanTargets
  | .Object fields =>
    match fields.lookup "kind" with
    | some (.String "single") => do
      let fields ← knownFields ["kind","target"] (.Object fields)
      some (.Single (← required fields "target" asText))
    | some (.String "fan_out") => do
      let fields ← knownFields ["kind","targets"] (.Object fields)
      some (.FanOut (← required fields "targets" (asList asText)))
    | _ => none
  | _ => none

def WorkflowRouteHints.to_value (route : WorkflowRouteHints) : Value :=
  .Object [("stage",orNull (route.stage.map .String)),("tier",orNull (route.tier.map .String)),
    ("tags",strings route.tags),("candidates",strings route.candidates),
    ("allow_frontier",orNull (route.allow_frontier.map .Bool)),
    ("effort",orNull (route.effort.map fun effort => .String effort.name))]
def WorkflowRouteHints.ofValue (value : Value) : Option WorkflowRouteHints := do
  let fields ← knownFields ["stage","tier","tags","candidates","allow_frontier","effort"] value
  some ⟨← defaulted fields "stage" none (nullable asText),← defaulted fields "tier" none (nullable asText),
    ← defaulted fields "tags" [] (asList asText),← defaulted fields "candidates" [] (asList asText),
    ← defaulted fields "allow_frontier" none (nullable as_bool),
      ← defaulted fields "effort" none (nullable Effort.ofValue)⟩

/-- `isolation` is skipped when it is `none`, the optional fields when they are empty. -/
def WorkflowPlanStep.to_value (step : WorkflowPlanStep) : Value :=
  .Object ([("order",number step.order.toNat),("id",.String step.id),("needs",strings step.needs),
      ("targets",step.targets.to_value),("prompt_template",.String step.prompt_template)] ++
    optional "system" (step.system.map .String) ++ optional "workdir" (step.workdir.map .String) ++
    [("sandbox",.String step.sandbox.name)] ++
    optional "isolation" (if step.isolation = .None then none else some (.String step.isolation.name)) ++
    optional "isolation_base" (step.isolation_base.map .String) ++
    optional "timeout" (step.timeout.map WorkflowPlanDuration.to_value) ++
    [("on_error",.String step.on_error.name),("route",step.route.to_value)])
def stepFields : List String :=
  ["order","id","needs","targets","prompt_template","system","workdir","sandbox","isolation","isolation_base","timeout",
    "on_error","route"]
def WorkflowPlanStep.ofValue (value : Value) : Option WorkflowPlanStep := do
  let fields ← knownFields stepFields value
  some ⟨← required fields "order" asU32,← required fields "id" asText,
    ← defaulted fields "needs" [] (asList asText),← required fields "targets" WorkflowPlanTargets.ofValue,
    ← required fields "prompt_template" asText,← defaulted fields "system" none (nullable asText),
    ← defaulted fields "workdir" none (nullable asText),← required fields "sandbox" Sandbox.ofValue,
    ← defaulted fields "isolation" .None WorkflowIsolation.ofValue,
    ← defaulted fields "isolation_base" none (nullable asText),
    ← defaulted fields "timeout" none (nullable WorkflowPlanDuration.ofValue),
    ← required fields "on_error" OnError.ofValue,
    ← defaulted fields "route" ⟨none,none,[],[],none,none⟩ WorkflowRouteHints.ofValue⟩

/-- A missing `Option` without a default is `None` as well. -/
def WorkflowCapabilityManifest.to_value (manifest : WorkflowCapabilityManifest) : Value :=
  .Object [("maximum_sandbox",.String manifest.maximum_sandbox.name),
    ("uses_explicit_workdir",.Bool manifest.uses_explicit_workdir),("uses_fan_out",.Bool manifest.uses_fan_out),
    ("has_route_hints",.Bool manifest.has_route_hints),
    ("maximum_timeout",orNull (manifest.maximum_timeout.map WorkflowPlanDuration.to_value))]
def WorkflowCapabilityManifest.ofValue (value : Value) : Option WorkflowCapabilityManifest := do
  let fields ← knownFields
    ["maximum_sandbox","uses_explicit_workdir","uses_fan_out","has_route_hints","maximum_timeout"] value
  some ⟨← required fields "maximum_sandbox" Sandbox.ofValue,← required fields "uses_explicit_workdir" as_bool,
    ← required fields "uses_fan_out" as_bool,← required fields "has_route_hints" as_bool,
    ← defaulted fields "maximum_timeout" none (nullable WorkflowPlanDuration.ofValue)⟩

def WorkflowPlan.to_value (plan : WorkflowPlan) : Value :=
  .Object ([("schema_version",number plan.schema_version.toNat),("name",.String plan.name)] ++
    optional "description" (plan.description.map .String) ++
    [("max_concurrency",number plan.max_concurrency.toNat),("source_sha256",.String plan.source_sha256),
      ("capability_manifest",plan.capability_manifest.to_value),
      ("steps",.Array (plan.steps.map WorkflowPlanStep.to_value)),("plan_sha256",.String plan.plan_sha256)])
def planFields : List String :=
  ["schema_version","name","description","max_concurrency","source_sha256","capability_manifest","steps","plan_sha256"]
def WorkflowPlan.ofValue (value : Value) : Option WorkflowPlan := do
  let fields ← knownFields planFields value
  some ⟨← required fields "schema_version" asU32,← required fields "name" asText,
    ← defaulted fields "description" none (nullable asText),← required fields "max_concurrency" asU32,
    ← required fields "source_sha256" asText,
    ← required fields "capability_manifest" WorkflowCapabilityManifest.ofValue,
    ← required fields "steps" (asList WorkflowPlanStep.ofValue),← required fields "plan_sha256" asText⟩

/-! ### Writing and reading plans -/

def DigestView.to_value (view : DigestView) : Value :=
  .Object [("schema_version",number view.schema_version.toNat),("name",.String view.name),
    ("description",orNull (view.description.map .String)),("max_concurrency",number view.max_concurrency.toNat),
    ("source_sha256",.String view.source_sha256),("capability_manifest",view.capability_manifest.to_value),
    ("steps",.Array (view.steps.map WorkflowPlanStep.to_value))]

/-- `serde_json`, with the message of a value that does not fit the plan types. -/
structure PlanLibraries where
  json : Codec
  data_error : Value → String
def PlanLibraries.digests (libs : PlanLibraries) : PlanDigests where
  to_vec view := .ok (libs.json.to_vec view.to_value)
  sha256 := Sha256.digest

variable (libs : PlanLibraries) {plan : WorkflowPlan}

def WorkflowPlan.to_canonical_json (plan : WorkflowPlan) : Except WorkflowError Bytes :=
  match plan.verify libs.digests with
  | .error error => .error error
  | .ok () => .ok (libs.json.to_vec plan.to_value)

def WorkflowPlan.from_json (bytes : Bytes) : Except WorkflowError WorkflowPlan :=
  if WORKFLOW_PLAN_MAX_WIRE_BYTES < bytes.length then
    .error (.InvalidWorkflowPlan s!"workflow plan wire payload exceeds {WORKFLOW_PLAN_MAX_WIRE_BYTES} bytes")
  else
    match libs.json.from_slice bytes with
    | .error reason => .error (.InvalidWorkflowPlan reason)
    | .ok value =>
      match WorkflowPlan.ofValue value with
      | none => .error (.InvalidWorkflowPlan (libs.data_error value))
      | some plan =>
        match plan.verify libs.digests with
        | .error error => .error error
        | .ok () => .ok plan

/-! ### Every value reads back -/

theorem asU32_number (n : UInt32) : asU32 (number n.toNat) = some n := by
  rw [asU32,asUnsigned_number n.toNat_lt,Option.map_some,UInt32.ofNat_toNat]
theorem as_u64_number (n : UInt64) : as_u64 (number n.toNat) = some n := by
  rw [as_u64,asUnsigned_number n.toNat_lt,Option.map_some,UInt64.ofNat_toNat]
theorem asList_strings (texts : List String) : asList asText (strings texts) = some texts := by
  rw [strings,asList]
  exact @mapM_of_forall String asText .String (fun _ => rfl) texts
theorem sandbox_reads_back (sandbox : Sandbox) : Sandbox.ofValue (.String sandbox.name) = some sandbox := by
  cases sandbox <;> decide
theorem effort_reads_back (effort : Effort) : Effort.ofValue (.String effort.name) = some effort := by
  cases effort <;> decide
theorem on_error_reads_back (on_error : OnError) : OnError.ofValue (.String on_error.name) = some on_error := by
  cases on_error <;> decide

/-- An optional value that is never `null` itself. -/
theorem nullable_orNull {α : Type} {read : Value → Option α} {write : α → Value}
    (back : ∀ x, read (write x) = some x) (present : ∀ x, write x ≠ .Null) (value : Option α) :
    nullable read (orNull (value.map write)) = some value := by
  cases value with
  | none => rfl
  | some x =>
    simp only [Option.map_some,orNull]
    unfold nullable
    split
    · rename_i null; exact absurd null (present x)
    · rw [back,Option.map_some]

/-- The same for a field that is left out. -/
theorem defaulted_optional {α : Type} {read : Value → Option α} {write : α → Value}
    (back : ∀ x, read (write x) = some x) (present : ∀ x, write x ≠ .Null) {fields : List (String × Value)}
    {name : String} (value : Option α) (found : fields.lookup name = value.map write) :
    defaulted fields name none (nullable read) = some value := by
  rw [defaulted,found]
  cases value with
  | none => rfl
  | some x => simpa [orNull] using nullable_orNull back present (some x)

theorem string_reads_back (text : String) : asText (.String text) = some text := rfl
theorem bool_reads_back (value : Bool) : as_bool (.Bool value) = some value := rfl

theorem duration_reads_back (duration : WorkflowPlanDuration) :
    WorkflowPlanDuration.ofValue duration.to_value = some duration := by
  unfold WorkflowPlanDuration.ofValue WorkflowPlanDuration.to_value
  rw [knownFields_object (by decide) (by simp)]
  simp (disch := decide) only [required,lookup_same,lookup_other,Option.bind_eq_bind,Option.bind_some,asU32_number,
    as_u64_number]

theorem targets_read_back (targets : WorkflowPlanTargets) :
    WorkflowPlanTargets.ofValue targets.to_value = some targets := by
  cases targets with
  | Single target =>
    simp [WorkflowPlanTargets.to_value,WorkflowPlanTargets.ofValue,knownFields,required,lookup,asText]
  | FanOut targets =>
    simp [WorkflowPlanTargets.to_value,WorkflowPlanTargets.ofValue,knownFields,required,lookup,asList_strings]

theorem route_reads_back (route : WorkflowRouteHints) : WorkflowRouteHints.ofValue route.to_value = some route := by
  unfold WorkflowRouteHints.ofValue WorkflowRouteHints.to_value
  rw [knownFields_object (by decide) (by simp)]
  simp (disch := decide) only [defaulted,lookup_same,lookup_other,Option.bind_eq_bind,Option.bind_some,asList_strings,
    nullable_orNull string_reads_back (by simp),nullable_orNull bool_reads_back (by simp),
    nullable_orNull effort_reads_back (by simp)]

theorem duration_present (duration : WorkflowPlanDuration) : duration.to_value ≠ .Null := Value.noConfusion
theorem timeout_reads_back (timeout : Option WorkflowPlanDuration) :
    nullable WorkflowPlanDuration.ofValue (orNull (timeout.map WorkflowPlanDuration.to_value)) = some timeout :=
  nullable_orNull duration_reads_back duration_present timeout

theorem manifest_reads_back (manifest : WorkflowCapabilityManifest) :
    WorkflowCapabilityManifest.ofValue manifest.to_value = some manifest := by
  unfold WorkflowCapabilityManifest.ofValue WorkflowCapabilityManifest.to_value
  rw [knownFields_object (by decide) (by simp)]
  simp (disch := decide) only [required,defaulted,lookup_same,lookup_other,Option.bind_eq_bind,Option.bind_some,
    sandbox_reads_back,bool_reads_back,timeout_reads_back]

/-- The fields of a step, whichever of them are skipped. -/
private theorem stepFields_found (step : WorkflowPlanStep) :
    ∃ fields, knownFields stepFields step.to_value = some fields ∧
      fields.lookup "order" = some (number step.order.toNat) ∧ fields.lookup "id" = some (.String step.id) ∧
      fields.lookup "needs" = some (strings step.needs) ∧ fields.lookup "targets" = some step.targets.to_value ∧
      fields.lookup "prompt_template" = some (.String step.prompt_template) ∧
      fields.lookup "system" = step.system.map .String ∧ fields.lookup "workdir" = step.workdir.map .String ∧
      fields.lookup "sandbox" = some (.String step.sandbox.name) ∧
      fields.lookup "isolation" = (if step.isolation = .None then none else some (.String step.isolation.name)) ∧
      fields.lookup "isolation_base" = step.isolation_base.map .String ∧
      fields.lookup "timeout" = step.timeout.map WorkflowPlanDuration.to_value ∧
      fields.lookup "on_error" = some (.String step.on_error.name) ∧
        fields.lookup "route" = some step.route.to_value := by
  refine ⟨_,knownFields_object (by decide) ?_,?_,?_,?_,?_,?_,?_,?_,?_,?_,?_,?_,?_,?_⟩
  · simp only [map_append,map_cons,map_nil]
    exact ((((((List.Sublist.refl ["order","id","needs","targets","prompt_template"]).append
      (optional_names _ _)).append
      (optional_names _ _)).append (.refl ["sandbox"])).append (optional_names _ _)).append (optional_names _ _)).append
      (optional_names _ _) |>.append (.refl ["on_error","route"])
  all_goals
    simp (disch := decide) only [lookup_append,lookup_same,lookup_other,lookup_optional_other,lookup_optional_same,
      Option.some_or,Option.none_or,Option.or_none,lookup_nil]

theorem step_reads_back (step : WorkflowPlanStep) : WorkflowPlanStep.ofValue step.to_value = some step := by
  obtain ⟨fields,known,order,id,needs,targets,template,system,workdir,sandbox,isolation,base,timeout,on_error,route⟩ :=
    stepFields_found step
  have isolated : defaulted fields "isolation" .None WorkflowIsolation.ofValue = some step.isolation := by
    rw [defaulted,isolation]
    cases step.isolation <;> decide
  rw [WorkflowPlanStep.ofValue,bind_found known,bind_found (required_found order (asU32_number _)),
    bind_found (required_found id (string_reads_back _)),bind_found (defaulted_found needs (asList_strings _)),
    bind_found (required_found targets (targets_read_back _)),
      bind_found (required_found template (string_reads_back _)),
    bind_found (defaulted_optional string_reads_back (by simp) step.system system),
    bind_found (defaulted_optional string_reads_back (by simp) step.workdir workdir),
    bind_found (required_found sandbox (sandbox_reads_back _)),bind_found isolated,
    bind_found (defaulted_optional string_reads_back (by simp) step.isolation_base base),
    bind_found (defaulted_optional duration_reads_back duration_present step.timeout timeout),
    bind_found (required_found on_error (on_error_reads_back _)),
      bind_found (defaulted_found route (route_reads_back _))]

/-- The fields of a plan, with or without its description. -/
private theorem planFields_found (plan : WorkflowPlan) :
    ∃ fields, knownFields planFields plan.to_value = some fields ∧
      fields.lookup "schema_version" = some (number plan.schema_version.toNat) ∧
      fields.lookup "name" = some (.String plan.name) ∧ fields.lookup "description" = plan.description.map .String ∧
      fields.lookup "max_concurrency" = some (number plan.max_concurrency.toNat) ∧
      fields.lookup "source_sha256" = some (.String plan.source_sha256) ∧
      fields.lookup "capability_manifest" = some plan.capability_manifest.to_value ∧
      fields.lookup "steps" = some (.Array (plan.steps.map WorkflowPlanStep.to_value)) ∧
      fields.lookup "plan_sha256" = some (.String plan.plan_sha256) := by
  refine ⟨_,knownFields_object (by decide) ?_,?_,?_,?_,?_,?_,?_,?_,?_⟩
  · simp only [map_append,map_cons,map_nil]
    exact ((List.Sublist.refl ["schema_version","name"]).append (optional_names _ _)).append
      (.refl ["max_concurrency","source_sha256","capability_manifest","steps","plan_sha256"])
  all_goals
    simp (disch := decide) only [lookup_append,lookup_same,lookup_other,lookup_optional_other,lookup_optional_same,
      Option.some_or,Option.none_or,Option.or_none,lookup_nil]

/-- The derived instances are inverse to each other on every plan. -/
theorem plan_reads_back (plan : WorkflowPlan) : WorkflowPlan.ofValue plan.to_value = some plan := by
  obtain ⟨fields,known,version,name,description,concurrency,source,manifest,steps,digest⟩ := planFields_found plan
  have listed : asList WorkflowPlanStep.ofValue (.Array (plan.steps.map WorkflowPlanStep.to_value)) = some plan.steps :=
    mapM_of_forall step_reads_back plan.steps
  rw [WorkflowPlan.ofValue,bind_found known,bind_found (required_found version (asU32_number _)),
    bind_found (required_found name (string_reads_back _)),
    bind_found (defaulted_optional string_reads_back (by simp) plan.description description),
    bind_found (required_found concurrency (asU32_number _)),bind_found (required_found source (string_reads_back _)),
    bind_found (required_found manifest (manifest_reads_back _)),bind_found (required_found steps listed),
    bind_found (required_found digest (string_reads_back _))]

/-! ### Every plan can be written -/

theorem strings_fit (texts : List String) (depth : Nat) : (strings texts).Fits (depth + 1) :=
  fits_array fun value member => by
    obtain ⟨text,_,rfl⟩ := mem_map.mp member
    exact fits_string text depth

theorem orNull_fits {value : Option Value} {depth : Nat} (fits : ∀ v, value = some v → v.Fits depth) :
    (orNull value).Fits depth := by
  cases value with
  | none => exact fits_null depth
  | some value => exact fits value rfl

theorem mapped_fits {α : Type} {write : α → Value} {depth : Nat} (fits : ∀ x, (write x).Fits depth) (value : Option α) :
    ∀ v, value.map write = some v → v.Fits depth := by
  intro v written
  obtain ⟨x,_,rfl⟩ := Option.map_eq_some_iff.mp written
  exact fits x

theorem duration_fits (duration : WorkflowPlanDuration) (depth : Nat) : duration.to_value.Fits (depth + 1) :=
  fits_object (by simp [fits_number])

theorem targets_fit (targets : WorkflowPlanTargets) (depth : Nat) : targets.to_value.Fits (depth + 2) := by
  cases targets with
  | Single target => exact fits_object (by simp [fits_string])
  | FanOut targets => exact fits_object (by simp [fits_string,strings_fit])

theorem route_fits (route : WorkflowRouteHints) (depth : Nat) : route.to_value.Fits (depth + 2) := by
  refine fits_object ?_
  simp only [forall_mem_cons,not_mem_nil,false_imp_iff,implies_true,and_true]
  exact ⟨orNull_fits (mapped_fits (fits_string · _) _),orNull_fits (mapped_fits (fits_string · _) _),strings_fit _ _,
    strings_fit _ _,orNull_fits (mapped_fits (fits_bool · _) _),
    orNull_fits (mapped_fits (fun effort : Effort => fits_string effort.name _) _)⟩

theorem manifest_fits (manifest : WorkflowCapabilityManifest) (depth : Nat) : manifest.to_value.Fits (depth + 2) := by
  refine fits_object ?_
  simp only [forall_mem_cons,not_mem_nil,false_imp_iff,implies_true,and_true]
  exact ⟨fits_string _ _,fits_bool _ _,fits_bool _ _,fits_bool _ _,orNull_fits (mapped_fits (duration_fits · _) _)⟩

theorem step_fits (step : WorkflowPlanStep) (depth : Nat) : step.to_value.Fits (depth + 3) := by
  refine fits_object ?_
  simp only [forall_mem_append,forall_mem_cons,not_mem_nil,false_imp_iff,implies_true,and_true]
  refine ⟨⟨⟨⟨⟨⟨⟨⟨?_,?_,?_,?_,?_⟩,?_⟩,?_⟩,?_⟩,?_⟩,?_⟩,?_⟩,?_,?_⟩
  · exact fits_number _ _
  · exact fits_string _ _
  · exact strings_fit _ _
  · exact targets_fit _ _
  · exact fits_string _ _
  · exact fits_optional (mapped_fits (fits_string · _) _)
  · exact fits_optional (mapped_fits (fits_string · _) _)
  · exact fits_string _ _
  · refine fits_optional fun v written => ?_
    split_ifs at written
    exact Option.some.inj written ▸ fits_string _ _
  · exact fits_optional (mapped_fits (fits_string · _) _)
  · exact fits_optional (mapped_fits (duration_fits · _) _)
  · exact fits_string _ _
  · exact route_fits _ _

theorem plan_fits (plan : WorkflowPlan) : plan.to_value.Fits 5 := by
  refine fits_object ?_
  simp only [forall_mem_append,forall_mem_cons,not_mem_nil,false_imp_iff,implies_true,and_true]
  refine ⟨⟨⟨fits_number _ _,fits_string _ _⟩,fits_optional (mapped_fits (fits_string · _) _)⟩,fits_number _ _,
    fits_string _ _,manifest_fits _ _,fits_array fun value member => ?_,fits_string _ _⟩
  obtain ⟨step,_,rfl⟩ := mem_map.mp member
  exact step_fits step 0

/-- A plan that `verify` accepts is written, and reads back as itself exactly when its text is within the wire limit. -/
theorem written_plan_reads_back (verified : plan.verify libs.digests = .ok ()) :
    plan.to_canonical_json libs = .ok (libs.json.to_vec plan.to_value) ∧
      WorkflowPlan.from_json libs (libs.json.to_vec plan.to_value) =
        if WORKFLOW_PLAN_MAX_WIRE_BYTES < serde_json.size plan.to_value then
          .error (.InvalidWorkflowPlan s!"workflow plan wire payload exceeds {WORKFLOW_PLAN_MAX_WIRE_BYTES} bytes")
        else .ok plan := by
  refine ⟨by rw [WorkflowPlan.to_canonical_json,verified],?_⟩
  have fits := plan_fits plan
  have read := libs.json.readsBack fits.1 (fits.2.trans (by decide))
  rw [WorkflowPlan.from_json,libs.json.size,read]
  simp only [plan_reads_back,verified]

/-- A plan whose text, with its escapes, is within the wire limit makes the round trip. -/
theorem written_plan_is_read (libs : PlanLibraries) (plan : WorkflowPlan) (verified : plan.verify libs.digests = .ok ())
    (within : serde_json.size plan.to_value ≤ WORKFLOW_PLAN_MAX_WIRE_BYTES) :
    ∃ bytes, plan.to_canonical_json libs = .ok bytes ∧ WorkflowPlan.from_json libs bytes = .ok plan := by
  obtain ⟨written,read⟩ := written_plan_reads_back libs verified
  exact ⟨_,written,by rw [read,if_neg (by omega)]⟩

/-! ### Plans with another prompt -/

def WorkflowPlanStep.withPrompt (text : String) (step : WorkflowPlanStep) : WorkflowPlanStep :=
  { step with prompt_template := text }
/-- The plan with the same prompt in every step. -/
def WorkflowPlan.withPrompt (text : String) (plan : WorkflowPlan) : WorkflowPlan :=
  { plan with steps := plan.steps.map (WorkflowPlanStep.withPrompt text) }

section
variable {text : String} (short : text.utf8ByteSize ≤ WORKFLOW_PLAN_MAX_PROMPT_BYTES)
include short
/-- The text of a prompt is checked for its size only. -/
theorem withPrompt_steps_problems (steps : List WorkflowPlanStep) :
    ∀ (seen : Std.TreeSet String) (order : Nat), (∀ step ∈ steps, step.prompt_template = "") →
      planStepsProblems seen order (steps.map (WorkflowPlanStep.withPrompt text)) =
        planStepsProblems seen order steps := by
  induction steps with
  | nil => intro seen order _; rfl
  | cons step rest ih =>
    intro seen order empty
    have same : planStepProblems seen order (step.withPrompt text) = planStepProblems seen order step := by
      have fits : validate_text "workflow prompt template" text 0 WORKFLOW_PLAN_MAX_PROMPT_BYTES = [] := by
        simp [validate_text,short]
      have none : validate_text "workflow prompt template" "" 0 WORKFLOW_PLAN_MAX_PROMPT_BYTES = [] := by decide
      simp only [planStepProblems,WorkflowPlanStep.withPrompt,empty step (by simp),fits,none]
      rfl
    simp only [map_cons,planStepsProblems,same]
    rw [show (step.withPrompt text).id = step.id from rfl,ih _ _ fun other member => empty other (by simp [member])]

end

theorem withPrompt_graph (text : String) (steps : List WorkflowPlanStep) :
    planIds (steps.map (WorkflowPlanStep.withPrompt text)) = planIds steps ∧
      ∀ ids, validate_graph (steps.map (WorkflowPlanStep.withPrompt text)) ids = validate_graph steps ids := by
  have edges : ∀ ids, planEdges ids (steps.map (WorkflowPlanStep.withPrompt text)) = planEdges ids steps := by
    intro ids
    simp only [planEdges,flatMap_map]
    rfl
  refine ⟨by simp only [planIds,foldl_map]; rfl,fun ids => ?_⟩
  simp only [validate_graph,edges,flatMap_map]
  rfl

theorem withPrompt_manifest (text : String) (steps : List WorkflowPlanStep) :
    WorkflowCapabilityManifest.from_steps (steps.map (WorkflowPlanStep.withPrompt text)) =
      .from_steps steps := by
  simp only [WorkflowCapabilityManifest.from_steps,map_map,any_map,filterMap_map]
  rfl

private theorem withPrompt_bytes (text : String) (steps : List WorkflowPlanStep)
    (empty : ∀ step ∈ steps, step.prompt_template = "") :
    ((steps.map (WorkflowPlanStep.withPrompt text)).map WorkflowPlanStep.bytes).sum =
      (steps.map WorkflowPlanStep.bytes).sum + steps.length * text.utf8ByteSize := by
  induction steps with
  | nil => simp
  | cons step rest ih =>
    have none : "".utf8ByteSize = 0 := rfl
    simp only [map_cons,sum_cons,ih fun other member => empty other (by simp [member]),length_cons,
      Nat.add_mul,WorkflowPlanStep.bytes,WorkflowPlanStep.withPrompt,empty step (by simp),none]
    omega

/-- A text without braces has no placeholders. -/
theorem step_placeholders_nil {text : String} (plain : '\x7b' ∉ text.toList) : step_placeholders text = [] := by
  have missing : ∀ cs : List Char, '\x7b' ∉ cs → splitFind opening cs = none := by
    intro cs absent
    induction cs with
    | nil => rfl
    | cons c rest ih =>
      simp only [mem_cons,not_or] at absent
      have apart : opening.isPrefixOf (c :: rest) = false := by
        simp [opening,isPrefixOf,absent.1]
      simp [splitFind,apart,ih absent.2]
  have done : scan text.toList = .Done := by rw [scan,missing _ plain]
  rw [step_placeholders,stepPlaceholdersLoop,done]

/-- An accepted plan without prompts stays acceptable with a text in every step. -/
theorem withPrompt_content {text : String} (clear : plan.contentProblems = [])
    (empty : ∀ step ∈ plan.steps, step.prompt_template = "") (plain : '\x7b' ∉ text.toList)
    (short : text.utf8ByteSize ≤ WORKFLOW_PLAN_MAX_PROMPT_BYTES) {digest : String}
    (room : plan.total_bytes + plan.steps.length * text.utf8ByteSize + digest.utf8ByteSize ≤
      WORKFLOW_PLAN_MAX_TOTAL_BYTES) :
    WorkflowPlan.contentProblems { plan.withPrompt text with plan_sha256 := digest } = [] := by
  simp only [WorkflowPlan.contentProblems,append_eq_nil_iff] at clear ⊢
  obtain ⟨⟨⟨header,steps⟩,total⟩,_⟩ := clear
  refine ⟨⟨⟨?_,?_⟩,?_⟩,?_⟩
  · rw [← header]
    simp only [WorkflowPlan.headerProblems,WorkflowPlan.withPrompt,isEmpty_map,length_map]
    rfl
  · exact (withPrompt_steps_problems short plan.steps ∅ 0 empty).trans steps
  · simp only [WorkflowPlan.totalProblems,append_eq_nil_iff,problemIf_eq_nil,decide_eq_false_iff_not] at total ⊢
    obtain ⟨⟨⟨⟨⟨needs,targets⟩,routes⟩,graph⟩,_⟩,manifest⟩ := total
    refine ⟨⟨⟨⟨⟨?_,?_⟩,?_⟩,?_⟩,?_⟩,?_⟩
    · simpa [WorkflowPlan.withPrompt,Function.comp_def,WorkflowPlanStep.withPrompt] using needs
    · simpa [WorkflowPlan.withPrompt,Function.comp_def,WorkflowPlanStep.withPrompt] using targets
    · simpa [WorkflowPlan.withPrompt,Function.comp_def,WorkflowPlanStep.withPrompt] using routes
    · simp only [WorkflowPlan.withPrompt]
      rw [(withPrompt_graph text plan.steps).1,(withPrompt_graph text plan.steps).2,graph]
    · have bytes := withPrompt_bytes text plan.steps empty
      simp only [WorkflowPlan.total_bytes,WorkflowPlan.withPrompt,bytes] at room ⊢
      omega
    · simpa [WorkflowPlan.withPrompt,withPrompt_manifest] using manifest
  · rw [reject_invalid_step_references,if_pos]
    simp [WorkflowPlan.withPrompt,WorkflowPlanStep.withPrompt,step_placeholders_nil plain]

theorem verify_of_sealed {digest : String} (computed : plan.compute_digest libs.digests = .ok digest)
    (clear : WorkflowPlan.contentProblems { plan with plan_sha256 := digest } = []) :
    WorkflowPlan.verify libs.digests { plan with plan_sha256 := digest } = .ok () := by
  have same : WorkflowPlan.compute_digest libs.digests { plan with plan_sha256 := digest } = .ok digest := computed
  rw [WorkflowPlan.verify,clear,same]
  simp

/-! ### A plan that is too long once it is escaped -/

def samples : PlanLibraries := ⟨compact,fun _ => "invalid plan"⟩
def lightStep (order : UInt32) (id : String) : WorkflowPlanStep :=
  ⟨order,id,[],.Single "t","",none,none,.ReadOnly,.None,none,none,.Abort,⟨none,none,[],[],none,none⟩⟩
def lightPlan : WorkflowPlan :=
  ⟨1,"w",none,1,"0000000000000000000000000000000000000000000000000000000000000000",⟨.ReadOnly,false,false,false,none⟩,
    [lightStep 0 "a",lightStep 1 "b"],
    "fa2839f913347d692d718febc11f09a1e3453bf45555479a223a6f5fed9dcd8a"⟩

theorem lightPlan_verifies : lightPlan.verify samples.digests = .ok () := by decide +kernel

/-- The empty prompts take no escapes. -/
theorem light_plan_is_read :
    lightPlan.verify samples.digests = .ok () ∧
      ∃ bytes, lightPlan.to_canonical_json samples = .ok bytes ∧ WorkflowPlan.from_json samples bytes = .ok lightPlan :=
  ⟨lightPlan_verifies,written_plan_is_read samples lightPlan lightPlan_verifies (by decide +kernel)⟩

/-- A text of NUL characters. -/
def nuls (count : Nat) : String := String.ofList (replicate count (Char.ofNat 0))

theorem nuls_size (count : Nat) : (nuls count).utf8ByteSize = count := by
  rw [nuls,String.utf8ByteSize_ofList,utf8Len_of_narrow,length_replicate]
  intro c member
  rw [eq_of_mem_replicate member]
  decide
theorem nuls_plain (count : Nat) : '\x7b' ∉ (nuls count).toList := by
  rw [nuls,String.toList_ofList]
  intro member
  exact absurd (eq_of_mem_replicate member) (by decide)

/-- The light plan with so many NUL characters in each of its prompts. -/
def heavyPlan (count : Nat) : WorkflowPlan :=
  let plan := lightPlan.withPrompt (nuls count)
  { plan with plan_sha256 := hex_lower (Sha256.digest (PLAN_DIGEST_DOMAIN ++
      be_bytes (samples.json.to_vec (DigestView.to_value ⟨plan.schema_version,plan.name,plan.description,
        plan.max_concurrency,plan.source_sha256,plan.capability_manifest,plan.steps⟩)).length ++
      samples.json.to_vec (DigestView.to_value ⟨plan.schema_version,plan.name,plan.description,
        plan.max_concurrency,plan.source_sha256,plan.capability_manifest,plan.steps⟩))) }

theorem heavyPlan_verifies {count : Nat} (short : count ≤ WORKFLOW_PLAN_MAX_PROMPT_BYTES) :
    (heavyPlan count).verify samples.digests = .ok () := by
  have clear : lightPlan.contentProblems = [] := verify_ok lightPlan_verifies
  have bytes : lightPlan.total_bytes = 133 := by decide +kernel
  refine verify_of_sealed samples rfl (withPrompt_content clear (by decide) (nuls_plain count) ?_ ?_)
  · rw [nuls_size]
    exact short
  · have two : lightPlan.steps.length = 2 := rfl
    rw [bytes,two,nuls_size,hex_lower_size,Sha256.digest_length]
    simp only [WORKFLOW_PLAN_MAX_PROMPT_BYTES,WORKFLOW_PLAN_MAX_TOTAL_BYTES] at short ⊢
    omega

/-- Every NUL character takes six bytes. -/
theorem heavyPlan_size (count : Nat) : 12 * count ≤ serde_json.size (heavyPlan count).to_value := by
  have prompt (step : WorkflowPlanStep) : 6 * count + 2 ≤ serde_json.size (step.withPrompt (nuls count)).to_value := by
    have chars : serde_json.charsSize (nuls count) = 6 * count := charsSize_nul count
    rw [← chars,← size_string]
    exact size_le_object "prompt_template" (by simp [WorkflowPlanStep.withPrompt])
  have steps : serde_json.size (.Array ((heavyPlan count).steps.map WorkflowPlanStep.to_value)) ≤
      serde_json.size (heavyPlan count).to_value := size_le_object "steps" (by simp)
  have both : (heavyPlan count).steps.map WorkflowPlanStep.to_value =
      [((lightStep 0 "a").withPrompt (nuls count)).to_value,((lightStep 1 "b").withPrompt (nuls count)).to_value] := rfl
  rw [both,size_array] at steps
  simp only [Writer.valuesSize] at steps
  have first := prompt (lightStep 0 "a")
  have second := prompt (lightStep 1 "b")
  omega

/-- Two accepted prompts of four mebibytes each escape to more than the wire limit. -/
theorem heavy_plan_is_refused :
    (heavyPlan WORKFLOW_PLAN_MAX_PROMPT_BYTES).verify samples.digests = .ok () ∧
      ∃ bytes, (heavyPlan WORKFLOW_PLAN_MAX_PROMPT_BYTES).to_canonical_json samples = .ok bytes ∧
        WorkflowPlan.from_json samples bytes =
          .error (.InvalidWorkflowPlan s!"workflow plan wire payload exceeds {WORKFLOW_PLAN_MAX_WIRE_BYTES} bytes") :=
  by
  have verified := heavyPlan_verifies (le_refl WORKFLOW_PLAN_MAX_PROMPT_BYTES)
  obtain ⟨written,read⟩ := written_plan_reads_back samples verified
  have size := heavyPlan_size WORKFLOW_PLAN_MAX_PROMPT_BYTES
  refine ⟨verified,_,written,?_⟩
  rw [read,if_pos]
  refine lt_of_lt_of_le ?_ size
  simp only [WORKFLOW_PLAN_MAX_WIRE_BYTES,WORKFLOW_PLAN_MAX_PROMPT_BYTES]
  omega

end Vyane.Workflows
