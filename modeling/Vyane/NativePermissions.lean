import Vyane.NativeTools

/-!
How the rules of a permission policy come to be (`vyane-harness/src/native/permissions.rs`), and what adding to a policy
does to its decisions. The regex library is a parameter.
-/
namespace Vyane.Native
open Text Json ToolChat List
set_option linter.unusedSimpArgs false

inductive PermissionRuleError where
  | EmptyToolPattern
  | EmptyArgumentName
  | InvalidArgumentRegex (argument source : String)
  | FloorRuleMustDeny
  | PolicyTooLarge
  | InvalidPolicyText
deriving DecidableEq, Repr

def MAX_CONFIGURED_RULES : Nat := 64
def MAX_NATIVE_TOOL_PERMISSION_LAYERS : Nat := 8
def MAX_ARGUMENT_MATCHERS_PER_RULE : Nat := 16
def MAX_TOOL_PATTERN_BYTES : Nat := 128
def MAX_ARGUMENT_NAME_BYTES : Nat := 64
def MAX_ARGUMENT_PATTERN_BYTES : Nat := 512
def MAX_POLICY_PATTERN_BYTES : Nat := 16 * 1024
/-- `if condition { return Err(error) }`. -/
def rejectIf {ε : Type} (condition : Prop) [Decidable condition] (error : ε) : Except ε Unit :=
  if condition then .error error else .ok ()

/-- What the code asks of the regex library. -/
structure Regexes where
  /-- `Regex::new`, with the text of its error. -/
  new : String → Except String Unit
  is_match : String → String → Bool
  /-- The name and the value of each shell assignment that a command shows. -/
  shellAssignments : String → List (String × String)
  /-- A command cut at its shell variables: the text between, or a variable as it is written and its name. -/
  shellVariables : String → List (String ⊕ String × String)

def valid_policy_text (value : String) (max_bytes : Nat) : Bool :=
  !value.isEmpty && value.utf8ByteSize ≤ max_bytes && trim value == value.toList && !value.toList.any is_control

/-! ### Tool patterns -/

inductive CharacterClassItem where
  | Literal (literal : Char)
  | Range (start stop : Char)
deriving DecidableEq, Repr

inductive GlobToken where
  | AnySequence
  | AnyCharacter
  | CharacterClass (negated : Bool) (items : List CharacterClassItem)
  | Literal (literal : Char)
deriving DecidableEq, Repr

/-- The items of a class. A range that runs backwards stands for its three characters. -/
def characterClassItems : List Char → List CharacterClassItem
  | start :: '-' :: stop :: content =>
    if start ≤ stop then .Range start stop :: characterClassItems content
    else .Literal start :: .Literal '-' :: .Literal stop :: characterClassItems content
  | literal :: content => .Literal literal :: characterClassItems content
  | [] => []

/-- A class, from behind its bracket on, and the characters after it. A closing
    bracket that stands first belongs to the class. -/
def parse_character_class (chars : List Char) : Option (GlobToken × List Char) :=
  let negated := chars.head? == some '!'
  let chars := if negated then chars.tail else chars
  let (first,rest) := if chars.head? == some ']' then ([']'],chars.tail) else ([],chars)
  let content := first ++ rest.takeWhile (· != ']')
  match rest.dropWhile (· != ']') with
  | [] => none
  | _ :: after => if content.isEmpty then none else some (.CharacterClass negated (characterClassItems content),after)

/-- The loop over a pattern. A star that follows a star adds nothing. -/
def parseFnmatchChars : Nat → Bool → List Char → List GlobToken
  | 0, _, _ => []
  | _, _, [] => []
  | fuel + 1, afterStar, '*' :: chars =>
    if afterStar then parseFnmatchChars fuel true chars
    else .AnySequence :: parseFnmatchChars fuel true chars
  | fuel + 1, _, '?' :: chars => .AnyCharacter :: parseFnmatchChars fuel false chars
  | fuel + 1, _, '[' :: chars =>
    match parse_character_class chars with
    | none => .Literal '[' :: parseFnmatchChars fuel false chars
    | some (token,after) => token :: parseFnmatchChars fuel false after
  | fuel + 1, _, literal :: chars => .Literal literal :: parseFnmatchChars fuel false chars

def parse_fnmatch_pattern (pattern : String) : List GlobToken :=
  parseFnmatchChars pattern.length false pattern.toList

def character_class_matches (items : List CharacterClassItem) (candidate : Char) : Bool :=
  items.any fun
    | .Literal literal => literal == candidate
    | .Range start stop => start ≤ candidate && candidate ≤ stop

/-- One row of the table behind its first column: `left` is the entry before in the same
    row, `aboveLeft` and `above` are those of the row of the tokens before. -/
def fnmatchRow (token : GlobToken) : Bool → Bool → List Char → List Bool → List Bool
  | left, aboveLeft, candidate :: candidates, above :: previous =>
    let current := match token with
      | .AnySequence => above || left
      | .AnyCharacter => aboveLeft
      | .CharacterClass negated items => aboveLeft && character_class_matches items candidate != negated
      | .Literal literal => aboveLeft && literal == candidate
    current :: fnmatchRow token current above candidates previous
  | _, _, _, _ => []

def fnmatchStep (candidate : List Char) (previous : List Bool) (token : GlobToken) : List Bool :=
  match previous with
  | [] => []
  | first :: previous =>
    let start := token == .AnySequence && first
    start :: fnmatchRow token start first candidate previous

def fnmatch_matches (pattern : List GlobToken) (candidate : String) : Bool :=
  let row := pattern.foldl (fnmatchStep candidate.toList) (true :: replicate candidate.length false)
  row.getLast?.getD false

/-! ### The text of an argument -/

/-- The digits of an exponent as Python writes them: a sign and two digits at least. -/
def pythonExponent (exponent : Int) : String :=
  let digits := toString exponent.natAbs
  (if exponent < 0 then "-" else "+") ++ (if digits.length < 2 then "0" else "") ++ digits

/-- `parse::<i32>`. -/
def parseI32 (text : List Char) : Option Int :=
  let (sign,digits) : Int × List Char := match text with
    | '-' :: digits => (-1,digits)
    | '+' :: digits => (1,digits)
    | digits => (1,digits)
  let value := sign * (digits.foldl (fun value digit => 10 * value + (digit.toNat - '0'.toNat)) 0 : Nat)
  if digits.isEmpty || !digits.all Char.isDigit || value < -2147483648 || 2147483647 < value then none else some value

def python_number_text (text : String) : String :=
  let separator := if text.toList.contains 'e' then 'e' else 'E'
  match text.toList.dropWhile (· != separator) with
  | [] => text
  | _ :: exponent =>
    match parseI32 exponent with
    | none => text
    | some exponent => String.ofList (text.toList.takeWhile (· != separator)) ++ "e" ++ pythonExponent exponent

/-- `replace`, of a character by a text. -/
def replaceChar (value : String) (old : Char) (new : String) : String :=
  String.ofList (value.toList.flatMap fun c => if c = old then new.toList else [c])
def python_string_repr (value : String) : String :=
  "'" ++ replaceChar (replaceChar value '\\' "\\\\") '\'' "\\'" ++ "'"

mutual

def python_argument_text : Value → String
  | .Null => "None"
  | .Bool true => "True"
  | .Bool false => "False"
  | .Number text => python_number_text text
  | .String value => value
  | .Array values => "[" ++ ", ".intercalate (pythonReprs values) ++ "]"
  | .Object values => "\x7b" ++ ", ".intercalate (pythonMembers values) ++ "\x7d"

def python_repr : Value → String
  | .String value => python_string_repr value
  | .Null => "None"
  | .Bool true => "True"
  | .Bool false => "False"
  | .Number text => python_number_text text
  | .Array values => "[" ++ ", ".intercalate (pythonReprs values) ++ "]"
  | .Object values => "\x7b" ++ ", ".intercalate (pythonMembers values) ++ "\x7d"

def pythonReprs : List Value → List String
  | [] => []
  | value :: values => python_repr value :: pythonReprs values
def pythonMembers : List (String × Value) → List String
  | [] => []
  | (key,value) :: values => (python_string_repr key ++ ": " ++ python_repr value) :: pythonMembers values

end

/-- The characters of a command that its quotes and backslashes leave. -/
def stripShellQuotes : Option Char → Bool → List Char → List Char
  | _, escaped, [] => if escaped then ['\\'] else []
  | quote, true, c :: command => c :: stripShellQuotes quote false command
  | quote, false, c :: command =>
    if c = '\\' ∧ quote ≠ some '\'' then stripShellQuotes quote true command
    else match quote with
      | some active_quote =>
        if c = active_quote then stripShellQuotes none false command
        else c :: stripShellQuotes quote false command
      | none =>
        if c = '\'' ∨ c = '"' then stripShellQuotes (some c) false command
        else c :: stripShellQuotes none false command

def strip_shell_quote_syntax (command : String) : String :=
  String.ofList (stripShellQuotes none false command.toList)

section Texts
variable (regex : Regexes)

/-- The assignments of a command go into a map: of two for one name the later counts. -/
def expand_shell_variable_literal_tokens (command : String) : String :=
  let assignments := (regex.shellAssignments command).reverse
  if assignments.isEmpty then command
  else command ++ "\n" ++ String.join ((regex.shellVariables command).map fun
    | .inl text => text
    | .inr (written,name) => (assignments.lookup name).getD written)

def shell_unspaced_token_view (command : String) : String :=
  "\n".intercalate ((lines '\n' '\r' command.toList).flatMap fun line =>
    let compact := line.filter (!is_whitespace ·)
    if compact ≠ line then [String.ofList line,String.ofList compact] else [String.ofList line])

def matchable_argument_value (tool_name argument : String) (value : Value) : String :=
  let text := python_argument_text value
  if tool_name = "run_bash" ∧ argument = "command" then
    let stripped := strip_shell_quote_syntax text
    stripped ++ "\n" ++ shell_unspaced_token_view (expand_shell_variable_literal_tokens regex stripped)
  else text

/-! ### Recursive removals -/

/-- Runs of characters that are no separator. -/
def split_whitespace (text : List Char) : List (List Char) := (text.splitOnP is_whitespace).filter (· ≠ [])

/-- Whether the options that follow ask for recursion and for force. -/
def removeOptions : Bool → Bool → List (List Char) → Bool × Bool
  | recursive, force, [] => (recursive,force)
  | recursive, force, option :: options =>
    match option with
    | ['-','-'] => (recursive,force)
    | ['-'] => removeOptions recursive force options
    | '-' :: '-' :: long =>
      let name := long.takeWhile (· != '=')
      removeOptions (recursive || eq_ignore_ascii_case name "recursive".toList)
        (force || eq_ignore_ascii_case name "force".toList) options
    | '-' :: short =>
      removeOptions (recursive || short.any (fun c => c.toLower == 'r')) (force ||
        short.any (fun c => c.toLower == 'f')) options
    | _ => removeOptions recursive force options

/-- What stands behind the last slash of either kind. -/
def executable (token : List Char) : List Char := (token.reverse.takeWhile fun c => c != '/' && c != '\\').reverse

def tokensHaveRecursiveForceRm : List (List Char) → Bool
  | [] => false
  | token :: tokens =>
    (eq_ignore_ascii_case (executable token) "rm".toList && removeOptions false false tokens == (true,true))
      || tokensHaveRecursiveForceRm tokens

def command_segment_has_recursive_force_rm (segment : List Char) : Bool :=
  tokensHaveRecursiveForceRm (split_whitespace segment)

def risky_recursive_remove_matches (call : ToolCall) : Bool :=
  call.name == "run_bash" &&
    match call.arguments.lookup "command" with
    | none => false
    | some command =>
      let stripped := strip_shell_quote_syntax (python_argument_text command)
      let expanded := expand_shell_variable_literal_tokens regex stripped
      (expanded.toList.splitOnP fun c => c == '\n' || c == ';' || c == '&' || c == '|').any
        command_segment_has_recursive_force_rm

end Texts

/-! ### Rules -/

structure ArgumentMatcher where
  argument : String
  source : String
deriving DecidableEq, Repr

inductive BuiltinMatcher where
  | RiskyRecursiveRemove
deriving DecidableEq, Repr

def PermissionEffect.as_str : PermissionEffect → String
  | .Allow => "allow"
  | .Ask => "ask"
  | .Deny => "deny"

/-- The fields of a rule; `PermissionRuleParts.rule` is the rule they make. -/
structure PermissionRuleParts where
  tool_pattern : String
  tool_matcher : List GlobToken
  argument_matchers : List ArgumentMatcher
  builtin_matcher : Option BuiltinMatcher
  effect : PermissionEffect

section Rules
variable (regex : Regexes)

def PermissionRuleParts.new (tool_pattern : String) (effect : PermissionEffect) :
    Except PermissionRuleError PermissionRuleParts :=
  if tool_pattern.isEmpty then .error .EmptyToolPattern
  else if !valid_policy_text tool_pattern MAX_TOOL_PATTERN_BYTES then .error .InvalidPolicyText
  else .ok ⟨tool_pattern,parse_fnmatch_pattern tool_pattern,[],none,effect⟩

/-- A pattern that may be handed to the regex library. -/
def validArgumentPattern (source : String) : Bool :=
  !source.isEmpty && source.utf8ByteSize ≤ MAX_ARGUMENT_PATTERN_BYTES && !source.toList.any is_control

def PermissionRuleParts.with_argument_pattern (rule : PermissionRuleParts) (argument source : String) :
    Except PermissionRuleError PermissionRuleParts :=
  if argument.isEmpty then .error .EmptyArgumentName
  else if !valid_policy_text argument MAX_ARGUMENT_NAME_BYTES then .error .InvalidPolicyText
  else if !validArgumentPattern source then .error .InvalidPolicyText
  else match regex.new source with
    | .error message => .error (.InvalidArgumentRegex argument message)
    | .ok () => .ok { rule with argument_matchers := rule.argument_matchers ++ [⟨argument,source⟩] }

def BuiltinMatcher.matches (matcher : BuiltinMatcher) (call : ToolCall) : Bool :=
  match matcher with
  | .RiskyRecursiveRemove => risky_recursive_remove_matches regex call

def PermissionRuleParts.matches (rule : PermissionRuleParts) (call : ToolCall) : Bool :=
  fnmatch_matches rule.tool_matcher call.name
    && rule.argument_matchers.all (fun matcher => (call.arguments.lookup matcher.argument).any fun value =>
      regex.is_match matcher.source (matchable_argument_value regex call.name matcher.argument value))
    && rule.builtin_matcher.all (·.matches regex call)

def PermissionRuleParts.description (rule : PermissionRuleParts) : String :=
  if rule.argument_matchers.isEmpty then rule.tool_pattern ++ " => " ++ rule.effect.as_str
  else rule.tool_pattern ++ "[" ++ ",".intercalate (rule.argument_matchers.map fun matcher =>
    matcher.argument ++ "~" ++ matcher.source)
    ++ "] => " ++ rule.effect.as_str

def PermissionRuleParts.rule (parts : PermissionRuleParts) : PermissionRule :=
  ⟨parts.matches regex,parts.effect,parts.description⟩
/-- `PermissionRule::new` where the source asks no more of a rule. -/
def PermissionRule.new (tool_pattern : String) (effect : PermissionEffect) :
    Except PermissionRuleError PermissionRule :=
  (PermissionRuleParts.new tool_pattern effect).map (·.rule regex)
def PermissionRule.risky_recursive_remove : Except PermissionRuleError PermissionRule := do
  let parts ← PermissionRuleParts.new "run_bash" .Ask
  return PermissionRuleParts.rule regex { parts with builtin_matcher := some .RiskyRecursiveRemove }

/-! ### Configured layers -/

/-- The arguments are those of a map, in the order of their names. -/
structure NativeToolPermissionRule where
  tool : String
  effect : PermissionEffect
  arguments : List (String × String)
deriving DecidableEq, Repr

structure NativeToolPermissionPolicy where
  default : PermissionEffect
  rules : List NativeToolPermissionRule
deriving DecidableEq, Repr

/-- One argument of a rule, with the bytes of all patterns so far. Each step adds at most a
    name and a pattern of bounded size to a sum of at most 16 KiB, so no addition saturates. -/
def compileArgument (state : Nat × PermissionRuleParts) (source : String × String) :
    Except PermissionRuleError (Nat × PermissionRuleParts) :=
  let (argument,pattern) := source
  if !valid_policy_text argument MAX_ARGUMENT_NAME_BYTES || !validArgumentPattern pattern then .error .InvalidPolicyText
  else
    let total_pattern_bytes := state.1 + argument.utf8ByteSize + pattern.utf8ByteSize
    if MAX_POLICY_PATTERN_BYTES < total_pattern_bytes then .error .PolicyTooLarge
    else (state.2.with_argument_pattern regex argument pattern).map fun rule => (total_pattern_bytes,rule)

def compileRule (state : Nat × List PermissionRule) (source : NativeToolPermissionRule) :
    Except PermissionRuleError (Nat × List PermissionRule) := do
  rejectIf (valid_policy_text source.tool MAX_TOOL_PATTERN_BYTES = false) .InvalidPolicyText
  rejectIf (MAX_ARGUMENT_MATCHERS_PER_RULE < source.arguments.length) .PolicyTooLarge
  let rule ← PermissionRuleParts.new source.tool source.effect
  let (total_pattern_bytes,rule) ← source.arguments.foldlM (compileArgument regex)
    (state.1 + source.tool.utf8ByteSize,rule)
  rejectIf (MAX_POLICY_PATTERN_BYTES < total_pattern_bytes) .PolicyTooLarge
  return (total_pattern_bytes,state.2 ++ [rule.rule regex])

def NativeToolPermissionPolicy.compile (policy : NativeToolPermissionPolicy) :
    Except PermissionRuleError PermissionRuleSet := do
  rejectIf (MAX_CONFIGURED_RULES < policy.rules.length) .PolicyTooLarge
  let (_,rules) ← policy.rules.foldlM (compileRule regex) (0,[])
  return ⟨rules,policy.default⟩

def NativeToolPermissionPolicy.validate (policy : NativeToolPermissionPolicy) : Except PermissionRuleError Unit :=
  (policy.compile regex).map fun _ => ()

namespace PermissionPolicy
def new (default_effect : PermissionEffect) : PermissionPolicy := ⟨[],[],[],default_effect⟩
def allow_by_default : PermissionPolicy := new .Allow
def deny_by_default : PermissionPolicy := new .Deny
def push_rule (policy : PermissionPolicy) (rule : PermissionRule) : PermissionPolicy :=
  { policy with rules := policy.rules ++ [rule] }
def push_floor_rule (policy : PermissionPolicy) (rule : PermissionRule) : Except PermissionRuleError PermissionPolicy :=
  if rule.effect ≠ .Deny then .error .FloorRuleMustDeny
  else .ok { policy with floor_rules := policy.floor_rules ++ [rule] }

def push_restriction (policy : PermissionPolicy) (source : NativeToolPermissionPolicy) :
    Except PermissionRuleError PermissionPolicy :=
  if MAX_NATIVE_TOOL_PERMISSION_LAYERS ≤ policy.restriction_layers.length then .error .PolicyTooLarge
  else (source.compile regex).map fun layer =>
    { policy with restriction_layers := policy.restriction_layers ++ [layer] }

end PermissionPolicy
end Rules

/-! ### What a policy decides -/

theorem restrictiveness_injective : Function.Injective PermissionEffect.restrictiveness := by
  intro effect other same
  cases effect <;> cases other <;> first | rfl | cases same
theorem restrictiveness_le_deny (effect : PermissionEffect) :
    effect.restrictiveness ≤ PermissionEffect.Deny.restrictiveness := by
  cases effect <;> decide
/-- The effect of the last rule that matches, or the default. -/
def lastDecision (rules : List PermissionRule) (default : PermissionEffect) (call : ToolCall) : PermissionEffect :=
  ((rules.filter (·.matches call)).getLast?.map (·.effect)).getD default
/-- One of the effects, and none of them restricts more. -/
def MostRestrictive (effects : List PermissionEffect) (effect : PermissionEffect) : Prop :=
  effect ∈ effects ∧ ∀ other ∈ effects, other.restrictiveness ≤ effect.restrictiveness

theorem lastMatch_rule (rules : List PermissionRule) (call : ToolCall) :
    (lastMatch rules call).map Prod.snd = (rules.filter (·.matches call)).getLast? := by
  have plain : rules.reverse = rules.zipIdx.reverse.map Prod.fst := by
    rw [map_reverse,zipIdx_map_fst]
  calc (lastMatch rules call).map Prod.snd
      = (rules.zipIdx.reverse.find? ((fun rule : PermissionRule => rule.matches call) ∘ Prod.fst)).map Prod.fst := by
        simp [lastMatch,Option.map_map,Function.comp_def]
    _ = rules.reverse.find? (·.matches call) := by rw [plain,find?_map]
    _ = (rules.filter (·.matches call)).getLast? := by
        rw [← head?_filter,filter_reverse,head?_reverse]

theorem lastMatch_isSome (rules : List PermissionRule) (call : ToolCall) :
    (lastMatch rules call).isSome = true ↔ ∃ rule ∈ rules, rule.matches call = true := by
  have known : (lastMatch rules call).isSome = ((lastMatch rules call).map Prod.snd).isSome := by rw [Option.isSome_map]
  rw [known,lastMatch_rule]
  simp [getLast?_isSome]

theorem rule_set_decides (layer : PermissionRuleSet) (call : ToolCall) :
    (layer.decide call).1 = lastDecision layer.rules layer.default_effect call := by
  unfold lastDecision PermissionRuleSet.decide
  rw [← lastMatch_rule]
  cases lastMatch layer.rules call <;> rfl

/-- The loop over the layers keeps the strictest effect that it has seen. -/
theorem restrict_folds (call : ToolCall) (layers : List PermissionRuleSet) (ruling : Ruling) :
    MostRestrictive (ruling.1 :: layers.map fun layer => (layer.decide call).1)
      (layers.foldl (restrict call) ruling).1 := by
  induction layers generalizing ruling with
  | nil => exact ⟨mem_singleton_self _, fun other member => by rw [mem_singleton.mp member]; rfl⟩
  | cons layer layers ih =>
    obtain ⟨among,strictest⟩ := ih (restrict call ruling layer)
    have cut : (restrict call ruling layer).1 = ruling.1 ∨ (restrict call ruling layer).1 = (layer.decide call).1 := by
      unfold restrict; split
      · exact .inr rfl
      · exact .inl rfl
    have above : ruling.1.restrictiveness ≤ (restrict call ruling layer).1.restrictiveness
        ∧ (layer.decide call).1.restrictiveness ≤ (restrict call ruling layer).1.restrictiveness := by
      unfold restrict; split <;> omega
    have top := strictest _ (mem_cons_self ..)
    constructor
    · rcases mem_cons.mp among with first | later
      · rw [foldl_cons,first]
        rcases cut with same | same <;> simp [same]
      · exact mem_cons_of_mem _ (mem_cons_of_mem _ later)
    · intro other member
      rcases mem_cons.mp member with rfl | member
      · exact above.1.trans top
      · rcases mem_cons.mp member with rfl | member
        · exact above.2.trans top
        · exact strictest other (mem_cons_of_mem _ member)

/-- The decisions of the base rules and of each layer. -/
def PermissionPolicy.decisions (policy : PermissionPolicy) (call : ToolCall) : List PermissionEffect :=
  lastDecision policy.rules policy.default_effect call
    :: policy.restriction_layers.map fun layer => lastDecision layer.rules layer.default_effect call

section Decisions
variable {policy : PermissionPolicy} {call : ToolCall} {context : ToolContext} {stricter : PermissionPolicy}

theorem floor_denies (floor : ∃ rule ∈ policy.floor_rules, rule.matches call = true) :
    (policy.decide call context).effect = .Deny := by
  obtain ⟨found,eq⟩ := Option.isSome_iff_exists.mp ((lastMatch_isSome _ _).mpr floor)
  simp [PermissionPolicy.decide,eq]

theorem strictest_decides (clear : ¬ ∃ rule ∈ policy.floor_rules, rule.matches call = true) :
    MostRestrictive (policy.decisions call) (policy.decide call context).effect := by
  have noneFound : lastMatch policy.floor_rules call = none := by
    cases eq : lastMatch policy.floor_rules call with
    | none => rfl
    | some _ => exact absurd ((lastMatch_isSome _ _).mp (by rw [eq]; rfl)) clear
  have folded := restrict_folds call policy.restriction_layers
    (PermissionRuleSet.decide ⟨policy.rules,policy.default_effect⟩ call)
  simp only [rule_set_decides] at folded
  simpa [PermissionPolicy.decide,noneFound,PermissionPolicy.decisions] using folded

theorem approval_only_for_ask (plan : (policy.decide call context).approval.isSome = true) :
    (policy.decide call context).effect = .Ask := by
  unfold PermissionPolicy.decide at plan ⊢
  by_contra other
  simp only [other,if_false] at plan
  cases plan

/-- A policy with at least the floor of another, one of whose decisions is as strict as each
    of the other's, decides at least as strictly. -/
theorem decides_more_strictly (floor : policy.floor_rules ⊆ stricter.floor_rules)
    (decisions : ∀ effect ∈ policy.decisions call,
      ∃ other ∈ stricter.decisions call, effect.restrictiveness ≤ other.restrictiveness) :
    (policy.decide call context).effect.restrictiveness ≤ (stricter.decide call context).effect.restrictiveness := by
  by_cases denied : ∃ rule ∈ stricter.floor_rules, rule.matches call = true
  · rw [floor_denies denied]
    exact restrictiveness_le_deny _
  · have clear : ¬ ∃ rule ∈ policy.floor_rules, rule.matches call = true :=
      fun ⟨rule,member,hit⟩ => denied ⟨rule,floor member,hit⟩
    obtain ⟨other,among,le⟩ := decisions _ (strictest_decides clear).1
    exact le.trans ((strictest_decides denied).2 other among)

theorem decides_more_strictly_of_subset (floor : policy.floor_rules ⊆ stricter.floor_rules)
    (decisions : policy.decisions call ⊆ stricter.decisions call) :
    (policy.decide call context).effect.restrictiveness ≤ (stricter.decide call context).effect.restrictiveness :=
  decides_more_strictly floor fun effect member => ⟨effect,decisions member,le_rfl⟩

end Decisions
variable {policy extended : PermissionPolicy}

theorem push_restriction_eq {regex : Regexes} {source : NativeToolPermissionPolicy}
    (pushed : policy.push_restriction regex source = .ok extended) :
    ∃ layer, source.compile regex = .ok layer
      ∧ extended = { policy with restriction_layers := policy.restriction_layers ++ [layer] } := by
  unfold PermissionPolicy.push_restriction at pushed
  split at pushed
  · cases pushed
  · cases compiled : source.compile regex with
    | error e => simp [compiled,Except.map] at pushed
    | ok layer =>
      simp only [compiled,Except.map,Except.ok.injEq] at pushed
      exact ⟨layer,rfl,pushed.symm⟩

theorem push_floor_rule_eq {rule : PermissionRule} (pushed : policy.push_floor_rule rule = .ok extended) :
    rule.effect = .Deny ∧ extended = { policy with floor_rules := policy.floor_rules ++ [rule] } := by
  unfold PermissionPolicy.push_floor_rule at pushed
  split at pushed
  · cases pushed
  · rename_i deny
    exact ⟨not_not.mp deny,(Except.ok.inj pushed).symm⟩

/-- The decision of a policy: a floor rule denies, otherwise the strictest of the base rules and the layers counts.
    Additions only make it stricter, and the order of the layers does not show in the effect. -/
theorem permission_decision (regex : Regexes) (policy : PermissionPolicy) (call : ToolCall) (context : ToolContext) :
    ((∃ rule ∈ policy.floor_rules, rule.matches call = true) → (policy.decide call context).effect = .Deny)
    ∧ ((¬ ∃ rule ∈ policy.floor_rules, rule.matches call = true) →
        MostRestrictive (lastDecision policy.rules policy.default_effect call
          :: policy.restriction_layers.map fun layer => lastDecision layer.rules layer.default_effect call)
          (policy.decide call context).effect)
    ∧ (∀ source extended, policy.push_restriction regex source = .ok extended →
        (policy.decide call context).effect.restrictiveness ≤ (extended.decide call context).effect.restrictiveness)
    ∧ (∀ rule extended, policy.push_floor_rule rule = .ok extended →
        (policy.decide call context).effect.restrictiveness ≤ (extended.decide call context).effect.restrictiveness)
    ∧ (∀ layers, layers.Perm policy.restriction_layers →
        (PermissionPolicy.decide { policy with restriction_layers := layers } call context).effect
          = (policy.decide call context).effect)
    ∧ ((policy.decide call context).approval.isSome = true → (policy.decide call context).effect = .Ask) := by
  refine ⟨floor_denies,strictest_decides,?_,?_,?_,approval_only_for_ask⟩
  · intro source extended pushed
    obtain ⟨layer,-,rfl⟩ := push_restriction_eq pushed
    refine decides_more_strictly_of_subset (List.Subset.refl _) (cons_subset_cons _ ?_)
    simp only [map_append]
    exact subset_append_left ..
  · intro rule extended pushed
    obtain ⟨-,rfl⟩ := push_floor_rule_eq pushed
    exact decides_more_strictly_of_subset (subset_append_left ..) (List.Subset.refl _)
  · intro layers same
    have moved : (PermissionPolicy.decisions
      { policy with restriction_layers := layers } call).Perm (policy.decisions call) :=
      (same.map _).cons _
    exact restrictiveness_injective (le_antisymm (decides_more_strictly_of_subset (List.Subset.refl _) moved.subset)
      (decides_more_strictly_of_subset (List.Subset.refl _) moved.symm.subset))

end Vyane.Native
