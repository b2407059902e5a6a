import Vyane.NetworkPolicy
import Vyane.Strs

/-!
The detail kept of a connector error (`runner.rs` of the quota crate): lines that assign a secret are left out, and with
them one line that continues it. The scan is compared line by line with one that follows each value to its end. Texts
are their bytes.
-/
namespace Vyane.Quota
open Networks Strs List

def MAX_CONNECTOR_ERROR_BYTES : Nat := 1024
abbrev Line : Type := Bytes
def newline : UInt8 := 0x0a
def doubleQuote : UInt8 := 0x22
def singleQuote : UInt8 := 0x27
def backslash : UInt8 := 0x5c

def lines (text : Bytes) : List Line := Text.lines newline 0x0d text

/-! ### Keys -/

def isSeparator (byte : UInt8) : Bool := byte == 0x3d || byte == 0x3a
/-- Blanks, tabs and the three quotes. -/
def is_key_padding (byte : UInt8) :
    Bool := byte == 0x20 || byte == 0x09 || byte == doubleQuote || byte == singleQuote || byte == 0x60
def is_ascii_alphanumeric (byte : UInt8) : Bool :=
  is_ascii_lowercase byte || is_ascii_uppercase byte || is_ascii_digit byte
/-- `_`, `-` and `.`. -/
def isKeyJoint (byte : UInt8) : Bool := byte == 0x5f || byte == hyphen || byte == dot
def is_key_byte (byte : UInt8) : Bool := is_ascii_alphanumeric byte || isKeyJoint byte
def is_exact_secret_name (name : Bytes) : Bool :=
  eq_ignore_ascii_case name (bytesOf "token") || eq_ignore_ascii_case name (bytesOf "password")

def camelSuffix (name suffix : Bytes) : Bool :=
  let stem := name.take (name.length - suffix.length)
  let tail := name.drop (name.length - suffix.length)
  suffix.length < name.length && eq_ignore_ascii_case tail suffix &&
    stem.getLast?.any (fun boundary => is_ascii_lowercase boundary || is_ascii_digit boundary) &&
      tail.head?.any is_ascii_uppercase
def camel_secret_suffix (name : Bytes) : Bool :=
  camelSuffix name (bytesOf "token") || camelSuffix name (bytesOf "password")
/-- `trim_matches` on both sides. -/
def trimJoints (key : Bytes) : Bytes := ((key.dropWhile isKeyJoint).reverse.dropWhile isKeyJoint).reverse
/-- `rsplit(..).next()`: what follows the last joint. -/
def lastName (key : Bytes) : Bytes := (key.reverse.takeWhile (!isKeyJoint ·)).reverse
def key_names_token_or_password (key : Bytes) : Bool :=
  let key := trimJoints key
  !key.isEmpty && (is_exact_secret_name (lastName key) || camel_secret_suffix (lastName key))
/-- The key that ends, but for padding, where the separator stands; its bytes are always text. -/
def keyBefore (before : Bytes) : Bytes := ((before.reverse.dropWhile is_key_padding).takeWhile is_key_byte).reverse
def key_before_separator_is_token_or_password (before : Bytes) : Bool :=
  !(keyBefore before).isEmpty && key_names_token_or_password (keyBefore before)

/-! ### Lines -/

/-- Every separator of a line, as what stands before and behind it. -/
def separators (before : Bytes) : Line → List (Bytes × Bytes)
  | [] => []
  | byte :: rest => (if isSeparator byte then [(before,rest)] else []) ++ separators (before ++ [byte]) rest
def line_assigns_token_or_password (line : Line) : Bool :=
  (separators [] line).any fun (before,_) => key_before_separator_is_token_or_password before
def line_has_assignment_separator (line : Line) : Bool := line.any isSeparator

/-- The loop over the bytes: whether the next byte is escaped, and whether the count is odd so far. -/
def oddQuotes (quote : UInt8) : Bool → Bool → Bytes → Bool
  | _, odd, [] => odd
  | true, odd, _ :: rest => oddQuotes quote false odd rest
  | false, odd, byte :: rest =>
    if byte = backslash then oddQuotes quote true odd rest
    else oddQuotes quote false (if byte = quote then !odd else odd) rest
def unescaped_quote_is_odd (raw : Bytes) (quote : UInt8) : Bool := oddQuotes quote false false raw
def isBlankByte (byte : UInt8) : Bool := byte == 0x20 || byte == 0x09

/-- What stands behind a separator is empty, or a quoted value that is left open. -/
def valueContinues (after : Bytes) : Bool :=
  match after.dropWhile isBlankByte with
  | [] => true
  | quote :: rest => (quote == doubleQuote || quote == singleQuote) && unescaped_quote_is_odd (quote :: rest) quote

def secret_value_continues (line : Line) : Bool :=
  (separators [] line).any fun (before,after) => key_before_separator_is_token_or_password before &&
    valueContinues after

def pushLine (kept : Bytes) (line : Line) : Bytes := (if kept.isEmpty then kept else kept ++ [newline]) ++ line

/-- The loop over the lines. -/
def boundLoop (kept : Bytes) (drop_bare_continuation : Bool) : List Line → Bytes
  | [] => kept
  | line :: rest =>
    if drop_bare_continuation && !line_has_assignment_separator line then boundLoop kept false rest
    else if line_assigns_token_or_password line then boundLoop kept (secret_value_continues line) rest
    else boundLoop (pushLine kept line) false rest

/-- The last boundary of a character that is not behind an offset. -/
def boundaryBefore (value : Bytes) : Nat → Nat
  | 0 => 0
  | stop + 1 => if (value[stop + 1]?).all leading then stop + 1 else boundaryBefore value stop
def truncate_to_bytes (value : Bytes) (max_bytes : Nat) : Bytes :=
  if value.length ≤ max_bytes then value else value.take (boundaryBefore value max_bytes)
def bound_connector_error (detail : Bytes) : Bytes :=
  truncate_to_bytes (boundLoop [] false (lines detail)) MAX_CONNECTOR_ERROR_BYTES

/-! ### Values that are followed to their end -/

/-- An unescaped quote of this kind. -/
def closes (quote : UInt8) : Bool → Bytes → Bool
  | _, [] => false
  | true, _ :: rest => closes quote false rest
  | false, byte :: rest => if byte = backslash then closes quote true rest else byte == quote || closes quote false rest

/-- The values of a line behind keys for a token or a password. -/
def secretValues (line : Line) : List Bytes :=
  ((separators [] line).filter fun (before,_) => key_before_separator_is_token_or_password before).map fun (_,after) =>
    after.dropWhile isBlankByte
/-- The quote that opens a value and is not closed on its line. -/
def unclosed : Bytes → Option UInt8
  | [] => none
  | quote :: rest => if (quote == doubleQuote ||
      quote == singleQuote) && !closes quote false rest then some quote else none
/-- What is still to come of secret values: the quotes that are open, and whether a value was empty. -/
structure Pending where
  quotes : Bytes
  empty : Bool
deriving DecidableEq

def isBlank (line : Line) : Bool := line.all isBlankByte
/-- A bare line continues a secret value. -/
def Pending.continued (pending : Pending) (line : Line) : Bool :=
  !pending.quotes.isEmpty || pending.empty && !isBlank line
/-- What is still to come after a line: it may close quotes, and its own secret values may be open or empty. -/
def Pending.after (pending : Pending) (line : Line) : Pending :=
  ⟨(pending.quotes.filter fun quote => !closes quote false line) ++ (secretValues line).filterMap unclosed,
    pending.empty && isBlank line || (secretValues line).any isEmpty⟩
def pendingAfter (before : List Line) : Pending := before.foldl Pending.after ⟨[],false⟩

/-- The line assigns a token or a password, or is bare and continues such a value. -/
def isSecret (pending : Pending) (line : Line) : Bool :=
  line_assigns_token_or_password line || !line_has_assignment_separator line && pending.continued line
/-- The lines that are not secret. -/
def visible (pending : Pending) : List Line → List Line
  | [] => []
  | line :: rest =>
      if isSecret pending line then visible (pending.after line) rest else line :: visible (pending.after line) rest

/-- The line is left out by the loop, by what the line before it was. -/
def isDropped (before : Option Line) (line : Line) : Bool :=
  line_assigns_token_or_password line || !line_has_assignment_separator line && before.any secret_value_continues
/-- The lines that the loop keeps. -/
def keptLines (before : Option Line) : List Line → List Line
  | [] => []
  | line :: rest => if isDropped before line then keptLines (some line) rest else line :: keptLines (some line) rest

/-- A bare line continues a secret value just if it stands right behind a line that assigns one which is empty or has an
    odd number of its quotes. -/
def Short (detail : List Line) : Prop :=
  ∀ before line rest, detail = before ++ line :: rest → line_has_assignment_separator line = false →
    ((pendingAfter before).continued line = true ↔ before.getLast?.any secret_value_continues = true)

/-! ### The two scans -/

theorem bare_separators {line : Line} (bare : line.any isSeparator = false) (before : Bytes) :
    separators before line = [] := by
  induction line generalizing before with
  | nil => rfl
  | cons byte rest ih =>
    rw [any_cons,Bool.or_eq_false_iff] at bare
    rw [separators,bare.1,ih bare.2]
    rfl

/-- A line that assigns no secret leaves none open. -/
theorem continues_assigns {line : Line} (other : line_assigns_token_or_password line = false) :
    secret_value_continues line = false := by
  rw [line_assigns_token_or_password,any_eq_false] at other
  rw [secret_value_continues,any_eq_false]
  intro separator member both
  exact other separator member (Bool.and_eq_true_iff.mp both).1

theorem boundLoop_kept (rest : List Line) : ∀ (kept : Bytes) (before : Option Line),
    boundLoop kept (before.any secret_value_continues) rest = (keptLines before rest).foldl pushLine kept := by
  induction rest with
  | nil => exact fun _ _ => rfl
  | cons line rest ih =>
    intro kept before
    have later := fun kept => ih kept (some line)
    rw [boundLoop,keptLines,isDropped]
    cases assigns : line_assigns_token_or_password line with
    | true =>
      have separated : line_has_assignment_separator line = true := by
        by_contra bare
        rw [line_assigns_token_or_password,
          bare_separators (by simpa [line_has_assignment_separator] using bare)] at assigns
        cases assigns
      simpa [separated] using later kept
    | false =>
      have closed := continues_assigns assigns
      simp only [Option.any_some,closed] at later
      by_cases dropped : (before.any secret_value_continues && !line_has_assignment_separator line) = true
      · rw [if_pos dropped,later,Bool.false_or,Bool.and_comm,if_pos dropped]
      · rw [if_neg dropped,if_neg (by decide),later,Bool.false_or,Bool.and_comm,if_neg dropped,foldl_cons]

/-- Both scans mark the same lines just if the detail is short. -/
theorem marks_agree_iff (detail : List Line) : Short detail ↔
    ∀ before line rest, detail = before ++ line :: rest → isDropped before.getLast? line = isSecret
      (pendingAfter before) line := by
  refine forall_congr' fun before => forall_congr' fun line => forall_congr' fun rest => imp_congr_right fun _ => ?_
  rw [isDropped,isSecret]
  cases bare : line_has_assignment_separator line with
  | true => simp
  | false =>
    have other : line_assigns_token_or_password line = false := by
      rw [line_assigns_token_or_password,bare_separators bare]
      rfl
    rw [other,Bool.eq_iff_iff,eq_comm]
    simp [iff_comm]

theorem kept_visible (rest : List Line) : ∀ before : List Line, (∀ first line more, rest = first ++ line :: more →
      isDropped (before ++ first).getLast? line = isSecret (pendingAfter (before ++ first)) line) →
    keptLines before.getLast? rest = visible (pendingAfter before) rest := by
  induction rest with
  | nil => exact fun _ _ => rfl
  | cons line rest ih =>
    intro before agree
    have here := agree [] line rest rfl
    have later := ih (before ++ [line]) fun first next more split => by
      rw [append_assoc]
      exact agree (line :: first) next more (by rw [split]; rfl)
    rw [getLast?_concat,pendingAfter,foldl_concat] at later
    rw [append_nil] at here
    rw [keptLines,visible,here,later]
    rfl

/-- What is kept is the text of the lines that the loop keeps, cut to the limit. It leaves out the secret lines, and
    those only, if and only if the detail is short; two short details with the same other lines keep the same text. -/
theorem short_detail_hides_secrets (detail : Bytes) :
    bound_connector_error detail = truncate_to_bytes
      ((keptLines none (lines detail)).foldl pushLine []) MAX_CONNECTOR_ERROR_BYTES ∧
    (Short (lines detail) ↔ ∀ before line rest, lines detail = before ++ line :: rest →
      isDropped before.getLast? line = isSecret (pendingAfter before) line) ∧
    (Short (lines detail) → keptLines none (lines detail) = visible (pendingAfter []) (lines detail) ∧
      ∀ other, Short (lines other) →
        visible (pendingAfter []) (lines other) = visible (pendingAfter []) (lines detail) →
        bound_connector_error other = bound_connector_error detail) := by
  have text : ∀ text, bound_connector_error text =
    truncate_to_bytes ((keptLines none (lines text)).foldl pushLine []) MAX_CONNECTOR_ERROR_BYTES :=
    fun text => congrArg (truncate_to_bytes · _) (boundLoop_kept (lines text) [] none)
  have kept : ∀ {text}, Short (lines text) → keptLines none (lines text) = visible (pendingAfter []) (lines text) :=
    fun short => kept_visible _ [] ((marks_agree_iff _).mp short)
  refine ⟨text detail,marks_agree_iff _,fun short => ⟨kept short,fun other shortToo same => ?_⟩⟩
  rw [text,text,kept short,kept shortToo,same]

/-- A value that is closed on the next line, in a detail with two other lines. -/
def closedValue : Bytes := bytesOf "a\ntoken = \"b\nc\"\nd"

theorem closed_value_is_hidden : Short (lines closedValue) ∧ keptLines none (lines closedValue) =
    [bytesOf "a",bytesOf "d"] ∧
    keptLines none (lines closedValue) = visible (pendingAfter []) (lines closedValue) := by
  have short : Short (lines closedValue) := by
    rw [marks_agree_iff,show lines closedValue = [bytesOf "a",bytesOf "token = \"b",bytesOf "c\"",
      bytesOf "d"] by decide +kernel]
    intro before line rest split
    rcases before with _ | ⟨_,_ | ⟨_,_ | ⟨_,_ | ⟨_,_⟩⟩⟩⟩ <;>
      simp only [nil_append,cons_append,cons.injEq,nil_eq,append_eq_nil_iff,cons_ne_nil,and_false] at split
    · obtain ⟨rfl,-⟩ := split
      decide +kernel
    · obtain ⟨rfl,rfl,-⟩ := split
      decide +kernel
    · obtain ⟨rfl,rfl,rfl,-⟩ := split
      decide +kernel
    · obtain ⟨rfl,rfl,rfl,rfl,-⟩ := split
      decide +kernel
  exact ⟨short,by decide +kernel,((short_detail_hides_secrets _).2.2 short).1⟩

/-- The second line behind an open quote is kept, also where a line with a separator stands between, and so is the value
    behind a blank line. -/
theorem long_value_is_kept :
    (visible (pendingAfter []) (lines (bytesOf "token = \"a\nb\nc\"")) = [] ∧
      visible (pendingAfter []) (lines (bytesOf "token = \"a\"")) = [] ∧
      bound_connector_error (bytesOf "token = \"a\nb\nc\"") = bytesOf "c\"" ∧
        bound_connector_error (bytesOf "token = \"a\"") = []) ∧
    (visible (pendingAfter []) (lines (bytesOf "token = \"a\nd:e\nf\"")) = [bytesOf "d:e"] ∧
      bound_connector_error (bytesOf "token = \"a\nd:e\nf\"") = bytesOf "d:e\nf\"") ∧
    visible (pendingAfter []) (lines (bytesOf "token =\n\na")) = [[]] ∧ bound_connector_error
      (bytesOf "token =\n\na") = bytesOf "a" := by
  decide +kernel

end Vyane.Quota
