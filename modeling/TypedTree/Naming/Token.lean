import TypedTree.Error
import TypedTree.Text.LetterCase

/-!
Names for the constants of tokens. A table may name tokens for a parent type and a field, for all fields
of a parent, for a field of all parents, or everywhere; other tokens are named after their text.
-/

namespace TypedTree.Naming

/-- The words of the Unicode name of a printable ASCII character that is neither letter nor digit. -/
def symbolName? (c : Char) : Option String :=
  match c with
  | ' ' => some "SPACE"
  | '!' => some "EXCLAMATION_MARK"
  | '"' => some "QUOTATION_MARK"
  | '#' => some "NUMBER_SIGN"
  | '$' => some "DOLLAR_SIGN"
  | '%' => some "PERCENT_SIGN"
  | '&' => some "AMPERSAND"
  | '\'' => some "APOSTROPHE"
  | '(' => some "LEFT_PARENTHESIS"
  | ')' => some "RIGHT_PARENTHESIS"
  | '*' => some "ASTERISK"
  | '+' => some "PLUS_SIGN"
  | ',' => some "COMMA"
  | '-' => some "HYPHEN_MINUS"
  | '.' => some "FULL_STOP"
  | '/' => some "SOLIDUS"
  | ':' => some "COLON"
  | ';' => some "SEMICOLON"
  | '<' => some "LESS_THAN_SIGN"
  | '=' => some "EQUALS_SIGN"
  | '>' => some "GREATER_THAN_SIGN"
  | '?' => some "QUESTION_MARK"
  | '@' => some "COMMERCIAL_AT"
  | '[' => some "LEFT_SQUARE_BRACKET"
  | '\\' => some "REVERSE_SOLIDUS"
  | ']' => some "RIGHT_SQUARE_BRACKET"
  | '^' => some "CIRCUMFLEX_ACCENT"
  | '_' => some "LOW_LINE"
  | '\x60' => some "GRAVE_ACCENT"
  | '\x7b' => some "LEFT_CURLY_BRACKET"
  | '|' => some "VERTICAL_LINE"
  | '\x7d' => some "RIGHT_CURLY_BRACKET"
  | '~' => some "TILDE"
  | _ => none

def digitNames : List String :=
  ["ZERO", "ONE", "TWO", "THREE", "FOUR", "FIVE", "SIX", "SEVEN", "EIGHT", "NINE"]

/-- The Unicode name of a printable ASCII character, with underscores between its words. -/
def characterName? (c : Char) : Option String :=
  if c.isDigit then (digitNames[c.toNat - '0'.toNat]?).map ("DIGIT_" ++ ·)
  else if c.isUpper then some ("LATIN_CAPITAL_LETTER_" ++ String.ofList [c])
  else if c.isLower then some ("LATIN_SMALL_LETTER_" ++ String.ofList [c.toUpper])
  else symbolName? c

/-- Letters and blanks that are not all blanks. -/
def isWordy (token : List Char) : Bool :=
  token.all (fun c => Text.isBlank c || c.isAlpha) && !token.all Text.isBlank

/-- Words are written in upper case; what else has no name of its own is numbered. -/
def wordsName (token : List Char) (index : Nat) : String :=
  if isWordy token then
    String.ofList (token.map fun c => if Text.isBlank c then '_' else c.toUpper)
  else s!"TOKEN_{index}"

/-- The name of a token that no table names, the `index`-th of its slot. -/
def defaultTokenName (token : String) (index : Nat) : String :=
  match token.toList with
  | [c] => (characterName? c).getD (wordsName [c] index)
  | chars => wordsName chars index

/-- Names of tokens by parent type, field and token text. -/
abbrev TokenTable := Table String (Table String (Table String String))

/-- How the tokens of a grammar are named. An exhaustive table must name all of them. -/
structure TokenNames where
  table : TokenTable
  exhaustive : Bool
deriving DecidableEq

namespace TokenNames

def automatic : TokenNames := ⟨.empty, false⟩

def entry? (names : TokenNames) (parent field token : String) : Option String := do
  let fields ← names.table.get? parent
  let tokens ← fields.get? field
  tokens.get? token

/-- Looks for the parent before any parent, and for the field before any field. -/
def lookup? (names : TokenNames) (use : TokenUse) : Option String :=
  [(use.parent, use.field), (use.parent, anyKey), (anyKey, use.field), (anyKey, anyKey)].findSome?
    fun (parent, field) => names.entry? parent field use.token

/-- The name of a token, the `index`-th of its slot. -/
def name (names : TokenNames) (use : TokenUse) (index : Nat) : Except Error String :=
  match names.lookup? use with
  | some name => .ok name
  | none =>
    if names.exhaustive then .error (.unmappedTokens [use])
    else .ok (defaultTokenName use.token index)

/-- The uses without entry, each at its first occurrence. -/
def unmapped (names : TokenNames) (uses : List TokenUse) : List TokenUse :=
  Distinct.ofList (uses.filter fun use => (names.lookup? use).isNone)

def validate (names : TokenNames) (uses : List TokenUse) : Except Error Unit :=
  if names.exhaustive ∧ names.unmapped uses ≠ [] then .error (.unmappedTokens (names.unmapped uses))
  else .ok ()

end TokenNames

/-- The tokens of a grammar with their default names, numbered within each slot. -/
def skeleton (grammar : Grammar) : TokenTable :=
  grammar.tokenUses.foldl (fun (table : TokenTable) use =>
    table.update use.parent fun fields =>
      (fields.getD .empty).update use.field fun tokens =>
        let tokens := tokens.getD .empty
        tokens.insert use.token (defaultTokenName use.token tokens.size)) .empty

/-- Adds the entries of another table; they win over those that are present. -/
def mergeTables (table other : TokenTable) : TokenTable :=
  other.entries.foldl (fun table (parent, fields) =>
    table.update parent fun present =>
      fields.entries.foldl (fun present (field, tokens) =>
        present.update field fun names => (names.getD .empty).append tokens)
        (present.getD .empty)) table

end TypedTree.Naming
