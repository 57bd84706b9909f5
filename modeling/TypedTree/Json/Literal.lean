import TypedTree.Json.Document

/-!
The strings and numbers of a JSON text. Each reader gets the characters from the literal on and returns
the characters behind it.
-/

namespace TypedTree.Json

/-- A part of a text that was looked at, and what follows it unless it is broken. -/
inductive Scan (α : Type) where
  | closed (found : α) (rest : List Char)
  | broken (breach : Breach)

/-- The character of a one-letter escape. -/
def plainEscape? (c : Char) : Option Char :=
  if c = '"' || c = '\\' || c = '/' then some c
  else if c = 'b' then some '\x08'
  else if c = 'f' then some '\x0c'
  else if c = 'n' then some '\n'
  else if c = 'r' then some '\r'
  else if c = 't' then some '\t'
  else none

def hexDigit? (c : Char) : Option Nat :=
  if '0' ≤ c ∧ c ≤ '9' then some (c.toNat - '0'.toNat)
  else if 'a' ≤ c ∧ c ≤ 'f' then some (c.toNat - 'a'.toNat + 10)
  else if 'A' ≤ c ∧ c ≤ 'F' then some (c.toNat - 'A'.toNat + 10)
  else none

def codeUnit? (digits : List Char) : Option Nat :=
  digits.foldl (fun value digit => do return 16 * (← value) + (← hexDigit? digit)) (some 0)

/-- What was read of a string: its characters from the last to the first, or why it has no text. A
first half of a surrogate pair waits for its second half. -/
structure PartialString where
  text : Except Fault (List Char)
  waiting : Option Nat

namespace PartialString

/-- A first half without its second half leaves the string without text. -/
def settle (read : PartialString) : Except Fault (List Char) :=
  match read.waiting with
  | none => read.text
  | some _ => read.text.bind fun _ => .error .missingSurrogate

def push (read : PartialString) (c : Char) : PartialString :=
  ⟨read.settle.map (c :: ·), none⟩

/-- Adds a UTF-16 unit. -/
def pushUnit (read : PartialString) (unit : Nat) : PartialString :=
  match read.waiting with
  | some lead =>
    if 0xDC00 ≤ unit ∧ unit ≤ 0xDFFF then
      let c := Char.ofNat (0x10000 + (lead - 0xD800) * 0x400 + (unit - 0xDC00))
      ⟨read.text.map (c :: ·), none⟩
    else ⟨read.text.bind fun _ => .error .loneSurrogate, none⟩
  | none =>
    if 0xDC00 ≤ unit ∧ unit ≤ 0xDFFF then ⟨read.text.bind fun _ => .error .loneSurrogate, none⟩
    else if 0xD800 ≤ unit ∧ unit ≤ 0xDBFF then ⟨read.text, some unit⟩
    else ⟨read.text.map (Char.ofNat unit :: ·), none⟩

/-- A fault behind the characters read so far; a reader of the text stops at an earlier one. -/
def breach (text : Except Fault (List Char)) (fault : Fault) : Breach :=
  match text with
  | .ok _ => fault.always
  | .error earlier => ⟨earlier, fault⟩

end PartialString

/-- Reads a string up to its closing quote. -/
def scanString (read : PartialString) : List Char → Scan (Except Fault String)
  | [] => .broken (PartialString.breach read.text .unfinishedString)
  | c :: rest =>
    if c = '"' then .closed (read.settle.map fun text => String.ofList text.reverse) rest
    else if c = '\\' then
      match rest with
      | [] => .broken (PartialString.breach read.text .unfinishedString)
      | letter :: rest =>
        if letter = 'u' then
          match rest with
          | a :: b :: c :: d :: rest =>
            match codeUnit? [a, b, c, d] with
            | some unit => scanString (read.pushUnit unit) rest
            | none => .broken (PartialString.breach read.text .invalidEscape)
          | short =>
            let fault :=
              if (String.ofList short).utf8ByteSize < 4 then .unfinishedString else .invalidEscape
            .broken (PartialString.breach read.text fault)
        else
          match plainEscape? letter with
          | some c => scanString (read.push c) rest
          | none => .broken (PartialString.breach read.settle .invalidEscape)
    else if c.toNat < 32 then .broken (PartialString.breach read.settle .controlCharacter)
    else scanString (read.push c) rest

def readString (text : List Char) : Scan (Except Fault String) := scanString ⟨.ok [], none⟩ text

structure Numeral where
  negative : Bool
  whole : List Char
  fraction : Option (List Char)
  exponent : Option (Bool × List Char)

private def unfinishedNumber (rest : List Char) : Breach :=
  if rest.isEmpty then ⟨.unfinishedValue, .invalidNumber⟩ else Fault.invalidNumber.always

private def scanExponent (rest : List Char) : Scan (Option (Bool × List Char)) :=
  match rest with
  | [] => .closed none []
  | mark :: behind =>
    if mark = 'e' ∨ mark = 'E' then
      let (negative, digits) :=
        match behind with
        | '+' :: digits => (false, digits)
        | '-' :: digits => (true, digits)
        | digits => (false, digits)
      if (digits.takeWhile Char.isDigit).isEmpty then .broken (unfinishedNumber digits)
      else .closed (some (negative, digits.takeWhile Char.isDigit)) (digits.dropWhile Char.isDigit)
    else .closed none rest

private def scanFraction (rest : List Char) : Scan (Option (List Char)) :=
  match rest with
  | '.' :: digits =>
    if (digits.takeWhile Char.isDigit).isEmpty then .broken (unfinishedNumber digits)
    else .closed (some (digits.takeWhile Char.isDigit)) (digits.dropWhile Char.isDigit)
  | rest => .closed none rest

/-- Reads the number at the start of a text. A zero is not followed by another digit. -/
def scanNumeral (text : List Char) : Scan Numeral :=
  let (negative, unsigned) :=
    match text with
    | '-' :: rest => (true, rest)
    | text => (false, text)
  let whole := unsigned.takeWhile Char.isDigit
  let rest := unsigned.dropWhile Char.isDigit
  if whole.isEmpty then .broken (unfinishedNumber rest)
  else if whole.head? = some '0' && 1 < whole.length then .broken Fault.invalidNumber.always
  else
    match scanFraction rest with
    | .broken breach => .broken breach
    | .closed fraction rest =>
      match scanExponent rest with
      | .broken breach => .broken breach
      | .closed exponent rest => .closed ⟨negative, whole, fraction, exponent⟩ rest

namespace Numeral

private def digitValue (c : Char) : Nat := c.toNat - '0'.toNat

/-- Takes in digits while the significand fits in 64 bits, and returns the digits that are left. -/
def absorb (significand : Nat) : List Char → Nat × List Char
  | [] => (significand, [])
  | digit :: rest =>
    let next := 10 * significand + digitValue digit
    if next < Nat.pow 2 64 then absorb next rest else (significand, digit :: rest)

/-- Divides by a power of ten, in steps of at most 10³⁰⁸. -/
def scaleDown (x : Float) (exponent : Nat) : Float :=
  if exponent ≤ 308 then x / Float.ofScientific 1 false exponent
  else if x == 0 then x
  else scaleDown (x / 1e308) (exponent - 308)
termination_by exponent
decreasing_by omega

/-- The significand as a floating point number, multiplied or divided by a power of ten. -/
def scale (significand : Nat) (exponent : Int) : Except Fault Float :=
  let x := (UInt64.ofNat significand).toFloat
  if exponent < 0 then .ok (scaleDown x exponent.natAbs)
  else if 308 < exponent then if significand = 0 then .ok x else .error .outOfRange
  else
    let scaled := x * Float.ofScientific 1 false exponent.natAbs
    if scaled.isInf then .error .outOfRange else .ok scaled

private def signed (numeral : Numeral) (x : Float) : Number :=
  .decimal (if numeral.negative then -x else x)

/-- The value of a number without fraction and exponent that fits in 64 bits is whole, except that
minus zero is not. -/
def value (numeral : Numeral) : Except Fault Number :=
  let (significand, left) := absorb 0 numeral.whole
  match numeral.fraction, numeral.exponent, left with
  | none, none, [] =>
    if !numeral.negative then .ok (.whole significand)
    else if significand = 0 ∨ Nat.pow 2 63 < significand then
      .ok (numeral.signed (UInt64.ofNat significand).toFloat)
    else .ok (.whole (-(significand : Int)))
  | fraction, exponent, left =>
    let digits := fraction.getD []
    let (significand, ignored) := absorb significand digits
    let start : Int := left.length - (digits.length - ignored.length : Nat)
    match exponent with
    | none => (scale significand start).map numeral.signed
    | some (negative, written) =>
      let size := written.foldl (fun value digit => 10 * value + digitValue digit) 0
      if Nat.pow 2 31 ≤ size then
        if significand ≠ 0 ∧ !negative then .error .outOfRange else .ok (numeral.signed 0)
      else (scale significand (start + if negative then -(size : Int) else size)).map numeral.signed

end Numeral

end TypedTree.Json
