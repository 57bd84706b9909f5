import TypedTree.Decimal.Shortest

/-! Data in the JSON notation, and the text of its numbers. Objects keep the order of their entries. -/

namespace TypedTree

namespace Json

/-- A number is whole if it was written without fraction and exponent and fits in 64 bits. -/
inductive Number where
  | whole (value : Int)
  | decimal (value : Float)

end Json

inductive Json where
  | null
  | bool (value : Bool)
  | number (value : Json.Number)
  | string (value : String)
  | array (items : List Json)
  | object (entries : List (String × Json))

namespace Json

instance : Inhabited Json := ⟨null⟩

instance : Coe String Json := ⟨string⟩
instance : Coe Bool Json := ⟨bool⟩

def nat (n : Nat) : Json := number (.whole n)

def optional : Option String → Json
  | some text => string text
  | none => null

def strings (texts : List String) : Json := array (texts.map string)

/-- The first entry with a key. -/
def entry? (key : String) : Json → Option Json
  | object entries => (entries.find? (·.1 = key)).map (·.2)
  | _ => none

/-- Numbers from 10⁻⁵ up to 10¹⁶ are positional and keep a digit behind the point; others have one digit
in front of it and an exponent with a sign. -/
def decimalText (x : Float) : String :=
  let sign := if x.toBits.toNat / Nat.pow 2 63 = 1 then "-" else ""
  let number := Decimal.shortest x
  let digits := Nat.toDigits 10 number.digits
  let point : Int := digits.length + number.exponent
  let zeros (n : Int) : List Char := List.replicate n.toNat '0'
  let magnitude : List Char :=
    if number.digits = 0 then ['0', '.', '0']
    else if 0 ≤ number.exponent ∧ point ≤ 16 then digits ++ zeros number.exponent ++ ['.', '0']
    else if 0 < point ∧ point ≤ 16 then
      digits.take point.toNat ++ ['.'] ++ digits.drop point.toNat
    else if -5 < point ∧ point ≤ 0 then ['0', '.'] ++ zeros (-point) ++ digits
    else
      let exponent := point - 1
      digits.take 1 ++ (if digits.length = 1 then [] else '.' :: digits.drop 1)
        ++ ['e', if exponent < 0 then '-' else '+'] ++ Nat.toDigits 10 exponent.natAbs
  sign ++ String.ofList magnitude

def Number.text : Number → String
  | whole value => toString value
  | decimal value => decimalText value

end Json

end TypedTree
