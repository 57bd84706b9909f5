import TypedTree.Text.LetterCase

/-!
Java spellings of grammar names. Grammar names are words joined by underscores, some of them with an
underscore in front, and now and then in camel case already.
-/

namespace TypedTree.Naming

/-- Drops each underscore and writes the character behind it in upper case. -/
def camelCase : List Char → List Char
  | [] => []
  | '_' :: [] => []
  | '_' :: next :: rest => Text.upper next ++ camelCase rest
  | c :: rest => c :: camelCase rest

def upperFirst : List Char → List Char
  | [] => []
  | first :: rest => Text.upper first ++ rest

/-- Inserts an underscore where a lower case letter is followed by something else. An underscore or
hyphen at this place is replaced by it, and the character behind that is not looked at. -/
def splitWords : Bool → List Char → List Char
  | _, [] => []
  | afterLower, c :: rest =>
    if afterLower && !Text.isLowerCase c then
      if c = '_' || c = '-' then
        match rest with
        | [] => ['_']
        | next :: rest => '_' :: next :: splitWords false rest
      else '_' :: c :: splitWords false rest
    else c :: splitWords (Text.isLowerCase c) rest

/-- `firstSecond` and `first_second` become `FIRST_SECOND`. -/
def constantCase (name : List Char) : List Char := Text.upperCase (splitWords false name)

/-- Camel case with a capital first letter, without the underscore of a hidden type. -/
def typeCase (name : List Char) : List Char :=
  upperFirst (camelCase (match name with | '_' :: rest => rest | name => name))

def spell (spelling : List Char → List Char) (name : String) : String :=
  String.ofList (spelling name.toList)

end TypedTree.Naming
