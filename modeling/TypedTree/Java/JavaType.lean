import TypedTree.Java.ClassName

/-!
Java types with their annotations. Types are equal if they are built the same way from the same names
and annotations; the annotations of an array belong to its outermost dimension.
-/

namespace TypedTree.Java

inductive Primitive where
  | boolean
  | byte
  | char
  | short
  | int
  | long
  | float
  | double
deriving DecidableEq, Repr, Inhabited

namespace Primitive

def all : List Primitive := [boolean, byte, char, short, int, long, float, double]

def keyword : Primitive → String
  | boolean => "boolean"
  | byte => "byte"
  | char => "char"
  | short => "short"
  | int => "int"
  | long => "long"
  | float => "float"
  | double => "double"

def ofKeyword? (word : String) : Option Primitive := all.find? (·.keyword = word)

end Primitive

inductive JavaType where
  | primitive (annotations : List ClassName) (kind : Primitive)
  | classType (annotations : List ClassName) (name : ClassName)
  | parameterized (annotations : List ClassName) (raw : ClassName) (arguments : List JavaType)
  | array (annotations : List ClassName) (element : JavaType)
  | wildcard (annotations : List ClassName)
  | wildcardExtends (annotations : List ClassName) (bound : JavaType)
  | wildcardSuper (annotations : List ClassName) (bound : JavaType)
  | typeVariable (annotations : List ClassName) (name : String)
deriving Repr, Inhabited

namespace JavaType

mutual

/-- Structural equality as a test. -/
def same : JavaType → JavaType → Bool
  | primitive as p, primitive bs q => decide (as = bs) && decide (p = q)
  | classType as c, classType bs d => decide (as = bs) && decide (c = d)
  | parameterized as c ts, parameterized bs d us => decide (as = bs) && decide (c = d) && sameAll ts us
  | array as t, array bs u => decide (as = bs) && same t u
  | wildcard as, wildcard bs => decide (as = bs)
  | wildcardExtends as t, wildcardExtends bs u => decide (as = bs) && same t u
  | wildcardSuper as t, wildcardSuper bs u => decide (as = bs) && same t u
  | typeVariable as n, typeVariable bs m => decide (as = bs) && decide (n = m)
  | _, _ => false

def sameAll : List JavaType → List JavaType → Bool
  | [], [] => true
  | t :: ts, u :: us => same t u && sameAll ts us
  | _, _ => false

end

mutual

theorem same_iff (t u : JavaType) : same t u = true ↔ t = u := by
  cases t <;> cases u <;> simp [same, same_iff, sameAll_iff, and_assoc]

theorem sameAll_iff (ts us : List JavaType) : sameAll ts us = true ↔ ts = us := by
  cases ts <;> cases us <;> simp [sameAll, same_iff, sameAll_iff]

end

instance : DecidableEq JavaType := fun t u => decidable_of_iff _ (same_iff t u)

def annotations : JavaType → List ClassName
  | primitive as _ => as
  | classType as _ => as
  | parameterized as _ _ => as
  | array as _ => as
  | wildcard as => as
  | wildcardExtends as _ => as
  | wildcardSuper as _ => as
  | typeVariable as _ => as

def mapAnnotations (f : List ClassName → List ClassName) : JavaType → JavaType
  | primitive as p => primitive (f as) p
  | classType as c => classType (f as) c
  | parameterized as c ts => parameterized (f as) c ts
  | array as t => array (f as) t
  | wildcard as => wildcard (f as)
  | wildcardExtends as t => wildcardExtends (f as) t
  | wildcardSuper as t => wildcardSuper (f as) t
  | typeVariable as n => typeVariable (f as) n

/-- The type with more annotations behind its own. -/
def annotate (more : List ClassName) (t : JavaType) : JavaType := t.mapAnnotations (· ++ more)

/-- The type without its own annotations; those of its parts stay. -/
def bare (t : JavaType) : JavaType := t.mapAnnotations fun _ => []

def ofClass (name : ClassName) : JavaType := classType [] name

def annotationChars (mark : Char) (annotations : List ClassName) : List Char :=
  annotations.flatMap fun label => ['@'] ++ label.chars mark ++ [' ']

/-- The brackets of one dimension, and its annotations before them. -/
def dimensionChars (mark : Char) (annotations : List ClassName) : List Char :=
  if annotations.isEmpty then ['[', ']']
  else annotations.flatMap (fun label => [' ', '@'] ++ label.chars mark) ++ [' ', '[', ']']

mutual

/-- The Java notation of a type, followed by the dimensions of the arrays around it. The outermost
dimension comes first. -/
def charsBefore (mark : Char) : JavaType → List Char → List Char
  | primitive as p, dimensions => annotationChars mark as ++ p.keyword.toList ++ dimensions
  | classType as c, dimensions => annotationChars mark as ++ c.chars mark ++ dimensions
  | parameterized as c ts, dimensions =>
    annotationChars mark as ++ c.chars mark ++ ['<'] ++ argumentChars mark ts ++ ['>'] ++ dimensions
  | array as t, dimensions => charsBefore mark t (dimensions ++ dimensionChars mark as)
  | wildcard as, dimensions => annotationChars mark as ++ ['?'] ++ dimensions
  | wildcardExtends as t, dimensions =>
    annotationChars mark as ++ "? extends ".toList ++ charsBefore mark t [] ++ dimensions
  | wildcardSuper as t, dimensions =>
    annotationChars mark as ++ "? super ".toList ++ charsBefore mark t [] ++ dimensions
  | typeVariable as n, dimensions => annotationChars mark as ++ n.toList ++ dimensions

def argumentChars (mark : Char) : List JavaType → List Char
  | [] => []
  | [t] => charsBefore mark t []
  | t :: ts => charsBefore mark t [] ++ [',', ' '] ++ argumentChars mark ts

end

/-- The notation with a mark between a class and the classes nested in it. -/
def chars (mark : Char) (t : JavaType) : List Char := t.charsBefore mark []

def text (t : JavaType) : String := String.ofList (t.chars '.')

end JavaType

end TypedTree.Java
