/-! Qualified class names. A nested class keeps one name for each class around it. -/

namespace TypedTree.Java

structure ClassName where
  package : String
  /-- From the outermost class to the class itself. -/
  names : List String
deriving DecidableEq, Repr, Inhabited

namespace ClassName

def topLevel (package name : String) : ClassName := ⟨package, [name]⟩

/-- The part behind the last dot is the name, and the part before it the package. -/
def ofQualified (text : String) : ClassName :=
  let backwards := text.toList.reverse
  let name := backwards.takeWhile (· ≠ '.')
  let package := (backwards.dropWhile (· ≠ '.')).drop 1
  topLevel (String.ofList package.reverse) (String.ofList name.reverse)

def nested (outer : ClassName) (name : String) : ClassName :=
  { outer with names := outer.names ++ [name] }

theorem nested_inj {outer other : ClassName} {name otherName : String} :
    outer.nested name = other.nested otherName ↔ outer = other ∧ name = otherName := by
  refine ⟨fun same => ?_, fun both => by rw [both.1, both.2]⟩
  obtain ⟨package, names⟩ := ClassName.mk.inj same
  obtain ⟨around, last⟩ := List.append_inj' names rfl
  obtain ⟨_, _⟩ := outer
  obtain ⟨_, _⟩ := other
  cases package
  cases around
  exact ⟨rfl, (List.cons.inj last).1⟩

theorem nested_ne_topLevel {outer : ClassName} (around : outer.names ≠ []) (name package topName : String) :
    outer.nested name ≠ topLevel package topName := by
  intro same
  have names : outer.names ++ [name] = [] ++ [topName] := congrArg ClassName.names same
  exact around (List.append_inj' names rfl).1

def simpleName (className : ClassName) : String := className.names.getLast?.getD ""

def enclosing? (className : ClassName) : Option ClassName :=
  if className.names.length < 2 then none else some { className with names := className.names.dropLast }

/-- The name with a mark between a class and the classes nested in it. -/
def chars (mark : Char) (className : ClassName) : List Char :=
  (if className.package.isEmpty then [] else className.package.toList ++ ['.'])
    ++ [mark].intercalate (className.names.map String.toList)

def text (className : ClassName) : String := String.ofList (className.chars '.')

/-- The enclosing classes, the nearest one first. -/
def enclosings (className : ClassName) : List ClassName :=
  (List.range (className.names.length - 1)).map fun n =>
    { className with names := className.names.take (className.names.length - 1 - n) }

end ClassName

end TypedTree.Java
