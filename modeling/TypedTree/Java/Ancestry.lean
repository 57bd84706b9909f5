import TypedTree.Java.ClassName
import TypedTree.Table

/-!
What is known about the supertypes of classes. Several ancestries can be asked in turn; the first one that
knows a class answers for it.
-/

namespace TypedTree.Java

structure Ancestry where
  /-- Absent if no class can be known. -/
  source : Option (ClassName → Option (List ClassName))

namespace Ancestry

def empty : Ancestry := ⟨none⟩

instance : Inhabited Ancestry := ⟨empty⟩

def ofTable (table : Table ClassName (List ClassName)) : Ancestry := ⟨some table.get?⟩

def isEmpty (ancestry : Ancestry) : Bool := ancestry.source.isNone

/-- The supertypes of a class, the most specific ones first. -/
def supertypes? (ancestry : Ancestry) (name : ClassName) : Option (List ClassName) :=
  ancestry.source.bind (· name)

/-- Asks each of several ancestries in turn. It is empty if all of them are. -/
def collect (ancestries : List Ancestry) : Ancestry :=
  match ancestries.filterMap source with
  | [] => empty
  | sources => ⟨some fun name => sources.findSome? (· name)⟩

end Ancestry

end TypedTree.Java
