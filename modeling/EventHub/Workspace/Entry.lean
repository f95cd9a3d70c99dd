import EventHub.Text.Hex

/-!
What the workspace stores and lists: entries of the file tree, revisions of
their content, and views derived from one revision.
-/

namespace EventHub

/-- Identity of an entry; ids are handed out in increasing order. -/
structure EntryId where
  val : Nat
  deriving DecidableEq, Repr, Inhabited

instance : ToString EntryId := ⟨fun id => toString id.val⟩

/-- Revision of a file's content, one for the content it was added with. -/
structure Revision where
  val : Nat
  deriving DecidableEq, Repr, Inhabited

namespace Revision

def first : Revision := ⟨1⟩

def next (r : Revision) : Revision := ⟨r.val + 1⟩

def text (r : Revision) : String := "r" ++ toString r.val

end Revision

/-- An entry of the file tree. Archives are directories too. -/
structure Entry where
  id : EntryId := ⟨0⟩
  name : String := ""
  parent : Option EntryId := none
  directory : Bool := false
  archive : Bool := false
  deriving DecidableEq, Repr, Inhabited

/-- A view of a file that was derived from the content at `revision`. No two
stored views carry the same stamp. -/
structure View where
  file : EntryId
  viewType : String
  revision : Revision
  stamp : Nat
  deriving DecidableEq, Repr, Inhabited

/-- An entry listed together with what lies below it. -/
inductive EntryTree where
  | node (entry : Entry) (children : List EntryTree)
  deriving Inhabited

namespace EntryTree

def entry : EntryTree → Entry
  | node e _ => e

def children : EntryTree → List EntryTree
  | node _ cs => cs

/-- The node's entry, then those below each child in turn. -/
def flatten : EntryTree → List Entry
  | node e cs => e :: cs.flatMap flatten

/-- As `flatten`, each entry with its distance from the start of the listing. -/
def leveled (depth : Nat) : EntryTree → List (Nat × Entry)
  | node e cs => (depth, e) :: cs.flatMap (leveled (depth + 1))

end EntryTree

end EventHub
