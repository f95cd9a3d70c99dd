import EventHub.Proofs.Workspace.Request
import EventHub.Workspace.Tree

/-!
A workspace that is closed. Whatever it is asked to do, it refuses that before it looks at
anything else, so it stays as it is for good; and what it is asked about, it answers as it did
at the moment at which it was closed.
-/

namespace EventHub.Workspace

/-- Every question about the tree, the contents and the views has the same answer. -/
structure AnswersAs (w w' : Workspace) : Prop where
  find : ∀ path, w'.find path = w.find path
  entry : ∀ id, w'.entry id = w.entry id
  path : ∀ id, w'.path id = w.path id
  listing : ∀ directory, w'.listing directory = w.listing directory
  list : ∀ root, w'.list root = w.list root
  snapshot : ∀ id, w'.snapshot id = w.snapshot id
  view? : ∀ file viewType, w'.view? file viewType = w.view? file viewType
  viewData : ∀ r, w'.viewData r = w.viewData r

/-- Whatever would change something is refused, because the workspace is closed. -/
structure Refuses (w : Workspace) : Prop where
  directory : ∀ name parent, w.addDirectory name parent = .error .closed
  archive : ∀ name parent, w.addArchive name parent = .error .closed
  file : ∀ name parent data, w.addFile name parent data = .error .closed
  update : ∀ id data, w.update id data = .error .closed
  store : ∀ id revision viewType data stamp,
    w.store id revision viewType data stamp = .error .closed

theorem AnswersAs.refl (w : Workspace) : w.AnswersAs w := by
  constructor <;> intros <;> rfl

/-! ### Questions do not look whether the workspace is closed -/

theorem namesUp_close (w : Workspace) (steps : Nat) (e : Entry) :
    w.close.namesUp steps e = w.namesUp steps e := by
  induction steps generalizing e with
  | zero => rfl
  | succ steps ih =>
      have hentry : w.close.entry? = w.entry? := rfl
      rw [namesUp, namesUp, hentry]
      cases e.parent.bind w.entry? with
      | none => rfl
      | some p => exact congrArg (e.name :: ·) (ih p)

theorem pathText_close (w : Workspace) (e : Entry) : w.close.pathText e = w.pathText e := by
  have hnames : w.close.namesUp w.close.lastId e = w.namesUp w.lastId e := namesUp_close w _ e
  rw [pathText, pathNames, hnames]
  rfl

theorem treeBelow_close (w : Workspace) (depth : Nat) (parent : Option EntryId) :
    w.close.treeBelow depth parent = w.treeBelow depth parent := by
  induction depth generalizing parent with
  | zero => rfl
  | succ depth ih =>
      have hchildren : w.close.children parent = w.children parent := rfl
      simp only [treeBelow, hchildren, ih]

theorem answersAs_close (w : Workspace) : w.AnswersAs w.close where
  find path := by
    have htexts : w.close.pathText = w.pathText := funext w.pathText_close
    rw [find, htexts]
    rfl
  entry _ := rfl
  path id := by
    have htexts : w.close.pathText = w.pathText := funext w.pathText_close
    rw [path, htexts]
    rfl
  listing _ := rfl
  list root := by
    have htrees : w.close.treeBelow w.close.lastId root = w.treeBelow w.lastId root :=
      treeBelow_close w _ root
    rw [list, htrees]
    rfl
  snapshot _ := rfl
  view? _ _ := rfl
  viewData _ := rfl

/-! ### Requests look at that first -/

variable {w : Workspace}

theorem refuses_of_closed (hclosed : w.isClosed = true) : w.Refuses := by
  have hinsert (name : String) (parent : Option EntryId) (directory archive : Bool) :
      w.insert name parent directory archive = .error .closed := by
    rw [insert, hclosed]
    rfl
  refine ⟨fun name parent => hinsert name parent true false,
    fun name parent => hinsert name parent true true, ?file, ?update, ?store⟩
  case file =>
    intro name parent data
    rw [addFile, hinsert]
  case update =>
    intro id data
    rw [update, hclosed]
    rfl
  case store =>
    intro id revision viewType data stamp
    rw [store, hclosed]
    rfl

theorem after_of_closed (hclosed : w.isClosed = true) (q : Request) : w.after q = w := by
  rcases w.after_cases q with hsame | ⟨-, hclose⟩ | ⟨hopen, -⟩
  · exact hsame
  · rw [hclose, close, ← hclosed]
  · cases hopen.symm.trans hclosed

/-- A closed workspace stays as it is, whatever it is asked to do. -/
theorem run_of_closed (hclosed : w.isClosed = true) (requests : List Request) :
    w.run requests = w := by
  induction requests with
  | nil => rfl
  | cons q rest ih =>
      rw [run, List.foldl_cons, after_of_closed hclosed q]
      exact ih

end EventHub.Workspace
