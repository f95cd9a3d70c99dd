import EventHub.Proofs.Workspace.Listing
import EventHub.Proofs.Workspace.Paths

/-!
Walks over the tree come to an end. The way from an entry up to the root, and the calls by which
a listing goes down from a directory, are described here as they go, without a bound on either:
in a tree that runs in a circle they would not end. In a workspace they do, because a parent is
older than what lies below it. So the ids on the way up only fall, and those on the way down only
rise, and what is found with a bound on the number of steps is what is found without.
-/

namespace EventHub

open EventHub.Script EventHub.Simulation

namespace Workspace

/-- The way up ends here with these entries passed. Each round looks up the parent and goes on
with what it finds; where there is no parent, or none to be found, it stops. -/
inductive Climbs (w : Workspace) : Option EntryId → List Entry → Prop
  | stop {parent : Option EntryId} (nothing : parent.bind w.entry? = none) : Climbs w parent []
  | round {parent : Option EntryId} {p : Entry} {rest : List Entry}
      (found : parent.bind w.entry? = some p) (onward : Climbs w p.parent rest) :
      Climbs w parent (p :: rest)

/-- To list what is below a directory, what is below each directory in it is listed. -/
def Calls (w : Workspace) (parent : Option EntryId) (id : EntryId) : Prop :=
  ∃ e ∈ w.children parent, e.directory = true ∧ e.id = id

/-- A listing comes back with these trees: all that it called for has come back, and is put below
the entries that it was called for. -/
inductive Returns (w : Workspace) : Option EntryId → List EntryTree → Prop
  | assembled (parent : Option EntryId) (inner : EntryId → List EntryTree)
      (called : ∀ id, w.Calls parent id → Returns w (some id) (inner id)) :
      Returns w parent ((w.children parent).map fun e =>
        .node e (if e.directory then inner e.id else []))

/-! ### The way up -/

namespace Climbs

variable {w : Workspace} {parent : Option EntryId} {above others : List Entry}

theorem unique (h : w.Climbs parent above) (h' : w.Climbs parent others) : others = above := by
  induction h generalizing others with
  | stop nothing =>
      cases h' with
      | stop => rfl
      | round found => cases nothing.symm.trans found
  | round found onward ih =>
      cases h' with
      | stop nothing => cases nothing.symm.trans found
      | round found' onward' =>
          obtain rfl := Option.some.inj (found.symm.trans found')
          rw [ih onward']

/-- From a directory that lies in itself the way up never ends. -/
theorem not_of_loop {p : Entry} (hfound : parent.bind w.entry? = some p)
    (hloop : p.parent = parent) : ¬ w.Climbs parent above := by
  intro h
  induction h with
  | stop nothing => cases nothing.symm.trans hfound
  | round found onward ih =>
      obtain rfl := Option.some.inj (found.symm.trans hfound)
      exact ih (hloop ▸ hfound) (hloop ▸ rfl)

/-- As many steps as there are rounds suffice for the names of all that is passed. -/
theorem namesUp_eq {e : Entry} (h : w.Climbs e.parent above) {steps : Nat}
    (hsteps : above.length ≤ steps) : w.namesUp steps e = (e :: above).map (·.name) := by
  induction steps generalizing e above with
  | zero =>
      obtain rfl := List.length_eq_zero_iff.mp (Nat.le_zero.mp hsteps)
      rfl
  | succ steps ih =>
      rw [namesUp]
      cases h with
      | stop nothing =>
          rw [nothing]
          rfl
      | round found onward =>
          have hrest := ih onward (Nat.le_of_succ_le_succ hsteps)
          simp only [found, hrest, List.map_cons]

end Climbs

/-- The way up from an entry, of which nothing is left out: it stops at the root only. -/
structure Ascends (w : Workspace) (e : Entry) (above : List Entry) : Prop where
  climbs : w.Climbs e.parent above
  rounds : above.length < e.id.val
  top : ∃ top, (e :: above).getLast? = some top ∧ top.parent = none

namespace IsTree

variable {w : Workspace}

theorem ascends (h : w.IsTree) (n : Nat) (e : Entry) (he : w.entry? e.id = some e)
    (hn : e.id.val ≤ n) : ∃ above, w.Ascends e above := by
  induction n generalizing e with
  | zero =>
      have := (h.isSome_entry?_iff e.id).mp (by rw [he]; rfl)
      omega
  | succ n ih =>
      cases htop : e.parent with
      | none =>
          have hfirst := ((h.isSome_entry?_iff e.id).mp (by rw [he]; rfl)).1
          exact ⟨[], .stop (by rw [htop]; rfl), hfirst, e, rfl, htop⟩
      | some p =>
          obtain ⟨d, hd, rfl, -, -, hlt⟩ := h.parent_of_entry? he htop
          obtain ⟨above, hclimbs, hrounds, top, hlast, hroot⟩ := ih d hd (by omega)
          refine ⟨d :: above, .round (by rw [htop]; exact hd) hclimbs, ?_, top, ?_, hroot⟩
          · simp only [List.length_cons]
            omega
          · rwa [List.getLast?_cons_cons]

theorem path_of_ascends (h : w.IsTree) {e : Entry} (he : w.entry? e.id = some e)
    {above : List Entry} (habove : w.Ascends e above) :
    w.path e.id = .ok ("/".intercalate ((e :: above).map (·.name)).reverse) := by
  have hlast := ((h.isSome_entry?_iff e.id).mp (by rw [he]; rfl)).2
  have hrounds := habove.rounds
  rw [path_eq w he, pathNames, habove.climbs.namesUp_eq (by omega)]

/-- The path of an entry in a directory goes on from the path of that directory. -/
theorem path_below (h : w.IsTree) {e : Entry} (he : w.entry? e.id = some e) {p : EntryId}
    (hp : e.parent = some p) :
    ∃ text, w.path p = .ok text ∧ w.path e.id = .ok (text ++ "/" ++ e.name) := by
  obtain ⟨d, hd, rfl, -⟩ := h.parent_of_entry? he hp
  refine ⟨_, path_eq w hd, ?_⟩
  have hnames : w.pathNames e = w.pathNames d ++ [e.name] :=
    (h.named_pathNames he).unique (.under hp hd (h.named_pathNames hd))
  rw [path_eq w he, hnames, String.intercalate_append_of_ne_nil
    (h.named_pathNames hd).ne_nil (List.cons_ne_nil _ _), String.intercalate_singleton]

end IsTree

/-! ### The way down -/

namespace Returns

variable {w : Workspace} {root : Option EntryId} {trees others : List EntryTree}

theorem unique (h : w.Returns root trees) (h' : w.Returns root others) : others = trees := by
  induction h generalizing others with
  | assembled parent inner called ih =>
      cases h' with
      | assembled _ inner' called' =>
          refine List.map_congr_left fun e he => ?_
          cases hdirectory : e.directory with
          | false => rfl
          | true =>
              have hcall : w.Calls parent e.id := ⟨e, he, hdirectory, rfl⟩
              rw [ih e.id hcall (called' e.id hcall)]

/-- A listing that calls for itself does not come back. -/
theorem not_of_loop {id : EntryId} (hloop : w.Calls (some id) id) (hroot : root = some id) :
    ¬ w.Returns root trees := by
  intro h
  induction h with
  | assembled parent inner called ih =>
      subst hroot
      exact ih id hloop rfl

end Returns

namespace IsTree

variable {w : Workspace}

/-- A listing is only ever called for a younger directory. -/
theorem lt_of_calls (h : w.IsTree) {root : Option EntryId} {id : EntryId}
    (hcalls : w.Calls root id) : root.elim 0 EntryId.val < id.val ∧ id.val ≤ w.lastId := by
  obtain ⟨e, he, -, rfl⟩ := hcalls
  exact h.lt_of_child he

/-- As many levels as there are younger ids are enough for every listing to come back. -/
theorem returns_treeBelow (h : w.IsTree) (depth : Nat) (root : Option EntryId)
    (hdepth : w.lastId ≤ depth + root.elim 0 EntryId.val) :
    w.Returns root (w.treeBelow depth root) := by
  induction depth generalizing root with
  | zero =>
      have hnone : w.children root = [] := by
        refine List.eq_nil_iff_forall_not_mem.mpr fun e he => ?_
        have := h.lt_of_child he
        omega
      have hreturns := Returns.assembled (w := w) root (fun _ => []) fun id hcalls => by
        have := h.lt_of_calls hcalls
        omega
      rwa [hnone] at hreturns
  | succ depth ih =>
      refine .assembled root (fun id => w.treeBelow depth (some id)) fun id hcalls => ?_
      have hlt := (h.lt_of_calls hcalls).1
      refine ih (some id) ?_
      simp only [Option.elim_some]
      omega

end IsTree

/-- Both walks over the tree end, and what comes of them. -/
structure WalksEnd (w : Workspace) : Prop where
  /-- The way up from an entry has fewer rounds than its id counts, and passes nothing but the way
  to the root; the path of the entry is read off it. -/
  up : ∀ e, w.entry? e.id = some e → ∃ above, w.Ascends e above ∧
    (∀ others, w.Climbs e.parent others → others = above) ∧
    w.path e.id = .ok ("/".intercalate ((e :: above).map (·.name)).reverse)
  path_root : ∀ e, w.entry? e.id = some e → e.parent = none → w.path e.id = .ok e.name
  path_below : ∀ e p, w.entry? e.id = some e → e.parent = some p →
    ∃ text, w.path p = .ok text ∧ w.path e.id = .ok (text ++ "/" ++ e.name)
  /-- A listing calls for directories with larger ids only; from the root, for any. -/
  younger : ∀ root id, w.Calls root id →
    root.elim 0 EntryId.val < id.val ∧ id.val ≤ w.lastId
  /-- Wherever a listing starts, it comes back, in one way, and that is what is shown. -/
  down : ∀ root, ∃ trees, w.Returns root trees ∧
    (∀ others, w.Returns root others → others = trees) ∧
    w.list root = (w.checkDirectory root).map fun () => trees

theorem IsTree.walksEnd {w : Workspace} (h : w.IsTree) : w.WalksEnd where
  up e he := by
    obtain ⟨above, habove⟩ := h.ascends _ e he (Nat.le_refl _)
    exact ⟨above, habove, fun others hothers => habove.climbs.unique hothers,
      h.path_of_ascends he habove⟩
  path_root e he htop := by
    have hnames : w.pathNames e = [e.name] := (h.named_pathNames he).unique (.root htop)
    rw [path_eq w he, hnames, String.intercalate_singleton]
  path_below e p he hp := h.path_below he hp
  younger _ _ hcalls := h.lt_of_calls hcalls
  down root := by
    have hreturns := h.returns_treeBelow w.lastId root (Nat.le_add_right _ _)
    exact ⟨_, hreturns, fun others hothers => hreturns.unique hothers, rfl⟩

end Workspace

open Workspace in
/-- The walks over the tree of a workspace end. Whatever it was asked, the way up from an entry
takes fewer rounds than its id counts and stops nowhere but at the root, so the path of an entry
goes on from that of its directory; and every listing comes back, because it only calls for
younger directories. It is the same with every workspace of every world, whoever takes turns
there. -/
theorem walks_end :
    (∀ requests : List Workspace.Request, (Workspace.run {} requests).WalksEnd) ∧
    ∀ (s : Scenario) (w : World), Scenario.Leads s.start w →
      ∀ (index : Nat) (hosted : Hosted), w.workspaces[index]? = some hosted →
        hosted.workspace.WalksEnd := by
  refine ⟨fun requests => (isTree_empty.run requests).walksEnd, ?_⟩
  intro s w hleads index hosted hfound
  obtain ⟨requests, hrequests⟩ := hleads.workspace hfound
  rw [hrequests]
  exact (isTree_empty.run requests).walksEnd

namespace Workspace

/-- A directory that lies in itself. No requests lead there. -/
def looped : Workspace :=
  { lastId := 1
    files := [(⟨1⟩, { id := ⟨1⟩, name := "a", parent := some ⟨1⟩, directory := true })] }

end Workspace

open Workspace in
/-- From a file in an archive in a directory the way up passes both, and a listing of the directory
calls for the archive. In a directory that lies in itself neither walk would end. -/
theorem walks_end_nested :
    let w := Workspace.run {} twoNames
    let file : Entry := { id := ⟨4⟩, name := "a.bin", parent := some ⟨3⟩ }
    let archive : Entry :=
      { id := ⟨3⟩, name := "lib.jar", parent := some ⟨1⟩, directory := true, archive := true }
    let directory : Entry := { id := ⟨1⟩, name := "src", directory := true }
    w.Ascends file [archive, directory] ∧ w.path ⟨4⟩ = .ok "src/lib.jar/a.bin" ∧
    (∃ text, w.path ⟨3⟩ = .ok text ∧ w.path ⟨4⟩ = .ok (text ++ "/" ++ "a.bin")) ∧
    w.path ⟨1⟩ = .ok "src" ∧
    (w.Calls (some ⟨1⟩) ⟨3⟩ ∧ 1 < 3) ∧
    (∃ trees, w.Returns (some ⟨1⟩) trees ∧ w.list (some ⟨1⟩) = .ok trees) ∧
    (∀ above, ¬ looped.Climbs (some ⟨1⟩) above) ∧ (∀ trees, ¬ looped.Returns (some ⟨1⟩) trees) ∧
    ∃ hosted, (Scenario.start {}).workspaces[0]? = some hosted ∧ hosted.workspace.WalksEnd := by
  intro w file archive directory
  have hends : w.WalksEnd := walks_end.1 twoNames
  obtain ⟨above, hascends, hunique, hpath⟩ := hends.up file rfl
  obtain rfl := hunique [archive, directory] (.round rfl (.round rfl (.stop rfl)))
  obtain ⟨trees, hreturns, -, hlist⟩ := hends.down (some ⟨1⟩)
  have hcalls : w.Calls (some ⟨1⟩) ⟨3⟩ := ⟨archive, by decide +kernel, rfl, rfl⟩
  have hself : looped.Calls (some ⟨1⟩) ⟨1⟩ := ⟨_, List.mem_singleton_self _, rfl, rfl⟩
  refine ⟨hascends, hpath, hends.path_below file ⟨3⟩ rfl rfl, hends.path_root directory rfl rfl,
    ⟨hcalls, (hends.younger _ _ hcalls).1⟩, ⟨trees, hreturns, hlist⟩, ?_, ?_, _, rfl,
    walks_end.2 {} _ .refl 0 { broker := 0 } rfl⟩
  · exact fun above => Climbs.not_of_loop rfl rfl
  · exact fun trees => Returns.not_of_loop hself rfl

end EventHub
