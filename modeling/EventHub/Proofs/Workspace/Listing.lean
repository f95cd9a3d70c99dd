import EventHub.Proofs.Workspace.Growth

/-!
Recursive listings. A listing is built anew for every question, by asking for the children of one
directory after the other; because children are younger than their directory, this ends, and
what comes out is the whole tree below the start, each entry once and followed by what lies
below it.
-/

namespace EventHub

open EventHub.Script EventHub.Simulation

namespace Workspace

/-- An entry lies below a directory, or below the root: there itself, or in a directory there. -/
inductive Below (w : Workspace) (root : Option EntryId) : Entry → Prop
  | child {e : Entry} (entry : w.entry? e.id = some e) (parent : e.parent = root) :
      Below w root e
  | inside {e d : Entry} (above : Below w root d) (entry : w.entry? e.id = some e)
      (parent : e.parent = some d.id) : Below w root e

/-- At every level of a listed tree stands the content of the directory; files have none. -/
inductive Spread (w : Workspace) : EntryTree → Prop
  | directory {e : Entry} {trees : List EntryTree} (directory : e.directory = true)
      (content : w.listing (some e.id) = .ok (trees.map EntryTree.entry))
      (spread : ∀ t ∈ trees, Spread w t) : Spread w (.node e trees)
  | file {e : Entry} (plain : e.directory = false) : Spread w (.node e [])

/-- Every entry of a list is followed at once by those that lie below it. -/
def Preorder (w : Workspace) : List Entry → Prop
  | [] => True
  | e :: rest => (∃ own, own <+: rest ∧ ∀ x, x ∈ own ↔ w.Below (some e.id) x) ∧ Preorder w rest

/-- What a recursive listing shows of the tree below its start. -/
structure Lists (w : Workspace) (root : Option EntryId) (trees : List EntryTree) : Prop where
  /-- On top stands the content of the start. -/
  top : w.listing root = .ok (trees.map EntryTree.entry)
  /-- And likewise at every level below. -/
  spread : ∀ t ∈ trees, w.Spread t
  complete : ∀ e, e ∈ trees.flatMap EntryTree.flatten ↔ w.Below root e
  /-- From the root on, these are all entries that there are. -/
  everything : root = none → ∀ e, e ∈ trees.flatMap EntryTree.flatten ↔ w.entry? e.id = some e
  once : (trees.flatMap EntryTree.flatten).Nodup
  preorder : w.Preorder (trees.flatMap EntryTree.flatten)
  siblings : (trees.flatMap EntryTree.flatten).Pairwise fun x y =>
    x.parent = y.parent → x.id.val < y.id.val

/-! ### Above and below -/

namespace Below

variable {w : Workspace} {root : Option EntryId} {e : Entry}

theorem entry? (h : w.Below root e) : w.entry? e.id = some e := by
  cases h <;> assumption

/-- What lies below a directory that lies below the start lies below the start. -/
theorem trans {d : Entry} (h : w.Below root d) (h' : w.Below (some d.id) e) : w.Below root e := by
  induction h' with
  | child entry parent => exact .inside h entry parent
  | inside _ entry parent ih => exact .inside ih entry parent

/-- The way down to an entry begins with one of the children of the start. -/
theorem iff_child : w.Below root e ↔ ∃ c, (w.entry? c.id = some c ∧ c.parent = root) ∧
    (e = c ∨ w.Below (some c.id) e) := by
  constructor
  · intro h
    induction h with
    | child entry parent => exact ⟨_, ⟨entry, parent⟩, .inl rfl⟩
    | inside _ entry parent ih =>
        obtain ⟨c, hc, rfl | hbelow⟩ := ih
        · exact ⟨_, hc, .inr (.child entry parent)⟩
        · exact ⟨c, hc, .inr (.inside hbelow entry parent)⟩
  · rintro ⟨c, ⟨entry, parent⟩, rfl | hbelow⟩
    · exact .child entry parent
    · exact .trans (.child entry parent) hbelow

end Below

/-- An entry is another one or lies below it. -/
def Under (w : Workspace) (c e : Entry) : Prop :=
  e = c ∨ w.Below (some c.id) e

namespace IsTree

variable {w : Workspace}

/-- The parent of what lies below a directory is no older than that directory. -/
theorem parent_of_below (h : w.IsTree) {id : EntryId} {e : Entry}
    (hbelow : w.Below (some id) e) : ∃ p, e.parent = some p ∧ id.val ≤ p.val := by
  induction hbelow with
  | child _ parent => exact ⟨id, parent, Nat.le_refl _⟩
  | @inside e d above entry parent ih =>
      obtain ⟨p, hp, hle⟩ := ih
      obtain ⟨d', -, rfl, -, -, hlt⟩ := h.parent_of_entry? above.entry? hp
      exact ⟨d.id, parent, by omega⟩

/-- Nothing that lies below an entry has its parent in common with it. -/
theorem parent_ne_of_below (h : w.IsTree) {c e : Entry} (hc : w.entry? c.id = some c)
    (hbelow : w.Below (some c.id) e) : e.parent ≠ c.parent := by
  intro hparent
  obtain ⟨p, hp, hle⟩ := h.parent_of_below hbelow
  obtain ⟨d, -, rfl, -, -, hlt⟩ := h.parent_of_entry? hc (hparent ▸ hp)
  omega

/-- Nothing lies below a plain file. -/
theorem not_below_file (h : w.IsTree) {c e : Entry} (hc : w.entry? c.id = some c)
    (hplain : c.directory = false) : ¬ w.Below (some c.id) e := by
  intro hbelow
  obtain ⟨e', ⟨he', hparent⟩, -⟩ := Below.iff_child.mp hbelow
  obtain ⟨d, hd, hid, hdirectory, -⟩ := h.parent_of_entry? he' hparent
  obtain rfl : d = c := Option.some.inj (hd.symm.trans (hid ▸ hc))
  rw [hplain] at hdirectory
  cases hdirectory

/-- No entry is under two of the entries that share a parent. -/
theorem eq_of_under (h : w.IsTree) {c c' e : Entry} (hc : w.entry? c.id = some c)
    (hc' : w.entry? c'.id = some c') (hparent : c.parent = c'.parent) (hunder : w.Under c e)
    (hunder' : w.Under c' e) : c = c' := by
  have hsame {d d' : Entry} (hd : w.entry? d.id = some d) (hd' : w.entry? d'.id = some d')
      (hids : d.id = d'.id) : d = d' := Option.some.inj (hd.symm.trans (hids ▸ hd'))
  rcases hunder with rfl | hbelow
  · rcases hunder' with rfl | hbelow'
    · rfl
    · exact absurd hparent (h.parent_ne_of_below hc' hbelow')
  · induction hbelow with
    | @child e _ parent =>
        rcases hunder' with rfl | hbelow'
        · exact absurd hparent.symm (h.parent_ne_of_below hc (.child hc' parent))
        · cases hbelow' with
          | child _ parent' => exact hsame hc hc' (Option.some.inj (parent.symm.trans parent'))
          | inside above' _ parent' =>
              obtain rfl := hsame hc above'.entry? (Option.some.inj (parent.symm.trans parent'))
              exact absurd hparent (h.parent_ne_of_below hc' above')
    | @inside e d above entry parent ih =>
        rcases hunder' with rfl | hbelow'
        · exact absurd hparent.symm (h.parent_ne_of_below hc (.inside above entry parent))
        · cases hbelow' with
          | child _ parent' =>
              obtain rfl := hsame above.entry? hc' (Option.some.inj (parent.symm.trans parent'))
              exact absurd hparent.symm (h.parent_ne_of_below hc above)
          | inside above' _ parent' =>
              obtain rfl := hsame above.entry? above'.entry?
                (Option.some.inj (parent.symm.trans parent'))
              exact ih (.inr above')

/-- Every entry lies below the root. -/
theorem below_root (h : w.IsTree) {e : Entry} (he : w.entry? e.id = some e) :
    w.Below none e := by
  obtain ⟨n, hn⟩ : ∃ n, e.id.val ≤ n := ⟨_, Nat.le_refl _⟩
  induction n generalizing e with
  | zero =>
      have := (h.isSome_entry?_iff e.id).mp (by rw [he]; rfl)
      omega
  | succ n ih =>
      cases hparent : e.parent with
      | none => exact .child he hparent
      | some p =>
          obtain ⟨d, hd, rfl, -, -, hlt⟩ := h.parent_of_entry? he hparent
          exact .inside (ih hd (by omega)) he hparent

/-! ### The content of one directory -/

theorem mem_children (h : w.IsTree) {root : Option EntryId} {e : Entry} :
    e ∈ w.children root ↔ w.entry? e.id = some e ∧ e.parent = root := by
  rw [children, List.mem_filter, ← h.mem_files, decide_eq_true_eq]

theorem children_sorted (h : w.IsTree) (root : Option EntryId) :
    (w.children root).Pairwise fun x y => x.id.val < y.id.val := by
  have hids : (w.files.map (·.2)).map (·.id.val) = List.range' 1 w.lastId := by
    rw [← h.ids, List.map_map]
    exact List.map_congr_left fun file hfile => by
      rw [Function.comp_apply, h.own_id file.1 file.2 hfile]
  have hall : (w.files.map (·.2)).Pairwise fun x y => x.id.val < y.id.val := by
    rw [← List.pairwise_map, hids]
    exact List.pairwise_lt_range'
  exact hall.filter _

/-- Below an entry there is nothing but younger ones. -/
theorem lt_of_child (h : w.IsTree) {root : Option EntryId} {e : Entry}
    (he : e ∈ w.children root) : root.elim 0 EntryId.val < e.id.val ∧ e.id.val ≤ w.lastId := by
  obtain ⟨hentry, hparent⟩ := h.mem_children.mp he
  have hrange := (h.isSome_entry?_iff e.id).mp (by rw [hentry]; rfl)
  cases root with
  | none => exact ⟨hrange.1, hrange.2⟩
  | some p =>
      obtain ⟨d, -, rfl, -, -, hlt⟩ := h.parent_of_entry? hentry hparent
      exact ⟨hlt, hrange.2⟩

theorem listing_of_directory (w : Workspace) {root : Option EntryId}
    (hroot : ∀ id, root = some id → ∃ d, w.entry? id = some d ∧ d.directory = true) :
    w.checkDirectory root = .ok () ∧ w.listing root = .ok (w.children root) := by
  have hcheck : w.checkDirectory root = .ok () := by
    cases root with
    | none => rfl
    | some id =>
        obtain ⟨d, hd, hdirectory⟩ := hroot id rfl
        simp [checkDirectory, entry, hd, hdirectory]
  exact ⟨hcheck, by rw [listing, hcheck]; rfl⟩

/-- As many levels as there are ids left are enough for everything below a directory. -/
theorem treeBelow_spread (h : w.IsTree) (depth : Nat) (root : Option EntryId)
    (hdepth : w.lastId ≤ depth + root.elim 0 EntryId.val) :
    (w.treeBelow depth root).map EntryTree.entry = w.children root ∧
      ∀ t ∈ w.treeBelow depth root, w.Spread t := by
  induction depth generalizing root with
  | zero =>
      refine ⟨?_, by simp [treeBelow]⟩
      symm
      refine List.eq_nil_iff_forall_not_mem.mpr fun e he => ?_
      have := h.lt_of_child he
      omega
  | succ depth ih =>
      refine ⟨?_, ?_⟩
      · rw [treeBelow, List.map_map]
        exact (List.map_congr_left fun e _ => rfl).trans (List.map_id _)
      intro t ht
      obtain ⟨e, he, rfl⟩ := List.mem_map.mp ht
      cases hdirectory : e.directory with
      | false => exact .file hdirectory
      | true =>
          obtain ⟨hcontent, hspread⟩ := ih (some e.id) (by
            have := (h.lt_of_child he).1
            simp only [Option.elim_some]
            omega)
          have hlistable (id : EntryId) (hid : some e.id = some id) :
              ∃ d, w.entry? id = some d ∧ d.directory = true := by
            obtain rfl := Option.some.inj hid
            exact ⟨e, (h.mem_children.mp he).1, hdirectory⟩
          exact .directory hdirectory (hcontent ▸ (listing_of_directory w hlistable).2) hspread

/-! ### The flattened listing -/

variable {root : Option EntryId} {trees : List EntryTree}

theorem entry_of_listing
    (hcontent : w.listing root = .ok (trees.map EntryTree.entry)) :
    trees.map EntryTree.entry = w.children root := by
  rw [listing] at hcontent
  cases hcheck : w.checkDirectory root with
  | error refusal =>
      rw [hcheck] at hcontent
      cases hcontent
  | ok _ =>
      rw [hcheck] at hcontent
      exact (Except.ok.inj hcontent).symm

/-- The trees of a listing grow from the children of what was listed. -/
theorem child_of_mem (h : w.IsTree) (hcontent : trees.map EntryTree.entry = w.children root)
    {t : EntryTree} (ht : t ∈ trees) :
    w.entry? t.entry.id = some t.entry ∧ t.entry.parent = root :=
  h.mem_children.mp (hcontent ▸ List.mem_map_of_mem ht)

/-- If the trees below the children of a directory hold what is under these, together they hold
what is below the directory. -/
theorem mem_forest (h : w.IsTree) (hcontent : trees.map EntryTree.entry = w.children root)
    (hunder : ∀ t ∈ trees, ∀ e, e ∈ t.flatten ↔ w.Under t.entry e) (e : Entry) :
    e ∈ trees.flatMap EntryTree.flatten ↔ w.Below root e := by
  rw [List.mem_flatMap, Below.iff_child]
  constructor
  · rintro ⟨t, ht, he⟩
    exact ⟨t.entry, h.child_of_mem hcontent ht, (hunder t ht e).mp he⟩
  · rintro ⟨c, hc, he⟩
    have hchild : c ∈ trees.map EntryTree.entry := hcontent ▸ h.mem_children.mpr hc
    obtain ⟨t, ht, rfl⟩ := List.mem_map.mp hchild
    exact ⟨t, ht, (hunder t ht e).mpr he⟩

/-- A tree holds an entry and what lies below it. -/
theorem mem_flatten (h : w.IsTree) {t : EntryTree} (hspread : w.Spread t)
    (ht : w.entry? t.entry.id = some t.entry) (e : Entry) :
    e ∈ t.flatten ↔ w.Under t.entry e := by
  induction hspread generalizing e with
  | @directory d trees _ content _ ih =>
      have hcontent := entry_of_listing content
      have hforest := h.mem_forest hcontent fun t ht' => ih t ht' (h.child_of_mem hcontent ht').1
      rw [EntryTree.flatten, List.mem_cons, hforest]
      rfl
  | file plain =>
      rw [EntryTree.flatten, List.flatMap_nil, List.mem_singleton]
      exact (or_iff_left (h.not_below_file ht plain)).symm

/-- The trees of a listing hold what is below the directory that was listed. -/
theorem mem_spread (h : w.IsTree) (hcontent : trees.map EntryTree.entry = w.children root)
    (hspread : ∀ t ∈ trees, w.Spread t) (e : Entry) :
    e ∈ trees.flatMap EntryTree.flatten ↔ w.Below root e :=
  h.mem_forest hcontent (fun t ht => h.mem_flatten (hspread t ht) (h.child_of_mem hcontent ht).1) e

/-- What lies under two siblings has no parent in common, these two aside. -/
theorem lt_of_siblings (h : w.IsTree) {c c' x y : Entry} (hc : w.entry? c.id = some c)
    (hc' : w.entry? c'.id = some c') (hparent : c.parent = c'.parent)
    (hlt : c.id.val < c'.id.val) (hx : w.Under c x) (hy : w.Under c' y)
    (hsame : x.parent = y.parent) : x.id.val < y.id.val := by
  have hne : c ≠ c' := by
    rintro rfl
    omega
  /- The parent of what is below a sibling is under that sibling. -/
  have habove {c e : Entry} (hc : w.entry? c.id = some c) (hbelow : w.Below (some c.id) e) :
      ∃ d, w.Under c d ∧ e.parent = some d.id ∧ w.entry? d.id = some d := by
    cases hbelow with
    | child _ parent => exact ⟨c, .inl rfl, parent, hc⟩
    | @inside _ d above _ parent => exact ⟨d, .inr above, parent, above.entry?⟩
  rcases hx with rfl | hx <;> rcases hy with rfl | hy
  · exact hlt
  · exact absurd (hsame.symm.trans hparent) (h.parent_ne_of_below hc' hy)
  · exact absurd (hsame.trans hparent.symm) (h.parent_ne_of_below hc hx)
  · obtain ⟨d, hd, hxd, hentry⟩ := habove hc hx
    obtain ⟨d', hd', hyd, hentry'⟩ := habove hc' hy
    have hids : d.id = d'.id := Option.some.inj (hxd.symm.trans (hsame.trans hyd))
    obtain rfl : d = d' := Option.some.inj (hentry.symm.trans (hids ▸ hentry'))
    exact absurd (h.eq_of_under hc hc' hparent hd hd') hne

theorem siblings_forest (h : w.IsTree) (hcontent : trees.map EntryTree.entry = w.children root)
    (hspread : ∀ t ∈ trees, w.Spread t)
    (hown : ∀ t ∈ trees, t.flatten.Pairwise fun x y => x.parent = y.parent → x.id.val < y.id.val) :
    (trees.flatMap EntryTree.flatten).Pairwise fun x y =>
      x.parent = y.parent → x.id.val < y.id.val := by
  have hchild {t : EntryTree} (ht : t ∈ trees) := h.child_of_mem hcontent ht
  have hsorted : trees.Pairwise fun t t' => t.entry.id.val < t'.entry.id.val := by
    have hchildren := h.children_sorted root
    rwa [← hcontent, List.pairwise_map] at hchildren
  refine List.pairwise_flatMap.mpr ⟨hown, hsorted.imp_of_mem ?_⟩
  intro t t' ht ht' hlt x hx y hy
  exact h.lt_of_siblings (hchild ht).1 (hchild ht').1 ((hchild ht).2.trans (hchild ht').2.symm) hlt
    ((h.mem_flatten (hspread t ht) (hchild ht).1 x).mp hx)
    ((h.mem_flatten (hspread t' ht') (hchild ht').1 y).mp hy)

theorem siblings_flatten (h : w.IsTree) {t : EntryTree} (hspread : w.Spread t)
    (ht : w.entry? t.entry.id = some t.entry) :
    t.flatten.Pairwise fun x y => x.parent = y.parent → x.id.val < y.id.val := by
  induction hspread with
  | @directory d trees _ content spread ih =>
      have hcontent := entry_of_listing content
      rw [EntryTree.flatten]
      refine List.pairwise_cons.mpr ⟨?_, h.siblings_forest hcontent spread fun t ht' =>
        ih t ht' (h.child_of_mem hcontent ht').1⟩
      intro x hx hparent
      have hbelow := (h.mem_spread hcontent spread x).mp hx
      exact absurd hparent.symm (h.parent_ne_of_below ht hbelow)
  | file plain =>
      rw [EntryTree.flatten]
      exact List.pairwise_singleton _ _

end IsTree

namespace Preorder

variable {w : Workspace}

theorem append {front back : List Entry} (hfront : w.Preorder front) (hback : w.Preorder back) :
    w.Preorder (front ++ back) := by
  induction front with
  | nil => exact hback
  | cons e rest ih =>
      obtain ⟨⟨own, hprefix, hown⟩, hrest⟩ := hfront
      exact ⟨⟨own, hprefix.trans (List.prefix_append _ _), hown⟩, ih hrest⟩

theorem flatMap {trees : List EntryTree} (h : ∀ t ∈ trees, w.Preorder t.flatten) :
    w.Preorder (trees.flatMap EntryTree.flatten) := by
  induction trees with
  | nil => trivial
  | cons t rest ih =>
      rw [List.flatMap_cons]
      exact (h t List.mem_cons_self).append (ih fun t ht => h t (List.mem_cons_of_mem _ ht))

end Preorder

namespace IsTree

variable {w : Workspace} {root : Option EntryId} {trees : List EntryTree}

theorem preorder_flatten (h : w.IsTree) {t : EntryTree} (hspread : w.Spread t)
    (ht : w.entry? t.entry.id = some t.entry) : w.Preorder t.flatten := by
  induction hspread with
  | @directory d trees _ content spread ih =>
      have hcontent := entry_of_listing content
      rw [EntryTree.flatten]
      exact ⟨⟨_, List.prefix_rfl, h.mem_spread hcontent spread⟩,
        .flatMap fun t ht' => ih t ht' (h.child_of_mem hcontent ht').1⟩
  | file plain =>
      rw [EntryTree.flatten]
      exact ⟨⟨[], List.nil_prefix, fun x => iff_of_false List.not_mem_nil
        (h.not_below_file ht plain)⟩, trivial⟩

theorem lists (h : w.IsTree)
    (hroot : ∀ id, root = some id → ∃ d, w.entry? id = some d ∧ d.directory = true) :
    ∃ trees, w.list root = .ok trees ∧ w.Lists root trees := by
  obtain ⟨hcheck, hlisting⟩ := listing_of_directory w hroot
  obtain ⟨hcontent, hspread⟩ := h.treeBelow_spread w.lastId root (Nat.le_add_right _ _)
  have hchild {t : EntryTree} (ht : t ∈ w.treeBelow w.lastId root) :=
    (h.child_of_mem hcontent ht).1
  have hcomplete := h.mem_spread hcontent hspread
  have hsiblings := h.siblings_forest hcontent hspread fun t ht =>
    h.siblings_flatten (hspread t ht) (hchild ht)
  refine ⟨w.treeBelow w.lastId root, by rw [list, hcheck]; rfl, ?_⟩
  refine ⟨hcontent ▸ hlisting, hspread, hcomplete, ?everything, ?once, ?preorder, hsiblings⟩
  case everything =>
    rintro rfl e
    exact (hcomplete e).trans ⟨Below.entry?, h.below_root⟩
  case once =>
    refine hsiblings.imp ?_
    rintro x y hlt rfl
    exact absurd (hlt rfl) (Nat.lt_irrefl _)
  case preorder =>
    exact .flatMap fun t ht => h.preorder_flatten (hspread t ht) (hchild ht)

end IsTree

/-- Archives can be listed as directories can. -/
theorem directory_of_archive (requests : List Request) {id : EntryId} {e : Entry}
    (he : (id, e) ∈ (run {} requests).files) (harchive : e.archive = true) :
    e.directory = true := by
  induction requests using List.reverseRecOn with
  | nil => cases he
  | append_singleton requests q ih =>
      rw [run_concat] at he
      cases hadded : (run {} requests).added? q with
      | none => exact ih ((tree_of_added?_eq_none hadded).2 ▸ he)
      | some added =>
          obtain ⟨hdescribed, -, -, hfiles⟩ := grows_of_added? hadded
          rw [hfiles] at he
          rcases List.mem_append.mp he with hold | hnew
          · exact ih hold
          · obtain ⟨-, rfl⟩ := Prod.mk.inj (List.mem_singleton.mp hnew)
            cases q <;> cases hdescribed
            · rfl
            · rfl
            · cases harchive

/-- From the root, and from every directory or archive, the tree below can be listed. -/
def ListsTrees (w : Workspace) : Prop :=
  ∀ root, (∀ id, root = some id → ∃ d, w.entry? id = some d ∧
    (d.directory = true ∨ d.archive = true)) → ∃ trees, w.list root = .ok trees ∧
      w.Lists root trees

theorem listsTrees_run (requests : List Request) : (run {} requests).ListsTrees := by
  intro root hroot
  have htree := isTree_empty.run requests
  refine htree.lists fun id hid => ?_
  obtain ⟨d, hd, hdirectory | harchive⟩ := hroot id hid
  · exact ⟨d, hd, hdirectory⟩
  · exact ⟨d, hd, directory_of_archive requests ((htree.entry?_eq_some_iff id d).mp hd) harchive⟩

end Workspace

open Workspace in
/-- A recursive listing is complete and in pre-order. Whatever a workspace was asked, the listing
from the root, or from a directory or an archive, shows at every level what the content of that
directory is; flattened, it holds everything below the start once and nothing else, each entry
followed at once by what lies below it, and siblings in the order of their ids. It is the same
with every workspace of every world, whoever takes turns there. -/
theorem listing_complete_in_preorder :
    (∀ requests : List Workspace.Request, (Workspace.run {} requests).ListsTrees) ∧
    ∀ (s : Scenario) (w : World), Scenario.Leads s.start w →
      ∀ (index : Nat) (hosted : Hosted), w.workspaces[index]? = some hosted →
        hosted.workspace.ListsTrees := by
  refine ⟨listsTrees_run, ?_⟩
  intro s w hleads index hosted hfound
  obtain ⟨requests, hrequests⟩ := hleads.workspace hfound
  rw [hrequests]
  exact listsTrees_run requests

namespace Workspace

/-- An archive in a directory, and entries put below either of them by turns. -/
def interleaved : List Request :=
  [.directory "src" none, .archive "lib.jar" (some ⟨1⟩), .file "a.bin" (some ⟨1⟩) [1],
    .file "b.bin" (some ⟨2⟩) [2], .file "c.bin" none [3], .file "d.bin" (some ⟨2⟩) [4]]

/-- What lies in the archive. -/
def interleavedArchive : List EntryTree :=
  [.node { id := ⟨4⟩, name := "b.bin", parent := some ⟨2⟩ } [],
    .node { id := ⟨6⟩, name := "d.bin", parent := some ⟨2⟩ } []]

/-- The whole tree. -/
def interleavedTree : List EntryTree :=
  [.node { id := ⟨1⟩, name := "src", directory := true }
    [.node { id := ⟨2⟩, name := "lib.jar", parent := some ⟨1⟩, directory := true, archive := true }
        interleavedArchive,
      .node { id := ⟨3⟩, name := "a.bin", parent := some ⟨1⟩ } []],
    .node { id := ⟨5⟩, name := "c.bin" } []]

end Workspace

open Workspace in
/-- What lies in the archive comes before the older file beside it; listed from the archive, it is
all that there is. -/
theorem listing_complete_in_preorder_interleaved :
    (Workspace.run {} interleaved).list none = .ok interleavedTree ∧
    (Workspace.run {} interleaved).Lists none interleavedTree ∧
    (interleavedTree.flatMap EntryTree.flatten).map (·.id.val) = [1, 2, 4, 6, 3, 5] ∧
    (Workspace.run {} interleaved).list (some ⟨2⟩) = .ok interleavedArchive ∧
    (Workspace.run {} interleaved).Lists (some ⟨2⟩) interleavedArchive ∧
    ∃ hosted, (Scenario.start {}).workspaces[0]? = some hosted ∧ hosted.workspace.ListsTrees := by
  have hlists := listing_complete_in_preorder.1 interleaved
  obtain ⟨trees, htrees, hall⟩ := hlists none (by simp)
  obtain ⟨below, hbelow, hpart⟩ := hlists (some ⟨2⟩) (by
    rintro id ⟨⟩
    exact ⟨_, rfl, .inr rfl⟩)
  have htree : (Workspace.run {} interleaved).list none = .ok interleavedTree := rfl
  have harchive : (Workspace.run {} interleaved).list (some ⟨2⟩) = .ok interleavedArchive := rfl
  obtain rfl := Except.ok.inj (htrees.symm.trans htree)
  obtain rfl := Except.ok.inj (hbelow.symm.trans harchive)
  refine ⟨htree, hall, ?_, harchive, hpart, _, rfl,
    listing_complete_in_preorder.2 {} _ .refl 0 { broker := 0 } rfl⟩
  simp [interleavedTree, interleavedArchive, EntryTree.flatten]

end EventHub
