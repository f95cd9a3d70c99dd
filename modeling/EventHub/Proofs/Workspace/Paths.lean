import EventHub.Proofs.Workspace.Growth

/-!
Finding entries by their path. The texts that are compared are joined from names that hold no
separator, so comparing the texts comes down to comparing the lists of names: a path finds the
entries whose names, from the root down, end with its components.
-/

namespace EventHub

open EventHub.Script EventHub.Simulation

namespace Workspace

/-- The names from the root down to an entry. -/
inductive Named (w : Workspace) : Entry → List String → Prop
  | root {e : Entry} (top : e.parent = none) : Named w e [e.name]
  | under {e d : Entry} {p : EntryId} {names : List String} (parent : e.parent = some p)
      (found : w.entry? p = some d) (above : Named w d names) : Named w e (names ++ [e.name])

/-- The components of a path: what stands between its separators, those at both ends aside. -/
structure Splits (path : String) (components : List String) : Prop where
  nonempty : components ≠ []
  plain : ∀ c ∈ components, '/' ∉ c.toList
  front : ("/".intercalate components).toList.head? ≠ some '/'
  back : ("/".intercalate components).toList.getLast? ≠ some '/'
  whole : ∃ before after, path.toList = List.replicate before '/' ++
    ("/".intercalate components).toList ++ List.replicate after '/'

/-- An entry of the tree is named by these components: they are its last names. -/
def EndsWith (w : Workspace) (e : Entry) (components : List String) : Prop :=
  w.entry? e.id = some e ∧ ∃ names, w.Named e names ∧ components <:+ names

/-! ### Joined and split texts -/

/-- Splitting gives back the names that a text was joined from. -/
theorem splitOn_intercalate {names : List String} (hnames : names ≠ [])
    (hplain : ∀ name ∈ names, '/' ∉ name.toList) :
    ("/".intercalate names).toList.splitOn '/' = names.map String.toList := by
  rw [String.toList_intercalate]
  exact List.splitOn_intercalate '/' (by simpa using hplain) (by simpa using hnames)

/-- Parts that a text was split into hold no separator. -/
theorem not_mem_of_mem_splitOn {cs part : List Char} (h : part ∈ cs.splitOn '/') :
    '/' ∉ part := by
  induction cs generalizing part with
  | nil =>
      obtain rfl : part = [] := by simpa using h
      exact List.not_mem_nil
  | cons c rest ih =>
      rw [List.splitOn_cons_eq_if_modifyHead] at h
      split at h
      · rcases List.mem_cons.mp h with rfl | hrest
        · exact List.not_mem_nil
        · exact ih hrest
      · rename_i hc
        obtain ⟨first, others, hsplit⟩ :=
          List.exists_cons_of_ne_nil (List.splitOn_ne_nil '/' rest)
        rw [hsplit, List.modifyHead_cons] at h
        rcases List.mem_cons.mp h with rfl | hothers
        · have hfirst : '/' ∉ first := ih (hsplit ▸ List.mem_cons_self)
          simp only [beq_iff_eq] at hc
          simpa [hfirst] using Ne.symm hc
        · exact ih (hsplit ▸ List.mem_cons_of_mem _ hothers)

/-- Texts compare by their characters, also at the end of lists of them. -/
theorem suffix_of_map_toList {short long : List String}
    (h : short.map String.toList <:+ long.map String.toList) : short <:+ long := by
  simpa [Function.comp_def] using h.map String.ofList

/-- Between texts that are joined from names, to be the same or to end after a separator is to
end with the same names. -/
theorem matchesPath_iff {names components : List String} (hnames : names ≠ [])
    (hplain : ∀ name ∈ names, '/' ∉ name.toList) (hcomponents : components ≠ [])
    (hplain' : ∀ c ∈ components, '/' ∉ c.toList) :
    matchesPath ("/".intercalate names).toList ("/".intercalate components).toList = true ↔
      components <:+ names := by
  have hsplit := splitOn_intercalate hnames hplain
  have hsplit' := splitOn_intercalate hcomponents hplain'
  simp only [matchesPath, Bool.or_eq_true, decide_eq_true_eq, List.isSuffixOf_iff_suffix]
  constructor
  · rintro (hwhole | ⟨front, hfront⟩)
    · have hsame : components.map String.toList = names.map String.toList := by
        rw [← hsplit, ← hsplit', hwhole]
      exact suffix_of_map_toList (hsame ▸ List.suffix_rfl)
    · apply suffix_of_map_toList
      rw [← hsplit, ← hsplit', ← hfront, List.splitOn_append_cons_self]
      exact List.suffix_append _ _
  · rintro ⟨front, rfl⟩
    by_cases hempty : front = []
    · left
      rw [hempty, List.nil_append]
    · right
      refine ⟨("/".intercalate front).toList, ?_⟩
      rw [String.intercalate_append_of_ne_nil hempty hcomponents]
      simp

/-! ### The components of a path -/

theorem dropWhile_replicate_append {n : Nat} {inner : List Char}
    (h : inner.head? ≠ some '/') :
    (List.replicate n '/' ++ inner).dropWhile (· = '/') = inner := by
  induction n with
  | zero =>
      cases inner with
      | nil => rfl
      | cons c rest =>
          have hc : c ≠ '/' := by simpa using h
          simp [hc]
  | succ n ih => simpa [List.replicate_succ] using ih

theorem exists_replicate_of_dropWhile (cs : List Char) :
    ∃ n, cs = List.replicate n '/' ++ cs.dropWhile (· = '/') ∧
      (cs.dropWhile (· = '/')).head? ≠ some '/' := by
  induction cs with
  | nil => exact ⟨0, by simp⟩
  | cons c rest ih =>
      by_cases hc : c = '/'
      · obtain ⟨n, hn, hhead⟩ := ih
        refine ⟨n + 1, ?_⟩
        simp only [hc, decide_true, List.dropWhile_cons_of_pos, List.replicate_succ,
          List.cons_append, List.cons.injEq, true_and]
        exact ⟨hn, hhead⟩
      · exact ⟨0, by simp [hc]⟩

/-- What is trimmed off a text with separators around it are just these. -/
theorem trimSeparators_eq {path : String} {before after : Nat} {inner : List Char}
    (hwhole : path.toList = List.replicate before '/' ++ inner ++ List.replicate after '/')
    (hfront : inner.head? ≠ some '/') (hback : inner.getLast? ≠ some '/') :
    trimSeparators path = inner := by
  have hrest : (path.toList.dropWhile (· = '/')).reverse.dropWhile (· = '/') = inner.reverse := by
    by_cases hempty : inner = []
    · subst hempty
      rw [hwhole, List.append_nil, List.replicate_append_replicate,
        ← List.append_nil (List.replicate _ _), dropWhile_replicate_append (by simp)]
      rfl
    · have hhead : (inner ++ List.replicate after '/').head? ≠ some '/' := by
        rwa [List.head?_append_of_ne_nil _ hempty]
      rw [hwhole, List.append_assoc, dropWhile_replicate_append hhead, List.reverse_append,
        List.reverse_replicate]
      exact dropWhile_replicate_append (by rwa [List.head?_reverse])
  rw [trimSeparators, hrest, List.reverse_reverse]

/-- Before and after what is left of a path there are separators only. -/
theorem trimSeparators_spec (path : String) :
    (trimSeparators path).head? ≠ some '/' ∧ (trimSeparators path).getLast? ≠ some '/' ∧
      ∃ before after, path.toList =
        List.replicate before '/' ++ trimSeparators path ++ List.replicate after '/' := by
  obtain ⟨before, hbefore, hfront⟩ := exists_replicate_of_dropWhile path.toList
  obtain ⟨after, hafter, hback⟩ :=
    exists_replicate_of_dropWhile (path.toList.dropWhile (· = '/')).reverse
  have hinner : path.toList.dropWhile (· = '/') =
      trimSeparators path ++ List.replicate after '/' := by
    rw [← List.reverse_reverse (path.toList.dropWhile (· = '/')), hafter, List.reverse_append,
      List.reverse_replicate, trimSeparators]
  refine ⟨?_, ?_, before, after, ?_⟩
  · by_cases hempty : trimSeparators path = []
    · simp [hempty]
    · rwa [hinner, List.head?_append_of_ne_nil _ hempty] at hfront
  · rwa [trimSeparators, List.getLast?_reverse]
  · rw [List.append_assoc, ← hinner]
    exact hbefore

/-- A joined text begins with the first of its parts. -/
theorem exists_append_of_intercalate_cons (first : String) (rest : List String) :
    ∃ tail, ("/".intercalate (first :: rest)).toList = first.toList ++ tail := by
  cases rest with
  | nil => exact ⟨[], by simp⟩
  | cons next rest => exact ⟨('/' :: ("/".intercalate (next :: rest)).toList), by
      simp [String.toList_intercalate]⟩

/-- It ends with the last one. -/
theorem exists_append_of_intercalate_concat (before : List String) (last : String) :
    ∃ front, ("/".intercalate (before ++ [last])).toList = front ++ last.toList := by
  by_cases hempty : before = []
  · exact ⟨[], by simp [hempty]⟩
  · rw [String.intercalate_append_of_ne_nil hempty (List.cons_ne_nil last [])]
    exact ⟨("/".intercalate before).toList ++ ['/'], by simp⟩

namespace Splits

variable {path : String} {components : List String}

theorem trimSeparators_eq (h : Splits path components) :
    trimSeparators path = ("/".intercalate components).toList := by
  obtain ⟨before, after, hwhole⟩ := h.whole
  exact Workspace.trimSeparators_eq hwhole h.front h.back

theorem unique {others : List String} (h : Splits path components) (h' : Splits path others) :
    components = others := by
  have hsame : components.map String.toList = others.map String.toList := by
    rw [← splitOn_intercalate h.nonempty h.plain, ← splitOn_intercalate h'.nonempty h'.plain,
      ← h.trimSeparators_eq, h'.trimSeparators_eq]
  exact List.map_injective_iff.mpr (fun _ _ => String.toList_inj.mp) hsame

/-- What is left of a path splits into its components. -/
theorem exists_splits (path : String) : ∃ components, Splits path components := by
  have hjoin : ("/".intercalate (((trimSeparators path).splitOn '/').map String.ofList)).toList =
      trimSeparators path := by
    rw [String.toList_intercalate, List.map_map]
    simp [Function.comp_def, List.intercalate_splitOn]
  obtain ⟨hfront, hback, hwhole⟩ := trimSeparators_spec path
  refine ⟨((trimSeparators path).splitOn '/').map String.ofList, ?_, ?_, ?_, ?_, ?_⟩
  · simp
  · intro c hc
    obtain ⟨part, hpart, rfl⟩ := List.mem_map.mp hc
    simpa using not_mem_of_mem_splitOn hpart
  · rwa [hjoin]
  · rwa [hjoin]
  · rwa [hjoin]

/-- A path of separators alone has the empty text as its only component. -/
theorem of_separators (h : ∀ c ∈ path.toList, c = '/') : Splits path [""] := by
  refine ⟨by simp, by simp, by simp, by simp, path.toList.length, 0, ?_⟩
  simpa using List.eq_replicate_length.mpr h

/-- A text that is joined from proper names has these as its components. -/
theorem of_names {names : List String} (hnames : names ≠ [])
    (hproper : ∀ name ∈ names, name ≠ "" ∧ '/' ∉ name.toList) :
    Splits ("/".intercalate names) names := by
  refine ⟨hnames, fun name hname => (hproper name hname).2, ?front, ?back, 0, 0, by simp⟩
  case front =>
    obtain ⟨first, rest, rfl⟩ := List.exists_cons_of_ne_nil hnames
    obtain ⟨tail, htail⟩ := exists_append_of_intercalate_cons first rest
    obtain ⟨hfilled, hplain⟩ := hproper first List.mem_cons_self
    rw [htail, List.head?_append_of_ne_nil _ (by simpa using hfilled)]
    exact fun hhead => hplain (List.mem_of_mem_head? hhead)
  case back =>
    obtain ⟨before, last, rfl⟩ := (List.eq_nil_or_concat' names).resolve_left hnames
    obtain ⟨front, hfront⟩ := exists_append_of_intercalate_concat before last
    obtain ⟨hfilled, hplain⟩ := hproper last (by simp)
    rw [hfront, List.getLast?_append_of_ne_nil _ (by simpa using hfilled)]
    exact fun hlast => hplain (List.mem_of_getLast? hlast)

end Splits

/-! ### The names of an entry -/

namespace Named

variable {w : Workspace}

theorem ne_nil {e : Entry} {names : List String} (h : w.Named e names) : names ≠ [] := by
  cases h <;> simp

theorem unique {e : Entry} {names others : List String} (h : w.Named e names)
    (h' : w.Named e others) : names = others := by
  induction h generalizing others with
  | root top =>
      cases h' with
      | root => rfl
      | under parent => simp [top] at parent
  | under parent found above ih =>
      cases h' with
      | root top => simp [top] at parent
      | under parent' found' above' =>
          obtain rfl := Option.some.inj (parent.symm.trans parent')
          obtain rfl := Option.some.inj (found.symm.trans found')
          rw [ih above']

end Named

namespace IsTree

variable {w : Workspace}

/-- The walk up to the root collects the names of an entry, if it may take as many steps as there
are older entries. -/
theorem named_namesUp (h : w.IsTree) (steps : Nat) (e : Entry) (he : w.entry? e.id = some e)
    (hsteps : e.id.val ≤ steps + 1) : w.Named e (w.namesUp steps e).reverse := by
  induction steps generalizing e with
  | zero =>
      cases htop : e.parent with
      | none => exact .root htop
      | some p =>
          obtain ⟨d, -, -, -, hfirst, hlt⟩ := h.parent_of_entry? he htop
          omega
  | succ steps ih =>
      cases htop : e.parent with
      | none =>
          rw [namesUp, htop]
          exact .root htop
      | some p =>
          obtain ⟨d, hd, rfl, -, -, hlt⟩ := h.parent_of_entry? he htop
          have habove := ih d hd (by omega)
          rw [namesUp, htop, Option.bind_some, hd, List.reverse_cons]
          exact .under htop hd habove

theorem named_pathNames (h : w.IsTree) {e : Entry} (he : w.entry? e.id = some e) :
    w.Named e (w.pathNames e) := by
  have hrange := (h.isSome_entry?_iff e.id).mp (by rw [he]; rfl)
  exact h.named_namesUp w.lastId e he (by omega)

/-- The names of an entry are proper ones: not empty, and without separators. -/
theorem names_proper (h : w.IsTree) {e : Entry} {names : List String} (hnamed : w.Named e names)
    (he : w.entry? e.id = some e) : ∀ name ∈ names, name ≠ "" ∧ '/' ∉ name.toList := by
  have hown {e : Entry} (he : w.entry? e.id = some e) : e.name ≠ "" ∧ '/' ∉ e.name.toList :=
    h.name _ e ((h.entry?_eq_some_iff _ e).mp he)
  induction hnamed with
  | root top => simpa using hown he
  | @under e d p names parent found above ih =>
      obtain ⟨d', hd', rfl, -⟩ := h.parent_of_entry? he parent
      obtain rfl := Option.some.inj (found.symm.trans hd')
      intro name hname
      rcases List.mem_append.mp hname with habove | hlast
      · exact ih found name habove
      · obtain rfl := List.mem_singleton.mp hlast
        exact hown he

theorem matches_iff (h : w.IsTree) {path : String} {components : List String}
    (hsplits : Splits path components) {e : Entry} (he : w.entry? e.id = some e) :
    matchesPath (w.pathText e).toList (trimSeparators path) = true ↔ w.EndsWith e components := by
  have hnamed := h.named_pathNames he
  have hplain : ∀ name ∈ w.pathNames e, '/' ∉ name.toList :=
    fun name hname => (h.names_proper hnamed he name hname).2
  rw [hsplits.trimSeparators_eq, pathText,
    matchesPath_iff hnamed.ne_nil hplain hsplits.nonempty hsplits.plain]
  constructor
  · exact fun hsuffix => ⟨he, _, hnamed, hsuffix⟩
  · rintro ⟨-, names, hnames, hsuffix⟩
    rwa [hnamed.unique hnames]

end IsTree

/-- What a path leads to, given the entries that it names: the entry if there is exactly one, and
a refusal that tells how many there are otherwise. -/
structure Answers (w : Workspace) (path : String) (found : List Entry) : Prop where
  nothing : found = [] → w.find path = .error (.notFound path)
  single : ∀ e, found = [e] → w.find path = .ok e
  several : 2 ≤ found.length → w.find path = .error (.ambiguous path found.length)

/-- Paths find the entries whose last names are their components. -/
structure FindsPaths (w : Workspace) : Prop where
  splits : ∀ path, ∃ components, Splits path components ∧
    ∀ others, Splits path others → others = components
  named : ∀ e, w.entry? e.id = some e → ∃ names, w.Named e names ∧
    w.path e.id = .ok ("/".intercalate names) ∧ ∀ others, w.Named e others → others = names
  answers : ∀ path components, Splits path components → ∃ found : List Entry, found.Nodup ∧
    (∀ e, e ∈ found ↔ w.EndsWith e components) ∧ w.Answers path found
  /-- Nothing is found for a path that is empty or holds separators only. -/
  separators : ∀ path, (∀ c ∈ path.toList, c = '/') → w.find path = .error (.notFound path)
  /-- Neither for one with an empty component. -/
  gap : ∀ path components, Splits path components → "" ∈ components →
    w.find path = .error (.notFound path)
  /-- The path of an entry leads to that entry, if not to several ones. -/
  own : ∀ e, w.entry? e.id = some e → ∃ text, w.path e.id = .ok text ∧
    (w.find text = .ok e ∨
      ∃ count, 2 ≤ count ∧ w.find text = .error (.ambiguous text count))

namespace IsTree

variable {w : Workspace}

theorem answers (h : w.IsTree) {path : String} {components : List String}
    (hsplits : Splits path components) : ∃ found : List Entry, found.Nodup ∧
      (∀ e, e ∈ found ↔ w.EndsWith e components) ∧ w.Answers path found := by
  refine ⟨(w.files.map (·.2)).filter fun e => matchesPath (w.pathText e).toList
    (trimSeparators path), h.entries_nodup.filter _, ?_, ?_, ?_, ?_⟩
  · intro e
    rw [List.mem_filter, ← h.mem_files]
    constructor
    · rintro ⟨he, hmatches⟩
      exact (h.matches_iff hsplits he).mp hmatches
    · intro hends
      exact ⟨hends.1, (h.matches_iff hsplits hends.1).mpr hends⟩
  · intro hfound
    rw [find, hfound]
  · intro e hfound
    rw [find, hfound]
  · intro hseveral
    rw [find]
    split
    · rename_i hfound
      simp [hfound] at hseveral
    · rename_i hfound
      simp [hfound] at hseveral
    · rfl

theorem find_of_gap (h : w.IsTree) {path : String} {components : List String}
    (hsplits : Splits path components) (hgap : "" ∈ components) :
    w.find path = .error (.notFound path) := by
  obtain ⟨found, -, hfound, hanswers⟩ := h.answers hsplits
  refine hanswers.nothing (List.eq_nil_iff_forall_not_mem.mpr fun e he => ?_)
  obtain ⟨hentry, names, hnamed, hsuffix⟩ := (hfound e).mp he
  exact (h.names_proper hnamed hentry "" (hsuffix.subset hgap)).1 rfl

theorem path_eq (w : Workspace) {e : Entry} (he : w.entry? e.id = some e) :
    w.path e.id = .ok ("/".intercalate (w.pathNames e)) := by
  rw [path, entry, he]
  rfl

theorem find_own (h : w.IsTree) {e : Entry} (he : w.entry? e.id = some e) :
    w.find ("/".intercalate (w.pathNames e)) = .ok e ∨ ∃ count, 2 ≤ count ∧
      w.find ("/".intercalate (w.pathNames e)) =
        .error (.ambiguous ("/".intercalate (w.pathNames e)) count) := by
  have hnamed := h.named_pathNames he
  have hsplits := Splits.of_names hnamed.ne_nil (h.names_proper hnamed he)
  obtain ⟨found, -, hfound, hanswers⟩ := h.answers hsplits
  have hmem : e ∈ found := (hfound e).mpr ⟨he, _, hnamed, List.suffix_rfl⟩
  rcases Nat.lt_or_ge found.length 2 with hfew | hseveral
  · obtain ⟨e', rfl⟩ : ∃ e', found = [e'] :=
      List.length_eq_one_iff.mp (by have := List.length_pos_of_mem hmem; omega)
    obtain rfl := List.mem_singleton.mp hmem
    exact .inl (hanswers.single e rfl)
  · exact .inr ⟨_, hseveral, hanswers.several hseveral⟩

theorem findsPaths (h : w.IsTree) : w.FindsPaths where
  splits path := by
    obtain ⟨components, hsplits⟩ := Splits.exists_splits path
    exact ⟨components, hsplits, fun others hothers => hothers.unique hsplits⟩
  named e he := by
    have hnamed := h.named_pathNames he
    exact ⟨_, hnamed, path_eq w he, fun others hothers => hothers.unique hnamed⟩
  answers path components hsplits := h.answers hsplits
  separators path hpath := h.find_of_gap (.of_separators hpath) (by simp)
  gap path components hsplits hgap := h.find_of_gap hsplits hgap
  own e he := ⟨_, path_eq w he, h.find_own he⟩

end IsTree

end Workspace

open Workspace in
/-- Looking for a path finds whole trailing names. Whatever a workspace was asked, a path stands
for the entries whose names, from the root down, end with its components: for the one entry if
there is just one, and otherwise for a refusal, with their exact number if there are several. So
the path of an entry never leads to another one. It is the same with every workspace of every
world, whoever takes turns there. -/
theorem paths_find_trailing_names :
    (∀ requests : List Workspace.Request, (Workspace.run {} requests).FindsPaths) ∧
    ∀ (s : Scenario) (w : World), Scenario.Leads s.start w →
      ∀ (index : Nat) (hosted : Hosted), w.workspaces[index]? = some hosted →
        hosted.workspace.FindsPaths := by
  refine ⟨fun requests => (isTree_empty.run requests).findsPaths, ?_⟩
  intro s w hleads index hosted hfound
  obtain ⟨requests, hrequests⟩ := hleads.workspace hfound
  rw [hrequests]
  exact (isTree_empty.run requests).findsPaths

namespace Workspace

/-- Two files of one name, the second in an archive below the directory of the first. -/
def twoNames : List Request :=
  [.directory "src" none, .file "a.bin" (some ⟨1⟩) [1], .archive "lib.jar" (some ⟨1⟩),
    .file "a.bin" (some ⟨3⟩) [2]]

end Workspace

open Workspace in
/-- The name alone stands for both files, with the directory before it for the first; part of a
name, or a gap between two, leads nowhere. -/
theorem paths_find_trailing_names_two :
    (Workspace.run {} twoNames).FindsPaths ∧
    (Workspace.run {} twoNames).find "/a.bin/" = .error (.ambiguous "/a.bin/" 2) ∧
    (Workspace.run {} twoNames).find "src/a.bin" =
      .ok { id := ⟨2⟩, name := "a.bin", parent := some ⟨1⟩ } ∧
    (Workspace.run {} twoNames).find "bin" = .error (.notFound "bin") ∧
    (Workspace.run {} twoNames).find "src//a.bin" = .error (.notFound "src//a.bin") ∧
    ∃ hosted, (Scenario.start {}).workspaces[0]? = some hosted ∧ hosted.workspace.FindsPaths := by
  refine ⟨paths_find_trailing_names.1 twoNames, ?_, ?_, ?_, ?_, _, rfl,
    paths_find_trailing_names.2 {} _ .refl 0 { broker := 0 } rfl⟩ <;> decide +kernel

end EventHub
