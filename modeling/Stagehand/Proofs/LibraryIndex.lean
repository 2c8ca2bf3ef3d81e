import Mathlib.Data.List.Lex
import Mathlib.Data.Prod.Lex
import Stagehand.Proofs.ImportNames

/-!
# The index of libraries

Of the files with one stem the index has the one whose path comes first, whatever the order in which
the walk found them. The reason is that paths are ordered totally (`FilePath.lt_iff`: by the places
of their steps), that no two files below a directory take the same steps (`FileTree.found_apart`),
and that a fold which lets the first have the stem finds the first of the sorted files
(`Libraries.get?_foldl_addFile`). Each of the others is reported once
(`Libraries.reports_foldl_addFile`).
-/

namespace Stagehand

open Lang

/-! ## The order of paths -/

namespace FilePath

/-- The place of a step among the steps: its kind, and its text if it is a name. -/
def Component.rank : Component → Nat ×ₗ String
  | .root => toLex (0, "")
  | .current => toLex (1, "")
  | .parent => toLex (2, "")
  | .normal name => toLex (3, name)

theorem Component.lt_iff (a b : Component) : a.lt b = true ↔ a.rank < b.rank := by
  cases a <;> cases b <;> simp [Component.lt, Component.rank, Prod.Lex.toLex_lt_toLex]

theorem Component.rank_injective {a b : Component} (h : a.rank = b.rank) : a = b := by
  cases a <;> cases b <;> simp_all [Component.rank]

/-- The places of the steps of a path. -/
def ranks (p : FilePath) : List (Nat ×ₗ String) := p.components.map Component.rank

theorem componentsLt_iff : ∀ as bs : List Component,
    componentsLt as bs = true ↔ as.map Component.rank < bs.map Component.rank
  | _, [] => by simp [componentsLt]
  | [], _ :: _ => by simp [componentsLt]
  | a :: as, b :: bs => by
    have heq : a = b ↔ a.rank = b.rank := ⟨congrArg _, Component.rank_injective⟩
    simp only [componentsLt, Bool.or_eq_true, Bool.and_eq_true, beq_iff_eq, Component.lt_iff,
      componentsLt_iff as bs, List.map_cons, List.cons_lt_cons_iff, heq]

variable {p q r : FilePath}

/-- Paths are ordered as the lists of the places of their steps. -/
theorem lt_iff : p.lt q = true ↔ p.ranks < q.ranks :=
  componentsLt_iff p.components q.components

theorem le_iff : p.le q = true ↔ p.ranks ≤ q.ranks := by
  rw [le, Bool.not_eq_true', ← Bool.not_eq_true, lt_iff, not_lt]

theorem le_refl (p : FilePath) : p.le p = true := le_iff.mpr le_rfl

theorem le_trans (hpq : p.le q = true) (hqr : q.le r = true) : p.le r = true :=
  le_iff.mpr ((le_iff.mp hpq).trans (le_iff.mp hqr))

theorem le_total (p q : FilePath) : (p.le q || q.le p) = true := by
  rw [Bool.or_eq_true, le_iff, le_iff]
  exact Std.le_total

/-- Two paths that are in order both ways take the same steps. -/
theorem components_eq_of_le (hpq : p.le q = true) (hqp : q.le p = true) :
    p.components = q.components :=
  List.map_injective_iff.mpr (fun _ _ => Component.rank_injective)
    (le_antisymm (le_iff.mp hpq) (le_iff.mp hqp))

/-- No two of the paths take the same steps. -/
def Apart (ps : List FilePath) : Prop := (ps.map components).Nodup

theorem Apart.perm {ps qs : List FilePath} (h : Apart ps) (hperm : qs.Perm ps) : Apart qs :=
  (hperm.map components).nodup_iff.mpr h

theorem Apart.eq {ps : List FilePath} (h : Apart ps) (hp : p ∈ ps) (hq : q ∈ ps)
    (hpq : p.le q = true) (hqp : q.le p = true) : p = q :=
  List.inj_on_of_nodup_map h hp hq (components_eq_of_le hpq hqp)

theorem sorted_mergeSort (ps : List FilePath) :
    (ps.mergeSort le).Pairwise fun p q => p.le q = true :=
  @List.pairwise_mergeSort _ le (fun _ _ _ hpq hqr => le_trans hpq hqr) le_total ps

/-- Sorting forgets the order in which the paths came. -/
theorem Apart.mergeSort_eq {ps qs : List FilePath} (h : Apart ps) (hperm : qs.Perm ps) :
    qs.mergeSort le = ps.mergeSort le := by
  refine List.Perm.eq_of_pairwise (fun p q hp hq => ?_) (sorted_mergeSort qs)
    (sorted_mergeSort ps) ((qs.mergeSort_perm le).trans (hperm.trans (ps.mergeSort_perm le).symm))
  exact h.eq (hperm.subset (List.mem_mergeSort.mp hp)) (List.mem_mergeSort.mp hq)

/-- The name of an entry is the last step of its path. -/
theorem components_join {dir : FilePath} {name : String} (hdir : dir.text ≠ "") (h : IsName name) :
    (dir.join ⟨name⟩).components = dir.components ++ [.normal name] := by
  obtain ⟨above, hjoin, habove, habs⟩ := pieces_join hdir h.1
  have hname := component?_of_isName h
  have hnothing : component? false "" = none := rfl
  have hbegin : component? true "" = none := rfl
  unfold components
  rw [hjoin, habs]
  cases dir.isAbsolute with
  | true => rcases habove with heq | heq <;> simp [heq, hname, hnothing]
  | false =>
    -- the first piece is read in its own way, so there must be one in front of the name
    have hpieces : dir.pieces ≠ [] := by simp [pieces, splitOn_ne_nil]
    cases above with
    | nil =>
      rcases habove with heq | heq
      · exact absurd heq hpieces
      · simp [heq, hname, hbegin]
    | cons first above => rcases habove with heq | heq <;> simp [heq, hname, hnothing]

end FilePath

/-! ## The files below a directory -/

mutual

/-- No directory has two entries of one name, as a file system has it. -/
def Node.distinct : Node → Bool
  | .dir entries => Node.distinctEntries entries
  | .file _ _ | .link _ => true

/-- No two of the entries have one name, and so it is below them. -/
def Node.distinctEntries : List (String × Node) → Bool
  | [] => true
  | (name, n) :: rest =>
    !(rest.map (·.1)).contains name && n.distinct && Node.distinctEntries rest

end

namespace Node

theorem distinctEntries_mem {entries : List (String × Node)} (h : distinctEntries entries = true)
    {e : String × Node} (he : e ∈ entries) : e.2.distinct = true := by
  induction entries with
  | nil => nomatch he
  | cons first rest ih =>
    obtain ⟨name, n⟩ := first
    simp only [distinctEntries, Bool.and_eq_true] at h
    rcases List.mem_cons.mp he with rfl | he
    · exact h.1.2
    · exact ih h.2 he

theorem distinctEntries_nodup {entries : List (String × Node)}
    (h : distinctEntries entries = true) : (entries.map (·.1)).Nodup := by
  induction entries with
  | nil => exact List.nodup_nil
  | cons first rest ih =>
    obtain ⟨name, n⟩ := first
    simp only [distinctEntries, Bool.and_eq_true, Bool.not_eq_true', List.contains_eq_mem,
      decide_eq_false_iff_not] at h
    exact List.nodup_cons.mpr ⟨h.1.1, ih h.2⟩

theorem distinct_entry {n child : Node} {name : String} (h : n.distinct = true)
    (hc : n.entry? name = some child) : child.distinct = true := by
  cases n with
  | dir entries =>
    obtain ⟨e, hfind, rfl⟩ := Option.map_eq_some_iff.mp hc
    exact distinctEntries_mem h (List.mem_of_find?_eq_some hfind)
  | file | link => nomatch hc

theorem distinct_descend : ∀ {names : List String} {n m : Node}, n.distinct = true →
    n.descend? names = some m → m.distinct = true
  | [], n, m, h, hm => Option.some.inj hm ▸ h
  | name :: names, n, m, h, hm => by
    unfold descend? at hm
    split at hm
    · rename_i child hchild
      exact distinct_descend (distinct_entry h hchild) hm
    · nomatch hm

theorem distinct_names {n : Node} (h : n.distinct = true) : n.names.Nodup := by
  cases n with
  | dir entries => exact distinctEntries_nodup h
  | file | link => exact List.nodup_nil

end Node

namespace FileTree

open Libraries (filesOf)

variable {t : FileTree}

theorem distinct_names (h : t.root.distinct = true) (spot : Spot) :
    (((t.node? spot).map Node.names).getD []).Nodup := by
  cases hnode : t.node? spot with
  | none => exact List.nodup_nil
  | some n =>
    refine Node.distinct_names ?_
    cases spot with
    | inside trail => exact Node.distinct_descend h hnode
    | outside =>
      cases hnode
      rfl

/-- A walk of a directory takes its entries one by one. An entry comes to nothing, to a file or to a
walk of its own. -/
theorem walkDir_succ (t : FileTree) (fuel : Nat) (path : FilePath) (spot : Spot)
    (above : List (Spot × FilePath)) : ∃ below : String → List FilePath,
      filesOf (t.walkDir (fuel + 1) path spot above) =
        ((((t.node? spot).map Node.names).getD []).mergeSort fun a b => decide (a ≤ b)).flatMap
          below ∧
      ∀ name, below name = [] ∨ below name = [path.join ⟨name⟩] ∨ ∃ next above',
        below name = filesOf (t.walkDir fuel (path.join ⟨name⟩) next above') := by
  refine ⟨_, List.filterMap_flatMap, fun name => ?_⟩
  dsimp only
  split
  · exact .inl rfl
  · split
    · exact .inr (.inl rfl)
    · split
      · exact .inl rfl
      · exact .inr (.inr ⟨_, _, rfl⟩)
    · exact .inl rfl

/-- The path of what an entry comes to goes through the entry, if that is so for walks. -/
theorem below_components {fuel : Nat} {child f : FilePath} {below : List FilePath}
    (hbelow : below = [] ∨ below = [child] ∨
      ∃ next above, below = filesOf (t.walkDir fuel child next above))
    (hwalk : ∀ next above, f ∈ filesOf (t.walkDir fuel child next above) →
      ∃ steps, f.components = child.components ++ steps) (hf : f ∈ below) :
    ∃ steps, f.components = child.components ++ steps := by
  rcases hbelow with rfl | rfl | ⟨next, above, rfl⟩
  · nomatch hf
  · exact ⟨[], by rw [List.mem_singleton.mp hf, List.append_nil]⟩
  · exact hwalk next above hf

/-- The path of what is found on a walk goes through the directory. -/
theorem walkDir_components (ht : t.root.proper = true) {f : FilePath} : ∀ {fuel : Nat}
    {path : FilePath} {spot : Spot} {above : List (Spot × FilePath)}, path.text ≠ "" →
      f ∈ filesOf (t.walkDir fuel path spot above) →
        ∃ steps, f.components = path.components ++ steps
  | 0, _, _, _, _, hf => nomatch hf
  | fuel + 1, path, spot, above, hpath, hf => by
    obtain ⟨below, hwalk, hbelow⟩ := t.walkDir_succ fuel path spot above
    rw [hwalk] at hf
    obtain ⟨name, hname, hf⟩ := List.mem_flatMap.mp hf
    have hproper := t.proper_names ht (List.mem_mergeSort.mp hname)
    have hchild := (Below.entry .root hproper).ne_empty hpath
    obtain ⟨steps, hsteps⟩ := below_components (hbelow name)
      (fun _ _ => walkDir_components ht hchild) hf
    rw [FilePath.components_join hpath hproper, List.append_assoc] at hsteps
    exact ⟨_, hsteps⟩

/-- A walk of a directory finds no path twice. -/
theorem walkDir_apart (ht : t.root.proper = true) (hd : t.root.distinct = true) :
    ∀ {fuel : Nat} {path : FilePath} {spot : Spot} {above : List (Spot × FilePath)},
      path.text ≠ "" → FilePath.Apart (filesOf (t.walkDir fuel path spot above))
  | 0, _, _, _, _ => List.nodup_nil
  | fuel + 1, path, spot, above, hpath => by
    obtain ⟨below, hwalk, hbelow⟩ := t.walkDir_succ fuel path spot above
    have hproper : ∀ name, name ∈ (((t.node? spot).map Node.names).getD []).mergeSort
        (fun a b => decide (a ≤ b)) → FilePath.IsName name :=
      fun name hname => t.proper_names ht (List.mem_mergeSort.mp hname)
    have hthrough : ∀ name, FilePath.IsName name → ∀ f ∈ below name,
        ∃ steps, f.components = path.components ++ .normal name :: steps := by
      intro name hname f hf
      have hchild := (Below.entry .root hname).ne_empty hpath
      obtain ⟨steps, hsteps⟩ := below_components (hbelow name)
        (fun _ _ => walkDir_components ht hchild) hf
      rw [FilePath.components_join hpath hname, List.append_assoc] at hsteps
      exact ⟨steps, hsteps⟩
    rw [hwalk, FilePath.Apart, List.Nodup, List.pairwise_map, List.pairwise_flatMap]
    constructor
    · intro name hname
      rcases hbelow name with heq | heq | ⟨next, above', heq⟩ <;> rw [heq]
      · exact List.Pairwise.nil
      · exact List.pairwise_singleton _ _
      · have hchild := (Below.entry .root (hproper name hname)).ne_empty hpath
        exact List.pairwise_map.mp (walkDir_apart ht hd hchild)
    · have hnodup := (List.mergeSort_perm _ fun a b => decide (a ≤ b)).nodup_iff.mpr
        (t.distinct_names hd spot)
      refine hnodup.imp_of_mem fun {name other} hname hother hne f hf g hg hsame => hne ?_
      obtain ⟨steps, hsteps⟩ := hthrough name (hproper name hname) f hf
      obtain ⟨steps', hsteps'⟩ := hthrough other (hproper other hother) g hg
      rw [hsteps, hsteps'] at hsame
      have hhead := List.append_cancel_left hsame
      cases hhead
      rfl

/-- The files below a directory; without a directory there are none. -/
def found (t : FileTree) (root : FilePath) : List FilePath :=
  if t.isDir root then
    match t.walk root with
    | .ok findings => filesOf findings
    | .error _ => []
  else []

/-- No two files below a directory have one path. -/
theorem found_apart (ht : t.root.proper = true) (hd : t.root.distinct = true) (root : FilePath) :
    FilePath.Apart (t.found root) := by
  unfold found
  split
  · split
    · rename_i findings hwalk
      unfold walk at hwalk
      split at hwalk
      · nomatch hwalk
      · rename_i spot hspot
        split at hwalk
        · obtain rfl := Except.ok.inj hwalk
          exact List.pairwise_singleton _ _
        · obtain rfl := Except.ok.inj hwalk
          exact walkDir_apart ht hd (resolve_ok hspot).1
        · nomatch hwalk
    · exact List.Pairwise.nil
  · exact List.Pairwise.nil

end FileTree

/-! ## The first file with a stem -/

/-- Two maps in order are equal if they have the same under each key. -/
theorem Entries.Ordered.ext {α : Type} {m n : List (String × α)} (hm : Ordered m) (hn : Ordered n)
    (h : ∀ key, get? key m = get? key n) : m = n := by
  have hmem : ∀ e, e ∈ m ↔ e ∈ n := fun e =>
    ⟨fun he => mem_of_get? (h e.1 ▸ get?_of_mem hm he),
      fun he => mem_of_get? ((h e.1).symm ▸ get?_of_mem hn he)⟩
  have hnodup : ∀ {l : List (String × α)}, Ordered l → l.Nodup :=
    fun hl => hl.imp fun hlt heq => hlt.ne (congrArg Prod.fst heq)
  have hperm := (List.perm_ext_iff_of_nodup (hnodup hm) (hnodup hn)).mpr hmem
  exact hperm.eq_of_pairwise (fun _ _ _ _ hlt hgt => absurd hgt hlt.asymm) hm hn

namespace Libraries

/-- Whether the stem of a file is this one. -/
def hasStem (stem : String) (file : FilePath) : Bool := file.stem? == some stem

/-- The report on a file whose stem another file has. -/
def duplicate (stem : String) (kept file : FilePath) : LogRecord :=
  Level.warn.report "duplicate library stem"
    [("library", stem), ("kept", kept.text), ("ignored", file.text)]

/-- A file is passed over, or it gets its stem, or it is reported. -/
theorem addFile_cases (index : List (String × FilePath) × List LogRecord) (file : FilePath) :
    file.stem? = none ∧ addFile index file = index ∨
      ∃ stem, file.stem? = some stem ∧
        (Entries.get? stem index.1 = none ∧
            addFile index file = (Entries.put stem file index.1, index.2) ∨
          ∃ kept, Entries.get? stem index.1 = some kept ∧
            addFile index file = (index.1, index.2 ++ [duplicate stem kept file])) := by
  unfold addFile
  cases hfile : file.stem? with
  | none => exact .inl ⟨rfl, rfl⟩
  | some stem =>
    refine .inr ⟨stem, rfl, ?_⟩
    dsimp only
    cases hkept : Entries.get? stem index.1 with
    | none => exact .inl ⟨rfl, rfl⟩
    | some kept => exact .inr ⟨kept, rfl, rfl⟩

theorem get?_addFile (stem : String) (index : List (String × FilePath) × List LogRecord)
    (file : FilePath) : Entries.get? stem (addFile index file).1 =
      (Entries.get? stem index.1).or (if hasStem stem file then some file else none) := by
  rcases addFile_cases index file with
    ⟨hfile, heq⟩ | ⟨own, hfile, ⟨hnone, heq⟩ | ⟨kept, hkept, heq⟩⟩ <;> rw [heq, hasStem, hfile]
  · simp
  · by_cases hown : own = stem
    · subst hown
      simp [hnone]
    · simp [hown, Entries.get?_put_of_ne (Ne.symm hown)]
  · by_cases hown : own = stem
    · subst hown
      simp [hkept]
    · simp [hown]

/-- After a fold over files, a stem is with the file that had it before, or else with the first that
has it. -/
theorem get?_foldl_addFile (stem : String) (files : List FilePath)
    (index : List (String × FilePath) × List LogRecord) :
    Entries.get? stem (files.foldl addFile index).1 =
      (Entries.get? stem index.1).or (files.find? (hasStem stem)) := by
  induction files generalizing index with
  | nil => simp
  | cons file files ih =>
    rw [List.foldl_cons, ih, get?_addFile, Option.or_assoc, List.find?_cons]
    cases hasStem stem file <;> simp

theorem ordered_foldl_addFile (files : List FilePath)
    {index : List (String × FilePath) × List LogRecord} (h : Entries.Ordered index.1) :
    Entries.Ordered (files.foldl addFile index).1 := by
  induction files generalizing index with
  | nil => exact h
  | cons file files ih =>
    refine ih ?_
    rcases addFile_cases index file with ⟨-, heq⟩ | ⟨own, -, ⟨-, heq⟩ | ⟨kept, -, heq⟩⟩ <;>
      rw [heq]
    · exact h
    · exact Entries.ordered_put h
    · exact h

/-- What there is to report on a file whose stem an index has for another. -/
def warning? (index : List (String × FilePath)) (file : FilePath) : Option LogRecord :=
  file.stem?.bind fun stem => (Entries.get? stem index).bind fun kept =>
    if kept = file then none else some (duplicate stem kept file)

theorem warning?_message {index : List (String × FilePath)} {file : FilePath} {r : LogRecord}
    (h : warning? index file = some r) : r.message = "duplicate library stem" := by
  obtain ⟨stem, -, h⟩ := Option.bind_eq_some_iff.mp h
  obtain ⟨kept, -, h⟩ := Option.bind_eq_some_iff.mp h
  split at h
  · nomatch h
  · exact Option.some.inj h ▸ rfl

/-- A fold over files reports those that the index does not have in the end. -/
theorem reports_foldl_addFile : ∀ (files : List FilePath)
    (index : List (String × FilePath) × List LogRecord), files.Nodup →
      (∀ e ∈ index.1, e.2 ∉ files) → (files.foldl addFile index).2 =
        index.2 ++ files.filterMap (warning? (files.foldl addFile index).1)
  | [], index, _, _ => by simp
  | file :: files, index, hnodup, hnew => by
    obtain ⟨hfile, hnodup⟩ := List.nodup_cons.mp hnodup
    have hrest : ∀ e ∈ index.1, e.2 ∉ files :=
      fun e he hmem => hnew e he (List.mem_cons_of_mem _ hmem)
    -- what stands under a stem after this file stands there in the end
    have hend : ∀ {stem kept}, Entries.get? stem (addFile index file).1 = some kept →
        Entries.get? stem (files.foldl addFile (addFile index file)).1 = some kept := by
      intro stem kept hkept
      rw [get?_foldl_addFile, hkept, Option.some_or]
    rw [List.foldl_cons]
    rcases addFile_cases index file with
      ⟨hstem, heq⟩ | ⟨stem, hstem, ⟨hget, heq⟩ | ⟨kept, hget, heq⟩⟩ <;> rw [heq] at hend ⊢
    · rw [List.filterMap_cons_none (by simp [warning?, hstem])]
      exact reports_foldl_addFile files index hnodup hrest
    · have hkept := hend (Entries.get?_put_self stem file index.1)
      have hput : ∀ e ∈ Entries.put stem file index.1, e.2 ∉ files := by
        intro e he
        rcases Entries.mem_put he with rfl | he
        · exact hfile
        · exact hrest e he
      rw [List.filterMap_cons_none (by simp [warning?, hstem, hkept])]
      exact reports_foldl_addFile files _ hnodup hput
    · have hkept := hend hget
      have hne : kept ≠ file := fun heq =>
        hnew _ (Entries.mem_of_get? hget) (heq ▸ List.mem_cons_self)
      have hreport : warning? (files.foldl addFile (index.1,
          index.2 ++ [duplicate stem kept file])).1 file = some (duplicate stem kept file) := by
        simp [warning?, hstem, hkept, hne]
      have hmore := reports_foldl_addFile files (index.1, index.2 ++ [duplicate stem kept file])
        hnodup hrest
      rw [List.filterMap_cons_some hreport, hmore, List.append_assoc, List.singleton_append]

theorem ordered_indexFiles (files : List FilePath) : Entries.Ordered (indexFiles files).1 :=
  ordered_foldl_addFile _ Entries.ordered_nil

theorem get?_indexFiles (stem : String) (files : List FilePath) :
    Entries.get? stem (indexFiles files).1 =
      (files.mergeSort FilePath.le).find? (hasStem stem) := by
  rw [indexFiles, get?_foldl_addFile, Entries.get?, Option.none_or]

theorem reports_indexFiles {files : List FilePath} (h : FilePath.Apart files) :
    (indexFiles files).2 =
      (files.mergeSort FilePath.le).filterMap (warning? (indexFiles files).1) := by
  have hnodup := (files.mergeSort_perm FilePath.le).nodup_iff.mpr (List.Nodup.of_map _ h)
  rw [indexFiles, reports_foldl_addFile _ _ hnodup (List.forall_mem_nil _), List.nil_append]

/-- The file is one of those with the stem, and its path comes first among theirs. -/
structure First (files : List FilePath) (stem : String) (file : FilePath) : Prop where
  mem : file ∈ files
  named : file.stem? = some stem
  le : ∀ other ∈ files, other.stem? = some stem → file.le other = true

/-- What has a stem in the index is the first with it. -/
theorem first_of_get? {files : List FilePath} {stem : String} {file : FilePath}
    (h : Entries.get? stem (indexFiles files).1 = some file) : First files stem file := by
  rw [get?_indexFiles] at h
  obtain ⟨hstem, before, after, hsplit, hbefore⟩ := List.find?_eq_some_iff_append.mp h
  have hmem : ∀ {f}, f ∈ before ++ file :: after ↔ f ∈ files := by
    intro f
    rw [← hsplit]
    exact List.mem_mergeSort
  refine ⟨hmem.mp (by simp), beq_iff_eq.mp hstem, fun other hother hsame => ?_⟩
  rcases List.mem_append.mp (hmem.mpr hother) with hother | hother
  · have hnot := hbefore other hother
    simp [hasStem, hsame] at hnot
  · rcases List.mem_cons.mp hother with rfl | hother
    · exact FilePath.le_refl other
    · have hsorted := FilePath.sorted_mergeSort files
      rw [hsplit] at hsorted
      exact List.rel_of_pairwise_cons (List.pairwise_append.mp hsorted).2.1 hother

/-- A stem that a file has is in the index. -/
theorem get?_of_stem {files : List FilePath} {stem : String} {file : FilePath}
    (hmem : file ∈ files) (hstem : file.stem? = some stem) :
    ∃ kept, Entries.get? stem (indexFiles files).1 = some kept := by
  rw [get?_indexFiles]
  exact Option.isSome_iff_exists.mp
    (List.find?_isSome.mpr ⟨file, List.mem_mergeSort.mpr hmem, beq_iff_eq.mpr hstem⟩)

theorem First.eq {files : List FilePath} (h : FilePath.Apart files) {stem : String}
    {file other : FilePath} (hfile : First files stem file) (hother : First files stem other) :
    file = other :=
  h.eq hfile.mem hother.mem (hfile.le other hother.mem hother.named)
    (hother.le file hfile.mem hfile.named)

/-- The index has a stem for a file exactly if this is the first with it. -/
theorem get?_iff_first {files : List FilePath} (h : FilePath.Apart files) {stem : String}
    {file : FilePath} : Entries.get? stem (indexFiles files).1 = some file ↔
      First files stem file := by
  refine ⟨first_of_get?, fun hfile => ?_⟩
  obtain ⟨kept, hkept⟩ := get?_of_stem hfile.mem hfile.named
  rwa [First.eq h hfile (first_of_get? hkept)]

theorem mem_keys_indexFiles {files : List FilePath} {stem : String} :
    stem ∈ Entries.keys (indexFiles files).1 ↔ ∃ file ∈ files, file.stem? = some stem := by
  rw [Entries.mem_keys, Option.isSome_iff_exists]
  constructor
  · rintro ⟨file, hfile⟩
    exact ⟨file, (first_of_get? hfile).mem, (first_of_get? hfile).named⟩
  · rintro ⟨file, hmem, hstem⟩
    exact get?_of_stem hmem hstem

/-- A file behind another with its stem adds nothing to the index. -/
theorem indexFiles_more {files more : List FilePath} (h : FilePath.Apart files)
    {file kept : FilePath} {stem : String} (hmore : more.Perm (file :: files))
    (hkept : kept ∈ files) (hkstem : kept.stem? = some stem) (hfstem : file.stem? = some stem)
    (hlt : kept.lt file = true) : (indexFiles more).1 = (indexFiles files).1 := by
  refine (ordered_indexFiles more).ext (ordered_indexFiles files) fun s => ?_
  have hmem : ∀ f, f ∈ more ↔ f = file ∨ f ∈ files := fun f => by rw [hmore.mem_iff, List.mem_cons]
  -- the first among more files is not the new one
  have hfirst : ∀ f, First more s f → First files s f := by
    intro f hf
    refine ⟨?_, hf.named, fun g hg => hf.le g ((hmem g).mpr (.inr hg))⟩
    rcases (hmem f).mp hf.mem with rfl | hin
    · obtain rfl : s = stem := Option.some.inj (hf.named.symm.trans hfstem)
      have hle := hf.le kept ((hmem kept).mpr (.inr hkept)) hkstem
      rw [FilePath.le, hlt] at hle
      nomatch hle
    · exact hin
  cases hget : Entries.get? s (indexFiles more).1 with
  | some f => exact ((get?_iff_first h).mpr (hfirst f (first_of_get? hget))).symm
  | none =>
    cases hold : Entries.get? s (indexFiles files).1 with
    | none => rfl
    | some f =>
      have hf := first_of_get? hold
      obtain ⟨g, hg⟩ := get?_of_stem ((hmem f).mpr (.inr hf.mem)) hf.named
      rw [hget] at hg
      nomatch hg

/-! ## The law -/

/-- What the index comes to is what the files come to, between the reports of the walk. -/
theorem index_eq (files : FileTree) (root : FilePath) (globals : List String) :
    ∃ before summary, index files root globals =
        (⟨(indexFiles (files.found root)).1, globals⟩,
          before ++ (indexFiles (files.found root)).2 ++ [summary]) ∧
      ∀ r ∈ before ++ [summary], r.message ≠ "duplicate library stem" := by
  have htroubles : ∀ findings, ∀ r ∈ troubles "dir" root "skipping library entry: " findings,
      r.message ≠ "duplicate library stem" := by
    intro findings r hr
    obtain ⟨finding, -, hfinding⟩ := List.mem_filterMap.mp hr
    cases finding with
    | file f => nomatch hfinding
    | trouble e =>
      obtain rfl := Option.some.inj hfinding
      intro heq
      have hchars := congrArg String.toList heq
      simp [Level.report, String.toList_append] at hchars
  unfold index FileTree.found
  dsimp only
  split
  · cases files.walk root with
    | ok findings =>
      refine ⟨_, _, rfl, fun r hr => ?_⟩
      rcases List.mem_append.mp hr with hr | hr
      · exact htroubles findings r hr
      · rw [List.mem_singleton.mp hr]
        simp [Level.report]
    | error e =>
      refine ⟨_, _, rfl, fun r hr => ?_⟩
      rcases List.mem_append.mp hr with hr | hr
      · exact htroubles _ r hr
      · rw [List.mem_singleton.mp hr]
        simp [Level.report]
  · refine ⟨_, _, rfl, fun r hr => ?_⟩
    simp only [List.cons_append, List.nil_append, List.mem_cons, List.not_mem_nil, or_false] at hr
    rcases hr with rfl | rfl <;> simp [Level.report]

/-- How the libraries below a directory are indexed when a walk finds the files in some order. -/
structure IndexLaw (files : FileTree) (root : FilePath) (globals : List String)
    (found : List FilePath) : Prop where
  /-- No file is found twice. -/
  apart : FilePath.Apart found
  /-- The order does not matter. -/
  order : (index files root globals).1 = ⟨(indexFiles found).1, globals⟩
  /-- A stem is with the file whose path comes first among those with it. -/
  first : ∀ stem file, Entries.get? stem (index files root globals).1.files = some file ↔
    First found stem file
  /-- The names are the stems of the files, strictly ascending byte by byte. -/
  names : ∀ stem, stem ∈ (index files root globals).1.names ↔
    ∃ file ∈ found, file.stem? = some stem
  ascending : (index files root globals).1.names.Pairwise fun a b => utf8Bytes a < utf8Bytes b
  /-- Each file that is not the first with its stem is reported once, with the one that is. -/
  warned : ((index files root globals).2.filter (·.message = "duplicate library stem")).Perm
    (found.filterMap (warning? (index files root globals).1.files))
  /-- One file more changes nothing, for no import, if another with its stem comes before it. -/
  added : ∀ {files' : FileTree} {file kept : FilePath} {stem : String}, kept ∈ found →
    kept.stem? = some stem → file.stem? = some stem → kept.lt file = true →
      (files'.found root).Perm (file :: found) →
        (index files' root globals).1 = (index files root globals).1 ∧
          ∀ text target, (index files' root globals).1.Chooses text target ↔
            (index files root globals).1.Chooses text target

/-- Whatever library tree there is, and in whatever order its files are found. -/
theorem index_lawful {files : FileTree} (hf : files.root.proper = true)
    (hd : files.root.distinct = true) (root : FilePath) (globals : List String)
    {found : List FilePath} (hfound : found.Perm (files.found root)) :
    IndexLaw files root globals found := by
  have hapart : FilePath.Apart found := (files.found_apart hf hd root).perm hfound
  obtain ⟨before, summary, hindex, hothers⟩ := index_eq files root globals
  have hsame : indexFiles (files.found root) = indexFiles found := by
    rw [indexFiles, indexFiles, hapart.mergeSort_eq hfound.symm]
  rw [hsame] at hindex
  have hfiles : (index files root globals).1 = ⟨(indexFiles found).1, globals⟩ :=
    congrArg Prod.fst hindex
  constructor
  case apart => exact hapart
  case order => exact hfiles
  case first =>
    intro stem file
    rw [hfiles]
    exact get?_iff_first hapart
  case names =>
    intro stem
    rw [hfiles]
    exact mem_keys_indexFiles
  case ascending =>
    rw [hfiles]
    exact Entries.keys_ascending (ordered_indexFiles found)
  case warned =>
    have hnone : ∀ rs : List LogRecord, (∀ r ∈ rs, r.message ≠ "duplicate library stem") →
        rs.filter (·.message = "duplicate library stem") = [] :=
      fun rs hrs => List.filter_eq_nil_iff.mpr fun r hr => by simpa using hrs r hr
    have hall : ∀ r ∈ (indexFiles found).2, r.message = "duplicate library stem" := by
      rw [reports_indexFiles hapart]
      intro r hr
      obtain ⟨file, -, hfile⟩ := List.mem_filterMap.mp hr
      exact warning?_message hfile
    rw [hfiles, hindex, List.filter_append, List.filter_append,
      hnone before fun r hr => hothers r (List.mem_append_left _ hr),
      hnone [summary] fun r hr => hothers r (List.mem_append_right _ hr), List.nil_append,
      List.append_nil, List.filter_eq_self.mpr fun r hr => by simpa using hall r hr,
      reports_indexFiles hapart]
    exact (found.mergeSort_perm FilePath.le).filterMap _
  case added =>
    intro files' file kept stem hkept hkstem hfstem hlt hmore
    obtain ⟨before', summary', hindex', -⟩ := index_eq files' root globals
    have heq : (index files' root globals).1 = (index files root globals).1 := by
      rw [hindex', hfiles]
      exact congrArg (Libraries.mk · globals)
        (indexFiles_more hapart hmore hkept hkstem hfstem hlt)
    exact ⟨heq, fun text target => by rw [heq]⟩

/-- Two libraries with one stem. In the order of texts the second path comes first. -/
def twinFiles : FileTree :=
  ⟨.dir [("libraries", .dir [("a", .dir [("z.rhai", .file ⟨#[]⟩ 0)]),
    ("a-b", .dir [("z.rhai", .file ⟨#[]⟩ 0)])])]⟩

theorem twinFiles_found : twinFiles.found ⟨"libraries"⟩ =
    [⟨"libraries/a/z.rhai"⟩, ⟨"libraries/a-b/z.rhai"⟩] := by
  have hdir : twinFiles.isDir ⟨"libraries"⟩ = true := by decide +kernel
  have hnames : ((twinFiles.node? (.inside ["libraries"])).map Node.names).getD [] =
      ["a", "a-b"] := by decide +kernel
  have hfile : ∀ dir ∈ ["a", "a-b"], ((twinFiles.node? (.inside [dir, "libraries"])).map
      Node.names).getD [] = ["z.rhai"] := by decide +kernel
  have hbelow : ∀ dir ∈ ["a", "a-b"], ∀ fuel path above, Libraries.filesOf
      (twinFiles.walkDir (fuel + 1) path (.inside [dir, "libraries"]) above) =
        [path.join ⟨"z.rhai"⟩] := by
    intro dir hdir fuel path above
    rw [FileTree.walkDir, hfile dir hdir, List.mergeSort_singleton]
    rcases List.mem_pair.mp hdir with rfl | rfl <;> rfl
  have hwalk : twinFiles.walk ⟨"libraries"⟩ = .ok (twinFiles.walkDir 7 ⟨"libraries"⟩
      (.inside ["libraries"]) [(.inside ["libraries"], ⟨"libraries"⟩)]) := rfl
  have hboth : filesOf (twinFiles.walkDir 7 ⟨"libraries"⟩ (.inside ["libraries"])
        [(.inside ["libraries"], ⟨"libraries"⟩)]) =
      filesOf (twinFiles.walkDir 6 ⟨"libraries/a"⟩ (.inside ["a", "libraries"])
        [(.inside ["a", "libraries"], ⟨"libraries/a"⟩), (.inside ["libraries"], ⟨"libraries"⟩)]) ++
      filesOf (twinFiles.walkDir 6 ⟨"libraries/a-b"⟩ (.inside ["a-b", "libraries"])
        [(.inside ["a-b", "libraries"], ⟨"libraries/a-b"⟩),
          (.inside ["libraries"], ⟨"libraries"⟩)]) := by
    rw [FileTree.walkDir, hnames, List.mergeSort_of_pairwise (by decide +kernel), filesOf,
      List.filterMap_flatMap, List.flatMap_cons, List.flatMap_singleton]
    rfl
  rw [FileTree.found, if_pos hdir, hwalk]
  dsimp only
  rw [hboth, hbelow "a" (by simp), hbelow "a-b" (by simp)]
  rfl

/-- The stem is with the first in the order of steps, whichever was found first. -/
theorem index_lawful_twins : twinFiles.root.proper = true ∧ twinFiles.root.distinct = true ∧
    [⟨"libraries/a-b/z.rhai"⟩, ⟨"libraries/a/z.rhai"⟩].Perm (twinFiles.found ⟨"libraries"⟩) ∧
    IndexLaw twinFiles ⟨"libraries"⟩ [] [⟨"libraries/a-b/z.rhai"⟩, ⟨"libraries/a/z.rhai"⟩] ∧
    Entries.get? "z" (index twinFiles ⟨"libraries"⟩ []).1.files =
      some ⟨"libraries/a/z.rhai"⟩ := by
  have hproper : twinFiles.root.proper = true := by decide
  have hdistinct : twinFiles.root.distinct = true := by decide
  have hperm : [⟨"libraries/a-b/z.rhai"⟩, ⟨"libraries/a/z.rhai"⟩].Perm
      (twinFiles.found ⟨"libraries"⟩) := by
    rw [twinFiles_found]
    exact List.Perm.swap _ _ _
  have law := index_lawful hproper hdistinct ⟨"libraries"⟩ [] hperm
  refine ⟨hproper, hdistinct, hperm, law, (law.first _ _).mpr ⟨by simp, by decide, ?_⟩⟩
  decide

end Libraries
end Stagehand
