import Stagehand.Lang.Import
import Stagehand.Proofs.Coverage
import Stagehand.Proofs.KeyOrder

/-!
# The names of libraries

The index knows a library by the stem of its file. The text of an import is taken for a path, of
which the stem counts (`importStem_eq`). For the file name, and for a path that ends in it, that is
the stem in the index. For a stem it is the stem of a stem: the same if there is no dot in it but in
front, and otherwise less than the stem (`importStem_eq_self`), so that the import finds another
library or none.
-/

namespace Stagehand

open Lang

/-! ## The last piece of a path -/

/-- A list in which something occurs can be cut at its last occurrence. -/
theorem exists_last_of_mem {α : Type} [DecidableEq α] {a : α} {as : List α} (h : a ∈ as) :
    ∃ before after, as = before ++ a :: after ∧ a ∉ after := by
  obtain ⟨xs, ys, hreverse, hnot⟩ := List.eq_append_cons_of_mem (List.mem_reverse.mpr h)
  refine ⟨ys.reverse, xs.reverse, ?_, fun hmem => hnot (List.mem_reverse.mp hmem)⟩
  rw [← List.reverse_reverse as, hreverse]
  simp

namespace FilePath

/-- The last piece is what stands behind the last separator, or all there is. -/
theorem splitOn_getLast? (sep : Char) (cs : List Char) : ∃ p, sep ∉ p ∧
    (splitOn sep cs).getLast? = some p ∧ (cs = p ∨ ∃ before, cs = before ++ sep :: p) := by
  by_cases h : sep ∈ cs
  · obtain ⟨before, p, rfl, hp⟩ := exists_last_of_mem h
    refine ⟨p, hp, ?_, .inr ⟨before, rfl⟩⟩
    rw [splitOn_append, splitOn_of_not_mem hp, List.getLast?_append]
    rfl
  · refine ⟨cs, h, ?_, .inl rfl⟩
    rw [splitOn_of_not_mem h]
    rfl

/-- What stands in front of a path that is put behind a directory. -/
def front (dir : FilePath) : String :=
  match dir.text.toList.getLast? with
  | none => ""
  | some '/' => dir.text
  | some _ => dir.text ++ "/"

theorem join_front {dir q : FilePath} (hq : q.isAbsolute = false) :
    dir.join q = ⟨dir.front ++ q.text⟩ := by
  unfold join front
  rw [if_neg (by simp [hq])]
  cases dir.text.toList.getLast? with
  | none => rw [String.empty_append]
  | some c => split <;> simp_all

/-- It is nothing, or it ends with a separator. -/
theorem front_cases (dir : FilePath) :
    dir.front = "" ∨ ∃ init, dir.front.toList = init ++ ['/'] := by
  unfold front
  split
  · exact .inl rfl
  · rename_i hend
    exact .inr (List.getLast?_eq_some_iff.mp hend)
  · exact .inr ⟨dir.text.toList, by rw [String.toList_append]; rfl⟩

/-- A path behind another has the same last piece. -/
theorem pieces_join_getLast? (p q : FilePath) : (p.join q).pieces.getLast? = q.pieces.getLast? := by
  cases hq : q.isAbsolute with
  | true => rw [join, if_pos hq]
  | false =>
    rw [join_front hq, pieces, pieces, List.getLast?_map, List.getLast?_map, String.toList_append]
    rcases p.front_cases with hnone | ⟨init, hinit⟩
    · rw [hnone]
      rfl
    · obtain ⟨last, -, hlast, -⟩ := splitOn_getLast? '/' q.text.toList
      rw [hinit, List.append_assoc, List.singleton_append, splitOn_append, List.getLast?_append,
        hlast]
      rfl

/-- The stem of a file is its name without the extension. -/
theorem stem_of_name {p : FilePath} {stem name : String} (hstem : p.stem? = some stem)
    (hname : p.fileName? = some name) : (splitExtension name).1 = stem := by
  rw [stem?, hname] at hstem
  exact Option.some.inj hstem

/-- The name of an entry is the last piece of its path. -/
theorem pieces_name {name : String} (h : '/' ∉ name.toList) :
    (FilePath.mk name).pieces.getLast? = some name := by
  rw [pieces, splitOn_of_not_mem h, List.map_singleton, String.ofList_toList]
  rfl

end FilePath

/-! ## The text of an import -/

/-- The text of an import counts by the stem of its last piece. -/
theorem importStem_eq (text : String) :
    importStem text = (FilePath.splitExtension (String.ofList (afterSeparator text.toList))).1 := by
  unfold importStem FilePath.splitExtension
  simp only [String.toList_ofList]
  split <;> rfl

/-- The text is no path. -/
def Separate (text : String) : Prop := '/' ∉ text.toList ∧ '\\' ∉ text.toList

theorem afterSeparator_eq_self {piece : List Char} (h : '/' ∉ piece ∧ '\\' ∉ piece) :
    afterSeparator piece = piece := by
  have hall : ∀ c ∈ piece.reverse, (c ≠ '/' && c ≠ '\\') = true := by
    intro c hc
    have hslash : c ≠ '/' := fun heq => h.1 (heq ▸ List.mem_reverse.mp hc)
    have hback : c ≠ '\\' := fun heq => h.2 (heq ▸ List.mem_reverse.mp hc)
    simp [hslash, hback]
  rw [afterSeparator, List.takeWhile_eq_self_iff.mpr hall, List.reverse_reverse]

/-- What stands in front of a separator does not count. -/
theorem afterSeparator_append (before piece : List Char) :
    afterSeparator (before ++ '/' :: piece) = afterSeparator piece := by
  rw [afterSeparator, afterSeparator, List.reverse_append, List.reverse_cons, List.append_assoc,
    List.singleton_append, List.takeWhile_append]
  split
  · rename_i hall
    rw [(List.takeWhile_prefix _).eq_of_length hall]
    simp
  · rfl

theorem importStem_separate {text : String} (h : Separate text) :
    importStem text = (FilePath.splitExtension text).1 := by
  rw [importStem_eq, afterSeparator_eq_self h, String.ofList_toList]

/-- A path counts by the name that it ends in. -/
theorem importStem_path {text name : String} (hname : Separate name)
    (hlast : (FilePath.mk text).pieces.getLast? = some name) :
    importStem text = (FilePath.splitExtension name).1 := by
  obtain ⟨p, -, hp, htext⟩ := FilePath.splitOn_getLast? '/' text.toList
  rw [FilePath.pieces, List.getLast?_map, hp, Option.map_some, Option.some.injEq] at hlast
  subst hlast
  have hseparate : '/' ∉ p ∧ '\\' ∉ p := by simpa [Separate] using hname
  rw [importStem_eq]
  rcases htext with htext | ⟨before, htext⟩ <;> rw [htext]
  · rw [afterSeparator_eq_self hseparate]
  · rw [afterSeparator_append, afterSeparator_eq_self hseparate]

/-- A dot in front, or none, leaves the name whole. -/
theorem splitExtension_whole {name : String} (h : '.' ∉ name.toList.tail) :
    (FilePath.splitExtension name).1 = name := by
  have htail (cs : List Char) (hcs : '.' ∉ cs) (rest : List Char) :
      (cs.reverse ++ rest).takeWhile (· ≠ '.') = cs.reverse ++ rest.takeWhile (· ≠ '.') := by
    refine List.takeWhile_append_of_pos fun c hc => ?_
    have hne : c ≠ '.' := fun heq => hcs (heq ▸ List.mem_reverse.mp hc)
    simpa using hne
  unfold FilePath.splitExtension
  dsimp only
  rw [if_pos]
  cases hname : name.toList with
  | nil => rfl
  | cons c cs =>
    rw [hname] at h
    by_cases hc : c = '.'
    · subst hc
      rw [List.reverse_cons, htail cs h]
      simp
    · have hnot : '.' ∉ c :: cs := by
        simpa [Ne.symm hc] using h
      have hwhole := htail (c :: cs) hnot []
      rw [List.append_nil] at hwhole
      rw [hwhole]
      simp

/-- A name is its own stem exactly if there is no dot in it but in front. -/
theorem splitExtension_eq_self (name : String) :
    (FilePath.splitExtension name).1 = name ↔ '.' ∉ name.toList.tail := by
  refine ⟨fun hself hdot => ?_, splitExtension_whole⟩
  obtain ⟨before, after, hname, hafter⟩ := exists_last_of_mem (List.mem_of_mem_tail hdot)
  cases before with
  | nil =>
    rw [hname] at hdot
    exact hafter hdot
  | cons c before =>
    have hparts : name = String.ofList (c :: before) ++ "." ++ String.ofList after := by
      apply String.toList_injective
      simp [hname, String.toList_append]
    have hstem : String.ofList (c :: before) ≠ "" := by simp
    have hextension : '.' ∉ (String.ofList after).toList := by simpa using hafter
    have hshort := FilePath.splitExtension_dot hstem hextension
    rw [← hparts, hself, hparts] at hshort
    have hlength := congrArg (fun s => s.toList.length) hshort
    simp [String.toList_append] at hlength

/-- The text is the stem of its own: no path, and no dot in it but in front. -/
def PlainStem (n : String) : Prop := Separate n ∧ '.' ∉ n.toList.tail

/-- What an import counts by is never a path. -/
theorem separate_importStem (text : String) : Separate (importStem text) := by
  have hpiece : ∀ c ∈ afterSeparator text.toList, c ≠ '/' ∧ c ≠ '\\' := by
    intro c hc
    have htrue := List.mem_takeWhile_imp (List.mem_reverse.mp hc)
    simpa using htrue
  have hstem : ∀ c ∈ (importStem text).toList, c ∈ afterSeparator text.toList := by
    intro c hc
    rw [importStem_eq] at hc
    rcases FilePath.splitExtension_cases (String.ofList (afterSeparator text.toList)) with
      heq | ⟨-, hsub⟩
    · rw [heq] at hc
      simpa using hc
    · simpa using hsub hc
  exact ⟨fun h => (hpiece _ (hstem _ h)).1 rfl, fun h => (hpiece _ (hstem _ h)).2 rfl⟩

/-- Exactly a plain stem is what an import of it counts by. -/
theorem importStem_eq_self (n : String) : importStem n = n ↔ PlainStem n := by
  constructor
  · intro h
    have hseparate : Separate n := h ▸ separate_importStem n
    rw [importStem_separate hseparate] at h
    exact ⟨hseparate, (splitExtension_eq_self n).mp h⟩
  · rintro ⟨hseparate, hdot⟩
    rw [importStem_separate hseparate, splitExtension_whole hdot]

/-- An extension without a dot or separator in it does not count behind a stem. -/
theorem importStem_extension {stem extension : String} (hs : stem ≠ "") (hp : Separate stem)
    (hdot : '.' ∉ extension.toList) (he : Separate extension) :
    importStem (stem ++ "." ++ extension) = stem := by
  have hwhole : Separate (stem ++ "." ++ extension) := by
    simpa [Separate, String.toList_append, not_or] using ⟨⟨hp.1, he.1⟩, hp.2, he.2⟩
  rw [importStem_separate hwhole, FilePath.splitExtension_dot hs hdot]

/-! ## Trees with proper names -/

instance (name : String) : Decidable (FilePath.IsName name) :=
  inferInstanceAs (Decidable (_ ∧ _ ∧ _ ∧ _))

mutual

/-- All names of entries are names, as a file system has them. -/
def Node.proper : Node → Bool
  | .dir entries => Node.properEntries entries
  | .file _ _ | .link _ => true

/-- The names of the entries are, and those below. -/
def Node.properEntries : List (String × Node) → Bool
  | [] => true
  | (name, n) :: rest => decide (FilePath.IsName name) && n.proper && Node.properEntries rest

end

namespace Node

theorem properEntries_mem {entries : List (String × Node)} (h : properEntries entries = true)
    {e : String × Node} (he : e ∈ entries) : FilePath.IsName e.1 ∧ e.2.proper = true := by
  induction entries with
  | nil => nomatch he
  | cons first rest ih =>
    obtain ⟨name, n⟩ := first
    simp only [properEntries, Bool.and_eq_true, decide_eq_true_eq] at h
    rcases List.mem_cons.mp he with rfl | he
    · exact h.1
    · exact ih h.2 he

theorem proper_entry {n child : Node} {name : String} (h : n.proper = true)
    (hc : n.entry? name = some child) : child.proper = true := by
  cases n with
  | dir entries =>
    obtain ⟨e, hfind, rfl⟩ := Option.map_eq_some_iff.mp hc
    exact (properEntries_mem h (List.mem_of_find?_eq_some hfind)).2
  | file | link => nomatch hc

theorem proper_descend : ∀ {names : List String} {n m : Node}, n.proper = true →
    n.descend? names = some m → m.proper = true
  | [], n, m, h, hm => Option.some.inj hm ▸ h
  | name :: names, n, m, h, hm => by
    unfold descend? at hm
    split at hm
    · rename_i child hchild
      exact proper_descend (proper_entry h hchild) hm
    · nomatch hm

theorem proper_names {n : Node} (h : n.proper = true) {name : String} (hn : name ∈ n.names) :
    FilePath.IsName name := by
  cases n with
  | dir entries =>
    obtain ⟨e, he, rfl⟩ := List.mem_map.mp hn
    exact (properEntries_mem h he).1
  | file | link => nomatch hn

end Node

/-- The names at a place of a tree with proper names. -/
theorem FileTree.proper_names {t : FileTree} (h : t.root.proper = true) {spot : Spot}
    {name : String} (hn : name ∈ ((t.node? spot).map Node.names).getD []) :
    FilePath.IsName name := by
  cases hnode : t.node? spot with
  | none =>
    rw [hnode] at hn
    nomatch hn
  | some n =>
    rw [hnode] at hn
    refine Node.proper_names ?_ hn
    cases spot with
    | inside trail => exact Node.proper_descend h hnode
    | outside =>
      cases hnode
      rfl

/-! ## What a walk finds -/

/-- The path leads on from the root, entry by entry. -/
inductive Below (root : FilePath) : FilePath → Prop
  | root : Below root root
  | entry {dir : FilePath} {name : String} (h : Below root dir) (hn : FilePath.IsName name) :
      Below root (dir.join ⟨name⟩)

/-- The path is that of an entry below a root. -/
def EntryBelow (root path : FilePath) (name : String) : Prop :=
  FilePath.IsName name ∧ ∃ dir, Below root dir ∧ path = dir.join ⟨name⟩

/-- Whatever file a walk of a directory meets is an entry below it. -/
theorem FileTree.walkDir_below {t : FileTree} (ht : t.root.proper = true) {root : FilePath} :
    ∀ {fuel : Nat} {path : FilePath} {spot : Spot} {above : List (Spot × FilePath)} {f : FoundFile},
      Below root path → .file f ∈ t.walkDir fuel path spot above →
      ∃ name, EntryBelow root f.path name
  | 0, _, _, _, _, _, hf => nomatch hf
  | fuel + 1, path, spot, above, f, hpath, hf => by
    obtain ⟨name, hname, hf⟩ := List.mem_flatMap.mp hf
    have hproper := t.proper_names ht (List.mem_mergeSort.mp hname)
    dsimp only at hf
    split at hf
    · simp at hf
    · split at hf
      · simp only [List.mem_singleton, Finding.file.injEq] at hf
        exact ⟨name, hproper, path, hpath, hf ▸ rfl⟩
      · split at hf
        · simp at hf
        · exact walkDir_below ht (.entry hpath hproper) hf
      · nomatch hf

/-- A walk from a directory meets files below it only. -/
theorem FileTree.walk_below {t : FileTree} (ht : t.root.proper = true) {root : FilePath}
    {findings : List Finding} {f : FoundFile} (hdir : t.isDir root = true)
    (h : t.walk root = .ok findings) (hf : .file f ∈ findings) :
    root.text ≠ "" ∧ ∃ name, EntryBelow root f.path name := by
  obtain ⟨entries, hroot⟩ : ∃ entries, t.lookup root = .ok (.dir entries) := by
    unfold isDir at hdir
    split at hdir
    · rename_i entries hroot
      exact ⟨entries, hroot⟩
    · nomatch hdir
  obtain ⟨spot, hspot, hnode⟩ := lookup_ok hroot
  unfold walk at h
  simp only [hspot, hnode] at h
  obtain rfl := Except.ok.inj h
  exact ⟨(resolve_ok hspot).1, walkDir_below ht .root hf⟩

/-- Nothing is an entry of no directory. -/
theorem Below.ne_empty {root path : FilePath} (h : Below root path) (hroot : root.text ≠ "") :
    path.text ≠ "" := by
  induction h with
  | root => exact hroot
  | @entry dir name _ hn ih =>
    have hname := FilePath.fileName?_join ih hn
    intro hempty
    have hpath : dir.join ⟨name⟩ = ⟨""⟩ := congrArg FilePath.mk hempty
    rw [hpath] at hname
    nomatch hname

namespace FilePath

theorem isAbsolute_name {name : String} (h : IsName name) (rest : String) :
    isAbsolute ⟨name ++ rest⟩ = false := by
  obtain ⟨hslash, hempty, -⟩ := h
  rw [isAbsolute, String.toList_append]
  cases hname : name.toList with
  | nil => exact absurd (String.toList_eq_nil_iff.mp hname) hempty
  | cons c cs =>
    have hc : c ≠ '/' := fun heq => hslash (hname ▸ heq ▸ List.mem_cons_self)
    simpa using hc

theorem join_name {dir : FilePath} {name : String} (h : IsName name) :
    dir.join ⟨name⟩ = ⟨dir.front ++ name⟩ := by
  have habs := isAbsolute_name h ""
  rw [String.append_empty] at habs
  exact join_front habs

/-- A path behind a name behind a directory is one path behind the directory. -/
theorem join_join {dir : FilePath} {name rel : String} (h : IsName name)
    (hrel : isAbsolute ⟨rel⟩ = false) :
    (dir.join ⟨name⟩).join ⟨rel⟩ = dir.join ⟨name ++ ("/" ++ rel)⟩ := by
  have hfront : front ⟨dir.front ++ name⟩ = dir.front ++ name ++ "/" := by
    rw [front, String.toList_append, List.getLast?_append]
    cases hlast : name.toList.getLast? with
    | none => exact absurd (String.toList_eq_nil_iff.mp (List.getLast?_eq_none_iff.mp hlast)) h.2.1
    | some c =>
      have hc : c ≠ '/' := fun heq => h.1 (heq ▸ List.mem_of_getLast? hlast)
      split <;> simp_all
  rw [join_name h, join_front hrel, hfront, join_front (isAbsolute_name h _)]
  simp only [String.append_assoc]

end FilePath

/-- An entry below a root has a path from the root on. -/
theorem Below.relative {root path : FilePath} (h : Below root path) :
    ∀ {rel : String}, FilePath.isAbsolute ⟨rel⟩ = false →
      ∃ rel', root.join ⟨rel'⟩ = path.join ⟨rel⟩ := by
  induction h with
  | root => exact fun {rel} _ => ⟨rel, rfl⟩
  | entry _ hn ih =>
    intro rel hrel
    rw [FilePath.join_join hn hrel]
    exact ih (FilePath.isAbsolute_name hn _)

/-! ## The index -/

namespace Libraries

/-- The index has files that were found, each under its stem. -/
def Stemmed (files : List FilePath) (index : List (String × FilePath)) : Prop :=
  ∀ e ∈ index, e.2.stem? = some e.1 ∧ e.2 ∈ files

theorem Stemmed.addFile {files : List FilePath} {index : List (String × FilePath) × List LogRecord}
    (h : Stemmed files index.1) {file : FilePath} (hf : file ∈ files) :
    Stemmed files (addFile index file).1 := by
  unfold Libraries.addFile
  split
  · exact h
  · rename_i stem hstem
    split
    · intro e he
      rcases Entries.mem_put he with rfl | he
      · exact ⟨hstem, hf⟩
      · exact h e he
    · exact h

theorem Stemmed.foldl {files : List FilePath} : ∀ {more : List FilePath}
    {index : List (String × FilePath) × List LogRecord}, Stemmed files index.1 → more ⊆ files →
      Stemmed files (more.foldl Libraries.addFile index).1
  | [], _, h, _ => h
  | file :: more, _, h, hsub => by
    have hfirst := h.addFile (hsub List.mem_cons_self)
    exact hfirst.foldl fun f hf => hsub (List.mem_cons_of_mem _ hf)

theorem stemmed_indexFiles (files : List FilePath) : Stemmed files (indexFiles files).1 :=
  Stemmed.foldl (fun _ h => nomatch h) fun _ h => List.mem_mergeSort.mp h

/-- Every file of the index was found as an entry below the root, and is known by its stem. -/
theorem index_entry {files : FileTree} (hf : files.root.proper = true) {root : FilePath}
    {globals : List String} {n : String} {file : FilePath}
    (h : Entries.get? n (index files root globals).1.files = some file) :
    file.stem? = some n ∧ root.text ≠ "" ∧ ∃ name, EntryBelow root file name := by
  have hmem := Entries.mem_of_get? h
  unfold index at hmem
  obtain ⟨hstem, hfound⟩ := stemmed_indexFiles _ _ hmem
  refine ⟨hstem, ?_⟩
  obtain ⟨finding, hfinding, hpath⟩ := List.mem_filterMap.mp hfound
  cases finding with
  | trouble e => nomatch hpath
  | file f =>
    obtain rfl := Option.some.inj hpath
    cases hdir : files.isDir root with
    | false =>
      rw [hdir] at hfinding
      nomatch hfinding
    | true =>
      rw [hdir] at hfinding
      cases hwalk : files.walk root with
      | error e =>
        rw [hwalk] at hfinding
        simp at hfinding
      | ok findings =>
        rw [hwalk] at hfinding
        exact FileTree.walk_below hf hdir hwalk hfinding

/-! ## What imports find -/

variable {l : Libraries} {text : String} {file : FilePath}

/-- The text leads to the file, both for one who asks for its path and for an import. -/
def Chooses (l : Libraries) (text : String) (file : FilePath) : Prop :=
  l.path? text = some file ∧ ∀ stage : Stage, stage.libraries = l → ∀ run pos,
    resolveLibrary stage run text pos = loadLibrary stage run file text pos

/-- A text leads to the file that the index has under what the text counts by. -/
theorem chooses_iff : l.Chooses text file ↔ Entries.get? (importStem text) l.files = some file := by
  refine ⟨And.left, fun h => ⟨h, fun stage hstage run pos => ?_⟩⟩
  have hpath : stage.libraries.path? text = some file := hstage ▸ h
  rw [resolveLibrary, hpath]

/-- How texts lead to the files in an index of the libraries below `root`. -/
structure NameLaw (root : FilePath) (l : Libraries) : Prop where
  /-- Each name is the stem of a file, and the file has a path from the root on. -/
  kept : ∀ n ∈ l.names, ∃ file, Entries.get? n l.files = some file ∧ file.stem? = some n ∧
    ∃ rel, root.join ⟨rel⟩ = file
  /-- The stem of a file leads to it exactly if there is no separator in it, and no dot but in
  front. -/
  stem : ∀ {n file}, Entries.get? n l.files = some file → (l.Chooses n file ↔ PlainStem n)
  /-- The name of a file leads to it, if there is no separator in it. -/
  fileName : ∀ {n file}, Entries.get? n l.files = some file → ∀ name, file.fileName? = some name →
    '\\' ∉ name.toList → l.Chooses name file
  /-- So does every path that leads from the root to the file. -/
  relative : ∀ {n file}, Entries.get? n l.files = some file → ∀ name, file.fileName? = some name →
    '\\' ∉ name.toList → ∀ rel, root.join ⟨rel⟩ = file → l.Chooses rel file
  /-- It makes no difference whether an extension follows a stem. -/
  extension : ∀ {stem extension}, stem ≠ "" → PlainStem stem → '.' ∉ extension.toList →
    Separate extension → ∀ file, l.Chooses (stem ++ "." ++ extension) file ↔ l.Chooses stem file

/-- Whatever library tree there is, the files in its index are found by their names and by their
paths from the root on, and by their stems exactly where these are plain. -/
theorem found_by_name {files : FileTree} (hf : files.root.proper = true) (root : FilePath)
    (globals : List String) : NameLaw root (index files root globals).1 where
  kept n hn := by
    obtain ⟨file, hfile⟩ := Option.isSome_iff_exists.mp (Entries.mem_keys.mp hn)
    obtain ⟨hstem, -, name, hname, dir, hbelow, rfl⟩ := index_entry hf hfile
    have hrelative := FilePath.isAbsolute_name hname ""
    rw [String.append_empty] at hrelative
    exact ⟨_, hfile, hstem, hbelow.relative hrelative⟩
  stem {n file} hfile := by
    rw [chooses_iff, ← importStem_eq_self]
    constructor
    · intro hfound
      have hsame := (index_entry hf hfound).1.symm.trans (index_entry hf hfile).1
      exact Option.some.inj hsame
    · intro hself
      rw [hself]
      exact hfile
  fileName {n file} hfile name hname hback := by
    have hstem := (index_entry hf hfile).1
    have hslash := (FilePath.isName_of_fileName? hname).1
    rw [chooses_iff, importStem_separate ⟨hslash, hback⟩, FilePath.stem_of_name hstem hname]
    exact hfile
  relative {n file} hfile name hname hback rel hrel := by
    obtain ⟨hstem, hroot, last, hlast, dir, hbelow, hdir⟩ := index_entry hf hfile
    obtain rfl : last = name := by
      rw [hdir, FilePath.fileName?_join (hbelow.ne_empty hroot) hlast] at hname
      exact Option.some.inj hname
    -- the path from the root on ends in the same piece as that of the file
    have hpiece : (FilePath.mk rel).pieces.getLast? = some last := by
      rw [← FilePath.pieces_join_getLast? root, hrel, hdir, FilePath.pieces_join_getLast?,
        FilePath.pieces_name hlast.1]
    rw [chooses_iff, importStem_path ⟨hlast.1, hback⟩ hpiece, FilePath.stem_of_name hstem hname]
    exact hfile
  extension {stem extension} hs hstem hdot hextension file := by
    have hself := (importStem_eq_self stem).mpr hstem
    rw [chooses_iff, chooses_iff, importStem_extension hs hstem.1 hdot hextension, hself]

/-- Two libraries in a directory of their own, one with a dot in its stem. -/
def dottedFiles : FileTree :=
  ⟨.dir [("libraries", .dir [("util", .dir [("a.b.rhai", .file ⟨#[]⟩ 0),
    ("math.rhai", .file ⟨#[]⟩ 0)])])]⟩

/-- The index of them. -/
def dottedLibraries : Libraries :=
  ⟨[("a.b", ⟨"libraries/util/a.b.rhai"⟩), ("math", ⟨"libraries/util/math.rhai"⟩)], []⟩

theorem dottedFiles_walk : dottedFiles.walk ⟨"libraries"⟩ = .ok
    [.file ⟨⟨"libraries/util/a.b.rhai"⟩, 0, 0⟩, .file ⟨⟨"libraries/util/math.rhai"⟩, 0, 0⟩] := by
  have hnames : ((dottedFiles.node? (.inside ["libraries"])).map Node.names).getD [] =
      ["util"] := by decide +kernel
  have hbelow : ((dottedFiles.node? (.inside ["util", "libraries"])).map Node.names).getD [] =
      ["a.b.rhai", "math.rhai"] := by decide +kernel
  have hutil : ∀ fuel above, dottedFiles.walkDir (fuel + 1) ⟨"libraries/util"⟩
      (.inside ["util", "libraries"]) above = [.file ⟨⟨"libraries/util/a.b.rhai"⟩, 0, 0⟩,
        .file ⟨⟨"libraries/util/math.rhai"⟩, 0, 0⟩] := by
    intro fuel above
    rw [FileTree.walkDir, hbelow, List.mergeSort_of_pairwise (by decide +kernel)]
    rfl
  have hroot : dottedFiles.walk ⟨"libraries"⟩ = .ok (dottedFiles.walkDir 6 ⟨"libraries"⟩
      (.inside ["libraries"]) [(.inside ["libraries"], ⟨"libraries"⟩)]) := rfl
  rw [hroot, FileTree.walkDir, hnames, List.mergeSort_singleton]
  exact congrArg Except.ok ((List.append_nil _).trans (hutil 4 _))

theorem dottedFiles_index : (index dottedFiles ⟨"libraries"⟩ []).1 = dottedLibraries := by
  have hdir : dottedFiles.isDir ⟨"libraries"⟩ = true := by decide +kernel
  unfold index
  rw [dottedFiles_walk]
  simp only [hdir, if_true, filesOf, indexFiles, List.filterMap]
  rw [List.mergeSort_of_pairwise (by decide +kernel)]
  rfl

/-- The one without a dot is found by its stem, its name and its path. -/
theorem found_by_name_math : dottedFiles.root.proper = true ∧
    NameLaw ⟨"libraries"⟩ dottedLibraries ∧ ∀ text ∈ ["math", "math.rhai", "util/math.rhai"],
      dottedLibraries.Chooses text ⟨"libraries/util/math.rhai"⟩ := by
  have hproper : dottedFiles.root.proper = true := by decide
  have law := found_by_name hproper ⟨"libraries"⟩ []
  rw [dottedFiles_index] at law
  have hfile : Entries.get? "math" dottedLibraries.files =
      some ⟨"libraries/util/math.rhai"⟩ := by decide
  have hname : (FilePath.mk "libraries/util/math.rhai").fileName? = some "math.rhai" := by decide
  have hback : '\\' ∉ "math.rhai".toList := by decide
  refine ⟨hproper, law, ?_⟩
  simp only [List.mem_cons, List.not_mem_nil, or_false, forall_eq_or_imp, forall_eq]
  refine ⟨(law.stem hfile).mpr ⟨⟨?_, ?_⟩, ?_⟩, law.fileName hfile _ hname hback,
    law.relative hfile _ hname hback _ ?_⟩ <;> decide

/-- The other is not found by its stem: the text is cut at the dot, and no library has what is
left for its stem. -/
theorem dotted_stem_astray : ¬ ∀ (files : FileTree) (root : FilePath) (globals : List String),
    files.root.proper = true → ∀ n file,
      Entries.get? n (index files root globals).1.files = some file →
        (index files root globals).1.Chooses n file := by
  intro hall
  have hfound := hall dottedFiles ⟨"libraries"⟩ [] (by decide) "a.b" ⟨"libraries/util/a.b.rhai"⟩
  rw [dottedFiles_index] at hfound
  have hlost : dottedLibraries.path? "a.b" = none := by decide
  have hpath := (hfound (by decide)).1
  rw [hlost] at hpath
  nomatch hpath

end Libraries

end Stagehand
