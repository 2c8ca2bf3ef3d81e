import Stagehand.Files.Walk

/-!
# Paths and walks

A name behind a directory: how the path reads (`FilePath.pieces_join`), where it leads
(`FileTree.walkFrom_append`), and that a walk through the directory meets what is there
(`FileTree.walk_finds`). A path is followed piece by piece; a link on the way puts other pieces in
front of those that are left, so that the way to the directory is the beginning of the way to the
name, with links to spare.
-/

namespace Stagehand

/-! ## Pieces -/

namespace FilePath

section Pieces

variable {sep : Char}

theorem splitOn_ne_nil (cs : List Char) : splitOn sep cs ≠ [] := by
  cases cs with
  | nil => exact nofun
  | cons c cs =>
      unfold splitOn
      split
      · exact nofun
      · split <;> exact nofun

theorem splitOn_append (as bs : List Char) :
    splitOn sep (as ++ sep :: bs) = splitOn sep as ++ splitOn sep bs := by
  induction as with
  | nil => simp [splitOn]
  | cons a as ih =>
      by_cases ha : a = sep
      · simp [splitOn, ha, ih]
      · simp only [List.cons_append, splitOn, if_neg ha, ih]
        cases has : splitOn sep as with
        | nil => exact absurd has (splitOn_ne_nil as)
        | cons p ps => rfl

theorem splitOn_of_not_mem : ∀ {cs : List Char}, sep ∉ cs → splitOn sep cs = [cs]
  | [], _ => rfl
  | c :: cs, h => by
    have hne : c ≠ sep := fun heq => h (heq ▸ List.mem_cons_self)
    rw [splitOn, if_neg hne, splitOn_of_not_mem fun hmem => h (List.mem_cons_of_mem _ hmem)]

theorem splitOn_subset : ∀ {cs p : List Char}, p ∈ splitOn sep cs → sep ∉ p
  | [], p, h => by
    cases List.mem_singleton.mp h
    exact List.not_mem_nil
  | c :: cs, p, h => by
    unfold splitOn at h
    split at h
    · rcases List.mem_cons.mp h with rfl | h
      · exact List.not_mem_nil
      · exact splitOn_subset h
    · rename_i hne
      have hrest : ∀ q ∈ splitOn sep cs, sep ∉ q := fun q => splitOn_subset
      generalize splitOn sep cs = qs at h hrest
      cases qs with
      | nil =>
          cases List.mem_singleton.mp h
          simp [Ne.symm hne]
      | cons q qs =>
          rcases List.mem_cons.mp h with rfl | h
          · simp [Ne.symm hne, hrest q]
          · exact hrest p (List.mem_cons_of_mem _ h)

end Pieces

variable {dir : FilePath} {name : String}

theorem head?_append_cons {α : Type} (as : List α) (a : α) (bs bs' : List α) :
    (as ++ a :: bs).head? = (as ++ a :: bs').head? := by
  cases as <;> rfl

/-- A name behind a directory is the last piece of the path; a separator at the end of the directory
says nothing. -/
theorem pieces_join (hdir : dir.text ≠ "") (hname : '/' ∉ name.toList) :
    ∃ above, (dir.join ⟨name⟩).pieces = above ++ [name] ∧
      (dir.pieces = above ∨ dir.pieces = above ++ [""]) ∧
      (dir.join ⟨name⟩).isAbsolute = dir.isAbsolute := by
  have hlast : (splitOn '/' name.toList).map String.ofList = [name] := by
    rw [splitOn_of_not_mem hname, List.map_singleton, String.ofList_toList]
  have hrelative : isAbsolute ⟨name⟩ = false := by
    refine Bool.eq_false_iff.mpr fun habs => hname ?_
    exact List.mem_of_mem_head? (beq_iff_eq.mp habs)
  cases hend : dir.text.toList.getLast? with
  | none => exact absurd (String.toList_eq_nil_iff.mp (List.getLast?_eq_none_iff.mp hend)) hdir
  | some c =>
      obtain ⟨init, hinit⟩ := List.getLast?_eq_some_iff.mp hend
      by_cases hc : c = '/'
      · subst hc
        have hjoin : dir.join ⟨name⟩ = ⟨dir.text ++ name⟩ := by
          rw [join, hrelative, hend]
          rfl
        have htext : (dir.text ++ name).toList = init ++ '/' :: name.toList := by
          rw [String.toList_append, hinit, List.append_assoc]
          rfl
        refine ⟨(splitOn '/' init).map String.ofList, ?_, .inr ?_, ?_⟩
        · rw [hjoin, pieces, htext, splitOn_append, List.map_append, hlast]
        · rw [pieces, hinit, splitOn_append, List.map_append]
          rfl
        · rw [hjoin, isAbsolute, isAbsolute, htext, hinit]
          exact congrArg (· == some '/') (head?_append_cons init '/' name.toList [])
      · have hjoin : dir.join ⟨name⟩ = ⟨dir.text ++ "/" ++ name⟩ := by
          rw [join, hrelative, hend]
          simp only [Bool.false_eq_true, if_false]
        have htext : (dir.text ++ "/" ++ name).toList =
            dir.text.toList ++ '/' :: name.toList := by
          rw [String.toList_append, String.toList_append, List.append_assoc]
          rfl
        refine ⟨dir.pieces, ?_, .inl rfl, ?_⟩
        · rw [hjoin, pieces, htext, splitOn_append, List.map_append, hlast]
          rfl
        · rw [hjoin, isAbsolute, isAbsolute, htext, hinit, List.append_assoc, List.singleton_append]
          exact congrArg (· == some '/') (head?_append_cons init c _ [])

/-- The text is the name of an entry of a directory, not of the directory itself or of the one above
it. -/
def IsName (name : String) : Prop := '/' ∉ name.toList ∧ name ≠ "" ∧ name ≠ "." ∧ name ≠ ".."

theorem component?_of_isName (h : IsName name) (leading : Bool) :
    component? leading name = some (.normal name) := by
  obtain ⟨-, hempty, hdot, hdots⟩ := h
  rw [component?, if_neg hempty, if_neg hdot, if_neg hdots]

theorem fileName?_join (hdir : dir.text ≠ "") (h : IsName name) :
    (dir.join ⟨name⟩).fileName? = some name := by
  have hcomponent := component?_of_isName h
  obtain ⟨above, hpieces, -, -⟩ := pieces_join hdir h.1
  have hlast : (dir.join ⟨name⟩).components.getLast? = some (.normal name) := by
    unfold components
    rw [hpieces]
    split
    · rw [List.filterMap_append, List.filterMap_cons_some (hcomponent false), List.filterMap_nil,
        ← List.cons_append, List.getLast?_append]
      rfl
    · cases above with
      | nil => simp [hcomponent]
      | cons first above => simp [hcomponent]
  rw [fileName?, hlast]

/-- The last dot of a name parts it from its extension. -/
theorem splitExtension_dot {stem extension : String} (hs : stem ≠ "")
    (he : '.' ∉ extension.toList) : (splitExtension (stem ++ "." ++ extension)).1 = stem := by
  have hreverse : (stem ++ "." ++ extension).toList.reverse =
      extension.toList.reverse ++ '.' :: stem.toList.reverse := by
    simp [String.toList_append]
  have htail : (extension.toList.reverse ++ '.' :: stem.toList.reverse).takeWhile (· ≠ '.') =
      extension.toList.reverse := by
    rw [List.takeWhile_append_of_pos]
    · simp
    · intro c hc
      have hne : c ≠ '.' := fun heq => he (List.mem_reverse.mp (heq ▸ hc))
      simpa using hne
  have hhead : (extension.toList.reverse ++ '.' :: stem.toList.reverse).drop
      (extension.toList.reverse.length + 1) = stem.toList.reverse := by
    rw [List.drop_append]
    simp
  unfold splitExtension
  dsimp only
  rw [hreverse, htail, hhead, if_neg]
  · simp
  · simp only [String.toList_append, List.length_reverse, List.length_append, Bool.or_eq_true,
      decide_eq_true_eq, List.isEmpty_iff, List.reverse_eq_nil_iff, String.toList_eq_nil_iff]
    rintro (hlength | hempty)
    · have hdot : ".".toList.length = 1 := rfl
      omega
    · exact hs hempty

end FilePath

/-! ## Nodes -/

namespace Node

theorem descend?_concat (n : Node) (names : List String) (name : String) :
    n.descend? (names ++ [name]) = (n.descend? names).bind fun m => entry? m name := by
  induction names generalizing n with
  | nil =>
      simp only [List.nil_append, descend?, Option.bind_some]
      cases entry? n name <;> rfl
  | cons first names ih =>
      rw [List.cons_append, descend?, descend?]
      cases entry? n first with
      | none => rfl
      | some child => exact ih child

theorem dir_of_entry {n child : Node} {name : String} (h : entry? n name = some child) :
    (∃ entries, n = .dir entries) ∧ name ∈ n.names := by
  cases n with
  | dir entries =>
      obtain ⟨⟨key, value⟩, hfind, -⟩ := Option.map_eq_some_iff.mp h
      have hkey : key = name := by simpa using List.find?_some hfind
      exact ⟨⟨entries, rfl⟩, hkey ▸ List.mem_map_of_mem (List.mem_of_find?_eq_some hfind)⟩
  | file | link => cases h

end Node

/-! ## Walks -/

namespace FileTree

variable {t : FileTree} {spot u : Spot} {P Q : List String}

theorem walkPieces_mono {follow follow' : Spot → List String → Except FileError Spot}
    (hf : ∀ spot P u, follow spot P = .ok u → follow' spot P = .ok u) :
    ∀ {P : List String} {spot : Spot}, t.walkPieces follow spot P = .ok u →
      t.walkPieces follow' spot P = .ok u
  | [], _, h => h
  | piece :: rest, spot, h => by
    unfold walkPieces at h ⊢
    split at h <;> rename_i hdir
    · nomatch h
    rw [if_neg hdir]
    split at h <;> rename_i hsame
    · rw [if_pos hsame]
      exact walkPieces_mono hf h
    rw [if_neg hsame]
    split at h <;> rename_i hparent
    · rw [if_pos hparent]
      split at h <;> exact walkPieces_mono hf h
    rw [if_neg hparent]
    split at h <;> rename_i hlong
    · nomatch h
    rw [if_neg hlong]
    split at h
    · nomatch h
    · split at h
      · nomatch h
      · exact hf _ _ _ h
      · exact walkPieces_mono hf h

/-- With more links to follow a walk leads to the same place. -/
theorem walkFrom_mono : ∀ {links more : Nat} {P : List String} {spot u : Spot}, links ≤ more →
    t.walkFrom links spot P = .ok u → t.walkFrom more spot P = .ok u
  | 0, 0, _, _, _, _, h => h
  | 0, _ + 1, _, _, _, _, h => walkPieces_mono (fun _ _ _ h => by cases h) h
  | _ + 1, _ + 1, _, _, _, hle, h =>
    walkPieces_mono (fun _ _ _ h => walkFrom_mono (Nat.le_of_succ_le_succ hle) h) h

theorem walkPieces_append {follow : Spot → List String → Except FileError Spot}
    {Rest : Spot → Prop}
    (hf : ∀ spot P, follow spot (P ++ Q) = .ok u → ∃ v, follow spot P = .ok v ∧ Rest v)
    (hQ : ∀ v, t.walkPieces follow v Q = .ok u → Rest v) :
    ∀ {P : List String} {spot : Spot}, t.walkPieces follow spot (P ++ Q) = .ok u →
      ∃ v, t.walkPieces follow spot P = .ok v ∧ Rest v
  | [], spot, h => ⟨spot, rfl, hQ spot h⟩
  | piece :: rest, spot, h => by
    rw [List.cons_append] at h
    unfold walkPieces at h ⊢
    split at h <;> rename_i hdir
    · nomatch h
    rw [if_neg hdir]
    split at h <;> rename_i hsame
    · rw [if_pos hsame]
      exact walkPieces_append hf hQ h
    rw [if_neg hsame]
    split at h <;> rename_i hparent
    · rw [if_pos hparent]
      split at h <;> exact walkPieces_append hf hQ h
    rw [if_neg hparent]
    split at h <;> rename_i hlong
    · nomatch h
    rw [if_neg hlong]
    split at h
    · nomatch h
    · split at h
      · nomatch h
      · rw [← List.append_assoc] at h
        exact hf _ _ h
      · exact walkPieces_append hf hQ h

/-- A walk can be cut anywhere; the second part has links to spare. -/
theorem walkFrom_append : ∀ {links : Nat} {P : List String} {spot : Spot},
    t.walkFrom links spot (P ++ Q) = .ok u →
      ∃ v, t.walkFrom links spot P = .ok v ∧ t.walkFrom links v Q = .ok u
  | 0, _, _, h => walkPieces_append (fun _ _ h => by cases h) (fun _ h => h) h
  | _ + 1, _, _, h => walkPieces_append
    (fun _ _ h => (walkFrom_append h).imp fun _ h => ⟨h.1, walkFrom_mono (Nat.le_succ _) h.2⟩)
    (fun _ h => h) h

theorem walkFrom_eq (t : FileTree) (links : Nat) : ∃ follow, t.walkFrom links = t.walkPieces follow := by
  cases links <;> exact ⟨_, rfl⟩

/-- Whoever walks on from a place stands in a directory. -/
theorem walkFrom_dir {links : Nat} {piece : String} (h : t.walkFrom links spot [piece] = .ok u) :
    ∃ entries, t.node? spot = some (.dir entries) := by
  obtain ⟨follow, hwalk⟩ := t.walkFrom_eq links
  rw [hwalk] at h
  unfold walkPieces at h
  split at h
  · nomatch h
  · rename_i hdir
    unfold isDirAt at hdir
    split at hdir
    · rename_i entries hnode
      exact ⟨entries, hnode⟩
    · exact absurd rfl hdir

/-- A separator at the end of a path says nothing where it leads to a directory. -/
theorem walkFrom_separator {links : Nat} (h : t.walkFrom links spot (P ++ [""]) = .ok u) :
    t.walkFrom links spot P = .ok u := by
  obtain ⟨v, hP, hlast⟩ := walkFrom_append h
  obtain ⟨follow, hwalk⟩ := t.walkFrom_eq links
  rw [hwalk] at hlast
  unfold walkPieces at hlast
  split at hlast
  · nomatch hlast
  · exact Except.ok.inj hlast ▸ hP

/-- Above every place in the tree there is a directory, which has the place as an entry. -/
theorem node?_above {name : String} {trail : List String} {n : Node}
    (h : t.node? (.inside (name :: trail)) = some n) :
    ∃ m, t.node? (.inside trail) = some m ∧ Node.entry? m name = some n := by
  rw [node?, List.reverse_cons, Node.descend?_concat] at h
  exact Option.bind_eq_some_iff.mp h

/-- One piece leads to a directory, or it is the name of an entry. -/
theorem walkFrom_piece {links : Nat} {piece : String} (h : t.walkFrom links spot [piece] = .ok u) :
    (∃ entries, t.node? u = some (.dir entries)) ∨
      piece ≠ "" ∧ piece ≠ "." ∧ piece ≠ ".." ∧
        piece ∈ ((t.node? spot).map Node.names).getD [] := by
  obtain ⟨entries, hnode⟩ := walkFrom_dir h
  obtain ⟨follow, hwalk⟩ := t.walkFrom_eq links
  rw [hwalk] at h
  unfold walkPieces at h
  split at h
  · nomatch h
  split at h
  · cases h
    exact .inl ⟨entries, hnode⟩
  rename_i hsame
  obtain ⟨hempty, hdot⟩ := not_or.mp (by simpa using hsame)
  split at h
  · left
    split at h
    · cases h
      obtain ⟨m, habove, hentry⟩ := node?_above hnode
      obtain ⟨⟨entries, rfl⟩, -⟩ := Node.dir_of_entry hentry
      exact ⟨entries, habove⟩
    · cases h
      exact ⟨[], rfl⟩
  rename_i hparent
  right
  refine ⟨hempty, hdot, hparent, ?_⟩
  split at h
  · nomatch h
  cases spot with
  | outside => cases h
  | inside trail =>
      cases hthere : t.root.descend? (piece :: trail).reverse with
      | none =>
          simp only [hthere] at h
          cases h
      | some n =>
          obtain ⟨m, habove, hentry⟩ := node?_above (t := t) hthere
          rw [habove]
          exact (Node.dir_of_entry hentry).2

/-! ## What a walk finds -/

theorem lookup_ok {p : FilePath} {n : Node} (h : t.lookup p = .ok n) :
    ∃ u, t.resolve p = .ok u ∧ t.node? u = some n := by
  unfold lookup at h
  cases hspot : t.resolve p with
  | error e =>
      rw [hspot] at h
      cases h
  | ok u =>
      rw [hspot] at h
      simp only [bind, Except.bind] at h
      split at h
      · rename_i m hm
        cases h
        exact ⟨u, rfl, hm⟩
      · cases h

theorem resolve_ok {p : FilePath} (h : t.resolve p = .ok u) : p.text ≠ "" ∧
    t.walkFrom maxLinks (if p.isAbsolute then .outside else .inside []) p.pieces = .ok u := by
  unfold resolve at h
  split at h
  · cases h
  · rename_i hempty
    split at h
    · cases h
    · exact ⟨hempty, h⟩

/-- A walk through a directory meets every file in it. -/
theorem walk_finds {root : FilePath} {findings : List Finding} {name : String} {bytes : ByteArray}
    {modified : Instant} (h : t.walk root = .ok findings) (hname : '/' ∉ name.toList)
    (hfile : t.lookup (root.join ⟨name⟩) = .ok (.file bytes modified)) :
    FilePath.IsName name ∧ .file ⟨root.join ⟨name⟩, bytes.size, modified⟩ ∈ findings := by
  unfold walk at h
  cases hroot : t.resolve root with
  | error e =>
      rw [hroot] at h
      cases h
  | ok spot =>
      rw [hroot] at h
      obtain ⟨hdir, hwalk⟩ := resolve_ok hroot
      obtain ⟨u, hresolve, hnode⟩ := lookup_ok hfile
      obtain ⟨above, hpieces, habove, habs⟩ := FilePath.pieces_join hdir hname
      obtain ⟨-, hpath⟩ := resolve_ok hresolve
      rw [hpieces, habs] at hpath
      obtain ⟨v, hbegin, hlast⟩ := walkFrom_append hpath
      have hprefix : t.walkFrom maxLinks (if root.isAbsolute then .outside else .inside []) above =
          .ok spot := by
        rcases habove with heq | heq <;> rw [heq] at hwalk
        · exact hwalk
        · exact walkFrom_separator hwalk
      obtain rfl : v = spot := Except.ok.inj (hbegin.symm.trans hprefix)
      obtain ⟨entries, hspot⟩ := walkFrom_dir hlast
      simp only [hspot] at h
      obtain rfl := (Except.ok.inj h).symm
      rcases walkFrom_piece hlast with ⟨others, hother⟩ | ⟨hempty, hdot, hparent, hentry⟩
      · rw [hnode] at hother
        cases hother
      · refine ⟨⟨hname, hempty, hdot, hparent⟩, ?_⟩
        unfold walkDir
        refine List.mem_flatMap.mpr ⟨name, List.mem_mergeSort.mpr hentry, ?_⟩
        simp only [hlast, hnode]
        exact List.mem_singleton_self _

end FileTree
end Stagehand
