import Stagehand.Files.Edit
import Stagehand.Proofs.Echoes

/-!
# Edits of one file

Other bytes in one file, of the same time. Paths lead where they led before, since no step of a walk
looks into a file (`FileTree.Rewritten.resolve`), and a scan finds the same source files, as long as
there are bytes at all. Who does not read that very file sees no difference
(`FileTree.Rewritten.alike`).
-/

namespace Stagehand

/-! ## One node -/

namespace Node

/-- The second node is the first one with other bytes in the file at the end of the chain of
names. -/
inductive Rewritten (bytes bytes' : ByteArray) (time : Instant) : List String → Node → Node → Prop
  | here : Rewritten bytes bytes' time [] (.file bytes time) (.file bytes' time)
  | under {name : String} {names : List String} {before after : List (String × Node)}
      {child child' : Node} (hb : ∀ entry ∈ before, entry.1 ≠ name)
      (h : Rewritten bytes bytes' time names child child') :
      Rewritten bytes bytes' time (name :: names) (.dir (before ++ (name, child) :: after))
        (.dir (before ++ (name, child') :: after))

/-- What is at a place before and after, if it is no file with other bytes: the same, or the same
names in a directory. -/
inductive Kin : Option Node → Option Node → Prop
  | same (n : Option Node) : Kin n n
  | dir {entries entries' : List (String × Node)}
      (h : entries'.map (·.1) = entries.map (·.1)) : Kin (some (.dir entries)) (some (.dir entries'))

section Entries

variable {name : String} {before after : List (String × Node)} {child child' : Node}

theorem entry?_self (hb : ∀ entry ∈ before, entry.1 ≠ name) :
    entry? (.dir (before ++ (name, child) :: after)) name = some child := by
  have hnone : before.find? (·.1 == name) = none :=
    List.find?_eq_none.mpr fun entry hentry => by simpa using hb entry hentry
  simp [hnone, entry?]

theorem entry?_of_ne {other : String} (hne : other ≠ name) :
    entry? (.dir (before ++ (name, child') :: after)) other =
      entry? (.dir (before ++ (name, child) :: after)) other := by
  have hfalse : (name == other) = false := by simpa using hne.symm
  simp [hfalse, entry?, List.find?_append]

theorem setEntry_append (hb : ∀ entry ∈ before, entry.1 ≠ name) :
    setEntry (before ++ (name, child) :: after) name child' =
      before ++ (name, child') :: after := by
  induction before with
  | nil => simp [setEntry]
  | cons first rest ih =>
      obtain ⟨hfirst, hrest⟩ := List.forall_mem_cons.mp hb
      rw [List.cons_append, setEntry, if_neg (by simpa using hfirst), ih hrest, List.cons_append]

end Entries

section Rewritten

variable {bytes bytes' : ByteArray} {time : Instant} {names : List String} {n n' : Node}

theorem alter_rewritten (bytes' : ByteArray) (h : n.descend? names = some (.file bytes time)) :
    ∃ n', alter (fun _ => some (.file bytes' time)) names (some n) = some n' ∧
      Rewritten bytes bytes' time names n n' := by
  induction names generalizing n with
  | nil =>
      cases h
      exact ⟨_, rfl, .here⟩
  | cons name names ih =>
      cases n with
      | file | link => nomatch h
      | dir entries =>
          simp only [descend?, entry?] at h
          cases hfind : entries.find? (·.1 == name) with
          | none =>
              rw [hfind] at h
              nomatch h
          | some found =>
              obtain ⟨found, child⟩ := found
              rw [hfind] at h
              obtain ⟨hname, before, after, rfl, hbefore⟩ := List.find?_eq_some_iff_append.mp hfind
              cases beq_iff_eq.mp hname
              have hb : ∀ entry ∈ before, entry.1 ≠ found :=
                fun entry hentry => by simpa using hbefore entry hentry
              obtain ⟨child', halter, hrest⟩ := ih h
              refine ⟨_, ?_, .under hb hrest⟩
              simp only [alter, hfind, Option.map_some, halter, setEntry_append hb]

/-- At the end of the chain there are the other bytes, and elsewhere there is what was there. -/
theorem Rewritten.descend? (h : Rewritten bytes bytes' time names n n') (path : List String) :
    path = names ∧ n.descend? path = some (.file bytes time) ∧
        n'.descend? path = some (.file bytes' time) ∨
      path ≠ names ∧ Kin (n.descend? path) (n'.descend? path) := by
  induction h generalizing path with
  | here =>
      cases path with
      | nil => exact .inl ⟨rfl, rfl, rfl⟩
      | cons piece rest => exact .inr ⟨nofun, .same _⟩
  | @under name names before after child child' hb h ih =>
      cases path with
      | nil => exact .inr ⟨nofun, .dir (by simp)⟩
      | cons piece rest =>
          by_cases hname : piece = name
          · subst hname
            unfold Node.descend?
            rw [entry?_self hb, entry?_self hb]
            rcases ih rest with ⟨rfl, hn, hn'⟩ | ⟨hne, hrel⟩
            · exact .inl ⟨rfl, hn, hn'⟩
            · exact .inr ⟨fun heq => hne (List.cons.inj heq).2, hrel⟩
          · refine .inr ⟨fun heq => hname (List.cons.inj heq).1, ?_⟩
            unfold Node.descend?
            rw [entry?_of_ne hname]
            exact .same _

theorem countEntries_append (es es' : List (String × Node)) :
    countEntries (es ++ es') = countEntries es + countEntries es' := by
  induction es with
  | nil => simp [countEntries]
  | cons first rest ih => simp [countEntries, ih, Nat.add_assoc]

theorem Rewritten.count (h : Rewritten bytes bytes' time names n n') : n'.count = n.count := by
  induction h with
  | here => simp [Node.count]
  | under _ _ ih => simp [Node.count, countEntries_append, countEntries, ih]

end Rewritten
end Node

/-! ## A tree -/

namespace FileTree

/-- The second tree is the first one with other bytes, of the same time, in the file that the path
leads to: there are some, as there were before, and as an image they are what the others were, as a
rule none. -/
inductive Rewritten (path : FilePath) (f : FileTree) : FileTree → Prop
  | intro {trail : List String} {bytes bytes' : ByteArray} {time : Instant}
      (hpath : f.resolve path = .ok (.inside trail))
      (hfile : f.node? (.inside trail) = some (.file bytes time)) (hold : bytes.size ≠ 0)
      (hnew : bytes'.size ≠ 0) (himage : Image.decode bytes' = Image.decode bytes) :
      Rewritten path f (f.alterAt trail fun _ => some (.file bytes' time))

section Walks

variable {bytes bytes' : ByteArray} {time : Instant} {trail : List String} {f g : FileTree}
  (h : Node.Rewritten bytes bytes' time trail.reverse f.root g.root)

include h

theorem node?_rewritten (spot : Spot) :
    spot = .inside trail ∧ f.node? spot = some (.file bytes time) ∧
        g.node? spot = some (.file bytes' time) ∨
      spot ≠ .inside trail ∧ Node.Kin (f.node? spot) (g.node? spot) := by
  cases spot with
  | outside => exact .inr ⟨nofun, .same _⟩
  | inside path =>
      rcases h.descend? path.reverse with ⟨heq, hf, hg⟩ | ⟨hne, hkin⟩
      · exact .inl ⟨congrArg Spot.inside (List.reverse_inj.mp heq), hf, hg⟩
      · exact .inr ⟨fun heq => hne (congrArg List.reverse (Spot.inside.inj heq)), hkin⟩

theorem isDirAt_rewritten (spot : Spot) : g.isDirAt spot = f.isDirAt spot := by
  unfold isDirAt
  rcases node?_rewritten h spot with ⟨-, hf, hg⟩ | ⟨-, hkin⟩
  · rw [hf, hg]
  · generalize f.node? spot = n, g.node? spot = n' at hkin
    cases hkin <;> rfl

theorem walkPieces_rewritten (follow : Spot → List String → Except FileError Spot)
    (spot : Spot) (pieces : List String) :
    g.walkPieces follow spot pieces = f.walkPieces follow spot pieces := by
  induction pieces generalizing spot with
  | nil => simp only [walkPieces]
  | cons piece rest ih =>
      simp only [walkPieces, isDirAt_rewritten h, ih]
      cases spot with
      | outside => rfl
      | inside above =>
          have hnode := node?_rewritten h (.inside (piece :: above))
          simp only [node?] at hnode ⊢
          rcases hnode with ⟨-, hf, hg⟩ | ⟨-, hkin⟩
          · rw [hf, hg]
          · generalize f.root.descend? (piece :: above).reverse = n,
              g.root.descend? (piece :: above).reverse = n' at hkin
            cases hkin <;> rfl

theorem walkFrom_rewritten (links : Nat) : g.walkFrom links = f.walkFrom links := by
  induction links with
  | zero =>
      funext spot pieces
      exact walkPieces_rewritten h _ spot pieces
  | succ links ih =>
      funext spot pieces
      simp only [walkFrom, ih]
      exact walkPieces_rewritten h _ spot pieces

/-- Paths lead where they led. -/
theorem resolve_rewritten (path : FilePath) : g.resolve path = f.resolve path := by
  rw [resolve, resolve, walkFrom_rewritten h]

/-- Another path leads to what it led to. -/
theorem lookup_rewritten (path : FilePath) :
    f.resolve path = .ok (.inside trail) ∧ f.lookup path = .ok (.file bytes time) ∧
        g.lookup path = .ok (.file bytes' time) ∨
      f.resolve path ≠ .ok (.inside trail) ∧ 
        (g.lookup path = f.lookup path ∨ ∃ entries entries', f.lookup path = .ok (.dir entries) ∧
          g.lookup path = .ok (.dir entries')) := by
  unfold lookup
  rw [resolve_rewritten h]
  cases hspot : f.resolve path with
  | error e => exact .inr ⟨nofun, .inl rfl⟩
  | ok spot =>
      simp only [bind, Except.bind]
      rcases node?_rewritten h spot with ⟨rfl, hf, hg⟩ | ⟨hne, hkin⟩
      · rw [hf, hg]
        exact .inl ⟨rfl, rfl, rfl⟩
      · refine .inr ⟨fun heq => hne (Except.ok.inj heq), ?_⟩
        generalize f.node? spot = n, g.node? spot = n' at hkin
        cases hkin with
        | same n => exact .inl rfl
        | dir => exact .inr ⟨_, _, rfl, rfl⟩

/-- The text of another file is what it was. -/
theorem readText_rewritten {path : FilePath} (hne : f.resolve path ≠ .ok (.inside trail)) :
    g.readText path = f.readText path := by
  unfold readText read
  rcases lookup_rewritten h path with ⟨heq, -⟩ | ⟨-, heq | ⟨_, _, hf, hg⟩⟩
  · exact absurd heq hne
  · rw [heq]
  · rw [hf, hg]
    rfl

theorem modified?_rewritten (path : FilePath) : g.modified? path = f.modified? path := by
  unfold modified?
  rcases lookup_rewritten h path with ⟨-, hf, hg⟩ | ⟨-, heq | ⟨_, _, hf, hg⟩⟩
  · rw [hf, hg]
  · rw [heq]
  · rw [hf, hg]

theorem picture_rewritten (himage : Image.decode bytes' = Image.decode bytes) (path : FilePath) :
    g.picture path = f.picture path := by
  unfold picture read
  rcases lookup_rewritten h path with ⟨-, hf, hg⟩ | ⟨-, heq | ⟨_, _, hf, hg⟩⟩
  · rw [hf, hg]
    exact congrArg (Except.mapError (AssetError.decoding path)) himage
  · rw [heq]
  · rw [hf, hg]
    rfl

end Walks
end FileTree

/-! ## A scan -/

/-- What counts of a finding for a scan: of the size of a file no more than whether it is empty. -/
def Finding.outline : Finding → Finding
  | .file f => .file { f with size := min f.size 1 }
  | .trouble e => .trouble e

theorem SourceFile.of?_outline (f : FoundFile) : of? { f with size := min f.size 1 } = of? f := by
  have hzero : min f.size 1 = 0 ↔ f.size = 0 := by omega
  simp only [of?, hzero]

theorem collectSources_outline (files : FileTree) (root : FilePath) :
    collectSources files root =
      match (files.walk root).map (List.map Finding.outline) with
      | .error e => .error ⟨root, e⟩
      | .ok findings => .ok (findings.filterMap fun
          | .file f => SourceFile.of? f
          | .trouble _ => none, Libraries.troubles "root" root "skipping directory entry: " findings)
    := by
  unfold collectSources
  cases files.walk root with
  | error e => rfl
  | ok findings =>
      simp only [Except.map, Libraries.troubles, List.filterMap_map]
      congr 3
      · funext finding
        cases finding with
        | file f => exact (SourceFile.of?_outline f).symm
        | trouble e => rfl
      · funext finding
        cases finding <;> rfl

namespace FileTree

section Scan

variable {bytes bytes' : ByteArray} {time : Instant} {trail : List String} {f g : FileTree}
  (h : Node.Rewritten bytes bytes' time trail.reverse f.root g.root)
  (hsize : min bytes'.size 1 = min bytes.size 1)

include h

theorem names_rewritten (spot : Spot) :
    (g.node? spot).map Node.names = (f.node? spot).map Node.names := by
  rcases node?_rewritten h spot with ⟨-, hf, hg⟩ | ⟨-, hkin⟩
  · rw [hf, hg]
    rfl
  · generalize f.node? spot = n, g.node? spot = n' at hkin
    cases hkin with
    | same => rfl
    | dir hnames => exact congrArg some hnames

theorem isLink_rewritten (spot : Spot) (name : String) : g.isLink spot name = f.isLink spot name := by
  cases spot with
  | outside => rfl
  | inside above =>
      have hnode := node?_rewritten h (.inside (name :: above))
      simp only [node?, isLink] at hnode ⊢
      rcases hnode with ⟨-, hf, hg⟩ | ⟨-, hkin⟩
      · rw [hf, hg]
      · generalize f.root.descend? (name :: above).reverse = n,
          g.root.descend? (name :: above).reverse = n' at hkin
        cases hkin <;> rfl

include hsize

theorem walkDir_rewritten (fuel : Nat) (path : FilePath) (spot : Spot)
    (above : List (Spot × FilePath)) :
    (g.walkDir fuel path spot above).map Finding.outline =
      (f.walkDir fuel path spot above).map Finding.outline := by
  induction fuel generalizing path spot above with
  | zero => rfl
  | succ fuel ih =>
      simp only [walkDir, List.map_flatMap, names_rewritten h, walkFrom_rewritten h]
      congr 1
      funext name
      cases f.walkFrom maxLinks spot [name] with
      | error e => rfl
      | ok next =>
          dsimp only
          rcases node?_rewritten h next with ⟨-, hf, hg⟩ | ⟨-, hkin⟩
          · simp only [hf, hg, List.map_cons, List.map_nil, Finding.outline, hsize]
          · rw [isLink_rewritten h]
            generalize f.node? next = n, g.node? next = n' at hkin
            cases hkin with
            | same n =>
                rcases n with _ | (_ | _ | _)
                · rfl
                · rfl
                · dsimp only
                  split
                  · rfl
                  · exact ih ..
                · rfl
            | dir hnames =>
                dsimp only
                split
                · rfl
                · exact ih ..

theorem walk_rewritten (root : FilePath) : (g.walk root).map (List.map Finding.outline) =
    (f.walk root).map (List.map Finding.outline) := by
  unfold walk
  rw [resolve_rewritten h, h.count]
  cases f.resolve root with
  | error e => rfl
  | ok spot =>
      dsimp only
      have hdir := walkDir_rewritten h hsize (f.root.count + 1) root spot [(spot, root)]
      rcases node?_rewritten h spot with ⟨-, hf, hg⟩ | ⟨-, hkin⟩
      · simp [hf, hg, Except.map, Finding.outline, hsize]
      · generalize f.node? spot = n, g.node? spot = n' at hkin
        cases hkin with
        | same n =>
            rcases n with _ | (_ | _ | _)
            · rfl
            · rfl
            · exact congrArg Except.ok hdir
            · rfl
        | dir => exact congrArg Except.ok hdir

end Scan

/-- Who reads other files sees no difference. -/
theorem Rewritten.alike {path : FilePath} {f g : FileTree} (h : Rewritten path f g) :
    f.Alike (fun other => f.resolve other ≠ f.resolve path) g := by
  obtain @⟨trail, bytes, bytes', time, hpath, hfile, hold, hnew, himage⟩ := h
  obtain ⟨root, halter, hroot⟩ := Node.alter_rewritten bytes' hfile
  have hg : (f.alterAt trail fun _ => some (.file bytes' time)) = ⟨root⟩ := by
    rw [alterAt, halter]
    rfl
  have hsize : min bytes'.size 1 = min bytes.size 1 := by omega
  rw [hg]
  refine ⟨fun other hother => ?_, modified?_rewritten (g := ⟨root⟩) hroot,
    picture_rewritten (g := ⟨root⟩) hroot himage, fun start => ?_⟩
  · exact readText_rewritten (g := ⟨root⟩) hroot (hpath ▸ hother)
  · rw [collectSources_outline, collectSources_outline,
      walk_rewritten (g := ⟨root⟩) hroot hsize]

end FileTree

end Stagehand
