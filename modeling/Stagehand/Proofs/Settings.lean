import Stagehand.App
import Stagehand.Proofs.Arguments
import Stagehand.Proofs.ConfigDocuments

/-!
# The configuration of a run

A run is configured from three sides: the command line, a file, and the defaults. The file is the
last one that the command line names, or the usual one if it is there. If there is a file and it
cannot be read, or is no document, there is no configuration; the defaults never stand for such a
file. Otherwise each field is settled for itself (`Effective`): by the last flag for it, else by the
file, else by its default.
-/

namespace Stagehand.App

open Json CommandLine
open Number (Written)

/-- The file that the configuration is in: the last one asked for, or else the usual one if it is
there. -/
def chosen? (pairs : List (String × String)) (files : FileTree) : Option FilePath :=
  match last? "--config" pairs with
  | some text => some ⟨text⟩
  | none => if files.pathExists ⟨"config/host.json"⟩ then some ⟨"config/host.json"⟩ else none

/-- What is asked for goes before what is given, and what is given before the default. -/
def Prevails {α : Type} (reads : String → α → Prop) (asked : Option String) (given : Option α)
    (default a : α) : Prop :=
  match asked with
  | some text => reads text a
  | none => a = given.getD default

/-- Each field of a configuration is what is asked for, or else what is given, or else its
default. -/
structure Effective (pairs : List (String × String)) (g : ConfigGiven) (c : HostConfig) : Prop where
  title : c.window.title = g.window.title.getD "Kestrel Script Host"
  width : Prevails (fun text => Written (2 ^ 32 - 1) text.toList) (last? "--width" pairs)
    g.window.width 640 c.window.width
  height : Prevails (fun text => Written (2 ^ 32 - 1) text.toList) (last? "--height" pairs)
    g.window.height 360 c.window.height
  dir : Prevails (fun text dir => dir = ⟨text⟩) (last? "--scripts" pairs) g.scripts.dir ⟨"scripts"⟩
    c.scripts.dir
  extension : c.scripts.extension = g.scripts.extension.getD "rhai"
  libraries : c.scripts.libraries = g.scripts.libraries.getD ⟨"libraries"⟩
  startup : c.scripts.startup = g.scripts.startup.getD ["Smiley"]
  assets : c.assets.dir = g.assets.dir.getD ⟨"."⟩
  frameRate : c.frameRate = g.frameRate.getD 60

/-- The names of the fields that the command line sets. -/
def asked (pairs : List (String × String)) : List String :=
  ["width", "height", "scripts"].filter fun name => (last? ("--" ++ name) pairs).isSome

/-- What the configuration of a run is, for a command line of these pairs. -/
structure SettingsLaw (pairs : List (String × String)) (c : CommandLine) (files : FileTree) :
    Prop where
  /-- There is none exactly if there is a file for it that cannot be read, or is no document. -/
  fails : (∃ e, (loadConfig c files).1 = .error e) ↔ ∃ path, chosen? pairs files = some path ∧
    ((∃ cause, files.read path = .error cause) ∨
      ∃ bytes, files.read path = .ok bytes ∧ ∀ g, ¬ Document bytes.data.toList g)
  /-- The fault says which of the two it is, and names the file. -/
  unread : ∀ {path cause}, chosen? pairs files = some path → files.read path = .error cause →
    (loadConfig c files).1 = .error (.reading path cause)
  undecoded : ∀ {path bytes}, chosen? pairs files = some path → files.read path = .ok bytes →
    (∀ g, ¬ Document bytes.data.toList g) →
      ∃ cause, (loadConfig c files).1 = .error (.parsing path cause)
  /-- A document gives what it gives, whatever it leaves out. -/
  given : ∀ {path bytes g}, chosen? pairs files = some path → files.read path = .ok bytes →
    Document bytes.data.toList g →
      ∃ config, (loadConfig c files).1 = .ok config ∧ Effective pairs g config
  /-- Without a file nothing is given. -/
  absent : chosen? pairs files = none →
    ∃ config, (loadConfig c files).1 = .ok config ∧ Effective pairs {} config
  /-- What a document gives depends neither on the order of its entries nor on others than it knows,
  in each section as in the whole. -/
  order : OrderLaw
  /-- What the command line sets is known in the order of the fields, and reported if it
  sets any. -/
  fields : c.overrides.fields = asked pairs
  reported : ∀ {config}, (loadConfig c files).1 = .ok config →
    (loadConfig c files).2 = if asked pairs = [] then [] else
      [Level.info.report "applying command-line overrides" [("fields", namesText (asked pairs))]]

section Law

variable {pairs : List (String × String)} {c : CommandLine} {files : FileTree}

theorem load_unread {path : FilePath} {cause : FileError} (h : files.read path = .error cause) :
    HostConfig.load files path = .error (.reading path cause) := by
  rw [HostConfig.load, h]

theorem load_undecoded {path : FilePath} {bytes : ByteArray} (h : files.read path = .ok bytes)
    (hno : ∀ g, ¬ Document bytes.data.toList g) :
    ∃ cause, HostConfig.load files path = .error (.parsing path cause) := by
  cases hjson : HostConfig.ofJson bytes with
  | error cause =>
    refine ⟨cause, ?_⟩
    rw [HostConfig.load, h]
    dsimp only
    rw [hjson]
  | ok config =>
    obtain ⟨g, hg, -⟩ := ofJson_ok.mp hjson
    exact absurd hg (hno g)

theorem load_given {path : FilePath} {bytes : ByteArray} {g : ConfigGiven}
    (h : files.read path = .ok bytes) (hg : Document bytes.data.toList g) :
    HostConfig.load files path = .ok g.config := by
  rw [HostConfig.load, h]
  dsimp only
  rw [ofJson_ok.mpr ⟨g, hg, rfl⟩]

/-- What the file says, or the defaults where there is none. -/
def found (pairs : List (String × String)) (files : FileTree) : Except ConfigError HostConfig :=
  match chosen? pairs files with
  | some path => HostConfig.load files path
  | none => .ok (ConfigGiven.config {})

theorem loadConfig_asks (h : Asks pairs c) (files : FileTree) : loadConfig c files =
    match found pairs files with
    | .error e => (.error e, [])
    | .ok config => (.ok (c.overrides.apply config), if c.overrides.isEmpty then [] else
        [Level.info.report "applying command-line overrides"
          [("fields", namesText c.overrides.fields)]]) := by
  have hfound : (match c.config with
      | some path => HostConfig.load files path
      | none => if files.pathExists defaultConfig then HostConfig.load files defaultConfig
        else .ok {}) = found pairs files := by
    rw [h.config, found, chosen?]
    cases last? "--config" pairs with
    | some text => rfl
    | none =>
      change (if files.pathExists defaultConfig then _ else _) =
        match if files.pathExists defaultConfig then some defaultConfig else none with
        | some path => HostConfig.load files path
        | none => .ok (ConfigGiven.config {})
      split_ifs <;> rfl
  rw [← hfound]
  rfl

/-- A number that the command line may ask for prevails if it does. -/
theorem prevails_number {limit default : Nat} {text : Option String} {n given : Option Nat}
    (h : Option.Rel (fun text => Written limit text.toList) text n) :
    Prevails (fun text => Written limit text.toList) text given default
      (n.getD (given.getD default)) := by
  cases h with
  | none => rfl
  | some hn => exact hn

/-- So does a path. -/
theorem prevails_path (text : Option String) (given : Option FilePath) (default : FilePath) :
    Prevails (fun text path => path = ⟨text⟩) text given default
      ((text.map FilePath.mk).getD (given.getD default)) := by
  cases text <;> rfl

theorem asks_effective (h : Asks pairs c) (g : ConfigGiven) :
    Effective pairs g (c.overrides.apply g.config) where
  title := rfl
  width := prevails_number h.width
  height := prevails_number h.height
  dir := by
    change Prevails _ _ _ _ (c.scripts.getD _)
    rw [h.scripts]
    exact prevails_path _ _ _
  extension := rfl
  libraries := rfl
  startup := rfl
  assets := rfl
  frameRate := rfl

theorem isSome_eq {text : Option String} {n : Option Nat} {M : String → Nat → Prop}
    (h : Option.Rel M text n) : n.isSome = text.isSome := by
  cases h <;> rfl

theorem filter_names {p : String → Bool} : ["width", "height", "scripts"].filter p =
    (if p "width" then ["width"] else []) ++ (if p "height" then ["height"] else []) ++
      (if p "scripts" then ["scripts"] else []) := by
  simp only [List.filter_cons, List.filter_nil]
  cases p "width" <;> cases p "height" <;> cases p "scripts" <;> rfl

theorem asks_fields (h : Asks pairs c) : c.overrides.fields = asked pairs := by
  have hscripts : c.scripts.isSome = (last? "--scripts" pairs).isSome := by
    rw [h.scripts, Option.isSome_map]
  rw [asked, filter_names]
  change (if c.width.isSome then ["width"] else []) ++
    (if c.height.isSome then ["height"] else []) ++
      (if c.scripts.isSome then ["scripts"] else []) = _
  rw [isSome_eq h.width, isSome_eq h.height, hscripts]
  rfl

theorem isEmpty_iff (o : Overrides) : o.isEmpty = true ↔ o.fields = [] := by
  cases o with
  | mk width height dir =>
    cases width <;> cases height <;> cases dir <;>
      first | exact iff_of_true rfl rfl | exact iff_of_false nofun nofun

/-- A run is configured by the law, whatever the arguments and the files are. -/
theorem settings_lawful {args : List String} (h : parse args = .ok c) (files : FileTree) :
    ∃ pairs, args.drop 1 = spread pairs ∧ SettingsLaw pairs c files := by
  obtain ⟨pairs, hargs, -, hasks⟩ := parse_ok h
  have hload := loadConfig_asks hasks files
  have hunread {path : FilePath} {cause : FileError} (hpath : chosen? pairs files = some path)
      (hread : files.read path = .error cause) :
      (loadConfig c files).1 = .error (.reading path cause) := by
    rw [hload, found, hpath]
    dsimp only
    rw [load_unread hread]
  have hundecoded {path : FilePath} {bytes : ByteArray} (hpath : chosen? pairs files = some path)
      (hbytes : files.read path = .ok bytes) (hno : ∀ g, ¬ Document bytes.data.toList g) :
      ∃ cause, (loadConfig c files).1 = .error (.parsing path cause) := by
    obtain ⟨cause, hcause⟩ := load_undecoded hbytes hno
    refine ⟨cause, ?_⟩
    rw [hload, found, hpath]
    dsimp only
    rw [hcause]
  have hgiven {path : FilePath} {bytes : ByteArray} {g : ConfigGiven}
      (hpath : chosen? pairs files = some path) (hbytes : files.read path = .ok bytes)
      (hg : Document bytes.data.toList g) :
      (loadConfig c files).1 = .ok (c.overrides.apply g.config) := by
    rw [hload, found, hpath]
    dsimp only
    rw [load_given hbytes hg]
  have habsent (hpath : chosen? pairs files = none) :
      (loadConfig c files).1 = .ok (c.overrides.apply (ConfigGiven.config {})) := by
    rw [hload, found, hpath]
  refine ⟨pairs, hargs, ?_⟩
  constructor
  case fails =>
    constructor
    · rintro ⟨e, he⟩
      cases hpath : chosen? pairs files with
      | none => nomatch (habsent hpath).symm.trans he
      | some path =>
        refine ⟨path, rfl, ?_⟩
        cases hread : files.read path with
        | error cause => exact .inl ⟨cause, rfl⟩
        | ok bytes =>
          exact .inr ⟨bytes, rfl, fun g hg => nomatch (hgiven hpath hread hg).symm.trans he⟩
    · rintro ⟨path, hpath, ⟨cause, hread⟩ | ⟨bytes, hread, hno⟩⟩
      · exact ⟨_, hunread hpath hread⟩
      · obtain ⟨cause, hcause⟩ := hundecoded hpath hread hno
        exact ⟨_, hcause⟩
  case unread => exact hunread
  case undecoded => exact hundecoded
  case given =>
    exact fun hpath hread hg => ⟨_, hgiven hpath hread hg, asks_effective hasks _⟩
  case order => exact entries_ordered
  case absent => exact fun hpath => ⟨_, habsent hpath, asks_effective hasks {}⟩
  case fields => exact asks_fields hasks
  case reported =>
    intro config hconfig
    have hfields := asks_fields hasks
    have hempty := isEmpty_iff c.overrides
    rw [hfields] at hempty
    rw [hload] at hconfig ⊢
    cases hfound : found pairs files with
    | error e =>
      rw [hfound] at hconfig
      nomatch hconfig
    | ok config =>
      dsimp only
      rw [hfields]
      exact if_congr hempty rfl rfl

end Law

/-- A tree with a configuration in the usual place. -/
def hostFiles : FileTree :=
  ⟨.dir [("config", .dir [("host.json", .file
    "\x7b\"window\":\x7b\"height\":90,\"x\":[1]\x7d,\"frame_rate\":5\x7d".toUTF8 0)])]⟩

/-- The width is that of the last flag, the height and the pace are those of the file, and all else
is as it is by default. -/
theorem settings_lawful_twice :
    parse ["stagehand", "--width", "800", "--width", "1024"] = .ok { width := some 1024 } ∧
      (∃ pairs, ["--width", "800", "--width", "1024"] = spread pairs ∧
        SettingsLaw pairs { width := some 1024 } hostFiles) ∧
      (loadConfig { width := some 1024 } hostFiles).1 =
        .ok { window := { width := 1024, height := 90 }, frameRate := 5 } := by
  have hparse : parse ["stagehand", "--width", "800", "--width", "1024"] =
      .ok { width := some 1024 } := by decide
  exact ⟨hparse, settings_lawful hparse hostFiles, by decide +kernel⟩

end Stagehand.App
