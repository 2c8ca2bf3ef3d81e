import Stagehand.ConfigFile
import Stagehand.Proofs.JsonRecords

/-!
# Configuration documents

What a text gives as a configuration, field by field (`Document`): each field by the entry of its
name in its section, if the section and the entry are there, whatever else is. A text that is read
as a configuration is such a document and the other way round (`ofJson_ok`); each field of it is
what the document gives, or its default.
-/

namespace Stagehand

open Json

/-! ## What is given -/

/-- What is given for the window. -/
structure WindowGiven where
  title : Option String := none
  width : Option Nat := none
  height : Option Nat := none

/-- What is given for the scripts. -/
structure ScriptGiven where
  dir : Option FilePath := none
  extension : Option String := none
  libraries : Option FilePath := none
  startup : Option (List String) := none

/-- What is given for the images. -/
structure AssetGiven where
  dir : Option FilePath := none

/-- What is given for a configuration. -/
structure ConfigGiven where
  window : WindowGiven := {}
  scripts : ScriptGiven := {}
  assets : AssetGiven := {}
  frameRate : Option Nat := none

/-- The window, with the defaults of what is not given. -/
def WindowGiven.config (g : WindowGiven) : WindowConfig where
  title := g.title.getD "Kestrel Script Host"
  width := g.width.getD 640
  height := g.height.getD 360

/-- The scripts, with the defaults of what is not given. -/
def ScriptGiven.config (g : ScriptGiven) : ScriptConfig where
  dir := g.dir.getD ⟨"scripts"⟩
  extension := g.extension.getD "rhai"
  libraries := g.libraries.getD ⟨"libraries"⟩
  startup := g.startup.getD ["Smiley"]

/-- The images, with the defaults of what is not given. -/
def AssetGiven.config (g : AssetGiven) : AssetConfig where
  dir := g.dir.getD ⟨"."⟩

/-- The configuration, with the defaults of what is not given. -/
def ConfigGiven.config (g : ConfigGiven) : HostConfig where
  window := g.window.config
  scripts := g.scripts.config
  assets := g.assets.config
  frameRate := g.frameRate.getD 60

/-! ## Documents -/

/-- The names in a section on the window. -/
def windowNames : List String := ["title", "width", "height"]

/-- The names in a section on the scripts. -/
def scriptNames : List String := ["dir", "extension", "libraries", "startup"]

/-- The names in a section on the images. -/
def assetNames : List String := ["dir"]

/-- The names in a configuration. -/
def configNames : List String := ["window", "scripts", "assets", "frame_rate"]

/-- A path. -/
def PathText (v : List UInt8) (p : FilePath) : Prop := Text v p.text

/-- A value that is a record with these entries. -/
def Record (names : List String) (v : List UInt8) (es : List (String × List UInt8)) : Prop :=
  Entries names v es ∧ Proper names es

/-- What entries give for the window. -/
structure WindowEntries (es : List (String × List UInt8)) (g : WindowGiven) : Prop where
  title : Option.Rel Text (es.lookup "title") g.title
  width : Option.Rel (Count maxNumber) (es.lookup "width") g.width
  height : Option.Rel (Count maxNumber) (es.lookup "height") g.height

/-- What entries give for the scripts. -/
structure ScriptEntries (es : List (String × List UInt8)) (g : ScriptGiven) : Prop where
  dir : Option.Rel PathText (es.lookup "dir") g.dir
  extension : Option.Rel Text (es.lookup "extension") g.extension
  libraries : Option.Rel PathText (es.lookup "libraries") g.libraries
  startup : Option.Rel (Listed Text) (es.lookup "startup") g.startup

/-- What entries give for the images. -/
structure AssetEntries (es : List (String × List UInt8)) (g : AssetGiven) : Prop where
  dir : Option.Rel PathText (es.lookup "dir") g.dir

/-- A section on the window. -/
def WindowSection (v : List UInt8) (g : WindowGiven) : Prop :=
  ∃ es, Record windowNames v es ∧ WindowEntries es g

/-- A section on the scripts. -/
def ScriptSection (v : List UInt8) (g : ScriptGiven) : Prop :=
  ∃ es, Record scriptNames v es ∧ ScriptEntries es g

/-- A section on the images. -/
def AssetSection (v : List UInt8) (g : AssetGiven) : Prop :=
  ∃ es, Record assetNames v es ∧ AssetEntries es g

/-- A section that is there, or nothing given where there is none. -/
def Section {α : Type} (S : List UInt8 → α → Prop) (nothing : α) : Option (List UInt8) → α → Prop
  | none, g => g = nothing
  | some v, g => S v g

/-- What entries give for a configuration. -/
structure ConfigEntries (es : List (String × List UInt8)) (g : ConfigGiven) : Prop where
  window : Section WindowSection {} (es.lookup "window") g.window
  scripts : Section ScriptSection {} (es.lookup "scripts") g.scripts
  assets : Section AssetSection {} (es.lookup "assets") g.assets
  frameRate : Option.Rel (Count maxNumber) (es.lookup "frame_rate") g.frameRate

/-- A value that is a configuration. -/
def ConfigValue (v : List UInt8) (g : ConfigGiven) : Prop :=
  ∃ es, Record configNames v es ∧ ConfigEntries es g

/-- A text that is a configuration, with white space around it. -/
def Document (bytes : List UInt8) (g : ConfigGiven) : Prop :=
  ∃ s v s', bytes = s ++ (v ++ s') ∧ Space s ∧ Space s' ∧ ConfigValue v g

/-! ## The sections -/

theorem readPath_reads : Reads readPath PathText where
  begins h := string_reads.begins h
  sound {bs p rest} h := by
    obtain ⟨s, mid, hs, hpure⟩ := bind_ok.mp h
    obtain ⟨rfl, rfl⟩ := pure_ok.mp hpure
    exact string_reads.sound hs
  complete {sp v p rest} hsp h hrest :=
    bind_ok.mpr ⟨p.text, rest, string_reads.complete hsp h hrest, rfl⟩

theorem count_reads : Reads (natural maxNumber) (Count maxNumber) := natural_reads (by decide)

/-- A record whose slots are what its entries give, in the terms of what is given. -/
theorem given_reads {σ γ : Type} {slots : List (Slot σ)} (hslots : SlotLaw slots)
    {E : List (String × List UInt8) → γ → Prop} {config : γ → σ} {s₀ : σ}
    (h : ∀ es s, (∀ l ∈ slots, ∃ given, Gives l es given ∧ l.get s = given.getD (l.get s₀)) ↔
      ∃ g, E es g ∧ s = config g) :
    Reads (record (slots.map Slot.field) s₀) fun v s =>
      ∃ g, (∃ es, Record (slots.map Slot.name) v es ∧ E es g) ∧ s = config g := by
  refine (record_reads hslots s₀).congr fun v s => ?_
  constructor
  · rintro ⟨es, hes, hproper, hgives⟩
    obtain ⟨g, hg, rfl⟩ := (h es s).mp hgives
    exact ⟨g, ⟨es, ⟨hes, hproper⟩, hg⟩, rfl⟩
  · rintro ⟨g, ⟨es, ⟨hes, hproper⟩, hg⟩, rfl⟩
    exact ⟨es, hes, hproper, (h es _).mpr ⟨g, hg, rfl⟩⟩

/-- The slots of the window. -/
def windowSlots : List (Slot WindowConfig) :=
  [⟨"title", String, string, Text, WindowConfig.title, fun c title => { c with title }⟩,
   ⟨"width", Nat, natural maxNumber, Count maxNumber, WindowConfig.width,
     fun c width => { c with width }⟩,
   ⟨"height", Nat, natural maxNumber, Count maxNumber, WindowConfig.height,
     fun c height => { c with height }⟩]

theorem windowSlots_lawful : SlotLaw windowSlots where
  names := by decide
  reads := by
    simp only [windowSlots, List.forall_mem_cons]
    exact ⟨string_reads, count_reads, count_reads, List.forall_mem_nil _⟩
  own := by simp [windowSlots]
  apart := by simp [windowSlots]
  ext s s' h := by
    cases s
    cases s'
    simpa [windowSlots] using h

/-- The window is read as what is given for it. -/
theorem window_reads : Reads (record windowFields {}) fun v w =>
    ∃ g, WindowSection v g ∧ w = g.config := by
  refine given_reads windowSlots_lawful (E := WindowEntries) fun es w => ?_
  simp only [windowSlots, List.forall_mem_cons]
  constructor
  · rintro ⟨⟨title, htitle, ht⟩, ⟨width, hwidth, hw⟩, ⟨height, hheight, hh⟩, -⟩
    refine ⟨⟨title, width, height⟩, ⟨htitle, hwidth, hheight⟩, ?_⟩
    cases w
    cases ht
    cases hw
    cases hh
    rfl
  · rintro ⟨g, ⟨htitle, hwidth, hheight⟩, rfl⟩
    exact ⟨⟨g.title, htitle, rfl⟩, ⟨g.width, hwidth, rfl⟩, ⟨g.height, hheight, rfl⟩,
      List.forall_mem_nil _⟩

/-- The slots of the scripts. -/
def scriptSlots : List (Slot ScriptConfig) :=
  [⟨"dir", FilePath, readPath, PathText, ScriptConfig.dir, fun c dir => { c with dir }⟩,
   ⟨"extension", String, string, Text, ScriptConfig.extension,
     fun c extension => { c with extension }⟩,
   ⟨"libraries", FilePath, readPath, PathText, ScriptConfig.libraries,
     fun c libraries => { c with libraries }⟩,
   ⟨"startup", List String, list string, Listed Text, ScriptConfig.startup,
     fun c startup => { c with startup }⟩]

theorem scriptSlots_lawful : SlotLaw scriptSlots where
  names := by decide
  reads := by
    simp only [scriptSlots, List.forall_mem_cons]
    exact ⟨readPath_reads, string_reads, readPath_reads, list_reads string_reads,
      List.forall_mem_nil _⟩
  own := by simp [scriptSlots]
  apart := by simp [scriptSlots]
  ext s s' h := by
    cases s
    cases s'
    simpa [scriptSlots] using h

/-- The scripts are read as what is given for them. -/
theorem scripts_reads : Reads (record scriptFields {}) fun v c =>
    ∃ g, ScriptSection v g ∧ c = g.config := by
  refine given_reads scriptSlots_lawful (E := ScriptEntries) fun es c => ?_
  simp only [scriptSlots, List.forall_mem_cons]
  constructor
  · rintro ⟨⟨dir, hdir, hd⟩, ⟨extension, hextension, he⟩, ⟨libraries, hlibraries, hl⟩,
      ⟨startup, hstartup, hs⟩, -⟩
    refine ⟨⟨dir, extension, libraries, startup⟩, ⟨hdir, hextension, hlibraries, hstartup⟩, ?_⟩
    cases c
    cases hd
    cases he
    cases hl
    cases hs
    rfl
  · rintro ⟨g, ⟨hdir, hextension, hlibraries, hstartup⟩, rfl⟩
    exact ⟨⟨g.dir, hdir, rfl⟩, ⟨g.extension, hextension, rfl⟩, ⟨g.libraries, hlibraries, rfl⟩,
      ⟨g.startup, hstartup, rfl⟩, List.forall_mem_nil _⟩

/-- The slots of the images. -/
def assetSlots : List (Slot AssetConfig) :=
  [⟨"dir", FilePath, readPath, PathText, AssetConfig.dir, fun c dir => { c with dir }⟩]

theorem assetSlots_lawful : SlotLaw assetSlots where
  names := by decide
  reads := by
    simp only [assetSlots, List.forall_mem_cons]
    exact ⟨readPath_reads, List.forall_mem_nil _⟩
  own := by simp [assetSlots]
  apart := by simp [assetSlots]
  ext s s' h := by
    cases s
    cases s'
    simpa [assetSlots] using h

/-- The images are read as what is given for them. -/
theorem assets_reads : Reads (record assetFields {}) fun v c =>
    ∃ g, AssetSection v g ∧ c = g.config := by
  refine given_reads assetSlots_lawful (E := AssetEntries) fun es c => ?_
  simp only [assetSlots, List.forall_mem_cons]
  constructor
  · rintro ⟨⟨dir, hdir, hd⟩, -⟩
    refine ⟨⟨dir⟩, ⟨hdir⟩, ?_⟩
    cases c
    cases hd
    rfl
  · rintro ⟨g, ⟨hdir⟩, rfl⟩
    exact ⟨⟨g.dir, hdir, rfl⟩, List.forall_mem_nil _⟩

/-! ## The configuration -/

/-- The slots of a configuration. -/
def configSlots : List (Slot HostConfig) :=
  [⟨"window", WindowConfig, record windowFields {},
     fun v w => ∃ g, WindowSection v g ∧ w = g.config, HostConfig.window,
     fun c window => { c with window }⟩,
   ⟨"scripts", ScriptConfig, record scriptFields {},
     fun v s => ∃ g, ScriptSection v g ∧ s = g.config, HostConfig.scripts,
     fun c scripts => { c with scripts }⟩,
   ⟨"assets", AssetConfig, record assetFields {}, fun v a => ∃ g, AssetSection v g ∧ a = g.config,
     HostConfig.assets, fun c assets => { c with assets }⟩,
   ⟨"frame_rate", Nat, natural maxNumber, Count maxNumber, HostConfig.frameRate,
     fun c frameRate => { c with frameRate }⟩]

theorem configSlots_lawful : SlotLaw configSlots where
  names := by decide
  reads := by
    simp only [configSlots, List.forall_mem_cons]
    exact ⟨window_reads, scripts_reads, assets_reads, count_reads, List.forall_mem_nil _⟩
  own := by simp [configSlots]
  apart := by simp [configSlots]
  ext s s' h := by
    cases s
    cases s'
    simpa [configSlots] using h

/-- A section as it is read is what is given in it, and nothing where it is not there. -/
theorem section_gives {α γ : Type} (S : List UInt8 → γ → Prop) (config : γ → α) (nothing : γ)
    {v : Option (List UInt8)} {a : α} :
    (∃ given, Option.Rel (fun v a => ∃ g, S v g ∧ a = config g) v given ∧
      a = given.getD (config nothing)) ↔ ∃ g, Section S nothing v g ∧ a = config g := by
  constructor
  · rintro ⟨given, hgiven, rfl⟩
    cases hgiven with
    | none => exact ⟨nothing, rfl, rfl⟩
    | some h => exact h
  · rintro ⟨g, hg, rfl⟩
    cases v with
    | none =>
      obtain rfl : g = nothing := hg
      exact ⟨none, .none, rfl⟩
    | some v => exact ⟨some (config g), .some ⟨g, hg, rfl⟩, rfl⟩

/-- A configuration is read as what is given for it. -/
theorem config_reads : Reads (record configFields {}) fun v c =>
    ∃ g, ConfigValue v g ∧ c = g.config := by
  refine given_reads configSlots_lawful (E := ConfigEntries) fun es c => ?_
  simp only [configSlots, List.forall_mem_cons]
  constructor
  · rintro ⟨hwindow, hscripts, hassets, ⟨frameRate, hframeRate, hf⟩, -⟩
    obtain ⟨window, hwindow, hw⟩ := (section_gives WindowSection WindowGiven.config {}).mp hwindow
    obtain ⟨scripts, hscripts, hs⟩ :=
      (section_gives ScriptSection ScriptGiven.config {}).mp hscripts
    obtain ⟨assets, hassets, ha⟩ := (section_gives AssetSection AssetGiven.config {}).mp hassets
    refine ⟨⟨window, scripts, assets, frameRate⟩, ⟨hwindow, hscripts, hassets, hframeRate⟩, ?_⟩
    cases c
    cases hw
    cases hs
    cases ha
    cases hf
    rfl
  · rintro ⟨g, ⟨hwindow, hscripts, hassets, hframeRate⟩, rfl⟩
    exact ⟨(section_gives WindowSection WindowGiven.config {}).mpr ⟨g.window, hwindow, rfl⟩,
      (section_gives ScriptSection ScriptGiven.config {}).mpr ⟨g.scripts, hscripts, rfl⟩,
      (section_gives AssetSection AssetGiven.config {}).mpr ⟨g.assets, hassets, rfl⟩,
      ⟨g.frameRate, hframeRate, rfl⟩, List.forall_mem_nil _⟩

/-- A text is read as a configuration exactly if it is a document, as what is given there. -/
theorem ofJson_ok {bytes : ByteArray} {c : HostConfig} :
    HostConfig.ofJson bytes = .ok c ↔ ∃ g, Document bytes.data.toList g ∧ c = g.config := by
  rw [HostConfig.ofJson, whole_ok config_reads]
  constructor
  · rintro ⟨s, v, s', heq, hs, hs', g, hv, rfl⟩
    exact ⟨g, ⟨s, v, s', heq, hs, hs', hv⟩, rfl⟩
  · rintro ⟨g, ⟨s, v, s', heq, hs, hs', hv⟩, rfl⟩
    exact ⟨s, v, s', heq, hs, hs', g, hv, rfl⟩

/-! ## The order of entries -/

/-- What entries give does not depend on their order, nor on entries with other names. -/
structure OrderLaw : Prop where
  window : ∀ {es es' v g}, WindowEntries es g → Alike windowNames es es' →
    Entries windowNames v es' → WindowSection v g
  scripts : ∀ {es es' v g}, ScriptEntries es g → Alike scriptNames es es' →
    Entries scriptNames v es' → ScriptSection v g
  assets : ∀ {es es' v g}, AssetEntries es g → Alike assetNames es es' →
    Entries assetNames v es' → AssetSection v g
  config : ∀ {es es' v g}, ConfigEntries es g → Alike configNames es es' →
    Entries configNames v es' → ConfigValue v g

theorem entries_ordered : OrderLaw where
  window {es es' v g} h halike hes' := by
    obtain ⟨htitle, hwidth, hheight⟩ := h
    rw [halike.lookup _ (by decide)] at htitle hwidth hheight
    exact ⟨es', ⟨hes', halike.proper'⟩, ⟨htitle, hwidth, hheight⟩⟩
  scripts {es es' v g} h halike hes' := by
    obtain ⟨hdir, hextension, hlibraries, hstartup⟩ := h
    rw [halike.lookup _ (by decide)] at hdir hextension hlibraries hstartup
    exact ⟨es', ⟨hes', halike.proper'⟩, ⟨hdir, hextension, hlibraries, hstartup⟩⟩
  assets {es es' v g} h halike hes' := by
    obtain ⟨hdir⟩ := h
    rw [halike.lookup _ (by decide)] at hdir
    exact ⟨es', ⟨hes', halike.proper'⟩, ⟨hdir⟩⟩
  config {es es' v g} h halike hes' := by
    obtain ⟨hwindow, hscripts, hassets, hframeRate⟩ := h
    rw [halike.lookup _ (by decide)] at hwindow hscripts hassets hframeRate
    exact ⟨es', ⟨hes', halike.proper'⟩, ⟨hwindow, hscripts, hassets, hframeRate⟩⟩

end Stagehand
