import Stagehand.Proofs.StoreWrites

/-!
# What scripts put into the log

Code of scripts has three ways to the log: it hands a text to the host, it prints, and a library is
evaluated for it. Each of them makes a record of its own form (`Utterance`), and none of these is a
warning or an error. Nothing that scripts do takes a record out of the log (`Built.speaks`); so what
a load or a call leaves there is what was there, then utterances of the instance, then at most the
one report that the host makes of it (`World.Told`).
-/

namespace Stagehand

open Lang

variable {owner : ScriptHandle}

/-- Scripts neither warn nor report errors. -/
theorem Utterance.level {l : LogRecord} (h : Utterance owner l) :
    l.level = .info ∨ l.level = .debug := by
  cases h with
  | logged => exact .inl rfl
  | printed h => exact h
  | library => exact .inr rfl

/-- The log of the second world is that of the first and behind it utterances of the instance. -/
def World.Heard (owner : ScriptHandle) (w w' : World) : Prop :=
  ∃ said, w'.log.toList = w.log.toList ++ said ∧ ∀ l ∈ said, Utterance owner l

namespace World.Heard

variable {w w' w'' : World}

theorem of_log_eq (h : w'.log = w.log) : w.Heard owner w' :=
  ⟨[], by rw [h, List.append_nil], List.forall_mem_nil _⟩

theorem refl (w : World) : w.Heard owner w := of_log_eq rfl

theorem trans (h : w.Heard owner w') (h' : w'.Heard owner w'') : w.Heard owner w'' := by
  obtain ⟨said, hlog, hsaid⟩ := h
  obtain ⟨said', hlog', hsaid'⟩ := h'
  refine ⟨said ++ said', by rw [hlog', hlog, List.append_assoc], ?_⟩
  exact List.forall_mem_append.mpr ⟨hsaid, hsaid'⟩

theorem record {l : LogRecord} (h : Utterance owner l) (w : World) : w.Heard owner (w.record l) :=
  ⟨[l], Array.toList_push, List.forall_mem_singleton.mpr h⟩

end World.Heard

/-- What the log of the second world has behind that of the first. -/
def World.gained (w w' : World) : List LogRecord := w'.log.toList.drop w.log.size

/-- What came into the log are utterances of the instance and behind them reports of the host. -/
structure World.Told (owner : ScriptHandle) (reports : List LogRecord) (w w' : World) : Prop where
  grows : w'.log.toList = w.log.toList ++ w.gained w'
  said : ∃ said, w.gained w' = said ++ reports ∧ ∀ l ∈ said, Utterance owner l

theorem World.Heard.told {w w₁ w' : World} {reports : List LogRecord} (h : w.Heard owner w₁)
    (hlog : w'.log.toList = w₁.log.toList ++ reports) : w.Told owner reports w' := by
  obtain ⟨said, hsaid, hall⟩ := h
  have hnew : w'.log.toList = w.log.toList ++ (said ++ reports) := by
    rw [hlog, hsaid, List.append_assoc]
  have hgained : w.gained w' = said ++ reports := by
    rw [World.gained, hnew, ← Array.length_toList, List.drop_left]
  exact ⟨hgained ▸ hnew, said, hgained, hall⟩

theorem Effect.heard {e : Effect} (h : e.Spoken owner) (w : World) : w.Heard owner (e.apply w) := by
  cases e with
  | record l => exact .record h w
  | loadImage path =>
      obtain ⟨images, assets, h⟩ := w.loadImage_world path
      rw [Effect.apply, h]
      exact .of_log_eq rfl
  | random low high =>
      obtain ⟨seed, h⟩ := w.random_world low high
      rw [Effect.apply, h]
      exact .of_log_eq rfl
  | tick | requestAdd _ | requestRemoval _ | set _ _ _ | setAll _ _ | draw _ _ _ _ =>
      exact .of_log_eq rfl

/-! ## Runs -/

/-- However the run ends, it put nothing into the log but utterances of the instance. -/
abbrev Lang.Speaks (owner : ScriptHandle) {α : Type} (x : Eval α) : Prop :=
  Leads (fun m m' => m.world.Heard owner m'.world) x

namespace Lang.Speaks

variable {α β : Type}

theorem pure (a : α) : Speaks owner (Pure.pure a : Eval α) := Leads.pure (fun _ => .refl _) a

theorem throw (halt : Halt) : Speaks owner (MonadExcept.throw halt : Eval α) :=
  Leads.throw (fun _ => .refl _) halt

theorem bind {x : Eval α} {f : α → Eval β} (hx : Speaks owner x) (hf : ∀ a, Speaks owner (f a)) :
    Speaks owner (x >>= f) := Leads.bind .trans hx hf

theorem look {f : Machine → Eval α} (hf : ∀ m, Speaks owner (f m)) : Speaks owner (get >>= f) :=
  bind (Leads.get fun _ => .refl _) hf

theorem modifyFrame (f : Frame → Frame) : Speaks owner (Eval.modifyFrame f) :=
  Leads.change fun _ => .refl _

theorem effect {e : Effect} (h : e.Spoken owner) : Speaks owner (Eval.modifyWorld e.apply) :=
  Leads.change fun m => e.heard h m.world

theorem fetchLibrary {stage : Stage} {run : Run} {file : FilePath}
    (hread : Speaks stage.owner (readLibrary run file)) (modified : Option Instant) (text : String)
    (pos : Place) : Speaks stage.owner (Lang.fetchLibrary stage run file modified text pos) := by
  have fresh : Speaks stage.owner (readAnew stage run file modified text pos) := by
    refine bind (bind (Leads.attempt hread) fun r => ?_) fun module => ?_
    · split
      · exact pure _
      · exact throw _
      · exact throw _
    · refine bind (effect (e := .record _) (.library text file)) fun _ => ?_
      exact bind (Leads.change fun _ => .refl _) fun _ => pure module
  rw [fetchLibrary_eq]
  refine look fun m => ?_
  split
  · split
    · exact pure _
    · exact fresh
  · exact fresh

theorem bringLibrary {stage : Stage} {run : Run} {text : String} {pos : Place}
    (hload : ∀ entry ∈ stage.libraries.files,
      Speaks stage.owner (loadLibrary stage run entry.2 text pos)) (name : Option String) :
    Speaks stage.owner (Lang.bringLibrary stage run text pos name) := by
  refine bind (look fun m => ?_) fun module => ?_
  · split
    · exact pure _
    · unfold resolveLibrary
      split
      · rename_i file hfile
        exact hload (importStem text, file) (Libraries.mem_of_path? hfile)
      · exact throw _
  · cases name with
    | none => exact pure ()
    | some name => exact modifyFrame fun f => { f with imports := (name, module) :: f.imports }

end Lang.Speaks

/-- What is built puts utterances into the log and nothing else. -/
theorem Lang.Built.speaks {stage : Stage} {α : Type} [Leafy α] {x : Eval α}
    (h : Built (fun _ => True) stage x) : Speaks stage.owner x := by
  induction h with
  | endless => exact fun _ _ _ h => nomatch h
  | pure => exact .pure _
  | throw => exact .throw _
  | bind _ _ hx hf => exact .bind hx fun a => hf a (within_everything a)
  | attempt _ hx => exact Leads.attempt hx
  | look _ _ hf => exact .look fun m => hf m m.confined_everything
  | modifyFrame => exact .modifyFrame _
  | apart _ _ _ hx hk =>
      refine .look fun outer => .bind (.modifyFrame _) fun _ => .bind (Leads.attempt hx) fun r => ?_
      refine .look fun inner => .bind (.modifyFrame _) fun _ => ?_
      exact hk inner.frame r (within_everything _) (within_everything r)
  | effect _ _ hs => exact .effect hs
  | @ask _ _ f e _ _ hw _ hs =>
      intro m r m' h
      cases h
      exact hw m.world ▸ e.heard hs m.world
  | setCell => exact Leads.change fun _ => .refl _
  | newCell _ _ hf =>
      refine .bind (fun m r m' h => ?_) fun cell => hf cell trivial
      cases h
      exact .refl _
  | load _ _ _ _ hread => exact .look fun _ => .fetchLibrary hread _ _ _
  | bring _ _ _ hload => exact .bringLibrary hload _

/-! ## Loads and calls -/

theorem perform_heard {stage : Stage} {α : Type} {x : Eval α} {frame frame' : Frame}
    {r : Except Halt α} {w w' : World} (hx : Speaks stage.owner x)
    (h : perform stage x frame w = some (r, frame', w')) : w.Heard stage.owner w' := by
  obtain ⟨⟨r₁, m⟩, hrun, h⟩ := Option.bind_eq_some_iff.mp h
  cases h
  exact hx _ _ _ hrun

theorem Performed.heard {stage : Stage} {w w' : World} (h : Performed stage w w') :
    w.Heard stage.owner w' := by
  induction h with
  | nothing w => exact .refl w
  | code hx hrun _ ih =>
      obtain ⟨_, hbuilt⟩ := hx.built
      exact (perform_heard hbuilt.speaks hrun).trans ih

namespace Instance

variable {budget : Nat} {libraries : Libraries} {i i' : Instance} {w w' : World}

/-- A load ends with one report of the host, on what came of it. -/
theorem reload_log {r : Except ReloadError Unit}
    (h : i.reload budget libraries w = some (r, i', w')) :
    (∃ b time, r = .ok () ∧ i' = i.loaded b time ∧ w.Told i.handle [i.successReport b] w') ∨
      ∃ e, r = .error e ∧ i' = i.notLoaded e ∧ w.Told i.handle [i.failureReport e] w' := by
  rcases reload_cases h with ⟨b, w₁, hbuild, hr, hi, rfl⟩ | ⟨e, w₁, hbuild, hr, hi, rfl⟩
  · exact .inl ⟨b, w₁.clock, hr, hi, (build_performed hbuild).heard.told Array.toList_push⟩
  · exact .inr ⟨e, hr, hi, (build_performed hbuild).heard.told Array.toList_push⟩

variable {e : EntryPoint} {args : List HostValue} {o : Outcome}

theorem invoke_log (h : i.invoke budget libraries e args w = some (o, i', w')) :
    w.Told i.handle [] w' := (invoke_performed h).heard.told (List.append_nil _).symm

/-- A dispatch that fails ends with one report of the host, and no other does. -/
theorem dispatch_log (h : i.dispatch budget libraries e args w = some (o, i', w')) :
    w.Told i.handle (o.error?.map DispatchError.report).toList w' := by
  rcases dispatch_iff.mp h with ⟨err, i₁, w₁, hinvoke, rfl, -, rfl⟩ | ⟨hinvoke, hfailed⟩
  · exact (invoke_performed hinvoke).heard.told Array.toList_push
  · have herror : o.error? = none := by
      cases o with
      | failed => nomatch hfailed
      | skipped | completed => rfl
    rw [herror]
    exact invoke_log hinvoke

end Instance

end Stagehand
