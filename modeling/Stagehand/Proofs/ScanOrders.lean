import Mathlib.Algebra.GroupWithZero.Nat
import Stagehand.Proofs.Isolation
import Stagehand.Proofs.Scans

/-!
# Scans in any order

In which order a walk yields the files is not for the program to say. It makes no difference to
instances whose top levels keep to themselves: as a scan goes to and fro between them, each of them
goes through the attempts that it would go through if it were alone (`Solo`), as many as there are
files that it is behind, or up to the first one that succeeds. That is read off one scan
(`Sweep.alone`), and from it any other is put together (`reloadAll_alone`).

That a top level keeps to itself is deliberately *semantic* (`Instance.Private`): it comes to the
same in all worlds that differ in what belongs to others. Of a script that has no reference to what
is not its own this is known (`Instance.private_of_own`), as long as it does nothing with the host.
-/

namespace Stagehand

open Lang

/-! ## What belongs to others -/

/-- What belongs to an instance alone: its realm, by its number, and its store. -/
def Instance.belongings (i : Instance) : InstanceId × StoreId := (i.id, i.data)

/-- The worlds differ in some realms and stores, in clocks and logs, and in nothing else. -/
structure World.Beside (theirs : List (InstanceId × StoreId)) (w v : World) : Prop where
  files : v.files = w.files
  host : v.host = w.host
  images : v.images = w.images
  seed : v.seed = w.seed
  removals : v.removals = w.removals
  size : v.stores.size = w.stores.size
  stores : ∀ id, id ∉ theirs.map Prod.snd → v.stores[id]? = w.stores[id]?
  realms : ∀ id, id ∉ theirs.map Prod.fst → v.realm id = w.realm id

namespace World.Beside

variable {theirs theirs' : List (InstanceId × StoreId)} {w v u : World}

theorem refl (w : World) : w.Beside theirs w :=
  ⟨rfl, rfl, rfl, rfl, rfl, rfl, fun _ _ => rfl, fun _ _ => rfl⟩

theorem symm (h : w.Beside theirs v) : v.Beside theirs w :=
  ⟨h.files.symm, h.host.symm, h.images.symm, h.seed.symm, h.removals.symm, h.size.symm,
    fun id hid => (h.stores id hid).symm, fun id hid => (h.realms id hid).symm⟩

theorem trans (h : w.Beside theirs v) (h' : v.Beside theirs u) : w.Beside theirs u :=
  ⟨h'.files.trans h.files, h'.host.trans h.host, h'.images.trans h.images, h'.seed.trans h.seed,
    h'.removals.trans h.removals, h'.size.trans h.size,
    fun id hid => (h'.stores id hid).trans (h.stores id hid),
    fun id hid => (h'.realms id hid).trans (h.realms id hid)⟩

theorem mono (h : w.Beside theirs v) (hsub : theirs ⊆ theirs') : w.Beside theirs' v :=
  ⟨h.files, h.host, h.images, h.seed, h.removals, h.size,
    fun id hid => h.stores id fun hmem => hid (List.map_subset _ hsub hmem),
    fun id hid => h.realms id fun hmem => hid (List.map_subset _ hsub hmem)⟩

/-- They do not differ in what is the same. -/
theorem narrow {k : InstanceId × StoreId} (h : w.Beside (k :: theirs) v)
    (hrealm : v.realm k.1 = w.realm k.1) (hstore : v.stores[k.2]? = w.stores[k.2]?) :
    w.Beside theirs v := by
  refine ⟨h.files, h.host, h.images, h.seed, h.removals, h.size, fun id hid => ?_, fun id hid => ?_⟩
  · by_cases heq : id = k.2
    · rw [heq, hstore]
    · exact h.stores id fun hmem => hid ((List.mem_cons.mp hmem).resolve_left heq)
  · by_cases heq : id = k.1
    · rw [heq, hrealm]
    · exact h.realms id fun hmem => hid ((List.mem_cons.mp hmem).resolve_left heq)

/-- Time and reports make no difference. -/
theorem later (w : World) (clock : Instant) (log : Array LogRecord) :
    w.Beside theirs { w with clock, log } :=
  ⟨rfl, rfl, rfl, rfl, rfl, rfl, fun _ _ => rfl, fun _ _ => rfl⟩

end World.Beside

/-- What belongs to others than the one with this number. -/
def othersOf (all : List (InstanceId × StoreId)) (id : InstanceId) : List (InstanceId × StoreId) :=
  all.filter fun k => k.1 != id

theorem mem_othersOf {all : List (InstanceId × StoreId)} {id : InstanceId} {j : Instance}
    (hj : j.belongings ∈ all) (hne : j.id ≠ id) : j.belongings ∈ othersOf all id :=
  List.mem_filter.mpr ⟨hj, bne_iff_ne.mpr hne⟩

theorem Attempt.Genuine.belongings {libraries : Libraries} {a : Attempt}
    (h : a.Genuine libraries) : a.after.belongings = a.before.belongings := by
  obtain ⟨budget, hreload⟩ := h
  rcases Instance.reload_cases hreload with ⟨b, w, -, -, hafter, -⟩ | ⟨e, w, -, -, hafter, -⟩ <;>
    rw [hafter] <;> rfl

/-! ## Keeping to oneself -/

/-- The same instance, but for the time of its last load, if there was one. -/
structure Instance.SameButTime (i j : Instance) : Prop where
  same : j = i.since j.loadTime
  loaded : j.loadTime.isSome = i.loadTime.isSome

/-- The top level of an instance has to do with what is its own and with nothing else. In every
world that differs in what belongs to others it comes to the same, and what it changes there belongs
to the instance. -/
def Instance.Private (budget : Nat) (libraries : Libraries) (theirs : List (InstanceId × StoreId))
    (i : Instance) (w : World) : Prop :=
  ∃ r w', build budget (i.stage libraries) i.source w = some (r, w') ∧
    ∀ v, w.Beside theirs v → ∃ v', build budget (i.stage libraries) i.source v = some (r, v') ∧
      w'.Beside theirs v' ∧ v.Beside [i.belongings] v'

namespace Instance

variable {budget : Nat} {libraries : Libraries} {theirs : List (InstanceId × StoreId)}
  {i i' j k : Instance} {w w' v : World} {r : Except ReloadError Unit}

theorem SameButTime.refl (i : Instance) : i.SameButTime i := ⟨rfl, rfl⟩

theorem SameButTime.symm (h : i.SameButTime j) : j.SameButTime i :=
  ⟨by rw [h.same]; rfl, h.loaded.symm⟩

theorem SameButTime.trans (h : i.SameButTime j) (h' : j.SameButTime k) : i.SameButTime k := by
  refine ⟨?_, h'.loaded.trans h.loaded⟩
  have hk := h'.same
  rw [h.same] at hk
  exact hk

theorem Private.moved (h : i.Private budget libraries theirs w) (hv : w.Beside theirs v) :
    i.Private budget libraries theirs v := by
  obtain ⟨r, w', -, hall⟩ := h
  obtain ⟨v', hbuild, hv', -⟩ := hall v hv
  refine ⟨r, v', hbuild, fun u hu => ?_⟩
  obtain ⟨u', hbuild', hu', hown⟩ := hall u (hv.trans hu)
  exact ⟨u', hbuild', hv'.symm.trans hu', hown⟩

/-- An attempt that keeps to itself can be made in every world that differs in what belongs to
others. -/
theorem Private.attempt (h : i.Private budget libraries theirs w)
    (hr : i.reload budget libraries w = some (r, i', w')) (hv : w.Beside theirs v) :
    ∃ i'' v', i.reload budget libraries v = some (r, i'', v') ∧ i'.SameButTime i'' ∧
      (r.isOk = false → i'' = i') ∧ w'.Beside theirs v' ∧ v.Beside [i.belongings] v' := by
  obtain ⟨built, w₀, hbuilt, hall⟩ := h
  obtain ⟨v₁, hbuild', hbeside, hown⟩ := hall v hv
  rcases reload_cases hr with ⟨b, w₁, hbuild, rfl, rfl, rfl⟩ | ⟨e, w₁, hbuild, rfl, rfl, rfl⟩
  · cases hbuilt.symm.trans hbuild
    refine ⟨i.loaded b v₁.clock, ((v₁.record (i.successReport b)).tick).2,
      Option.bind_eq_some_iff.mpr ⟨_, hbuild', rfl⟩, ⟨rfl, rfl⟩, nofun, ?_, ?_⟩
    · exact ((World.Beside.later w₀ _ _).symm.trans hbeside).trans (.later v₁ _ _)
    · exact hown.trans (.later v₁ _ _)
  · cases hbuilt.symm.trans hbuild
    refine ⟨i.notLoaded e, v₁.record (i.failureReport e),
      Option.bind_eq_some_iff.mpr ⟨_, hbuild', rfl⟩, .refl _, fun _ => rfl, ?_, ?_⟩
    · exact ((World.Beside.later w₀ _ _).symm.trans hbeside).trans (.later v₁ _ _)
    · exact hown.trans (.later v₁ _ _)

end Instance

/-! ## An instance alone -/

section Solos

variable (budget : Nat) (libraries : Libraries)

/-- An instance alone, with so many files that it is behind: it is attempted once for each of them,
up to the first attempt that succeeds, and keeps to itself all the while. Behind the files come the
instance and the world in the beginning, the number of attempts, and what was left. -/
inductive Solo (theirs : List (InstanceId × StoreId)) :
    Nat → Instance → World → Nat → Instance → World → Prop
  | idle {i : Instance} {w : World} : Solo theirs 0 i w 0 i w
  | succeeded {behind : Nat} {i i' : Instance} {w w' : World}
      (hp : i.Private budget libraries theirs w)
      (h : i.reload budget libraries w = some (.ok (), i', w')) :
      Solo theirs (behind + 1) i w 1 i' w'
  | failed {behind n : Nat} {i i₁ i' : Instance} {w w₁ w' : World} {e : ReloadError}
      (hp : i.Private budget libraries theirs w)
      (h : i.reload budget libraries w = some (.error e, i₁, w₁))
      (hs : Solo theirs behind i₁ w₁ n i' w') : Solo theirs (behind + 1) i w (n + 1) i' w'

/-- An instance at the beginning and at the end of a scan, and the number of attempts on it. -/
structure Single where
  start : Instance
  tries : Nat
  stop : Instance

/-- The instance could have been alone: the attempts, and what is left of it, are what they are if
it is. -/
def Single.Alone (all : List (InstanceId × StoreId)) (sources : List SourceFile) (w w' : World)
    (t : Single) : Prop :=
  ∃ stop left, Solo budget libraries (othersOf all t.start.id) (sources.countP t.start.isStale)
    t.start w t.tries stop left ∧ stop.SameButTime t.stop ∧ left.Beside (othersOf all t.start.id) w'

end Solos

section Moves

variable {budget : Nat} {libraries : Libraries} {all theirs : List (InstanceId × StoreId)}
  {sources : List SourceFile} {i i' : Instance} {w w' v v' : World} {n m : Nat}

theorem Solo.moved (h : Solo budget libraries theirs m i w n i' w') (hv : w.Beside theirs v) :
    ∃ i'' v', Solo budget libraries theirs m i v n i'' v' ∧ i'.SameButTime i'' ∧
      w'.Beside theirs v' := by
  induction h generalizing v with
  | idle => exact ⟨_, v, .idle, .refl _, hv⟩
  | succeeded hp hreload =>
      obtain ⟨i'', v', hreload', hsame, -, hbeside, -⟩ := hp.attempt hreload hv
      exact ⟨i'', v', .succeeded (hp.moved hv) hreload', hsame, hbeside⟩
  | failed hp hreload _ ih =>
      obtain ⟨_, v₁, hreload', -, heq, hbeside, -⟩ := hp.attempt hreload hv
      cases heq rfl
      obtain ⟨i'', v', hsolo, hsame, hend⟩ := ih hbeside
      exact ⟨i'', v', .failed (hp.moved hv) hreload' hsolo, hsame, hend⟩

/-- The others may differ in the beginning and in the end. -/
theorem Single.Alone.moved {t : Single} (h : t.Alone budget libraries all sources w w')
    (hv : w.Beside (othersOf all t.start.id) v) (hv' : w'.Beside (othersOf all t.start.id) v') :
    t.Alone budget libraries all sources v v' := by
  obtain ⟨stop, left, hsolo, hsame, hleft⟩ := h
  obtain ⟨stop', left', hsolo', hsame', hleft'⟩ := hsolo.moved hv
  exact ⟨stop', left', hsolo', hsame'.symm.trans hsame, (hleft'.symm.trans hleft).trans hv'⟩

/-- An attempt changes how many files the instance is behind. -/
theorem Attempt.Genuine.countP_isStale {a : Attempt} (h : a.Genuine libraries)
    (hdates : ∀ s ∈ sources, s.modified ≤ a.world.clock) :
    sources.countP a.after.isStale =
      if a.succeeded then 0 else sources.countP a.before.isStale := by
  have hbehind : ∀ s ∈ sources, a.after.isStale s =
      if a.succeeded then false else a.before.isStale s :=
    fun s hs => h.isStale (hdates s hs) (Int.le_refl _)
  cases hsucceeded : a.succeeded with
  | true =>
      refine List.countP_eq_zero.mpr fun s hs => ?_
      rw [hbehind s hs, hsucceeded]
      exact Bool.false_ne_true
  | false =>
      refine List.countP_congr fun s hs => ?_
      rw [hbehind s hs, hsucceeded]
      rfl

/-- One more attempt in front of what an instance does alone. -/
theorem Single.Alone.cons {s : SourceFile} {t : Single} {a : Attempt}
    (h : t.Alone budget libraries all sources a.left w')
    (hstart : t.start = a.after) (hstale : a.before.isStale s = true)
    (hreload : a.before.reload budget libraries a.world = some (a.result, a.after, a.left))
    (hdates : ∀ s ∈ sources, s.modified ≤ a.world.clock)
    (hp : a.before.Private budget libraries (othersOf all a.before.id) a.world) :
    (Single.mk a.before (t.tries + 1) t.stop).Alone budget libraries all (s :: sources) a.world
      w' := by
  have ha : a.Genuine libraries := ⟨budget, hreload⟩
  obtain ⟨start, tries, last⟩ := t
  obtain rfl : start = a.after := hstart
  obtain ⟨stop, left, hsolo, hsame, hleft⟩ := h
  dsimp only at hsolo hsame hleft
  rw [ha.countP_isStale hdates, ha.id] at hsolo
  rw [ha.id] at hleft
  refine ⟨stop, left, ?_, hsame, hleft⟩
  dsimp only
  rw [List.countP_cons_of_pos hstale]
  unfold Attempt.succeeded at hsolo
  generalize a.result = result at hsolo hreload
  cases result with
  | ok =>
      change Solo budget libraries _ 0 a.after a.left tries stop left at hsolo
      cases hsolo
      exact .succeeded hp hreload
  | error e => exact .failed hp hreload hsolo

/-- Who can be alone can make the next attempt, and can be alone after it. -/
theorem Single.Alone.uncons {s : SourceFile} {t : Single}
    (h : t.Alone budget libraries all (s :: sources) w w') (hstale : t.start.isStale s = true)
    (hdates : ∀ s ∈ sources, s.modified ≤ w.clock) :
    ∃ result i' w₁ tries, t.start.Private budget libraries (othersOf all t.start.id) w ∧
      t.start.reload budget libraries w = some (result, i', w₁) ∧ t.tries = tries + 1 ∧
      (Single.mk i' tries t.stop).Alone budget libraries all sources w₁ w' := by
  obtain ⟨i, n, last⟩ := t
  obtain ⟨stop, left, hsolo, hsame, hleft⟩ := h
  dsimp only at hsolo hsame hleft hstale ⊢
  rw [List.countP_cons_of_pos hstale] at hsolo
  -- what is left to do is what is left of the files
  have goesOn {result : Except ReloadError Unit} {i' : Instance} {w₁ : World} {tries : Nat}
      (hreload : i.reload budget libraries w = some (result, i', w₁))
      (hsolo : Solo budget libraries (othersOf all i.id)
        (if result.isOk then 0 else sources.countP i.isStale) i' w₁ tries stop left) :
      (Single.mk i' tries last).Alone budget libraries all sources w₁ w' := by
    have ha : Attempt.Genuine libraries ⟨i, w, result, i', w₁⟩ := ⟨budget, hreload⟩
    refine ⟨stop, left, ?_, hsame, ?_⟩
    · rw [ha.countP_isStale hdates, ha.id]
      exact hsolo
    · rw [ha.id]
      exact hleft
  cases hsolo with
  | succeeded hp hreload => exact ⟨_, _, _, 0, hp, hreload, rfl, goesOn hreload .idle⟩
  | failed hp hreload hs => exact ⟨_, _, _, _, hp, hreload, rfl, goesOn hreload hs⟩

/-- A file that the instance is not behind makes no difference. -/
theorem Single.alone_cons_of_fresh {s : SourceFile} {t : Single}
    (hfresh : t.start.isStale s = false) :
    t.Alone budget libraries all (s :: sources) w w' ↔
      t.Alone budget libraries all sources w w' := by
  unfold Single.Alone
  rw [List.countP_cons_of_neg (Bool.eq_false_iff.mp hfresh)]

end Moves

/-! ## One order -/

/-- Instances among others, with numbers of their own. -/
structure Among (all : List (InstanceId × StoreId)) (is : List Instance) : Prop where
  ids : (is.map Instance.id).Nodup
  mem : ∀ i ∈ is, i.belongings ∈ all

/-- All attempts keep to themselves. -/
def Discreet (budget : Nat) (libraries : Libraries) (all : List (InstanceId × StoreId))
    (es : List Event) : Prop :=
  ∀ a, .tried a ∈ es → a.before.Private budget libraries (othersOf all a.before.id) a.world

section Orders

variable {budget : Nat} {libraries : Libraries} {all : List (InstanceId × StoreId)}
  {s : SourceFile} {sources : List SourceFile} {i : Instance} {is is' rest : List Instance}
  {w w' : World} {es : List Event}

theorem Among.congr (h : Among all is)
    (hsame : is'.map Instance.belongings = is.map Instance.belongings) : Among all is' := by
  refine ⟨?_, fun i hi => ?_⟩
  · have hids := congrArg (List.map Prod.fst) hsame
    rw [List.map_map, List.map_map] at hids
    exact hids ▸ h.ids
  · obtain ⟨j, hj, heq⟩ := List.mem_map.mp (hsame ▸ List.mem_map_of_mem hi)
    exact heq ▸ h.mem j hj

theorem Among.tail (h : Among all (i :: rest)) : Among all rest :=
  ⟨(List.nodup_cons.mp h.ids).2, (List.forall_mem_cons.mp h.mem).2⟩

/-- What belongs to the instances behind the first one belongs to others than it. -/
theorem Among.tail_others (h : Among all (i :: rest)) :
    rest.map Instance.belongings ⊆ othersOf all i.id := by
  intro k hk
  obtain ⟨j, hj, rfl⟩ := List.mem_map.mp hk
  obtain ⟨hnew, -⟩ := List.nodup_cons.mp h.ids
  refine mem_othersOf (h.mem j (List.mem_cons_of_mem _ hj)) fun heq => hnew ?_
  exact heq ▸ List.mem_map_of_mem hj

/-- What belongs to the first instance belongs to another than any of those behind it. -/
theorem Among.head_others (h : Among all (i :: rest)) {j : Instance} (hj : j ∈ rest) :
    [i.belongings] ⊆ othersOf all j.id := by
  obtain ⟨hnew, -⟩ := List.nodup_cons.mp h.ids
  refine List.cons_subset.mpr ⟨mem_othersOf (h.mem i List.mem_cons_self) fun heq => hnew ?_,
    List.nil_subset _⟩
  exact heq ▸ List.mem_map_of_mem hj

/-- An attempt that keeps to itself changes what belongs to the instance. -/
theorem Instance.Private.own {theirs : List (InstanceId × StoreId)} {i' : Instance}
    {r : Except ReloadError Unit} (h : i.Private budget libraries theirs w)
    (hr : i.reload budget libraries w = some (r, i', w')) : w.Beside [i.belongings] w' := by
  obtain ⟨i'', v', hr', -, -, -, hown⟩ := h.attempt hr (.refl w)
  cases hr.symm.trans hr'
  exact hown

/-- Attempts for one file keep everybody in place and change what belongs to them. -/
theorem Reloads.beside (h : Reloads budget libraries s is w es is' w')
    (hd : Discreet budget libraries all es) :
    is'.map Instance.belongings = is.map Instance.belongings ∧
      w.Beside (is.map Instance.belongings) w' := by
  induction h with
  | done => exact ⟨rfl, .refl _⟩
  | @stale i i' rest rest' w w₁ w' es result _ hreload _ ih =>
      obtain ⟨hsame, hbeside⟩ := ih fun a ha => hd a (List.mem_cons_of_mem _ ha)
      have hown := (hd _ List.mem_cons_self).own hreload
      have ha : Attempt.Genuine libraries ⟨i, _, result, i', w₁⟩ := ⟨budget, hreload⟩
      refine ⟨congrArg₂ List.cons ha.belongings hsame, ?_⟩
      exact (((World.Beside.later w _ _).trans hown).mono (by simp)).trans
        (hbeside.mono (List.subset_cons_self ..))
  | fresh _ _ ih =>
      obtain ⟨hsame, hbeside⟩ := ih hd
      exact ⟨by rw [List.map_cons, List.map_cons, hsame], hbeside.mono (List.subset_cons_self ..)⟩

/-- What came of one file, put in front of what comes of the others. -/
theorem Reloads.alone (h : Reloads budget libraries s is w es is' w') (hin : Among all is)
    (hdates : ∀ s ∈ sources, s.modified ≤ w.clock) (hd : Discreet budget libraries all es)
    {last : World} {ts : List Single} (hstarts : ts.map Single.start = is')
    (hts : ∀ t ∈ ts, t.Alone budget libraries all sources w' last) :
    ∃ us : List Single, us.map Single.start = is ∧ us.map Single.stop = ts.map Single.stop ∧
      (us.map Single.tries).sum = es.length + (ts.map Single.tries).sum ∧
      ∀ u ∈ us, u.Alone budget libraries all (s :: sources) w last := by
  induction h generalizing ts with
  | done =>
      cases List.map_eq_nil_iff.mp hstarts
      exact ⟨[], rfl, rfl, rfl, List.forall_mem_nil _⟩
  | @stale i i' rest rest' w w₁ w' es result hstale hreload hs ih =>
      obtain ⟨t, ts, rfl, ht, hrest⟩ := List.map_eq_cons_iff.mp hstarts
      obtain ⟨hfirst, hothers⟩ := List.forall_mem_cons.mp hts
      have hdiscreet : Discreet budget libraries all es :=
        fun a ha => hd a (List.mem_cons_of_mem _ ha)
      have hp := hd _ List.mem_cons_self
      let a : Attempt := ⟨i, w.record (s.report i), result, i', w₁⟩
      have ha : a.Genuine libraries := ⟨budget, hreload⟩
      have hclock : w.clock ≤ w₁.clock := ha.clock_le
      obtain ⟨us, hus, hstops, htries, halone⟩ := ih hin.tail
        (fun s hs => Int.le_trans (hdates s hs) hclock) hdiscreet hrest hothers
      -- behind its attempt the first instance does not notice the others
      have hbehind : t.Alone budget libraries all sources w₁ last := by
        have hbeside := (hs.beside hdiscreet).2.mono hin.tail_others
        refine hfirst.moved ?_ (.refl _)
        rw [ht, ha.id]
        exact hbeside.symm
      have hcons := hbehind.cons (a := a) ht hstale hreload hdates hp
      refine ⟨⟨i, t.tries + 1, t.stop⟩ :: us, by rw [List.map_cons, hus],
        by rw [List.map_cons, hstops]; rfl, ?_, List.forall_mem_cons.mpr ⟨?_, fun u hu => ?_⟩⟩
      · simp only [List.map_cons, List.sum_cons, htries, List.length_cons]
        omega
      · exact hcons.moved (World.Beside.later w _ _).symm (.refl _)
      · -- and the others do not notice the attempt
        have hmem : u.start ∈ rest := hus ▸ List.mem_map_of_mem hu
        have hown := ((World.Beside.later w _ _).trans (hp.own hreload)).mono (hin.head_others hmem)
        exact (halone u hu).moved hown.symm (.refl _)
  | @fresh i rest rest' w w' es hfresh hs ih =>
      obtain ⟨t, ts, rfl, ht, hrest⟩ := List.map_eq_cons_iff.mp hstarts
      obtain ⟨hfirst, hothers⟩ := List.forall_mem_cons.mp hts
      obtain ⟨us, hus, hstops, htries, halone⟩ := ih hin.tail hdates hd hrest hothers
      have hbeside := (hs.beside hd).2.mono hin.tail_others
      refine ⟨t :: us, by rw [List.map_cons, hus, ht], by rw [List.map_cons, hstops]; rfl, ?_,
        List.forall_mem_cons.mpr ⟨?_, halone⟩⟩
      · simp only [List.map_cons, List.sum_cons, htries]
        omega
      · rw [Single.alone_cons_of_fresh (by rw [ht, hfresh])]
        exact hfirst.moved (ht ▸ hbeside.symm) (.refl _)

/-- In a scan in which all attempts keep to themselves every instance could have been alone. -/
theorem Sweep.alone (h : Sweep budget libraries sources is w es is' w') (hin : Among all is)
    (hdates : ∀ s ∈ sources, s.modified ≤ w.clock) (hd : Discreet budget libraries all es) :
    ∃ ts : List Single, ts.map Single.start = is ∧ ts.map Single.stop = is' ∧
      (ts.map Single.tries).sum = es.length ∧
      (∀ t ∈ ts, t.Alone budget libraries all sources w w') ∧
      w.Beside (is.map Instance.belongings) w' := by
  induction h with
  | @done is w =>
      refine ⟨is.map fun i => ⟨i, 0, i⟩, by simp [Function.comp_def], by simp [Function.comp_def],
        by simp [Function.comp_def], fun t ht => ?_, .refl w⟩
      obtain ⟨i, -, rfl⟩ := List.mem_map.mp ht
      exact ⟨i, w, .idle, .refl i, .refl w⟩
  | @source s sources is is₁ is' w w₁ w' tries es hreloads _ ih =>
      obtain ⟨-, hrest⟩ := List.forall_mem_cons.mp hdates
      have hfirst : Discreet budget libraries all tries :=
        fun a ha => hd a (List.mem_append_left _ ha)
      obtain ⟨hsame, hbeside⟩ := hreloads.beside hfirst
      obtain ⟨ts, hstarts, hstops, htries, halone, hbeside'⟩ := ih (hin.congr hsame)
        (fun s hs => Int.le_trans (hrest s hs) hreloads.clock_le)
        fun a ha => hd a (List.mem_append_right _ ha)
      obtain ⟨us, hus, hstops', htries', halone'⟩ :=
        hreloads.alone hin hrest hfirst hstarts halone
      refine ⟨us, hus, hstops'.trans hstops, ?_, halone', hbeside.trans (hsame ▸ hbeside')⟩
      rw [htries', htries, List.length_append]

/-! ## Any order -/

/-- Those who could be alone can be attempted for one file, and can be alone afterwards. -/
theorem reloadStale_alone {last : World} {ts : List Single} (hin : Among all is)
    (hdates : ∀ s ∈ sources, s.modified ≤ w.clock) (hstarts : ts.map Single.start = is)
    (hts : ∀ t ∈ ts, t.Alone budget libraries all (s :: sources) w last) :
    ∃ n is₁ w₁, ∃ us : List Single,
      reloadStale budget libraries s is w = some (n, is₁, w₁) ∧
      us.map Single.start = is₁ ∧ us.map Single.stop = ts.map Single.stop ∧
      n + (us.map Single.tries).sum = (ts.map Single.tries).sum ∧
      (∀ u ∈ us, u.Alone budget libraries all sources w₁ last) ∧
      is₁.map Instance.belongings = is.map Instance.belongings ∧
      w.Beside (is.map Instance.belongings) w₁ ∧ w.clock ≤ w₁.clock := by
  induction is generalizing w ts with
  | nil =>
      cases List.map_eq_nil_iff.mp hstarts
      exact ⟨0, [], w, [], rfl, rfl, rfl, rfl, List.forall_mem_nil _, rfl, .refl w, Int.le_refl _⟩
  | cons i rest ih =>
      obtain ⟨t, ts, rfl, rfl, hrest⟩ := List.map_eq_cons_iff.mp hstarts
      obtain ⟨hfirst, hothers⟩ := List.forall_mem_cons.mp hts
      cases hstale : t.start.isStale s with
      | true =>
          have hrecord : ∀ theirs, w.Beside theirs (w.record (s.report t.start)) :=
            fun _ => .later w _ _
          obtain ⟨result, i', w', tries, hp, hreload, htries, hnext⟩ :=
            (hfirst.moved (hrecord _) (.refl last)).uncons hstale hdates
          have ha : Attempt.Genuine libraries ⟨_, _, result, i', w'⟩ := ⟨budget, hreload⟩
          have hown := (hrecord _).trans (hp.own hreload)
          have hclock : w.clock ≤ w'.clock := ha.clock_le
          obtain ⟨n, is₁, w₁, us, hrow, hus, hstops, hsum, halone, hsame, hbeside, hle⟩ :=
            ih hin.tail (fun s hs => Int.le_trans (hdates s hs) hclock) hrest fun u hu =>
              (hothers u hu).moved
                (hown.mono (hin.head_others (hrest ▸ List.mem_map_of_mem hu))) (.refl _)
          have hother : w'.Beside (othersOf all i'.id) w₁ := by
            rw [ha.id]
            exact hbeside.mono hin.tail_others
          refine ⟨1 + n, i' :: is₁, w₁, ⟨i', tries, t.stop⟩ :: us, ?_, by rw [List.map_cons, hus],
            by rw [List.map_cons, hstops]; rfl, ?_,
            List.forall_mem_cons.mpr ⟨hnext.moved hother (.refl _), halone⟩,
            congrArg₂ List.cons ha.belongings hsame, ?_, Int.le_trans hclock hle⟩
          · unfold SourceFile.report at hreload
            simp [reloadStale, hstale, hreload, hrow]
          · simp only [List.map_cons, List.sum_cons, ← hsum, htries]
            omega
          · exact (hown.mono (by simp)).trans (hbeside.mono (List.subset_cons_self ..))
      | false =>
          obtain ⟨n, is₁, w₁, us, hrow, hus, hstops, hsum, halone, hsame, hbeside, hle⟩ :=
            ih hin.tail hdates hrest hothers
          refine ⟨n, t.start :: is₁, w₁, t :: us, ?_, by rw [List.map_cons, hus],
            by rw [List.map_cons, hstops]; rfl, ?_, List.forall_mem_cons.mpr ⟨?_, halone⟩,
            by rw [List.map_cons, hsame]; rfl, hbeside.mono (List.subset_cons_self ..), hle⟩
          · simp [reloadStale, hstale, hrow]
          · simp only [List.map_cons, List.sum_cons, ← hsum]
            omega
          · exact ((Single.alone_cons_of_fresh hstale).mp hfirst).moved
              (hbeside.mono hin.tail_others) (.refl _)

/-- Those who could be alone can go through the files in this order, and it comes to what they come
to alone. -/
theorem reloadAll_alone {last : World} {ts : List Single} (hin : Among all is)
    (hdates : ∀ s ∈ sources, s.modified ≤ w.clock) (hstarts : ts.map Single.start = is)
    (hts : ∀ t ∈ ts, t.Alone budget libraries all sources w last) :
    ∃ is' w', reloadAll budget libraries sources is w =
        some ((ts.map Single.tries).sum, is', w') ∧
      List.Forall₂ Instance.SameButTime (ts.map Single.stop) is' ∧
      (∀ id ∈ is.map Instance.id, last.Beside (othersOf all id) w') ∧
      w.Beside (is.map Instance.belongings) w' := by
  induction sources generalizing is w ts with
  | nil =>
      have hend : ∀ t ∈ ts, t.tries = 0 ∧ t.stop.SameButTime t.start ∧
          last.Beside (othersOf all t.start.id) w := by
        intro t ht
        obtain ⟨stop, left, hsolo, hsame, hleft⟩ := hts t ht
        rw [List.countP_nil] at hsolo
        generalize htries : t.tries = tries at hsolo
        cases hsolo
        exact ⟨rfl, hsame.symm, hleft.symm⟩
      have hnone : (ts.map Single.tries).sum = 0 :=
        List.sum_eq_zero_iff_forall_eq_nat.mpr fun n hn => by
          obtain ⟨t, ht, rfl⟩ := List.mem_map.mp hn
          exact (hend t ht).1
      refine ⟨is, w, by rw [hnone]; rfl, ?_, fun id hid => ?_, .refl w⟩
      · rw [← hstarts, List.forall₂_map_left_iff, List.forall₂_map_right_iff, List.forall₂_same]
        exact fun t ht => (hend t ht).2.1
      · obtain ⟨i, hi, rfl⟩ := List.mem_map.mp hid
        obtain ⟨t, ht, rfl⟩ := List.mem_map.mp (hstarts ▸ hi)
        exact (hend t ht).2.2
  | cons s sources ih =>
      obtain ⟨-, hrest⟩ := List.forall_mem_cons.mp hdates
      obtain ⟨n, is₁, w₁, us, hrow, hus, hstops, hsum, halone, hsame, hbeside, hclock⟩ :=
        reloadStale_alone hin hrest hstarts hts
      obtain ⟨is', w', hall, hends, hothers, hbeside'⟩ := ih (hin.congr hsame)
        (fun s hs => Int.le_trans (hrest s hs) hclock) hus halone
      have hids : is₁.map Instance.id = is.map Instance.id := by
        have := congrArg (List.map Prod.fst) hsame
        rwa [List.map_map, List.map_map] at this
      refine ⟨is', w', ?_, hstops ▸ hends, hids ▸ hothers, hbeside.trans (hsame ▸ hbeside')⟩
      rw [← hsum]
      exact Option.bind_eq_some_iff.mpr ⟨_, hrow, Option.bind_eq_some_iff.mpr ⟨_, hall, rfl⟩⟩

/-- What belongs to nobody in particular, whoever is left out, belongs to nobody. -/
theorem World.Beside.of_all {v : World} (hdata : (is.map Instance.data).Nodup)
    (h : w.Beside (is.map Instance.belongings) v) (hothers : ∀ id ∈ is.map Instance.id,
      w.Beside (othersOf (is.map Instance.belongings) id) v) : w.Beside [] v := by
  have hnumber : ∀ id, id ∉ (othersOf (is.map Instance.belongings) id).map Prod.fst := by
    intro id hid
    obtain ⟨k, hk, heq⟩ := List.mem_map.mp hid
    exact bne_iff_ne.mp (List.mem_filter.mp hk).2 heq
  have hstore : ∀ i ∈ is, i.data ∉ (othersOf (is.map Instance.belongings) i.id).map Prod.snd := by
    intro i hi hid
    obtain ⟨k, hk, heq⟩ := List.mem_map.mp hid
    obtain ⟨hmem, hne⟩ := List.mem_filter.mp hk
    obtain ⟨j, hj, rfl⟩ := List.mem_map.mp hmem
    obtain rfl : j = i := List.inj_on_of_nodup_map hdata hj hi heq
    exact bne_iff_ne.mp hne rfl
  have hids : (is.map Instance.belongings).map Prod.fst = is.map Instance.id := List.map_map
  have hstores : (is.map Instance.belongings).map Prod.snd = is.map Instance.data := List.map_map
  refine ⟨h.files, h.host, h.images, h.seed, h.removals, h.size, fun id _ => ?_, fun id _ => ?_⟩
  · by_cases hid : id ∈ is.map Instance.data
    · obtain ⟨i, hi, rfl⟩ := List.mem_map.mp hid
      exact (hothers i.id (List.mem_map_of_mem hi)).stores _ (hstore i hi)
    · exact h.stores id (hstores ▸ hid)
  · by_cases hid : id ∈ is.map Instance.id
    · exact (hothers id hid).realms _ (hnumber id)
    · exact h.realms id (hids ▸ hid)

end Orders

/-! ## Who keeps to itself -/

deriving instance DecidableEq for AssetCache, HostState, RemovalQueue, Image

/-- From one world to the other nothing changed that has to do with the host, and no time went
by. -/
structure World.Still (w w' : World) : Prop where
  host : w'.host = w.host
  images : w'.images = w.images
  seed : w'.seed = w.seed
  removals : w'.removals = w.removals
  clock : w'.clock = w.clock

instance (w w' : World) : Decidable (w.Still w') :=
  decidable_of_iff (w'.host = w.host ∧ w'.images = w.images ∧ w'.seed = w.seed ∧
      w'.removals = w.removals ∧ w'.clock = w.clock)
    ⟨fun ⟨hh, hi, hs, hr, hc⟩ => ⟨hh, hi, hs, hr, hc⟩,
      fun h => ⟨h.host, h.images, h.seed, h.removals, h.clock⟩⟩

section Secluded

variable {budget : Nat} {libraries : Libraries} {i : Instance} {w w' v : World}
  {r : Except ReloadError Binding}

/-- Somebody else than the instance, with a store of its own. -/
def stranger (k : InstanceId × StoreId) : Instance :=
  { handle := ⟨k.1, ""⟩, source := ⟨""⟩, data := k.2 }

theorem World.Beside.alike {k : InstanceId × StoreId} (h : w.Beside [k] v) :
    w.Alike (stranger k) v :=
  ⟨h.host, h.images, h.seed, h.size, fun id hid => h.stores id (by simpa [stranger] using hid),
    fun id hid => h.realms id (by simpa [stranger, Instance.id] using hid),
    fun id _ => by rw [h.removals]⟩

theorem Ran.beside {es : List Effect} (h : Ran i.own i.id es w w') (hs : w.Still w') :
    w.Beside [i.belongings] w' :=
  ⟨h.files, hs.host, hs.images, hs.seed, hs.removals, h.stores_size,
    fun _ hid => h.store_eq fun heq => hid (List.mem_singleton.mpr heq),
    fun id hid => h.others id fun heq => hid (List.mem_singleton.mpr heq)⟩

/-- What is built of an instance that has no way to anything but its own, if the host has no part in
it, comes to the same whatever somebody else has, and changes the instance's own. -/
theorem build_stranger {k : InstanceId × StoreId} (hw : w.Confined i.own i.id)
    (h : build budget (i.stage libraries) i.source w = some (r, w')) (hs : w.Still w')
    (hk : k.1 ≠ i.id ∧ k.2 ≠ i.data) (hv : w.Beside [k] v) :
    ∃ v', build budget (i.stage libraries) i.source v = some (r, v') ∧ v.Still v' ∧
      v.Beside [i.belongings] v' ∧ v'.realm i.id = w'.realm i.id ∧
      v'.stores[i.data]? = w'.stores[i.data]? := by
  have hstranger : w.Confined (.stores (· = i.data)) i.id :=
    ⟨fun cell held hheld _ => (hw.cells cell held hheld trivial).stores_of_own rfl,
      fun _ _ => trivial, hw.modules.stores_of_own rfl,
      fun id d hd hid => (hw.world id d hd hid).stores_of_own rfl⟩
  have hready : w.Ready (stranger k) (fun _ => True) w' v :=
    ⟨⟨hv.alike, hv.files ▸ .refl _⟩, .inr hs.clock⟩
  have hserves : Serves (.stores (· = i.data)) (i.stage libraries) :=
    ⟨trivial, fun _ => trivial, rfl, trivial⟩
  obtain ⟨v', hbuild, hfollows⟩ := build_echo (k := stranger k) (P := (· = i.data)) hk.2 hserves
    (fun _ _ => trivial) (Ne.symm hk.1) trivial hstranger hready h
  have hconfined : v.Confined i.own i.id :=
    hw.of_same (hv.realms _ (by simpa using Ne.symm hk.1))
      (hv.stores _ (by simpa using Ne.symm hk.2))
  obtain ⟨effects, hran, -⟩ := build_ran (Instance.serves_own i libraries) hconfined hbuild
  have hmirrors := hfollows.mirrors
  have hown := hmirrors.removals i.id (Ne.symm hk.1)
  have hstill : v.Still v' := {
    host := hmirrors.host.trans (hs.host.trans hv.host.symm)
    images := hmirrors.images.trans (hs.images.trans hv.images.symm)
    seed := hmirrors.seed.trans (hs.seed.trans hv.seed.symm)
    removals := by
      rw [hran.removals, RemovalQueue.foldl_push_eq]
      intro id hid
      obtain ⟨name, hsame⟩ := hran.allowed _ (mem_removed.mp hid)
      obtain rfl : id = i.id := congrArg ScriptHandle.id hsame
      rw [hv.removals, ← hs.removals, ← hown, hran.removals, RemovalQueue.mem_foldl_push]
      exact .inr hid
    clock := by
      have htime := hfollows.time
      rw [hs.clock] at htime
      simpa using htime }
  exact ⟨v', hbuild, hstill, hran.beside hstill, hmirrors.realms _ (Ne.symm hk.1),
    hmirrors.stores _ (Ne.symm hk.2)⟩

/-- Where several belong to others, there is a world in between, in which one of them has what it has
in the end. -/
theorem World.Beside.split {k : InstanceId × StoreId} {rest : List (InstanceId × StoreId)}
    (hv : w.Beside (k :: rest) v) : ∃ u, w.Beside [k] u ∧ u.Beside rest v := by
  let u := (w.modifyStore k.2 fun _ => v.store k.2).setRealm k.1 (v.realm k.1)
  have hstores : ∀ id, u.stores[id]? =
      w.stores[id]?.map fun d => if k.2 = id then v.store k.2 else d :=
    fun id => w.modifyStore_stores id k.2 fun _ => v.store k.2
  have hsize : u.stores.size = w.stores.size := Array.size_setIfInBounds
  refine ⟨u, ⟨rfl, rfl, rfl, rfl, rfl, hsize, fun id hid => ?_, fun id hid => ?_⟩,
    ⟨hv.files, hv.host, hv.images, hv.seed, hv.removals, hv.size.trans hsize.symm,
      fun id hid => ?_, fun id hid => ?_⟩⟩
  · have hne : k.2 ≠ id := fun heq => hid (List.mem_singleton.mpr heq.symm)
    rw [hstores]
    simp [hne]
  · exact World.realm_setRealm_of_ne _ (fun heq => hid (List.mem_singleton.mpr heq)) _
  · rw [hstores]
    by_cases heq : k.2 = id
    · subst heq
      by_cases hlt : k.2 < v.stores.size
      · have hlt' : k.2 < w.stores.size := hv.size ▸ hlt
        simp [World.store, hlt, hlt']
      · have hge : w.stores.size ≤ k.2 := hv.size ▸ Nat.le_of_not_lt hlt
        rw [Array.getElem?_eq_none (Nat.le_of_not_lt hlt), Array.getElem?_eq_none hge]
        rfl
    · rw [hv.stores id (by simpa [Ne.symm heq] using hid)]
      simp [heq]
  · by_cases heq : id = k.1
    · subst heq
      exact (World.realm_setRealm ..).symm
    · rw [hv.realms id (by simpa [heq] using hid)]
      exact (World.realm_setRealm_of_ne _ heq _).symm

/-- The same whatever any number of others have. -/
theorem build_strangers {theirs : List (InstanceId × StoreId)} (hw : w.Confined i.own i.id)
    (h : build budget (i.stage libraries) i.source w = some (r, w')) (hs : w.Still w')
    (htheirs : ∀ k ∈ theirs, k.1 ≠ i.id ∧ k.2 ≠ i.data) (hv : w.Beside theirs v) :
    ∃ v', build budget (i.stage libraries) i.source v = some (r, v') ∧
      v.Beside [i.belongings] v' ∧ v'.realm i.id = w'.realm i.id ∧
      v'.stores[i.data]? = w'.stores[i.data]? := by
  induction theirs generalizing w w' with
  | nil =>
      have hk : i.id + 1 ≠ i.id ∧ i.data + 1 ≠ i.data := ⟨Nat.succ_ne_self _, Nat.succ_ne_self _⟩
      obtain ⟨v', hbuild, -, hown⟩ := build_stranger (k := (i.id + 1, i.data + 1)) hw h hs hk
        (hv.mono (List.nil_subset _))
      exact ⟨v', hbuild, hown⟩
  | cons k rest ih =>
      obtain ⟨hk, hrest⟩ := List.forall_mem_cons.mp htheirs
      obtain ⟨u, hleft, hright⟩ := hv.split
      obtain ⟨u', hbuild, hstill, hown, hrealm, hstore⟩ := build_stranger hw h hs hk hleft
      have hconfined : u.Confined i.own i.id :=
        hw.of_same (hleft.realms _ fun hmem => hk.1 (List.mem_singleton.mp hmem).symm)
          (hleft.stores _ fun hmem => hk.2 (List.mem_singleton.mp hmem).symm)
      obtain ⟨v', hbuild', hown', hrealm', hstore'⟩ := ih hconfined hbuild hstill hrest hright
      exact ⟨v', hbuild', hown', hrealm'.trans hrealm, hstore'.trans hstore⟩

/-- An instance that has no way to anything but its own keeps to itself, if the host has no part in
what its top level does. -/
theorem Instance.private_of_own {theirs : List (InstanceId × StoreId)} (hw : w.Confined i.own i.id)
    (h : build budget (i.stage libraries) i.source w = some (r, w')) (hs : w.Still w')
    (htheirs : ∀ k ∈ theirs, k.1 ≠ i.id ∧ k.2 ≠ i.data) :
    i.Private budget libraries theirs w := by
  obtain ⟨effects, hran, -⟩ := build_ran (Instance.serves_own i libraries) hw h
  have hself := hran.beside hs
  refine ⟨r, w', h, fun v hv => ?_⟩
  obtain ⟨v', hbuild, hown, hrealm, hstore⟩ := build_strangers hw h hs htheirs hv
  refine ⟨v', hbuild, ?_, hown⟩
  have hall : w'.Beside (i.belongings :: theirs) v' :=
    ((hself.symm.mono (by simp)).trans (hv.mono (List.subset_cons_self ..))).trans
      (hown.mono (by simp))
  exact hall.narrow hrealm hstore

end Secluded

/-- No attempt for one source file has to do with the host. -/
def stillRow (budget : Nat) (libraries : Libraries) (s : SourceFile) :
    List Instance → World → Bool
  | [], _ => true
  | i :: rest, w =>
    if i.isStale s then
      let w := w.record (s.report i)
      ((build budget (i.stage libraries) i.source w).any fun p => decide (w.Still p.2)) &&
        (i.reload budget libraries w).any fun p => stillRow budget libraries s rest p.2.2
    else stillRow budget libraries s rest w

/-- No attempt of a scan has to do with the host. -/
def stillScan (budget : Nat) (libraries : Libraries) :
    List SourceFile → List Instance → World → Bool
  | [], _, _ => true
  | s :: rest, is, w => stillRow budget libraries s is w &&
      (reloadStale budget libraries s is w).any fun p => stillScan budget libraries rest p.2.1 p.2.2

/-- The instances have stores of their own, and no way to anything else. -/
structure Secluded (all : List (InstanceId × StoreId)) (is : List Instance) (w : World) : Prop
    extends Among all is where
  stores : ∀ i ∈ is, ∀ k ∈ all, k.1 ≠ i.id → k.2 ≠ i.data
  confined : ∀ i ∈ is, w.Confined i.own i.id

section Checks

variable {budget : Nat} {libraries : Libraries} {all : List (InstanceId × StoreId)}
  {s : SourceFile} {sources : List SourceFile} {i : Instance} {is is' rest : List Instance}
  {w w' v : World} {es : List Event}

theorem Secluded.head (h : Secluded all (i :: rest) w) :
    w.Confined i.own i.id ∧ ∀ k ∈ othersOf all i.id, k.1 ≠ i.id ∧ k.2 ≠ i.data := by
  refine ⟨h.confined i List.mem_cons_self, fun k hk => ?_⟩
  obtain ⟨hmem, hne⟩ := List.mem_filter.mp hk
  have hid : k.1 ≠ i.id := bne_iff_ne.mp hne
  exact ⟨hid, h.stores i List.mem_cons_self k hmem hid⟩

/-- The instances behind the first one do not notice what it does with its own. -/
theorem Secluded.tail (h : Secluded all (i :: rest) w) (hv : w.Beside [i.belongings] v) :
    Secluded all rest v := by
  refine ⟨h.toAmong.tail, fun j hj => h.stores j (List.mem_cons_of_mem _ hj), fun j hj => ?_⟩
  have hne : i.id ≠ j.id := fun heq =>
    (List.nodup_cons.mp h.ids).1 (heq ▸ List.mem_map_of_mem hj)
  have hstore : i.data ≠ j.data :=
    h.stores j (List.mem_cons_of_mem _ hj) _ (h.mem i List.mem_cons_self) hne
  exact (h.confined j (List.mem_cons_of_mem _ hj)).of_same
    (hv.realms _ fun hmem => hne (List.mem_singleton.mp hmem).symm)
    (hv.stores _ fun hmem => hstore (List.mem_singleton.mp hmem).symm)

theorem Reloads.run (h : Reloads budget libraries s is w es is' w') :
    reloadStale budget libraries s is w = some (es.length, is', w') := by
  induction h with
  | done => rfl
  | stale hstale hreload _ ih =>
      unfold SourceFile.report at hreload
      simp [reloadStale, hstale, hreload, ih, Nat.add_comm]
  | fresh hfresh _ ih => simp [reloadStale, hfresh, ih]

/-- What belongs to the first instance is out of reach of those behind it. -/
theorem Secluded.out_of_reach (h : Secluded all (i :: rest) w) :
    i.id ∉ (rest.map Instance.belongings).map Prod.fst ∧
      i.data ∉ (rest.map Instance.belongings).map Prod.snd := by
  have hnew := (List.nodup_cons.mp h.ids).1
  have hids : (rest.map Instance.belongings).map Prod.fst = rest.map Instance.id := List.map_map
  refine ⟨hids ▸ hnew, fun hmem => ?_⟩
  obtain ⟨k, hk, heq⟩ := List.mem_map.mp hmem
  obtain ⟨j, hj, rfl⟩ := List.mem_map.mp hk
  refine h.stores i List.mem_cons_self _ (h.mem j (List.mem_cons_of_mem _ hj)) (fun hid => ?_) heq
  have hid : j.id = i.id := hid
  exact hnew (hid ▸ List.mem_map_of_mem hj)

theorem Secluded.cons {i' : Instance} (h : Secluded all (i :: rest) w) (hrest : Secluded all is' w')
    (hi : i'.belongings = i.belongings)
    (hsame : is'.map Instance.belongings = rest.map Instance.belongings)
    (hc : w'.Confined i'.own i'.id) : Secluded all (i' :: is') w' where
  toAmong := h.toAmong.congr (congrArg₂ List.cons hi hsame)
  stores := by
    have hid : i'.id = i.id := congrArg Prod.fst hi
    have hdata : i'.data = i.data := congrArg Prod.snd hi
    refine List.forall_mem_cons.mpr ⟨?_, hrest.stores⟩
    rw [hid, hdata]
    exact h.stores i List.mem_cons_self
  confined := List.forall_mem_cons.mpr ⟨hc, hrest.confined⟩

theorem Reloads.discreet (h : Reloads budget libraries s is w es is' w')
    (hw : Secluded all is w) (hq : stillRow budget libraries s is w = true) :
    Discreet budget libraries all es ∧ Secluded all is' w' := by
  induction h with
  | done => exact ⟨fun _ ha => (nomatch ha), hw⟩
  | @stale i i' rest rest' w w₁ w' es result hstale hreload hs ih =>
      obtain ⟨hconfined, hothers⟩ := hw.head
      simp only [stillRow, hstale, if_true, Bool.and_eq_true, Option.any_eq_true] at hq
      obtain ⟨⟨⟨built, w₂⟩, hbuild, hstill⟩, ⟨⟨_, _, _⟩, hrow, hq⟩⟩ := hq
      cases hreload.symm.trans hrow
      have hstart : (w.record (s.report i)).Confined i.own i.id := hconfined.of_same rfl rfl
      have hp : i.Private budget libraries (othersOf all i.id) (w.record (s.report i)) :=
        Instance.private_of_own hstart hbuild (of_decide_eq_true hstill) hothers
      have ha : Attempt.Genuine libraries ⟨i, _, result, i', w₁⟩ := ⟨budget, hreload⟩
      have hown := (World.Beside.later w _ _).trans (hp.own hreload)
      obtain ⟨hdiscreet, hrest⟩ := ih (hw.tail hown) hq
      obtain ⟨hsame, hbeside⟩ := hs.beside hdiscreet
      refine ⟨fun a ha => ?_, hw.cons hrest ha.belongings hsame ?_⟩
      · rcases List.mem_cons.mp ha with heq | ha
        · cases heq
          exact hp
        · exact hdiscreet a ha
      · -- what was built has no way to anything else either, and the others leave it alone
        have hown : i'.own = i.own :=
          Instance.own_congr ha.handle (congrArg Prod.snd ha.belongings)
        have hid : i'.id = i.id := ha.id
        rw [hown, hid]
        obtain ⟨effects, -, hbuilt, -⟩ := build_ran (Instance.serves_own i libraries) hstart hbuild
        have hleft : w₁.Confined i.own i.id := by
          obtain ⟨_, _, hb, -, -, rfl⟩ | ⟨_, _, hb, -, -, rfl⟩ := Instance.reload_cases hreload <;>
            cases hbuild.symm.trans hb <;> exact hbuilt.of_same rfl rfl
        obtain ⟨hfst, hsnd⟩ := hw.out_of_reach
        exact hleft.of_same (hbeside.realms _ hfst) (hbeside.stores _ hsnd)
  | @fresh i rest rest' w w' es hfresh hs ih =>
      rw [stillRow, hfresh] at hq
      obtain ⟨hdiscreet, hrest⟩ := ih (hw.tail (.refl w)) hq
      obtain ⟨hsame, hbeside⟩ := hs.beside hdiscreet
      obtain ⟨hfst, hsnd⟩ := hw.out_of_reach
      exact ⟨hdiscreet, hw.cons hrest rfl hsame
        (hw.head.1.of_same (hbeside.realms _ hfst) (hbeside.stores _ hsnd))⟩

theorem Sweep.discreet (h : Sweep budget libraries sources is w es is' w')
    (hw : Secluded all is w) (hq : stillScan budget libraries sources is w = true) :
    Discreet budget libraries all es := by
  induction h with
  | done => exact fun a ha => nomatch ha
  | source hreloads _ ih =>
      obtain ⟨hrow, hrest⟩ := Bool.and_eq_true_iff.mp hq
      rw [hreloads.run, Option.any_some] at hrest
      obtain ⟨hfirst, hw'⟩ := hreloads.discreet hw hrow
      intro a ha
      exact (List.mem_append.mp ha).elim (hfirst a) (ih hw' hrest a)

/-- If secluded instances are surveyed, and the host has no part in it, then all attempts keep to
themselves. -/
theorem Surveyed.discreet {order : List SourceFile → List SourceFile} {root : FilePath}
    {result : Except ScanError Nat} {trails : List Trail}
    (h : Surveyed order budget libraries root is w result trails is' w') (hw : Secluded all is w)
    (hq : ∀ found, collectSources w.files root = .ok found →
      stillScan budget libraries (order found.1) is (w.recordAll found.2) = true) :
    ∀ t ∈ trails, ∀ p ∈ t.tries,
      p.2.before.Private budget libraries (othersOf all p.2.before.id) p.2.world := by
  intro t ht p hp
  cases h with
  | unread =>
      obtain ⟨i, -, rfl⟩ := List.mem_map.mp ht
      nomatch hp
  | @done _ reports _ _ _ _ hfound hsweep hc =>
      obtain ⟨log, hlog⟩ := World.recordAll_world reports w
      have hw : Secluded all is (w.recordAll reports) :=
        hlog ▸ ⟨hw.toAmong, hw.stores, fun i hi => (hw.confined i hi).of_same rfl rfl⟩
      exact hsweep.discreet hw (hq _ hfound) p.2
        (hc.events.mem_iff.mpr (List.mem_flatMap.mpr ⟨t, ht, List.mem_map_of_mem hp⟩))
end Checks

/-! ## The law -/

/-- No file is dated later than the clock when a scan begins. Then every instance leaves an exact
trail: it is attempted for the files that it is behind in the beginning, in their order, up to the
first attempt that succeeds. And if nobody shares a number or a store and all top levels keep to
themselves, it makes no difference in which order the files are met: as many attempts, the same
instances but for the times of their loads, and worlds that differ in time and reports alone. -/
theorem scan_in_any_order {order order' : List SourceFile → List SourceFile} {budget n : Nat}
    {libraries : Libraries} {root : FilePath} {is is' : List Instance} {w w' : World}
    (horder : ∀ sources, (order sources).Perm sources)
    (horder' : ∀ sources, (order' sources).Perm sources)
    (h : scanBy order budget libraries root is w = some (.ok n, is', w'))
    (hdates : ∀ found, collectSources w.files root = .ok found →
      ∀ s ∈ found.1, s.modified ≤ w.clock) :
    ∃ trails, Surveyed order budget libraries root is w (.ok n) trails is' w' ∧
      (∀ found, collectSources w.files root = .ok found →
        ∀ t ∈ trails, t.Exact (order found.1)) ∧
      ((is.map Instance.id).Nodup → (is.map Instance.data).Nodup →
        (∀ t ∈ trails, ∀ p ∈ t.tries, p.2.before.Private budget libraries
          (othersOf (is.map Instance.belongings) p.2.before.id) p.2.world) →
        ∃ is'' w'', scanBy order' budget libraries root is w = some (.ok n, is'', w'') ∧
          List.Forall₂ Instance.SameButTime is' is'' ∧ w'.Beside [] w'') := by
  obtain ⟨trails, hsurvey⟩ := scanBy_surveyed h
  refine ⟨trails, hsurvey, ?_⟩
  generalize hresult : (Except.ok n : Except ScanError Nat) = result at hsurvey
  cases hsurvey with
  | unread => nomatch hresult
  | @done sources reports es trails is' w' hfound hsweep hc =>
      cases hresult
      have hdates := hdates _ hfound
      have hclock := World.recordAll_clock reports w
      refine ⟨fun found heq t ht => ?_, fun hids hdata hprivate => ?_⟩
      · cases hfound.symm.trans heq
        exact (hc.each t ht).exact fun s hs => hdates s ((horder sources).mem_iff.mp hs)
      · have hin : Among (is.map Instance.belongings) is := ⟨hids, fun i => List.mem_map_of_mem⟩
        have hdiscreet : Discreet budget libraries (is.map Instance.belongings) es := by
          intro a ha
          obtain ⟨t, ht, hmem⟩ := List.mem_flatMap.mp (hc.events.mem_iff.mp ha)
          obtain ⟨p, hp, heq⟩ := List.mem_map.mp hmem
          cases heq
          exact hprivate t ht p hp
        obtain ⟨ts, hstarts, hstops, htries, halone, hbeside⟩ := hsweep.alone hin
          (fun s hs => hclock ▸ hdates s ((horder sources).mem_iff.mp hs)) hdiscreet
        -- how many files an instance is behind has no order
        have halone' : ∀ t ∈ ts, t.Alone budget libraries (is.map Instance.belongings)
            (order' sources) (w.recordAll reports) w' := by
          intro t ht
          have hperm := (horder' sources).trans (horder sources).symm
          have hcount := hperm.countP_eq t.start.isStale
          unfold Single.Alone
          rw [hcount]
          exact halone t ht
        obtain ⟨is'', w'', hall, hends, hothers, hbeside'⟩ := reloadAll_alone hin
          (fun s hs => hclock ▸ hdates s ((horder' sources).mem_iff.mp hs)) hstarts halone'
        refine ⟨is'', w'', ?_, hstops ▸ hends, .of_all hdata (hbeside.symm.trans hbeside') hothers⟩
        exact scanBy_of_reloadAll hfound (htries ▸ hall)

set_option maxRecDepth 100000 in
/-- Two instances of a name, never loaded, and two files with the name for their stem. The top level
counts in its store and fails the first time: both attempts for the one file fail, and both for the
other one succeed, whichever of the files comes first. -/
theorem scan_in_any_order_retrying : ∃ (libraries : Libraries) (is is' is'' : List Instance)
    (w w' w'' : World),
    scanBy id 1000 libraries ⟨"scripts"⟩ is w = some (.ok 4, is', w') ∧
      scanBy List.reverse 1000 libraries ⟨"scripts"⟩ is w = some (.ok 4, is'', w'') ∧
      is'.map (fun i => (i.name, i.generation)) = [("A", some 1), ("A", some 1)] ∧
      List.Forall₂ Instance.SameButTime is' is'' ∧ w'.Beside [] w'' := by
  let text := "let n = Data.Get(\"n\") ?? 0; Data.Set(\"n\", n + 1); if n == 0 \x7b throw n; \x7d"
  let libraries : Libraries := ⟨[], Lang.builtinNames⟩
  let is : List Instance := [1, 2].map fun id =>
    { handle := ⟨id, "A"⟩, source := ⟨"scripts/A.rhai"⟩, data := id - 1 }
  let w : World :=
    { (default : World) with files := .twins text, clock := 9000, stores := #[{}, {}] }
  have hrun : (reloadAll 1000 libraries FileTree.twinSources is w).any (fun p => p.1 == 4 &&
      p.2.1.map (fun i => (i.name, i.generation)) == [("A", some 1), ("A", some 1)]) = true := by
    decide +kernel
  have hstill : stillScan 1000 libraries FileTree.twinSources is w = true := by
    decide +kernel
  obtain ⟨⟨n, is', w'⟩, hall, hafter⟩ := (Option.any_eq_true _ _).mp hrun
  obtain ⟨hcount, hafter⟩ := Bool.and_eq_true_iff.mp hafter
  obtain rfl : n = 4 := beq_iff_eq.mp hcount
  have hfound : collectSources w.files ⟨"scripts"⟩ = .ok (FileTree.twinSources, []) :=
    FileTree.twins_sources (by decide +kernel)
  have hscan : scanBy id 1000 libraries ⟨"scripts"⟩ is w = some (.ok 4, is', w') :=
    scanBy_of_reloadAll hfound hall
  have hdates : ∀ found, collectSources w.files ⟨"scripts"⟩ = .ok found →
      ∀ s ∈ found.1, s.modified ≤ w.clock := by
    intro found heq
    cases hfound.symm.trans heq
    decide
  have hids : (is.map Instance.id).Nodup := by decide
  have hdata : (is.map Instance.data).Nodup := by decide
  have hsecluded : Secluded (is.map Instance.belongings) is w := by
    refine ⟨⟨hids, fun i => List.mem_map_of_mem⟩, by decide, fun i hi => ?_⟩
    have hempty : ∀ d ∈ w.stores, d = {} := by simp [w]
    have hrealm : w.realm i.id = {} := rfl
    exact World.confined_empty hrealm fun d hd => hempty d (Array.mem_of_getElem? hd)
  have hreverse : ∀ sources : List SourceFile, sources.reverse.Perm sources :=
    fun sources => sources.reverse_perm
  obtain ⟨trails, hsurvey, -, hsame⟩ := scan_in_any_order (fun _ => .refl _) hreverse hscan hdates
  have hprivate := hsurvey.discreet hsecluded fun found heq => by
    cases hfound.symm.trans heq
    exact hstill
  obtain ⟨is'', w'', hscan', hends, hbeside⟩ := hsame hids hdata hprivate
  exact ⟨libraries, is, is', is'', w, w', w'', hscan, hscan', beq_iff_eq.mp hafter, hends, hbeside⟩

end Stagehand
