import ModelQuery.Proofs.Command.Effects

/-! No command loses a stored selection. -/

namespace ModelQuery

open Act

namespace Machine

/-- The selections in the file of a store, unless that cannot be read. -/
def kept? (machine : Machine) (store : Store) : Option Selections :=
  (machine.files.read machine.folder store.file).toOption.bind Selections.ofText?

/-- A moment that is not before any time told on the way from one machine to another. -/
def Past (machine after : Machine) (now : Instant) : Prop :=
  ∀ n, machine.ticks ≤ n → n < after.ticks → now.before (machine.clock n) = false

/-- With these arguments, the settings are not where the selections are stored or drafted. -/
def Separate (machine : Machine) (arguments : List String) : Prop :=
  ∀ request file store,
    Command.read (machine.environment.lookup "BIMQ_CONFIG") arguments = .ok request →
    Ends (Settings.findFile request.settings) machine (.ok file) machine →
    Ends Store.find machine (.ok store) machine →
    Files.placeOf machine.folder file ∉ store.places machine.folder

variable {machine after : Machine} {store : Store}

theorem kept?_eq_some_iff {selections : Selections} : machine.kept? store = some selections ↔
    ∃ text, machine.files.read machine.folder store.file = .ok text ∧
      Selections.ofText? text = some selections := by
  unfold kept?
  cases machine.files.read machine.folder store.file <;> simp [Except.toOption]

theorem Separate.later {arguments : List String} (h : machine.Separate arguments)
    (hlater : machine.Later after) : after.Separate arguments := by
  intro request file store hread hfile hfind
  rw [hlater.environment] at hread
  rw [hlater.folder]
  exact h request file store hread
    ((ends_later_iff (Settings.settled_findFile _) (Settings.quiet_findFile _) hlater).mp hfile)
    ((ends_later_iff Store.settled_find Store.quiet_find hlater).mp hfind)

end Machine

namespace Command

variable {machine after : Machine} {context : Context} {store : Store}

/-! ### What stays -/

theorem text?_of_unsaved {place : Place} (h : Unsaved machine after)
    (hplace : ∀ store, Ends Store.find machine (.ok store) machine →
      place ≠ Files.placeOf machine.folder store.draft) :
    after.files.text? place = machine.files.text? place := by
  rcases h with h | ⟨store, hfind, h⟩
  · exact h.texts place List.not_mem_nil
  · exact h.texts place (by simpa using hplace store hfind)

theorem read_of_unsaved {text : String} (hfind : Ends Store.find machine (.ok store) machine)
    (h : Unsaved machine after) (hr : machine.files.read machine.folder store.file = .ok text) :
    after.files.read machine.folder store.file = .ok text := by
  rcases h with h | ⟨other, hother, h⟩
  · exact h.read List.not_mem_nil hr
  · obtain rfl : store = other := Except.ok.inj (ends_unique hfind hother).1
    refine h.read ?_ hr
    simpa using Store.placeOf_file_ne_placeOf_draft hfind machine.folder

theorem eq_of_ends_load {text : String} {selections : Selections}
    (hload : Ends store.load machine (.ok selections) after)
    (hr : machine.files.read machine.folder store.file = .ok text) :
    Selections.ofText? text = some selections := by
  rcases Store.ends_load hload with ⟨_, hread, htext⟩ | ⟨hread, -⟩
  · rwa [Except.ok.inj (hr.symm.trans hread)]
  · cases hr.symm.trans hread

/-- New settings are no selections. -/
theorem read_of_set {text : String}
    (hplace : Files.placeOf machine.folder context.file ∉ store.places machine.folder)
    (h : Files.Spares [Files.placeOf machine.folder context.file] machine.files after.files)
    (hr : machine.files.read machine.folder store.file = .ok text) :
    after.files.read machine.folder store.file = .ok text := by
  refine h.read ?_ hr
  rw [List.mem_singleton]
  rintro hsame
  exact hplace (hsame ▸ List.mem_cons_self ..)

/-- The file of the selections stays, unless the command could load them. -/
theorem read_of_effect {task : Task} {result : Except Failure String}
    (hfind : Ends Store.find machine (.ok store) machine)
    (hplace : Files.placeOf machine.folder context.file ∉ store.places machine.folder)
    (h : Effect machine context task result after) :
    (∀ text, machine.files.read machine.folder store.file = .ok text →
        after.files.read machine.folder store.file = .ok text) ∨
      ∃ loaded, Ends store.load machine (.ok loaded) machine := by
  cases h with
  | failed hunsaved | shown _ hunsaved =>
    exact Or.inl fun text hr => read_of_unsaved hfind hunsaved hr
  | set hspares => exact Or.inl fun text hr => read_of_set hplace hspares hr
  | purged hother hload | selected _ hother hload =>
    obtain rfl := Except.ok.inj (ends_unique hfind hother).1
    exact Or.inr ⟨_, hload⟩

/-- A command that fails leaves all files that have nothing to do with the selections. -/
theorem text?_of_effect {task : Task} {failure : Failure} {place : Place}
    (hplace : ∀ store, Ends Store.find machine (.ok store) machine →
      place ∉ store.places machine.folder)
    (h : Effect machine context task (.error failure) after) :
    after.files.text? place = machine.files.text? place := by
  cases h with
  | failed hunsaved =>
    refine text?_of_unsaved hunsaved fun store hfind hsame => hplace store hfind ?_
    rw [hsame]
    exact List.mem_cons_of_mem _ (List.mem_singleton_self _)
  | purged hfind _ _ hsaved => exact hsaved.spares.texts place (hplace _ hfind)

theorem kept?_of_saved {selections : Selections} (hlater : machine.Later after)
    (h : Saved machine store selections after) (hs : selections.IsStorable) :
    after.kept? store = some selections := by
  refine Machine.kept?_eq_some_iff.mpr ⟨selections.render, ?_, Selections.ofText?_render hs⟩
  rw [hlater.folder]
  exact h.read

theorem kept?_of_read {selections : Selections} (hlater : machine.Later after)
    (hread : ∀ text, machine.files.read machine.folder store.file = .ok text →
      after.files.read machine.folder store.file = .ok text)
    (h : machine.kept? store = some selections) : after.kept? store = some selections := by
  obtain ⟨text, hr, htext⟩ := Machine.kept?_eq_some_iff.mp h
  refine Machine.kept?_eq_some_iff.mpr ⟨text, ?_, htext⟩
  rw [hlater.folder]
  exact hread text hr

/-- Unless a search ends well, the selections are left but for expired ones. -/
theorem kept?_of_effect {task : Task} {result : Except Failure String} {selections : Selections}
    (hfind : Ends Store.find machine (.ok store) machine)
    (hplace : Files.placeOf machine.folder context.file ∉ store.places machine.folder)
    (hlater : machine.Later after) (h : Effect machine context task result after)
    (hsearch : ∀ search output, task = .select search → result ≠ .ok output)
    (hkept : machine.kept? store = some selections) :
    ∃ left, after.kept? store = some left ∧
      ∀ now, machine.Past after now → left.purge now = selections.purge now := by
  cases h with
  | failed hunsaved | shown _ hunsaved =>
    exact ⟨selections, kept?_of_read hlater (fun _ => read_of_unsaved hfind hunsaved) hkept,
      fun _ _ => rfl⟩
  | set hspares =>
    exact ⟨selections, kept?_of_read hlater (fun _ => read_of_set hplace hspares) hkept,
      fun _ _ => rfl⟩
  | @purged token _ _ _ _ loaded hother hload hticks hsaved =>
    obtain rfl := Except.ok.inj (ends_unique hfind hother).1
    obtain ⟨text, hr, htext⟩ := Machine.kept?_eq_some_iff.mp hkept
    obtain rfl : selections = loaded :=
      Option.some.inj (htext.symm.trans (eq_of_ends_load hload hr))
    have hstorable := Selections.isStorable_of_ofText? htext
    refine ⟨_, kept?_of_saved hlater hsaved ((hstorable.ids? _ _).purge _), fun now hnow => ?_⟩
    -- Both purges come before the moment at which the selections are compared.
    rw [Selections.purge_purge _ (hnow _ (by omega) (by omega)),
      Selections.purge_ids? hstorable.ordered _ (hnow _ (by omega) (by omega))]
  | selected => exact absurd rfl (hsearch _ _ rfl)

theorem isStorable_create {loaded stored : Selections} {lifetime : Option Int64} {now t : Instant}
    (hload : Ends store.load machine (.ok loaded) after)
    (hstored : withConfiguredLifetime lifetime (loaded.purge now) = .ok stored) (token : String)
    (ids : List String) (ht : t.IsMoment) : (stored.create token ids t).IsStorable := by
  have hsame := stored_of_withConfiguredLifetime hstored
  have hpurged := (Store.isStorable_of_ends_load hload).purge now
  have hstorable : stored.IsStorable := ⟨hsame ▸ hpurged.ordered, hsame ▸ hpurged.moments⟩
  exact hstorable.create token ids ht

/-- A search that ends well adds one selection. -/
theorem kept?_of_effect_select {search : Search} {output : String}
    (hclock : ∀ n, (machine.clock n).IsMoment) (hlater : machine.Later after)
    (h : Effect machine context (.select search) (.ok output) after) :
    ∃ model ids store loaded added selection, Finds machine context.settings search model ids ∧
      Ends Store.find machine (.ok store) machine ∧
      Ends store.load machine (.ok loaded) machine ∧ after.kept? store = some added ∧
      selection.ids = ids ∧ added.stored =
        (loaded.purge (machine.clock machine.ticks)).stored.insert (machine.tokens machine.drawn)
          selection ∧
      after.ticks = machine.ticks + 3 := by
  cases h with
  | shown hsearch => exact absurd rfl (hsearch search)
  | @selected _ _ _ model ids store loaded stored hids hfind hload hstored hticks hsaved =>
    have hsame := stored_of_withConfiguredLifetime hstored
    have hadded := isStorable_create hload hstored (machine.tokens machine.drawn) ids
      (hclock (machine.ticks + 1))
    refine ⟨model, ids, store, loaded, _, _, hids, hfind, hload,
      kept?_of_saved hlater hsaved hadded, ?_, congrArg (Keyed.insert _ _) hsame, hticks⟩
    rfl

/-! ### Runs -/

theorem ends_of_ends_contextOf {request : Request}
    (h : Ends (contextOf request) machine (.ok context) machine) :
    Ends (Settings.findFile request.settings) machine (.ok context.file) machine ∧
      Ends (Settings.load context.file) machine (.ok context.settings) machine := by
  rcases (Settings.quiet_findFile _).ends_bind h with ⟨_, he, -⟩ | ⟨file, hfile, h⟩
  · cases he
  rcases (Settings.quiet_load file).ends_bind h with ⟨_, he, -⟩ | ⟨settings, hload, h⟩
  · cases he
  rw [ends_lift_bind_iff, ends_pure_iff] at h
  rw [Except.ok.inj h.1]
  exact ⟨hfile, hload⟩

/-- How a run ends when a request comes to a result. -/
def Outcome.ofResult (json : Bool) : Except Failure String → Outcome
  | .error failure => .failed json failure
  | .ok output => .done output

section Disks

variable (disk : Disk)

theorem run_of_misuse {arguments : List String} {misuse : Misuse}
    (h : read (machine.environment.lookup "BIMQ_CONFIG") arguments = .error misuse) :
    (disk.on (run arguments) : StateM Machine Outcome).run machine = (.misused misuse, machine) := by
  unfold Disk.on run
  rw [Machine.run_bind, Disk.run_environment?]
  dsimp only
  rw [h]
  rfl

theorem run_of_request {arguments : List String} {request : Request}
    (h : read (machine.environment.lookup "BIMQ_CONFIG") arguments = .ok request) :
    (disk.on (run arguments) : StateM Machine Outcome).run machine =
      (.ofResult request.json ((disk.on (runRequest request) : Act String).run.run machine).1,
        ((disk.on (runRequest request) : Act String).run.run machine).2) := by
  unfold Disk.on run
  rw [Machine.run_bind, Disk.run_environment?]
  dsimp only
  rw [h]
  dsimp only
  rw [Machine.run_bind]
  split
  · next failure hfailed => rw [hfailed]; rfl
  · next output hdone => rw [hdone]; rfl

/-- A run does nothing unless it has the context for its task. -/
theorem run_steps {arguments : List String} {outcome : Outcome}
    (h : (disk.on (run arguments) : StateM Machine Outcome).run machine = (outcome, after)) :
    ((∀ output, outcome ≠ .done output) ∧ after = machine) ∨
      ∃ request context result,
        read (machine.environment.lookup "BIMQ_CONFIG") arguments = .ok request ∧
        Ends (contextOf request) machine (.ok context) machine ∧
        Ends (disk.on (runTask context request.task)) machine result after ∧
        outcome = .ofResult request.json result := by
  cases hread : read (machine.environment.lookup "BIMQ_CONFIG") arguments with
  | error misuse =>
    rw [run_of_misuse disk hread] at h
    obtain ⟨rfl, rfl⟩ := Prod.mk.inj h
    exact Or.inl ⟨nofun, rfl⟩
  | ok request =>
    generalize hends : (disk.on (runRequest request) : Act String).run.run machine = ran at h
    obtain ⟨result, last⟩ := ran
    rw [run_of_request disk hread, hends] at h
    obtain ⟨rfl, rfl⟩ := Prod.mk.inj h
    rcases (quiet_contextOf request).ends_bind hends with ⟨failure, rfl, rfl⟩ |
      ⟨context, hcontext, htask⟩
    · exact Or.inl ⟨nofun, rfl⟩
    · exact Or.inr ⟨request, context, result, rfl, hcontext, htask, rfl⟩

end Disks

theorem run_cases {arguments : List String} {outcome : Outcome}
    (h : (run arguments : StateM Machine Outcome).run machine = (outcome, after)) :
    ((∀ output, outcome ≠ .done output) ∧ after = machine) ∨
      ∃ request context result,
        read (machine.environment.lookup "BIMQ_CONFIG") arguments = .ok request ∧
        Ends (contextOf request) machine (.ok context) machine ∧
        Ends (Settings.findFile request.settings) machine (.ok context.file) machine ∧
        machine.Later after ∧ Effect machine context request.task result after ∧
        outcome = .ofResult request.json result := by
  rcases run_steps Disk.sound h with hidle | ⟨request, context, result, hread, hcontext, htask, hresult⟩
  · exact Or.inl hidle
  · obtain ⟨hlater, heffect⟩ := effect_runTask htask
    exact Or.inr ⟨request, context, result, hread, hcontext,
      (ends_of_ends_contextOf hcontext).1, hlater, heffect, hresult⟩

/-- No command loses a stored selection. Without a result, a command leaves the settings as they
were. A file that holds no selections stays as it is, and selections that are stored stay but for
expired ones, unless a search ends well. Then one more is stored, with all that was found. -/
theorem run_keeps {machine : Machine} {arguments : List String}
    (hclock : ∀ n, (machine.clock n).IsMoment) (hseparate : machine.Separate arguments) :
    let outcome := ((run arguments : StateM Machine Outcome).run machine).1
    let after := ((run arguments : StateM Machine Outcome).run machine).2
    let request := read (machine.environment.lookup "BIMQ_CONFIG") arguments
    (∀ misuse, outcome = .misused misuse → after = machine) ∧
    (∀ json failure, outcome = .failed json failure → ∀ asked file, request = .ok asked →
      Ends (Settings.findFile asked.settings) machine (.ok file) machine →
      after.files.text? (Files.placeOf machine.folder file) =
        machine.files.text? (Files.placeOf machine.folder file)) ∧
    (∀ store, Ends Store.find machine (.ok store) machine →
      (∀ text, machine.files.read machine.folder store.file = .ok text →
        Selections.ofText? text = none →
        after.files.read machine.folder store.file = .ok text) ∧
      ∀ selections, machine.kept? store = some selections →
        (∀ asked search output, request = .ok asked → asked.task = .select search →
          outcome ≠ .done output) →
        ∃ left, after.kept? store = some left ∧
          ∀ now, machine.Past after now → left.purge now = selections.purge now) ∧
    ∀ asked search output, request = .ok asked → asked.task = .select search →
      outcome = .done output →
      ∃ context model ids store loaded added,
        Ends (contextOf asked) machine (.ok context) machine ∧
        Finds machine context.settings search model ids ∧
        ids.Sublist (model.objects.map Object.id) ∧
        Ends Store.find machine (.ok store) machine ∧
        Ends store.load machine (.ok loaded) machine ∧ after.kept? store = some added ∧
        (added.stored.get? (machine.tokens machine.drawn)).map Selection.ids = some ids ∧
        (loaded.stored.get? (machine.tokens machine.drawn) = none →
          ∀ now, machine.Past after now →
            (added.purge now).stored.erase (machine.tokens machine.drawn) =
              (loaded.purge now).stored) := by
  intro outcome after request
  -- A run that comes to no result has only looked; any other has had the effect of its task.
  rcases run_cases (rfl : _ = (outcome, after)) with ⟨hnone, hsame⟩ |
    ⟨asked, context, result, hread, hcontext, hfile, hlater, heffect, houtcome⟩
  · refine ⟨fun _ _ => hsame, fun _ _ _ _ _ _ _ => by rw [hsame], fun store hfind =>
      ⟨fun text hr _ => by rwa [hsame], fun selections hkept _ => ?_⟩, fun _ _ output _ _ hdone => ?_⟩
    · rw [hsame]
      exact ⟨selections, hkept, fun _ _ => rfl⟩
    · exact absurd hdone (hnone output)
  have hplace : ∀ store, Ends Store.find machine (.ok store) machine →
      Files.placeOf machine.folder context.file ∉ store.places machine.folder :=
    fun store => hseparate asked context.file store hread hfile
  refine ⟨fun misuse hmisuse => ?_, fun json failure hfailed other file hother hotherFile => ?_,
    fun store hfind => ⟨fun text hr hcorrupt => ?_, fun selections hkept hsearch => ?_⟩,
    fun other search output hother htask hdone => ?_⟩
  · rw [houtcome] at hmisuse
    cases result <;> cases hmisuse
  · obtain rfl : asked = other := Except.ok.inj (hread.symm.trans hother)
    obtain rfl : context.file = file := Except.ok.inj (ends_unique hfile hotherFile).1
    rw [houtcome] at hfailed
    cases result with
    | error => exact text?_of_effect hplace heffect
    | ok => cases hfailed
  · rcases read_of_effect hfind (hplace store hfind) heffect with hspared | ⟨loaded, hload⟩
    · exact hspared text hr
    · rw [eq_of_ends_load hload hr] at hcorrupt
      cases hcorrupt
  · refine kept?_of_effect hfind (hplace store hfind) hlater heffect ?_ hkept
    rintro search output htask rfl
    exact hsearch asked search output hread htask houtcome
  · obtain rfl : asked = other := Except.ok.inj (hread.symm.trans hother)
    rw [houtcome] at hdone
    cases result with
    | error => cases hdone
    | ok =>
      rw [htask] at heffect
      obtain ⟨model, ids, store, loaded, added, selection, hids, hfind, hload, hadded, rfl, hstored,
        hticks⟩ := kept?_of_effect_select hclock hlater heffect
      refine ⟨context, model, selection.ids, store, loaded, added, hcontext, hids, hids.sublist,
        hfind, hload, hadded, ?_, fun hfresh now hnow => ?_⟩
      · rw [hstored, Keyed.get?_insert, if_pos rfl, Option.map_some]
      · exact Selections.erase_purge_of_insert hfresh hstored
          (hnow _ (Nat.le_refl _) (by omega))

theorem run_keeps_of_page :
    let caches := Place.root.inside "cache"
    let folder := caches.inside "bimq"
    let kept : Selections :=
      ⟨600, [("a", ⟨["1"], ⟨0, 0⟩, ⟨600, 0⟩⟩), ("b", ⟨["2"], ⟨0, 0⟩, ⟨5, 0⟩⟩)]⟩
    let machine : Machine := {
      environment := [("XDG_CACHE_HOME", "/cache"), ("BIMQ_CONFIG", "config.toml")]
      home := some "/home"
      input := ""
      folder := .root
      files := ⟨[(caches, .folder), (folder, .folder),
        (folder.inside "selections.json", .file kept.render)]⟩
      clock := fun _ => ⟨10, 0⟩
      ticks := 0
      tokens := fun _ => "c"
      drawn := 0 }
    let after := ((run ["page", "b"] : StateM Machine Outcome).run machine).2
    (∀ n, (machine.clock n).IsMoment) ∧ machine.Separate ["page", "b"] ∧
      machine.kept? (.inFolder "/cache") = some kept ∧
      ∃ left, after.kept? (.inFolder "/cache") = some left ∧
        left.purge ⟨10, 0⟩ = ⟨600, [("a", ⟨["1"], ⟨0, 0⟩, ⟨600, 0⟩⟩)]⟩ := by
  intro caches folder kept machine after
  have hmoment : ∀ seconds : Int, 0 ≤ seconds → seconds ≤ 600 →
      (⟨seconds, 0⟩ : Instant).IsMoment := by
    intro seconds hlow hhigh
    have hfirst : Instant.firstSecond ≤ 0 := by decide
    have hlast : 600 ≤ Instant.last.seconds := by decide
    exact ⟨hfirst.trans hlow, hhigh.trans hlast, Nat.succ_pos _, fun h => absurd h (Nat.not_succ_le_zero _)⟩
  have hclock : ∀ n, (machine.clock n).IsMoment := fun _ => hmoment 10 (by decide) (by decide)
  have hread : read (machine.environment.lookup "BIMQ_CONFIG") ["page", "b"] =
      .ok ⟨false, false, false, false, some "config.toml", .page "b" ⟨none, 0, false⟩⟩ := by
    decide +kernel
  have hfind : Ends Store.find machine (.ok (.inFolder "/cache")) machine :=
    ends_iff.mpr ⟨by decide +kernel, (Store.quiet_find machine).symm⟩
  have hseparate : machine.Separate ["page", "b"] := by
    intro request file store hrequest hfile hstore
    obtain rfl := Except.ok.inj (hread.symm.trans hrequest)
    obtain rfl := Except.ok.inj (ends_unique hfind hstore).1
    obtain rfl : file = "config.toml" := Except.ok.inj (ends_pure_iff.mp hfile).1
    decide +kernel
  have hkept : machine.kept? (.inFolder "/cache") = some kept := by
    refine Machine.kept?_eq_some_iff.mpr ⟨kept.render, ?_, Selections.ofText?_render ⟨?_, ?_⟩⟩
    · have hplace : Files.placeOf .root (Store.inFolder "/cache").file =
          folder.inside "selections.json" := by decide +kernel
      exact Files.read_eq_ok_iff.mpr ⟨by decide +kernel, by rw [hplace]; rfl⟩
    · exact List.pairwise_pair.mpr (by decide +kernel)
    · simp only [kept, List.forall_mem_cons]
      exact ⟨⟨hmoment 0 (by decide) (by decide), hmoment 600 (by decide) (by decide)⟩,
        ⟨hmoment 0 (by decide) (by decide), hmoment 5 (by decide) (by decide)⟩, nofun⟩
  refine ⟨hclock, hseparate, hkept, ?_⟩
  obtain ⟨left, hleft, hpurge⟩ :=
    ((run_keeps hclock hseparate).2.2.1 _ hfind).2 kept hkept (by
      intro asked search output hasked htask
      obtain rfl := Except.ok.inj (hread.symm.trans hasked)
      cases htask)
  refine ⟨left, hleft, (hpurge ⟨10, 0⟩ fun _ _ _ => (by decide : Instant.before ⟨10, 0⟩ ⟨10, 0⟩ = false)).trans ?_⟩
  decide +kernel

/-- Settings that are where selections are drafted are lost to a page that fails, and selections that
cannot be read are lost to new settings in their place. -/
theorem lost_unless_separate :
    let caches := Place.root.inside "cache"
    let folder := caches.inside "bimq"
    let machine (name : String) : Machine := {
      environment := [("XDG_CACHE_HOME", "/cache")]
      home := some "/home"
      input := ""
      folder := .root
      files := ⟨[(caches, .folder), (folder, .folder), (folder.inside name, .file "")]⟩
      clock := fun _ => ⟨10, 0⟩
      ticks := 0
      tokens := fun _ => "c"
      drawn := 0 }
    let drafted := (run ["--config", "cache/bimq/selections.tmp", "page", "nosuch"] :
      StateM Machine Outcome).run (machine "selections.tmp")
    let stored := (run ["--config", "cache/bimq/selections.json", "config", "set", "output.color",
      "false"] : StateM Machine Outcome).run (machine "selections.json")
    (drafted.1 = .failed false (.noSelection "nosuch") ∧
      (machine "selections.tmp").files.text? (Files.placeOf .root "cache/bimq/selections.tmp") =
        some "" ∧
      drafted.2.files.text? (Files.placeOf .root "cache/bimq/selections.tmp") = none) ∧
    Selections.ofText? "" = none ∧
      (machine "selections.json").files.read .root "cache/bimq/selections.json" = .ok "" ∧
      stored.2.files.read .root "cache/bimq/selections.json" ≠ .ok "" := by
  decide +kernel

/-! ### Many commands -/

theorem later_of_run {arguments : List String} {outcome : Outcome}
    (h : (run arguments : StateM Machine Outcome).run machine = (outcome, after)) :
    machine.Later after := by
  rcases run_cases h with ⟨-, rfl⟩ | ⟨_, _, _, -, -, -, hlater, -⟩
  · exact .refl after
  · exact hlater

/-- Times that do not go back are told up to one that is not before the others. -/
theorem exists_past {t : Instant}
    (hsorted : ∀ i j, i ≤ j → (machine.clock j).before (machine.clock i) = false)
    (halive : ∀ n, machine.ticks ≤ n → n < after.ticks → (machine.clock n).before t = true) :
    ∃ now, machine.Past after now ∧ now.before t = true := by
  by_cases hticks : machine.ticks < after.ticks
  · refine ⟨machine.clock (after.ticks - 1), fun n _ hn => hsorted n _ (by omega), ?_⟩
    exact halive _ (by omega) (by omega)
  · refine ⟨⟨t.seconds - 1, 0⟩, fun n hlow hhigh => by omega, Instant.before_iff.mpr (Or.inl ?_)⟩
    exact Int.sub_one_lt_of_le (le_refl _)

theorem isStorable_of_kept? {selections : Selections} (h : machine.kept? store = some selections) :
    selections.IsStorable := by
  obtain ⟨text, -, htext⟩ := Machine.kept?_eq_some_iff.mp h
  exact Selections.isStorable_of_ofText? htext

/-- A selection that does not expire meanwhile is stored after a command if it was before. -/
theorem get?_run {arguments : List String} {token : String} {selections : Selections}
    {selection : Selection} {outcome : Outcome}
    (hrun : (run arguments : StateM Machine Outcome).run machine = (outcome, after))
    (hclock : ∀ n, (machine.clock n).IsMoment)
    (hsorted : ∀ i j, i ≤ j → (machine.clock j).before (machine.clock i) = false)
    (hseparate : machine.Separate arguments) (htoken : machine.tokens machine.drawn ≠ token)
    (hfind : Ends Store.find machine (.ok store) machine)
    (hkept : machine.kept? store = some selections)
    (hstored : selections.stored.get? token = some selection)
    (halive : ∀ n, machine.ticks ≤ n → n < after.ticks →
      (machine.clock n).before selection.expires = true) :
    ∃ left, after.kept? store = some left ∧ left.stored.get? token = some selection := by
  have hordered := (isStorable_of_kept? hkept).ordered
  obtain ⟨now, hpast, hnow⟩ := exists_past hsorted halive
  have hpurge : ∀ t, t.before selection.expires = true →
      (selections.purge t).stored.get? token = some selection := by
    intro t ht
    rw [Selections.purge, hordered.get?_filter, hstored]
    simp [Selection.isExpired, ht]
  rcases run_cases hrun with ⟨-, rfl⟩ |
    ⟨request, context, result, hread, -, hfile, hlater, heffect, -⟩
  · exact ⟨selections, hkept, hstored⟩
  -- Only a search that ends well adds a selection, and it draws another token for that.
  by_cases hsearch : ∃ search output, request.task = .select search ∧ result = .ok output
  · obtain ⟨search, output, htask, rfl⟩ := hsearch
    rw [htask] at heffect
    obtain ⟨_, _, other, loaded, added, _, -, hother, hload, hadded, -, hinsert, hticks⟩ :=
      kept?_of_effect_select hclock hlater heffect
    obtain rfl : store = other := Except.ok.inj (ends_unique hfind hother).1
    obtain ⟨text, hr, htext⟩ := Machine.kept?_eq_some_iff.mp hkept
    obtain rfl : selections = loaded :=
      Option.some.inj (htext.symm.trans (eq_of_ends_load hload hr))
    refine ⟨added, hadded, ?_⟩
    rw [hinsert, Keyed.get?_insert, if_neg (Ne.symm htoken)]
    exact hpurge _ (halive _ (le_refl _) (by omega))
  · have hplace := hseparate request context.file store hread hfile hfind
    obtain ⟨left, hleft, hsame⟩ := kept?_of_effect hfind hplace hlater heffect
      (fun search output htask hdone => hsearch ⟨search, output, htask, hdone⟩) hkept
    refine ⟨left, hleft, ?_⟩
    have hget := hpurge now hnow
    rw [← hsame now hpast, Selections.purge,
      (isStorable_of_kept? hleft).ordered.get?_filter] at hget
    exact Option.eq_some_of_filter_eq_some hget

/-- Runs one command after the other. -/
def runAll (machine : Machine) (lines : List (List String)) : Machine :=
  lines.foldl (fun machine line => ((run line : StateM Machine Outcome).run machine).2) machine

theorem later_runAll (machine : Machine) (lines : List (List String)) :
    machine.Later (runAll machine lines) := by
  induction lines generalizing machine with
  | nil => exact .refl machine
  | cons line lines ih => exact (later_of_run (Prod.eta _).symm).trans (ih _)

/-- However many commands are run, a selection is stored as long as it does not expire. -/
theorem get?_runAll {lines : List (List String)} {token : String} {selections : Selections}
    {selection : Selection} (hclock : ∀ n, (machine.clock n).IsMoment)
    (hsorted : ∀ i j, i ≤ j → (machine.clock j).before (machine.clock i) = false)
    (hseparate : ∀ line ∈ lines, machine.Separate line)
    (htoken : ∀ n, machine.drawn ≤ n → machine.tokens n ≠ token)
    (hfind : Ends Store.find machine (.ok store) machine)
    (hkept : machine.kept? store = some selections)
    (hstored : selections.stored.get? token = some selection)
    (halive : ∀ n, machine.ticks ≤ n → n < (runAll machine lines).ticks →
      (machine.clock n).before selection.expires = true) :
    ∃ left, (runAll machine lines).kept? store = some left ∧
      left.stored.get? token = some selection := by
  -- What is assumed of a machine holds of each later one, and one command keeps the selection.
  induction lines generalizing machine selections with
  | nil => exact ⟨selections, hkept, hstored⟩
  | cons line lines ih =>
    obtain ⟨hline, hlines⟩ := List.forall_mem_cons.mp hseparate
    have hrun := (Prod.eta ((run line : StateM Machine Outcome).run machine)).symm
    have hlater := later_of_run hrun
    have hrest := later_runAll ((run line : StateM Machine Outcome).run machine).2 lines
    obtain ⟨left, hleft, hget⟩ := get?_run hrun hclock hsorted hline (htoken _ (le_refl _)) hfind
      hkept hstored fun n hlow hhigh => halive n hlow (lt_of_lt_of_le hhigh hrest.ticks)
    refine ih ?_ ?_ (fun other hm => (hlines other hm).later hlater) (fun n hn => ?_)
      ((ends_later_iff Store.settled_find Store.quiet_find hlater).mpr hfind) hleft hget fun n hlow => ?_
    · rwa [hlater.clock]
    · rwa [hlater.clock]
    · rw [hlater.tokens]
      exact htoken n (hlater.drawn.trans hn)
    · rw [hlater.clock]
      exact halive n (hlater.ticks.trans hlow)

end Command

end ModelQuery
