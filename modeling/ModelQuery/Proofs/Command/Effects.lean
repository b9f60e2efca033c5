import ModelQuery.Command.Run
import ModelQuery.Proofs.Command.Store
import ModelQuery.Proofs.Selection.Purging

/-! What commands do to a machine. Most of them only look at it. A page or a search that ends well
may put selections back, and new settings are stored; whatever ends badly before that leaves the
files as they were, but for the draft of the selections. -/

namespace ModelQuery

open Act

namespace Command

variable {machine after : Machine}

/-! ### Commands that only look -/

theorem quiet_readFilter (source : Source) : Quiet (readFilter source : Act String) := by
  cases source with
  | filter text => exact quiet_pure _
  | criteria path =>
    refine quiet_bind (quiet_attempt _ fun machine => ?_) fun _ => quiet_orFail _ _
    split <;> rfl

theorem quiet_loadModel (path : String) : Quiet (loadModel path : Act Model) :=
  quiet_bind (quiet_attempt _ fun _ => rfl) fun _ => quiet_orFail _ _

theorem quiet_loadCatalog (path : Option String) : Quiet (loadCatalog path : Act Catalog) := by
  cases path with
  | none => exact quiet_pure _
  | some path => exact quiet_bind (quiet_attempt _ fun _ => rfl) fun _ => quiet_orFail _ _

theorem quiet_compile (context : Context) (inspection : Inspection) :
    Quiet (compile context inspection : Act String) := by
  unfold compile
  refine quiet_bind (quiet_readFilter _) fun filter => ?_
  refine quiet_bind (quiet_orFail _ _) fun tokens => quiet_bind (quiet_orFail _ _) fun tree => ?_
  split
  · refine quiet_bind (quiet_loadCatalog _) fun catalog => ?_
    exact quiet_bind (quiet_orFail _ _) fun _ => quiet_pure _
  · exact quiet_bind (quiet_orFail _ _) fun _ => quiet_pure _

theorem quiet_showSettings (context : Context) : Quiet (showSettings context : Act String) := by
  unfold showSettings
  refine quiet_bind (quiet_lift fun _ => rfl) fun isThere => ?_
  split
  · exact quiet_pure _
  · split <;> exact quiet_pure _

theorem quiet_showPath (context : Context) : Quiet (showPath context : Act String) := by
  unfold showPath
  split
  · exact quiet_bind (quiet_lift fun _ => rfl) fun _ => quiet_pure _
  · exact quiet_pure _

theorem quiet_contextOf (request : Request) : Quiet (contextOf request : Act Context) := by
  unfold contextOf
  refine quiet_bind (Settings.quiet_findFile _) fun file => ?_
  refine quiet_bind (Settings.quiet_load _) fun settings => ?_
  exact quiet_bind (quiet_lift fun _ => rfl) fun _ => quiet_pure _

/-! ### Commands that put selections back -/

/-- Nothing but the draft of the selections changed. -/
def Unsaved (machine after : Machine) : Prop :=
  Files.Spares [] machine.files after.files ∨
    ∃ store, Ends Store.find machine (.ok store) machine ∧
      Files.Spares [Files.placeOf machine.folder store.draft] machine.files after.files

/-- Selections were put back, and nothing else changed. -/
structure Saved (machine : Machine) (store : Store) (selections : Selections) (after : Machine) :
    Prop where
  spares : Files.Spares (store.places machine.folder) machine.files after.files
  read : after.files.read machine.folder store.file = .ok selections.render

/-- The ids that a search finds in a model, in its order. -/
def Finds (machine : Machine) (settings : Settings) (search : Search) (model : Model)
    (ids : List String) : Prop :=
  ∃ filter path catalog, Ends (readFilter search.source) machine (.ok filter) machine ∧
    search.model.or settings.model = some path ∧
    Ends (loadModel path) machine (.ok model) machine ∧
    Ends (loadCatalog (search.catalog.or settings.catalog)) machine (.ok catalog) machine ∧
    model.selectFilter catalog filter.toList = .ok ids

theorem Finds.sublist {settings : Settings} {search : Search} {model : Model}
    {ids : List String} (h : Finds machine settings search model ids) :
    ids.Sublist (model.objects.map Object.id) := by
  obtain ⟨filter, path, catalog, -, -, -, -, hids⟩ := h
  obtain ⟨plan, -, hids⟩ := bind_eq_ok_iff.mp hids
  rw [← Except.ok.inj hids, Model.select]
  exact List.filter_sublist.map Object.id

theorem stored_of_withConfiguredLifetime {lifetime : Option Int64} {selections found : Selections}
    (h : withConfiguredLifetime lifetime selections = .ok found) :
    found.stored = selections.stored := by
  unfold withConfiguredLifetime at h
  split at h
  · rw [← Except.ok.inj h]
  · split at h
    · rw [← Except.ok.inj h, Selections.setLifetime]
    · cases h

theorem page?_eq_some {selections left : Selections} {token : String} {offset : Nat}
    {limit : Option Nat} {now : Instant} {page : Page}
    (h : selections.page? token offset limit now = (left, some page)) : left = selections := by
  have hleft : (selections.ids? token now).1 = left := congrArg Prod.fst h
  obtain ⟨ids, hids, -⟩ := Option.map_eq_some_iff.mp (congrArg Prod.snd h)
  rw [← hleft, Selections.ids?_of_eq_some hids]

theorem ends_keep {context : Context} {window : Window} {ids : List String}
    {result : Except Failure Page} (h : Ends (keep context window ids) machine result after) :
    machine.Later after ∧
      ((∃ failure, result = .error failure) ∧ Unsaved machine after ∨
        ∃ store loaded stored page, Ends Store.find machine (.ok store) machine ∧
          Ends store.load machine (.ok loaded) machine ∧
          withConfiguredLifetime context.settings.lifetime
            (loaded.purge (machine.clock machine.ticks)) = .ok stored ∧
          result = .ok page ∧ after.ticks = machine.ticks + 3 ∧
          Saved machine store (stored.create (machine.tokens machine.drawn) ids
            (machine.clock (machine.ticks + 1))) after) := by
  unfold keep at h
  rcases Store.quiet_find.ends_bind h with ⟨failure, rfl, rfl⟩ | ⟨store, hfind, h⟩
  · exact ⟨.refl _, Or.inl ⟨⟨_, rfl⟩, Or.inl (.refl _ _)⟩⟩
  rcases (Store.quiet_load store).ends_bind h with ⟨failure, rfl, rfl⟩ | ⟨loaded, hload, h⟩
  · exact ⟨.refl _, Or.inl ⟨⟨_, rfl⟩, Or.inl (.refl _ _)⟩⟩
  rw [ends_now_bind_iff] at h
  rcases (quiet_orFail _ _).ends_bind h with ⟨failure, rfl, rfl⟩ | ⟨stored, hstored, h⟩
  · exact ⟨machine.later_tick, Or.inl ⟨⟨_, rfl⟩, Or.inl (.refl _ _)⟩⟩
  rw [ends_freshToken_bind_iff, ends_now_bind_iff, ends_now_bind_iff] at h
  have hlater : machine.Later machine.tick.draw.tick.tick :=
    machine.later_tick.trans (machine.tick.later_draw.trans
      (machine.tick.draw.later_tick.trans machine.tick.draw.tick.later_tick))
  split at h
  · obtain ⟨rfl, rfl⟩ := ends_throw_iff.mp h
    exact ⟨hlater, Or.inl ⟨⟨_, rfl⟩, Or.inl (.refl _ _)⟩⟩
  -- The page that is shown is of the selection just made, and looking it up takes nothing away.
  next left page hpage =>
  obtain rfl := page?_eq_some hpage
  rcases ends_bind_iff.mp h with ⟨failure, rfl, hsave⟩ | ⟨_, _, hsave, h⟩
  all_goals
    obtain ⟨files, rfl, hsaved⟩ := Store.ends_save hsave
    have hlater := hlater.trans (Machine.later_files _ files)
  · rcases hsaved with ⟨-, hfiles⟩ | ⟨he, -⟩
    · exact ⟨hlater, Or.inl ⟨⟨_, rfl⟩, Or.inr ⟨store, hfind, hfiles⟩⟩⟩
    · cases he
  · rcases hsaved with ⟨⟨_, he⟩, -⟩ | ⟨-, hfiles, hread⟩
    · cases he
    · obtain ⟨rfl, rfl⟩ := ends_pure_iff.mp h
      exact ⟨hlater, Or.inr ⟨store, loaded, stored, page, hfind, hload,
        eq_ok_of_ends_orFail hstored, rfl, rfl, ⟨hfiles, hread⟩⟩⟩

/-- Selections may be put back before a last step that does nothing. -/
theorem ends_save_if {store : Store} {selections : Selections} {p : Prop} [Decidable p]
    {last : Act String} {result : Except Failure String} (hlast : last.Quiet)
    (h : Ends (if p then do
        store.save selections
        last
      else last) machine result after) :
    ∃ files, after = { machine with files } ∧
      (Files.Spares [Files.placeOf machine.folder store.draft] machine.files files ∨
        Saved machine store selections after) := by
  split at h
  · rcases ends_bind_iff.mp h with ⟨failure, -, hsave⟩ | ⟨_, between, hsave, h⟩
    · obtain ⟨files, rfl, ⟨-, hfiles⟩ | ⟨he, -⟩⟩ := Store.ends_save hsave
      · exact ⟨files, rfl, Or.inl hfiles⟩
      · cases he
    · obtain rfl := hlast.eq h
      obtain ⟨files, rfl, ⟨⟨_, he⟩, -⟩ | ⟨-, hfiles, hread⟩⟩ := Store.ends_save hsave
      · cases he
      · exact ⟨files, rfl, Or.inr ⟨hfiles, hread⟩⟩
  · obtain rfl := hlast.eq h
    exact ⟨_, rfl, Or.inl (.refl _ _)⟩

theorem ends_page {context : Context} {token : String} {window : Window}
    {result : Except Failure String} (h : Ends (page context token window) machine result after) :
    machine.Later after ∧
      (Unsaved machine after ∨
        ∃ store loaded, Ends Store.find machine (.ok store) machine ∧
          Ends store.load machine (.ok loaded) machine ∧ after.ticks = machine.ticks + 2 ∧
          Saved machine store ((loaded.ids? token (machine.clock machine.ticks)).1.purge
            (machine.clock (machine.ticks + 1))) after) := by
  unfold page at h
  rcases Store.quiet_find.ends_bind h with ⟨failure, -, rfl⟩ | ⟨store, hfind, h⟩
  · exact ⟨.refl _, Or.inl (Or.inl (.refl _ _))⟩
  rcases (Store.quiet_load store).ends_bind h with ⟨failure, -, rfl⟩ | ⟨loaded, hload, h⟩
  · exact ⟨.refl _, Or.inl (Or.inl (.refl _ _))⟩
  rw [ends_now_bind_iff] at h
  dsimp only at h
  rw [ends_now_bind_iff] at h
  -- What may be put back is put back before a last step that only tells what was found.
  have hmaybe : ∃ files, after = { machine.tick.tick with files } ∧
      (Files.Spares [Files.placeOf machine.folder store.draft] machine.files files ∨
        Saved machine.tick.tick store ((loaded.page? token window.offset (context.limit window)
          (machine.clock machine.ticks)).1.purge (machine.clock (machine.ticks + 1))) after) := by
    generalize (loaded.page? token window.offset (context.limit window)
      (machine.clock machine.ticks)).2 = found at h
    cases found with
    | none => exact ends_save_if (quiet_throw _) h
    | some page => exact ends_save_if (quiet_pure _) h
  obtain ⟨files, rfl, hfiles⟩ := hmaybe
  refine ⟨(machine.later_tick.trans machine.tick.later_tick).trans (Machine.later_files _ files), ?_⟩
  rcases hfiles with hunsaved | hsaved
  · exact Or.inl (Or.inr ⟨store, hfind, hunsaved⟩)
  · exact Or.inr ⟨store, loaded, hfind, hload, rfl, ⟨hsaved.spares, hsaved.read⟩⟩

/-! ### All commands -/

/-- What a command that comes to a result may have done to a machine. -/
inductive Effect (machine : Machine) (context : Context) :
    Task → Except Failure String → Machine → Prop
  | failed {task : Task} {failure : Failure} {after : Machine} (h : Unsaved machine after) :
      Effect machine context task (.error failure) after
  | shown {task : Task} {output : String} {after : Machine}
      (hsearch : ∀ search, task ≠ .select search) (h : Unsaved machine after) :
      Effect machine context task (.ok output) after
  | set {key value output : String} {after : Machine}
      (h : Files.Spares [Files.placeOf machine.folder context.file] machine.files after.files) :
      Effect machine context (.setSetting key value) (.ok output) after
  | purged {token : String} {window : Window} {result : Except Failure String} {after : Machine}
      {store : Store} {loaded : Selections} (hfind : Ends Store.find machine (.ok store) machine)
      (hload : Ends store.load machine (.ok loaded) machine)
      (hticks : after.ticks = machine.ticks + 2)
      (h : Saved machine store ((loaded.ids? token (machine.clock machine.ticks)).1.purge
        (machine.clock (machine.ticks + 1))) after) :
      Effect machine context (.page token window) result after
  | selected {search : Search} {output : String} {after : Machine} {model : Model}
      {ids : List String} {store : Store} {loaded stored : Selections}
      (hids : Finds machine context.settings search model ids)
      (hfind : Ends Store.find machine (.ok store) machine)
      (hload : Ends store.load machine (.ok loaded) machine)
      (hstored : withConfiguredLifetime context.settings.lifetime
        (loaded.purge (machine.clock machine.ticks)) = .ok stored)
      (hticks : after.ticks = machine.ticks + 3)
      (h : Saved machine store (stored.create (machine.tokens machine.drawn) ids
        (machine.clock (machine.ticks + 1))) after) :
      Effect machine context (.select search) (.ok output) after

theorem effect_of_quiet {context : Context} {task : Task} {act : Act String}
    {result : Except Failure String} (hquiet : act.Quiet) (h : act.Ends machine result after)
    (hsearch : ∀ search, task ≠ .select search) :
    machine.Later after ∧ Effect machine context task result after := by
  obtain rfl := hquiet.eq h
  refine ⟨.refl _, ?_⟩
  cases result with
  | error failure => exact .failed (Or.inl (.refl _ _))
  | ok output => exact .shown hsearch (Or.inl (.refl _ _))

theorem effect_select {context : Context} {search : Search} {result : Except Failure String}
    (h : Ends (select context search) machine result after) :
    machine.Later after ∧ Effect machine context (.select search) result after := by
  have hfailed : ∀ {failure : Failure}, Effect machine context (.select search) (.error failure)
      machine := .failed (Or.inl (.refl _ _))
  unfold select at h
  rcases (quiet_readFilter _).ends_bind h with ⟨failure, rfl, rfl⟩ | ⟨filter, hfilter, h⟩
  · exact ⟨.refl _, hfailed⟩
  rcases (quiet_orFail _ _).ends_bind h with ⟨failure, rfl, rfl⟩ | ⟨path, hpath, h⟩
  · exact ⟨.refl _, hfailed⟩
  rcases (quiet_loadModel _).ends_bind h with ⟨failure, rfl, rfl⟩ | ⟨model, hmodel, h⟩
  · exact ⟨.refl _, hfailed⟩
  rcases (quiet_loadCatalog _).ends_bind h with ⟨failure, rfl, rfl⟩ | ⟨catalog, hcatalog, h⟩
  · exact ⟨.refl _, hfailed⟩
  rcases (quiet_orFail _ _).ends_bind h with ⟨failure, rfl, rfl⟩ | ⟨ids, hids, h⟩
  · exact ⟨.refl _, hfailed⟩
  have hfound : search.model.or context.settings.model = some path := by
    have hpath := eq_ok_of_ends_orFail hpath
    split at hpath
    · next found hfound => rw [hfound, Except.ok.inj hpath]
    · cases hpath
  have hfinds : Finds machine context.settings search model ids :=
    ⟨filter, path, catalog, hfilter, hfound, hmodel, hcatalog, eq_ok_of_ends_orFail hids⟩
  rcases ends_bind_iff.mp h with ⟨failure, rfl, hkeep⟩ | ⟨page, between, hkeep, h⟩
  · obtain ⟨hlater, ⟨-, hunsaved⟩ | ⟨_, _, _, _, -, -, -, he, -⟩⟩ := ends_keep hkeep
    · exact ⟨hlater, .failed hunsaved⟩
    · cases he
  · obtain ⟨rfl, rfl⟩ := ends_pure_iff.mp h
    obtain ⟨hlater, ⟨⟨_, he⟩, -⟩ | ⟨store, loaded, stored, _, hfind, hload, hstored, -, hticks,
      hsaved⟩⟩ := ends_keep hkeep
    · cases he
    · exact ⟨hlater, .selected hfinds hfind hload hstored hticks hsaved⟩

/-- To set a setting is to load the settings, to check the value, and to save what comes of it. -/
theorem ends_setSetting (disk : Disk) {context : Context} {key value : String}
    {result : Except Failure String}
    (h : Ends (disk.on (setSetting context key value)) machine result after) :
    (∃ failure, result = .error failure ∧
        Ends (Settings.load context.file) machine (.error failure) machine ∧ after = machine) ∨
      ∃ settings, Ends (Settings.load context.file) machine (.ok settings) machine ∧
        ((∃ refusal, result = .error (.settings (.refused refusal)) ∧
            settings.set key value = .error refusal ∧ after = machine) ∨
          ∃ changed, settings.set key value = .ok changed ∧
            ((∃ failure, result = .error failure ∧
                Ends (disk.on (changed.save context.file)) machine (.error failure) after) ∨
              (∃ output, result = .ok output) ∧
                Ends (disk.on (changed.save context.file)) machine (.ok ()) after)) := by
  unfold Disk.on setSetting at h
  rcases ends_bind_iff.mp h with ⟨failure, rfl, hload⟩ | ⟨settings, loaded, hload, hset⟩
  all_goals obtain rfl := (Settings.quiet_load _).eq hload
  · exact Or.inl ⟨failure, rfl, hload, rfl⟩
  refine Or.inr ⟨settings, hload, ?_⟩
  rcases ends_bind_iff.mp hset with ⟨failure, rfl, hcheck⟩ | ⟨changed, checked, hcheck, hlast⟩
  all_goals obtain ⟨hchecked, rfl⟩ := ends_orFail_iff.mp hcheck
  · obtain ⟨refusal, hrefused, rfl⟩ := mapError_eq_error_iff.mp hchecked.symm
    exact Or.inl ⟨refusal, rfl, hrefused, rfl⟩
  refine Or.inr ⟨changed, mapError_eq_ok_iff.mp hchecked.symm, ?_⟩
  rcases ends_bind_iff.mp hlast with ⟨failure, rfl, hsave⟩ | ⟨_, saved, hsave, hshown⟩
  · exact Or.inl ⟨failure, rfl, hsave⟩
  have hshow : after = saved ∧ ∃ output, result = .ok output := by
    split at hshown
    · exact ⟨(ends_pure_iff.mp hshown).2, _, (ends_pure_iff.mp hshown).1⟩
    · split at hshown <;> exact ⟨(ends_pure_iff.mp hshown).2, _, (ends_pure_iff.mp hshown).1⟩
  obtain ⟨rfl, hresult⟩ := hshow
  exact Or.inr ⟨hresult, hsave⟩

theorem effect_setSetting {context : Context} {key value : String}
    {result : Except Failure String}
    (h : Ends (setSetting context key value) machine result after) :
    machine.Later after ∧ Effect machine context (.setSetting key value) result after := by
  rcases ends_setSetting Disk.sound h with ⟨failure, rfl, -, rfl⟩ | ⟨settings, -, hset⟩
  · exact ⟨.refl _, .failed (Or.inl (.refl _ _))⟩
  rcases hset with ⟨refusal, rfl, -, rfl⟩ | ⟨changed, -, hsave⟩
  · exact ⟨.refl _, .failed (Or.inl (.refl _ _))⟩
  rcases hsave with ⟨failure, rfl, hsave⟩ | ⟨⟨output, rfl⟩, hsave⟩
  all_goals obtain ⟨files, rfl, hfiles⟩ := Settings.ends_save hsave
  · rcases hfiles with ⟨-, hfiles⟩ | ⟨he, -⟩
    · exact ⟨machine.later_files files, .failed (Or.inl hfiles)⟩
    · cases he
  · rcases hfiles with ⟨⟨_, he⟩, -⟩ | ⟨-, hfiles⟩
    · cases he
    · exact ⟨machine.later_files files, .set hfiles⟩

theorem effect_runTask {context : Context} {task : Task} {result : Except Failure String}
    (h : Ends (runTask context task) machine result after) :
    machine.Later after ∧ Effect machine context task result after := by
  cases task with
  | compile inspection => exact effect_of_quiet (quiet_compile context inspection) h nofun
  | select search => exact effect_select h
  | page token window =>
    obtain ⟨hlater, hunsaved | ⟨store, loaded, hfind, hload, hticks, hsaved⟩⟩ := ends_page h
    · cases result with
      | error failure => exact ⟨hlater, .failed hunsaved⟩
      | ok output => exact ⟨hlater, .shown nofun hunsaved⟩
    · exact ⟨hlater, .purged hfind hload hticks hsaved⟩
  | showSettings => exact effect_of_quiet (quiet_showSettings context) h nofun
  | setSetting key value => exact effect_setSetting h
  | showPath => exact effect_of_quiet (quiet_showPath context) h nofun
  | completions shell => exact effect_of_quiet (quiet_pure _) h nofun
  | help => exact effect_of_quiet (quiet_pure _) h nofun

end Command

end ModelQuery
