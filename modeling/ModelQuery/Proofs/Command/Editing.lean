import ModelQuery.Proofs.Command.Keeping
import ModelQuery.Proofs.Settings.Fronts

/-! Settings that are set one by one. Each time one setting is replaced in the file, or nothing is,
unless the disk fails on the way. Settings that begin without a file stay in their ranges, whatever
the disk does, so that no search is stopped by them. -/

namespace ModelQuery

open Act

variable {machine after : Machine} {place : Place}

/-- Whether a file, as far as settings can be read from it, holds them in their ranges. -/
def Machine.IsSoundAt (machine : Machine) (place : Place) : Prop :=
  ∀ text ∈ machine.files.text? place, ∀ settings, Settings.ofText text = .ok settings →
    settings.IsSound

/-- Whether settings can be read from a file, as far as it is there. -/
def Machine.IsReadableAt (machine : Machine) (place : Place) : Prop :=
  ∀ text ∈ machine.files.text? place, ∃ settings, Settings.ofText text = .ok settings

namespace Settings

variable {file : String} {settings changed : Settings}

theorem isStorable_of_ends_load (h : Ends (load file) machine (.ok settings) after) :
    settings.IsStorable := by
  rcases ends_load h with ⟨text, -, htext⟩ | rfl
  · exact isStorable_of_ofText htext
  · exact isStorable_unset

theorem isSound_of_ends_load (h : Ends (load file) machine (.ok settings) after)
    (hsound : machine.IsSoundAt (Files.placeOf machine.folder file)) : settings.IsSound := by
  rcases ends_load h with ⟨text, hread, htext⟩ | rfl
  · exact hsound text (Files.text?_of_read hread) settings htext
  · exact isSound_unset

/-! ### No complaint about a lifetime -/

variable {seconds : Int64}

theorem avoids_findFile (named : Option String) :
    Avoids (findFile named) (.settings (.lifetime seconds)) := by
  unfold findFile
  split
  · exact avoids_pure _
  · refine avoids_bind (avoids_lift _) fun folder => ?_
    cases folder with
    | some folder => exact avoids_bind (avoids_pure _) fun _ => avoids_pure _
    | none =>
      refine avoids_bind (avoids_lift _) fun home => ?_
      cases home with
      | some home => exact avoids_bind (avoids_pure _) fun _ => avoids_pure _
      | none => exact avoids_bind (avoids_throw nofun) fun _ => avoids_pure _

theorem avoids_load (file : String) : Avoids (load file) (.settings (.lifetime seconds)) := by
  unfold load
  refine avoids_bind (avoids_lift _) fun isThere => ?_
  split
  · exact avoids_pure _
  · refine avoids_bind (avoids_attempt nofun) fun text => ?_
    split
    · exact avoids_pure _
    · exact avoids_throw nofun

end Settings

namespace Store

variable {seconds : Int64}

theorem avoids_find : Avoids find (.settings (.lifetime seconds)) := by
  unfold find
  refine avoids_bind (avoids_lift _) fun home => ?_
  cases home with
  | none => exact avoids_throw nofun
  | some home => exact avoids_bind (avoids_lift _) fun _ => avoids_pure _

theorem avoids_load (store : Store) : Avoids store.load (.settings (.lifetime seconds)) := by
  unfold load
  refine avoids_bind (avoids_lift _) fun outcome => ?_
  split
  · refine avoids_mk_pure ?_
    unfold ofText
    split <;> exact nofun
  · exact avoids_pure _
  · exact avoids_throw nofun

theorem avoids_save (disk : Disk) (store : Store) (selections : Selections) :
    Avoids (disk.on (store.save selections)) (.settings (.lifetime seconds)) :=
  avoids_bind (avoids_attempt nofun) fun _ =>
    avoids_bind (avoids_attempt nofun) fun _ => avoids_attempt nofun

end Store

namespace Command

variable {context : Context} {seconds : Int64}

theorem exists_withConfiguredLifetime (h : context.settings.IsSound) (selections : Selections) :
    ∃ kept, withConfiguredLifetime context.settings.lifetime selections = .ok kept := by
  unfold withConfiguredLifetime
  split
  · exact ⟨_, rfl⟩
  · next seconds hseconds => exact ⟨_, if_pos (h.lifetime seconds hseconds)⟩

theorem avoids_keep (disk : Disk) (h : context.settings.IsSound) (window : Window)
    (ids : List String) :
    Avoids (disk.on (keep context window ids)) (.settings (.lifetime seconds)) := by
  unfold Disk.on keep
  refine avoids_bind Store.avoids_find fun store => ?_
  refine avoids_bind (Store.avoids_load store) fun loaded => ?_
  refine avoids_bind (avoids_lift _) fun now => ?_
  refine avoids_bind (avoids_orFail fun fault hfault => ?_) fun stored => ?_
  · obtain ⟨kept, hkept⟩ := exists_withConfiguredLifetime h (loaded.purge now)
    cases hkept.symm.trans hfault
  refine avoids_bind (avoids_lift _) fun token => ?_
  refine avoids_bind (avoids_lift _) fun created => ?_
  refine avoids_bind (avoids_lift _) fun shown => ?_
  split
  · exact avoids_throw nofun
  · exact avoids_bind (Store.avoids_save disk _ _) fun _ => avoids_pure _

theorem avoids_readFilter (source : Source) :
    Avoids (readFilter source) (.settings (.lifetime seconds)) := by
  unfold readFilter
  split
  · exact avoids_pure _
  · refine avoids_bind (avoids_attempt nofun) fun text => avoids_orFail fun failure hfailure => ?_
    unfold criteriaFilter at hfailure
    split at hfailure
    · obtain rfl := Except.error.inj hfailure
      exact nofun
    · next criteria _ =>
      cases hfilter : criteria.filter.map String.ofList with
      | error flaw =>
        rw [hfilter] at hfailure
        obtain rfl := Except.error.inj hfailure
        exact nofun
      | ok filter =>
        rw [hfilter] at hfailure
        cases hfailure

theorem avoids_loadModel (path : String) :
    Avoids (loadModel path) (.settings (.lifetime seconds)) :=
  avoids_bind (avoids_attempt nofun) fun _ => avoids_orFail nofun

theorem avoids_loadCatalog (path : Option String) :
    Avoids (loadCatalog path) (.settings (.lifetime seconds)) := by
  unfold loadCatalog
  split
  · exact avoids_pure _
  · exact avoids_bind (avoids_attempt nofun) fun _ => avoids_orFail nofun

theorem avoids_select (disk : Disk) (h : context.settings.IsSound) (search : Search) :
    Avoids (disk.on (select context search)) (.settings (.lifetime seconds)) := by
  unfold Disk.on select
  refine avoids_bind (avoids_readFilter _) fun filter => ?_
  refine avoids_bind (avoids_orFail fun fault hfault => ?_) fun path => ?_
  · split at hfault
    · cases hfault
    · obtain rfl := Except.error.inj hfault
      exact nofun
  refine avoids_bind (avoids_loadModel path) fun model => ?_
  refine avoids_bind (avoids_loadCatalog _) fun catalog => ?_
  refine avoids_bind (avoids_orFail nofun) fun ids => ?_
  exact avoids_bind (avoids_keep disk h _ _) fun _ => avoids_pure _

theorem avoids_contextOf (request : Request) :
    Avoids (contextOf request) (.settings (.lifetime seconds)) := by
  unfold contextOf
  refine avoids_bind (Settings.avoids_findFile _) fun file => ?_
  refine avoids_bind (Settings.avoids_load _) fun settings => ?_
  exact avoids_bind (avoids_lift _) fun _ => avoids_pure _

/-! ### Edits -/

/-- Why a setting is not set before anything is written: the settings in the file cannot be loaded,
no setting with the key can hold what the value says, or the settings that do cannot be saved. -/
inductive FailsToSet (disk : Disk) (machine : Machine) (file key value : String) :
    Failure → Machine → Prop
  | unloaded {failure : Failure}
      (hload : Ends (Settings.load file) machine (.error failure) machine) :
      FailsToSet disk machine file key value failure machine
  | refused {before : Settings} {refusal : Settings.Refusal}
      (hload : Ends (Settings.load file) machine (.ok before) machine)
      (hrefused : before.set key value = .error refusal)
      (hnone : ∀ (setting : Setting) (changed : Settings), setting.key = key →
        ¬ changed.Holds value setting) :
      FailsToSet disk machine file key value (.settings (.refused refusal)) machine
  | unsaved {before changed : Settings} {setting : Setting} {failure : Failure} {files : Files}
      (hload : Ends (Settings.load file) machine (.ok before) machine) (hkey : setting.key = key)
      (hwithout : changed.without setting = before.without setting)
      (hvalue : changed.Holds value setting)
      (hsave : Ends (disk.on (changed.save file)) machine (.error failure) { machine with files })
      (hfiles : Files.Spares [] machine.files files) :
      FailsToSet disk machine file key value failure { machine with files }

theorem FailsToSet.spares {disk : Disk} {file key value : String} {failure : Failure}
    (h : FailsToSet disk machine file key value failure after) :
    Files.Spares [] machine.files after.files := by
  cases h with
  | unloaded | refused => exact .refl _ _
  | unsaved _ _ _ _ _ hfiles => exact hfiles

/-- How changed settings are written, which is up to the disk: the file holds a front of their text,
it stays as it was, or it holds all of their text. -/
inductive Writes (disk : Disk) (machine : Machine) (file : String) (changed : Settings) :
    Except Failure String → Machine → Prop
  | cut {length : Nat} {fault : FileFault} {files : Files}
      (hfate : disk.fate file changed.render = .cut length fault)
      (hfiles : Files.Spares [Files.placeOf machine.folder file] machine.files files)
      (hread : files.read machine.folder file = .ok (Disk.front length changed.render)) :
      Writes disk machine file changed (.error (.settings (.unwritable fault)))
        { machine with files }
  | dropped {output : String} {files : Files}
      (hfate : disk.fate file changed.render = .dropped)
      (hfiles : Files.Spares [] machine.files files) :
      Writes disk machine file changed (.ok output) { machine with files }
  | written {output : String} {files : Files}
      (hfate : disk.fate file changed.render = .written)
      (hfiles : Files.Spares [Files.placeOf machine.folder file] machine.files files)
      (hread : files.read machine.folder file = .ok changed.render) :
      Writes disk machine file changed (.ok output) { machine with files }

theorem FailsToSet.later {disk : Disk} {file key value : String} {failure : Failure}
    (h : FailsToSet disk machine file key value failure after) : machine.Later after := by
  cases h with
  | unloaded | refused => exact .refl _
  | unsaved => exact machine.later_files _

theorem Writes.later {disk : Disk} {file : String} {changed : Settings}
    {result : Except Failure String} (h : Writes disk machine file changed result after) :
    machine.Later after := by
  cases h <;> exact machine.later_files _

theorem Writes.texts {disk : Disk} {file : String} {changed : Settings}
    {result : Except Failure String} (h : Writes disk machine file changed result after)
    (hplace : place ≠ Files.placeOf machine.folder file) :
    after.files.text? place = machine.files.text? place := by
  cases h with
  | cut _ hfiles | written _ hfiles => exact hfiles.texts place (by simpa using hplace)
  | dropped _ hfiles => exact hfiles.texts place List.not_mem_nil

/-- What is so of the text in a file before and of what may be written is so of the text after. -/
theorem Writes.forall_text {disk : Disk} {file : String} {changed : Settings}
    {result : Except Failure String} {P : String → Prop}
    (h : Writes disk machine file changed result after)
    (hbefore : ∀ text ∈ machine.files.text? place, P text)
    (hwhole : place = Files.placeOf machine.folder file → P changed.render)
    (hcut : place = Files.placeOf machine.folder file → ∀ length fault,
      disk.fate file changed.render = .cut length fault → P (Disk.front length changed.render)) :
    ∀ text ∈ after.files.text? place, P text := by
  by_cases hplace : place = Files.placeOf machine.folder file
  · subst hplace
    cases h with
    | cut hfate _ hread =>
      rw [Files.text?_of_read hread]
      rintro _ ⟨⟩
      exact hcut rfl _ _ hfate
    | dropped _ hfiles =>
      rw [hfiles.texts _ List.not_mem_nil]
      exact hbefore
    | written _ _ hread =>
      rw [Files.text?_of_read hread]
      rintro _ ⟨⟩
      exact hwhole rfl
  · rw [h.texts hplace]
    exact hbefore

/-- To set a setting fails for one of these reasons, or it loads the settings and writes them again
after a change. -/
theorem fails_or_sets (disk : Disk) {key value : String} {result : Except Failure String}
    (h : Ends (disk.on (setSetting context key value)) machine result after) :
    (∃ failure, result = .error failure ∧
        FailsToSet disk machine context.file key value failure after) ∨
      ∃ before changed, Ends (Settings.load context.file) machine (.ok before) machine ∧
        before.set key value = .ok changed ∧
        Writes disk machine context.file changed result after := by
  rcases ends_setSetting disk h with ⟨failure, rfl, hload, rfl⟩ | ⟨before, hload, hset⟩
  · exact Or.inl ⟨failure, rfl, .unloaded hload⟩
  rcases hset with ⟨refusal, rfl, hrefused, rfl⟩ | ⟨changed, hchanged, hsave⟩
  · exact Or.inl ⟨_, rfl, .refused hload hrefused fun _ _ =>
      Settings.not_holds_of_set_eq_error hrefused⟩
  rcases hsave with ⟨failure, rfl, hsave⟩ | ⟨⟨output, rfl⟩, hsave⟩
  all_goals obtain ⟨files, rfl, hfiles⟩ := Settings.saves_of_ends disk hsave
  · cases hfiles with
    | unsaved hfiles =>
      obtain ⟨setting, hkey, hwithout, hvalue⟩ := Settings.set_eq_ok_iff.mp hchanged
      exact Or.inl ⟨failure, rfl, .unsaved hload hkey hwithout hvalue hsave hfiles⟩
    | cut hfate hfiles hread =>
      exact Or.inr ⟨before, changed, hload, hchanged, .cut hfate hfiles hread⟩
  · cases hfiles with
    | dropped hfate hfiles =>
      exact Or.inr ⟨before, changed, hload, hchanged, .dropped hfate hfiles⟩
    | saved hfate hfiles hread =>
      exact Or.inr ⟨before, changed, hload, hchanged, .written hfate hfiles hread⟩

/-- Whether all that a command line may ask for is to set a setting. -/
def OnlySets (machine : Machine) (line : List String) : Prop :=
  ∀ request, read (machine.environment.lookup "BIMQ_CONFIG") line = .ok request →
    ∃ key value, request.task = .setSetting key value

/-- A command that may only set a setting changes no text, or it writes changed settings. -/
theorem writes_of_run (disk : Disk) {line : List String} {outcome : Outcome}
    (honly : OnlySets machine line)
    (h : (disk.on (run line) : StateM Machine Outcome).run machine = (outcome, after)) :
    machine.Later after ∧ (Files.Spares [] machine.files after.files ∨
      ∃ file key value before changed result,
        Ends (Settings.load file) machine (.ok before) machine ∧
        before.set key value = .ok changed ∧ Writes disk machine file changed result after) := by
  rcases run_steps disk h with ⟨-, rfl⟩ | ⟨request, context, result, hread, -, htask, -⟩
  · exact ⟨.refl _, Or.inl (.refl _ _)⟩
  obtain ⟨key, value, hset⟩ := honly request hread
  rw [hset] at htask
  rcases fails_or_sets disk htask with ⟨failure, -, hfails⟩ |
    ⟨before, changed, hload, hchanged, hwrites⟩
  · exact ⟨hfails.later, Or.inl hfails.spares⟩
  · exact ⟨hwrites.later, Or.inr ⟨_, key, value, before, changed, result, hload, hchanged, hwrites⟩⟩

/-! ### Settings that stay in their ranges -/

/-- Setting a setting in one file leaves another as it is, and adds nothing that is out of range. -/
theorem isSoundAt_of_run (disk : Disk) {line : List String} {outcome : Outcome}
    (honly : OnlySets machine line) (hsound : machine.IsSoundAt place)
    (h : (disk.on (run line) : StateM Machine Outcome).run machine = (outcome, after)) :
    after.IsSoundAt place := by
  rcases (writes_of_run disk honly h).2 with hspares |
    ⟨file, key, value, before, changed, result, hload, hchanged, hwrites⟩
  · rw [Machine.IsSoundAt, hspares.texts place List.not_mem_nil]
    exact hsound
  have hstorable := (Settings.isStorable_of_ends_load hload).of_set hchanged
  have hranges : place = Files.placeOf machine.folder file → changed.IsSound := by
    rintro rfl
    exact (Settings.isSound_of_ends_load hload hsound).of_set hchanged
  refine hwrites.forall_text hsound (fun hplace settings hread => ?_)
    fun hplace length fault _ settings hread => ?_
  · obtain rfl := Except.ok.inj ((Settings.ofText_render hstorable).symm.trans hread)
    exact hranges hplace
  · exact Settings.isSound_of_front hstorable (hranges hplace) (List.take_prefix _ _) hread

theorem isReadableAt_of_run {disk : Disk} {line : List String} {outcome : Outcome}
    (honly : OnlySets machine line) (hcuts : disk.NeverCuts)
    (hreadable : machine.IsReadableAt place)
    (h : (disk.on (run line) : StateM Machine Outcome).run machine = (outcome, after)) :
    after.IsReadableAt place := by
  rcases (writes_of_run disk honly h).2 with hspares |
    ⟨file, key, value, before, changed, result, hload, hchanged, hwrites⟩
  · rw [Machine.IsReadableAt, hspares.texts place List.not_mem_nil]
    exact hreadable
  have hstorable := (Settings.isStorable_of_ends_load hload).of_set hchanged
  refine hwrites.forall_text hreadable (fun _ => ⟨changed, Settings.ofText_render hstorable⟩)
    fun _ _ _ hfate => absurd hfate (hcuts _ _ _ _)

/-- Runs one command after the other, each on a disk of its own. -/
def runOnDisks (machine : Machine) (runs : List (Disk × List String)) : Machine :=
  runs.foldl (fun machine (disk, line) =>
    ((disk.on (run line) : StateM Machine Outcome).run machine).2) machine

variable {runs : List (Disk × List String)}

/-- What one command that may only set a setting keeps, any number of them keep. -/
theorem runOnDisks_keeps (good : Disk → Prop) {P : Machine → Prop}
    (hstep : ∀ {disk machine line outcome after}, good disk → OnlySets machine line → P machine →
      (disk.on (run line) : StateM Machine Outcome).run machine = (outcome, after) → P after)
    (hgood : ∀ step ∈ runs, good step.1) (honly : ∀ step ∈ runs, OnlySets machine step.2)
    (h : P machine) : machine.Later (runOnDisks machine runs) ∧ P (runOnDisks machine runs) := by
  induction runs generalizing machine with
  | nil => exact ⟨.refl _, h⟩
  | cons step runs ih =>
    obtain ⟨hfirst, hgood⟩ := List.forall_mem_cons.mp hgood
    obtain ⟨hline, hlines⟩ := List.forall_mem_cons.mp honly
    have hrun := (Prod.eta ((step.1.on (run step.2) : StateM Machine Outcome).run machine)).symm
    have hlater := (writes_of_run step.1 hline hrun).1
    have hrest : ∀ other ∈ runs, OnlySets
        ((step.1.on (run step.2) : StateM Machine Outcome).run machine).2 other.2 := by
      intro other hm
      rw [OnlySets, hlater.environment]
      exact hlines other hm
    obtain ⟨hlater', hlast⟩ := ih hgood hrest (hstep hfirst hline h hrun)
    exact ⟨hlater.trans hlater', hlast⟩

/-- Sound settings stop no search. -/
theorem run_select_ne (disk : Disk) {arguments : List String} {request : Request} {search : Search}
    {file : String} (hsound : machine.IsSoundAt (Files.placeOf machine.folder file))
    (hread : read (machine.environment.lookup "BIMQ_CONFIG") arguments = .ok request)
    (hfile : Ends (Settings.findFile request.settings) machine (.ok file) machine)
    (htask : request.task = .select search) (json : Bool) :
    ((disk.on (run arguments) : StateM Machine Outcome).run machine).1 ≠
      .failed json (.settings (.lifetime seconds)) := by
  rw [run_of_request disk hread]
  generalize hends : (disk.on (runRequest request) : Act String).run.run machine = ran
  obtain ⟨result, last⟩ := ran
  intro hfailed
  cases result with
  | ok output => cases hfailed
  | error failure =>
    obtain ⟨-, rfl⟩ := Outcome.failed.inj hfailed
    rcases ends_bind_iff.mp hends with ⟨_, he, hcontext⟩ | ⟨context, _, hcontext, hselect⟩
    · obtain rfl := Except.error.inj he
      exact avoids_contextOf request machine last hcontext
    · obtain rfl := (quiet_contextOf request).eq hcontext
      obtain ⟨hfound, hload⟩ := ends_of_ends_contextOf hcontext
      obtain rfl := Except.ok.inj (ends_unique hfound hfile).1
      rw [htask] at hselect
      exact avoids_select disk (Settings.isSound_of_ends_load hload hsound) search _ last hselect

theorem limit_ne_zero (h : context.settings.IsSound) {window : Window}
    (hlimit : window.limit = none) : context.limit window ≠ some 0 := by
  unfold Context.limit
  split
  · exact nofun
  · rw [hlimit, Option.none_or]
    cases hsize : context.settings.pageSize with
    | none => decide
    | some size =>
      have hpos := h.pageSize size hsize
      simp only [Option.getD_some, ne_eq, Option.some.injEq]
      omega

/-- To set a setting fails for a reason and leaves all files as they are, or it writes the settings
with this one replaced by what the value says, and changes no other file. What is found afterwards
is up to the disk: all that was written, a front of it and a failure, or what was there before.
However many settings are set, on whatever disks, if their file was not there before, what can be
read from it is in its ranges, and it can be read unless a write was cut off. No search is stopped
by the lifetime that the settings ask for, and they ask for no page without ids. -/
theorem sets_one_setting :
    (∀ (disk : Disk) (machine after : Machine) (context : Context) (key value : String)
        (result : Except Failure String),
      Ends (disk.on (setSetting context key value)) machine result after →
      (∃ failure, result = .error failure ∧
          FailsToSet disk machine context.file key value failure after ∧
          ∀ place, after.files.text? place = machine.files.text? place) ∨
        ∃ before changed setting,
          Ends (Settings.load context.file) machine (.ok before) machine ∧
          setting.key = key ∧ changed.without setting = before.without setting ∧
          changed.Holds value setting ∧
          (∀ place, place ≠ Files.placeOf machine.folder context.file →
            after.files.text? place = machine.files.text? place) ∧
          match disk.fate context.file changed.render with
          | .written => (∃ output, result = .ok output) ∧
              Ends (Settings.load context.file) after (.ok changed) after
          | .cut length fault => result = .error (.settings (.unwritable fault)) ∧
              after.files.text? (Files.placeOf machine.folder context.file) =
                some (Disk.front length changed.render)
          | .dropped => (∃ output, result = .ok output) ∧
              after.files.text? (Files.placeOf machine.folder context.file) =
                machine.files.text? (Files.placeOf machine.folder context.file)
          | .refused _ => False) ∧
    ∀ (machine : Machine) (file : String) (runs : List (Disk × List String)),
      machine.files.text? (Files.placeOf machine.folder file) = none →
      (∀ step ∈ runs, OnlySets machine step.2) →
      let last := runOnDisks machine runs
      (∀ text, last.files.text? (Files.placeOf last.folder file) = some text →
        (∀ settings, Settings.ofText text = .ok settings → settings.IsSound) ∧
        ((∀ step ∈ runs, step.1.NeverCuts) → ∃ settings, Settings.ofText text = .ok settings)) ∧
      ∀ arguments request,
        read (last.environment.lookup "BIMQ_CONFIG") arguments = .ok request →
        Ends (Settings.findFile request.settings) last (.ok file) last →
        (∀ context, Ends (contextOf request) last (.ok context) last →
          context.settings.IsSound ∧
          (∀ selections, ∃ kept,
            withConfiguredLifetime context.settings.lifetime selections = .ok kept) ∧
          ∀ window, window.limit = none → context.limit window ≠ some 0) ∧
        ∀ search, request.task = .select search → ∀ (disk : Disk) json seconds,
          ((disk.on (run arguments) : StateM Machine Outcome).run last).1 ≠
            .failed json (.settings (.lifetime seconds)) := by
  refine ⟨fun disk machine after context key value result h => ?_,
    fun machine file runs hnone honly => ?_⟩
  · rcases fails_or_sets disk h with ⟨failure, hfailed, hfails⟩ |
      ⟨before, changed, hload, hset, hwrites⟩
    · exact Or.inl ⟨failure, hfailed, hfails,
        fun place => hfails.spares.texts place List.not_mem_nil⟩
    · obtain ⟨setting, hkey, hwithout, hvalue⟩ := Settings.set_eq_ok_iff.mp hset
      have hstorable := (Settings.isStorable_of_ends_load hload).of_set hset
      refine Or.inr ⟨before, changed, setting, hload, hkey, hwithout, hvalue,
        fun place hplace => hwrites.texts hplace, ?_⟩
      cases hwrites with
      | cut hfate _ hread =>
        rw [hfate]
        exact ⟨rfl, Files.text?_of_read hread⟩
      | dropped hfate hfiles =>
        rw [hfate]
        exact ⟨⟨_, rfl⟩, hfiles.texts _ List.not_mem_nil⟩
      | written hfate _ hread =>
        rw [hfate]
        exact ⟨⟨_, rfl⟩, Settings.ends_load_of_read hread (Settings.ofText_render hstorable)⟩
  · intro last
    have hnone' : ∀ {P : String → Prop},
        ∀ text ∈ machine.files.text? (Files.placeOf machine.folder file), P text := by
      rw [hnone]
      exact nofun
    obtain ⟨hlater, hsound⟩ : machine.Later last ∧
        last.IsSoundAt (Files.placeOf machine.folder file) :=
      runOnDisks_keeps (fun _ => True) (fun {disk} _ _ _ _ _ hline => isSoundAt_of_run disk hline)
        (fun _ _ => trivial) honly hnone'
    rw [← hlater.folder] at hsound
    refine ⟨fun text htext => ⟨hsound text htext, fun hcuts => ?_⟩,
      fun arguments request hread hfile => ⟨fun context hcontext => ?_, ?_⟩⟩
    · have hreadable := (runOnDisks_keeps Disk.NeverCuts
        (fun hcut hline => isReadableAt_of_run hline hcut) hcuts honly hnone').2
      rw [← hlater.folder] at hreadable
      exact hreadable text htext
    · obtain ⟨hfound, hload⟩ := ends_of_ends_contextOf hcontext
      obtain rfl := Except.ok.inj (ends_unique hfound hfile).1
      have hsettings := Settings.isSound_of_ends_load hload hsound
      exact ⟨hsettings, exists_withConfiguredLifetime hsettings,
        fun window => limit_ne_zero hsettings⟩
    · exact fun search htask disk json seconds =>
        run_select_ne disk hsound hread hfile htask json

/-- A lifetime is taken between blanks, an empty page is refused, and a write that is cut off behind
the second digit of the lifetime leaves a shorter one. -/
theorem sets_one_setting_thrice :
    let cache := Place.root.inside "cache"
    let machine : Machine := {
      environment := [("XDG_CACHE_HOME", "/cache")]
      home := some "/home"
      input := ""
      folder := .root
      files := ⟨[(cache, .folder), (Place.root.inside "model", .file "\x7b\"objects\": []\x7d")]⟩
      clock := fun _ => ⟨10, 0⟩
      ticks := 0
      tokens := fun _ => "a"
      drawn := 0 }
    let context : Context := ⟨false, false, false, "set.toml", .unset⟩
    let after := ((setSetting context "selection.ttl_secs" " 120 " : Act String).run.run machine).2
    let full : Disk := ⟨fun _ _ => .cut 47 (.other "No space left on device (os error 28)")⟩
    let line (key value : String) := ["--config", "set.toml", "config", "set", key, value]
    let runs := [(Disk.sound, line "selection.ttl_secs" " 120 "),
      (Disk.sound, line "selection.page_size" "0"), (full, line "log.level" "INFO")]
    let last := runOnDisks machine runs
    let arguments := ["--config", "set.toml", "select", "Part|NAME|IS_EQUAL|x", "--model", "model"]
    let text := "version = 1\n\n[model]\n\n[selection]\nttl_secs = 12"
    let settings : Settings := ⟨none, none, some 12, none, none, none⟩
    (∃ changed, Ends (Settings.load "set.toml") after (.ok changed) after ∧
      changed.lifetime = some 120 ∧ changed.without .lifetime = .unset) ∧
    last.files.text? (Place.root.inside "set.toml") = some text ∧
    Settings.ofText text = .ok settings ∧ settings.IsSound ∧
    ((run arguments : StateM Machine Outcome).run last).1 = .done "No matching objects.\n" ∧
    ∀ json seconds, ((run arguments : StateM Machine Outcome).run last).1 ≠
      .failed json (.settings (.lifetime seconds)) := by
  intro cache machine context after full line runs last arguments text settings
  obtain ⟨hedit, hedits⟩ := sets_one_setting
  refine ⟨?_, ?_⟩
  · have hset : ((setSetting context "selection.ttl_secs" " 120 " : Act String).run.run machine).1 =
        .ok "Set selection.ttl_secs =  120 \n" := by decide +kernel
    have hunset : ((Settings.load "set.toml" : Act Settings).run.run machine).1 = .ok .unset := by
      decide +kernel
    have hnumber : Number.int64? (Text.trim " 120 ".toList) = some 120 := by decide +kernel
    rcases hedit Disk.sound machine after context "selection.ttl_secs" " 120 " _
        (ends_iff.mpr ⟨rfl, rfl⟩) with
      ⟨_, he, -⟩ | ⟨before, changed, setting, hbefore, hkey, hwithout, hvalue, -, -, hload⟩
    · cases hset.symm.trans he
    obtain rfl := Except.ok.inj ((ends_iff.mp hbefore).1.trans hunset)
    have hfound : Setting.ofKey? setting.key = some .lifetime := hkey ▸ Setting.ofKey?_key .lifetime
    obtain rfl := Option.some.inj ((Setting.ofKey?_key setting).symm.trans hfound)
    obtain ⟨seconds, hseconds, -, -, hlifetime⟩ := hvalue
    obtain rfl := Option.some.inj (hnumber.symm.trans hseconds)
    exact ⟨changed, hload, hlifetime, hwithout⟩
  · let request (task : Task) : Request := ⟨false, false, false, false, some "set.toml", task⟩
    let search : Search := ⟨.filter "Part|NAME|IS_EQUAL|x", some "model", none, ⟨none, 0, false⟩⟩
    have honly : ∀ key value, read (machine.environment.lookup "BIMQ_CONFIG") (line key value) =
        .ok (request (.setSetting key value)) → OnlySets machine (line key value) := by
      intro key value hline found hfound
      rw [← Except.ok.inj (hline.symm.trans hfound)]
      exact ⟨key, value, rfl⟩
    have hruns : ∀ step ∈ runs, OnlySets machine step.2 :=
      List.forall_mem_cons.mpr ⟨honly _ _ (by decide +kernel), List.forall_mem_cons.mpr
        ⟨honly _ _ (by decide +kernel), List.forall_mem_singleton.mpr
          (honly _ _ (by decide +kernel))⟩⟩
    have hread : read (last.environment.lookup "BIMQ_CONFIG") arguments =
        .ok (request (.select search)) := by decide +kernel
    have htext : last.files.text? (Place.root.inside "set.toml") = some text := by decide +kernel
    have hsettings : Settings.ofText text = .ok settings := by decide +kernel
    have hdone : ((run arguments : StateM Machine Outcome).run last).1 =
        .done "No matching objects.\n" := by decide +kernel
    have hplace : Files.placeOf last.folder "set.toml" = Place.root.inside "set.toml" := by
      decide +kernel
    obtain ⟨hsound, hlast⟩ := hedits machine "set.toml" runs (by decide +kernel) hruns
    have hranges := (hsound text (hplace ▸ htext)).1 settings hsettings
    have hnever := (hlast arguments _ hread (ends_pure_iff.mpr ⟨rfl, rfl⟩)).2 search rfl Disk.sound
    exact ⟨htext, hsettings, hranges, hdone, hnever⟩

/-- Whether to set a setting fails and leaves the file of the settings as it is, or afterwards the
settings are loaded with this one replaced by what the value says. -/
def SetsOrSpares (disk : Disk) (machine : Machine) (context : Context) (key value : String) :
    Prop :=
  ∀ result after, Ends (disk.on (setSetting context key value)) machine result after →
    (∃ failure, result = .error failure) ∧
        after.files.text? (Files.placeOf machine.folder context.file) =
          machine.files.text? (Files.placeOf machine.folder context.file) ∨
      ∃ before changed setting, Ends (Settings.load context.file) machine (.ok before) machine ∧
        Ends (Settings.load context.file) after (.ok changed) after ∧
        setting.key = key ∧ changed.without setting = before.without setting ∧
        changed.Holds value setting

/-- On a disk that writes a text as a whole or does not begin to, nothing is lost. -/
theorem setsOrSpares_of_written {disk : Disk}
    (h : ∀ path text, disk.fate path text = .written ∨
      ∃ fault, disk.fate path text = .refused fault) (key value : String) :
    SetsOrSpares disk machine context key value := by
  intro result after hends
  rcases fails_or_sets disk hends with ⟨failure, hfailed, hfails⟩ |
    ⟨before, changed, hload, hset, hwrites⟩
  · exact Or.inl ⟨⟨failure, hfailed⟩, hfails.spares.texts _ List.not_mem_nil⟩
  obtain ⟨setting, hkey, hwithout, hvalue⟩ := Settings.set_eq_ok_iff.mp hset
  have hstorable := (Settings.isStorable_of_ends_load hload).of_set hset
  cases hwrites with
  | cut hfate | dropped hfate =>
    rcases h context.file changed.render with hother | ⟨_, hother⟩ <;> cases hfate.symm.trans hother
  | written _ _ hread =>
    exact Or.inr ⟨before, changed, setting, hload,
      Settings.ends_load_of_read hread (Settings.ofText_render hstorable), hkey, hwithout, hvalue⟩

/-- A disk that is full takes the old settings away, and a device that keeps nothing has none of the
new ones although all went well. -/
theorem lost_unless_written :
    let settings : Settings := ⟨none, none, some 600, none, none, none⟩
    let devices := Place.root.inside "dev"
    let machine : Machine := {
      environment := []
      home := some "/home"
      input := ""
      folder := .root
      files := ⟨[(devices, .folder), (devices.inside "null", .file ""),
        (Place.root.inside "set.toml", .file settings.render)]⟩
      clock := fun _ => ⟨10, 0⟩
      ticks := 0
      tokens := fun _ => "a"
      drawn := 0 }
    let context (file : String) : Context := ⟨false, false, false, file, .unset⟩
    let full : Disk := ⟨fun _ _ => .cut 0 (.other "No space left on device (os error 28)")⟩
    let device : Disk := ⟨fun path _ => if path = "/dev/null" then .dropped else .written⟩
    ¬ SetsOrSpares full machine (context "set.toml") "log.level" "info" ∧
      ¬ SetsOrSpares device machine (context "/dev/null") "selection.page_size" "5" := by
  intro settings devices machine context full device
  refine ⟨?_, ?_⟩
  · let after := ((full.on (setSetting (context "set.toml") "log.level" "info") :
      Act String).run.run machine).2
    have hbefore : machine.files.text? (Place.root.inside "set.toml") = some settings.render := by
      decide +kernel
    have hlost : after.files.text? (Place.root.inside "set.toml") = some "" := by decide +kernel
    have hunset : ((Settings.load "set.toml" : Act Settings).run.run after).1 = .ok .unset := by
      decide +kernel
    have hplace : Files.placeOf machine.folder "set.toml" = Place.root.inside "set.toml" := by
      decide +kernel
    intro hsets
    rcases hsets _ after (ends_iff.mpr ⟨rfl, rfl⟩) with
      ⟨-, hsame⟩ | ⟨_, changed, setting, -, hload, -, -, hvalue⟩
    · have hsame : some "" = some settings.render := by
        rw [← hlost, ← hbefore, ← hplace]
        exact hsame
      exact absurd hsame (by decide +kernel)
    · obtain rfl := Except.ok.inj ((ends_iff.mp hload).1.trans hunset)
      exact Settings.not_holds_unset _ _ hvalue
  · let ran := (device.on (setSetting (context "/dev/null") "selection.page_size" "5") :
      Act String).run.run machine
    have hdone : ran.1 = .ok "Set selection.page_size = 5\n" := by decide +kernel
    have hunset : ((Settings.load "/dev/null" : Act Settings).run.run ran.2).1 = .ok .unset := by
      decide +kernel
    intro hsets
    rcases hsets ran.1 ran.2 (ends_iff.mpr ⟨rfl, rfl⟩) with
      ⟨⟨_, hfailed⟩, -⟩ | ⟨_, changed, setting, -, hload, -, -, hvalue⟩
    · cases hdone.symm.trans hfailed
    · obtain rfl := Except.ok.inj ((ends_iff.mp hload).1.trans hunset)
      exact Settings.not_holds_unset _ _ hvalue

end Command

end ModelQuery
