import ModelQuery.Proofs.Machine.Disk
import ModelQuery.Proofs.Machine.Files
import ModelQuery.Proofs.Selection.Documented

/-! Storing selections and settings on a machine. To save is to change one file, or none. Before the
file of the selections is changed, its draft is, which is another one. -/

namespace ModelQuery

open Act

variable {machine after : Machine}

/-! ### Changes of files -/

theorem ends_makeFolders {blame : FileFault → Failure} {path : String}
    {result : Except Failure Unit}
    (h : Ends (Command.attempt blame (Host.makeFolders path)) machine result after) :
    ∃ files, after = { machine with files } ∧ Files.Spares [] machine.files files :=
  ⟨_, (ends_attempt_iff.mp h).2, Files.spares_makeFolders _ _ _⟩

/-- What goes wrong with the files leaves them as they are. -/
theorem ends_change {blame : FileFault → Failure} {result : Except Failure Unit}
    (change : Machine → Files → Except FileFault Files)
    (h : Ends (Command.attempt blame fun machine => Machine.change (change machine) machine)
      machine result after) :
    (∃ failure, result = .error failure ∧ after = machine) ∨
      ∃ files, result = .ok () ∧ after = { machine with files } ∧
        change machine machine.files = .ok files := by
  obtain ⟨hresult, hafter⟩ := ends_attempt_iff.mp h
  simp only [StateT.run, Machine.change] at hresult hafter
  cases hchange : change machine machine.files with
  | error fault =>
    rw [hchange] at hresult hafter
    exact Or.inl ⟨blame fault, hresult, hafter⟩
  | ok files =>
    rw [hchange] at hresult hafter
    exact Or.inr ⟨files, hresult, hafter, rfl⟩

theorem ends_change_ok_iff {blame : FileFault → Failure}
    (change : Machine → Files → Except FileFault Files) :
    Ends (Command.attempt blame fun machine => Machine.change (change machine) machine)
        machine (.ok ()) after ↔
      ∃ files, change machine machine.files = .ok files ∧ after = { machine with files } := by
  constructor
  · intro h
    rcases ends_change change h with ⟨_, he, -⟩ | ⟨files, -, hafter, hfiles⟩
    · cases he
    · exact ⟨files, hfiles, hafter⟩
  · rintro ⟨files, hfiles, rfl⟩
    rw [ends_attempt_ok_iff]
    simp only [StateT.run, Machine.change, hfiles, and_self]

theorem ends_write_ok_iff {blame : FileFault → Failure} {path text : String} :
    Ends (Command.attempt blame (Host.write path text)) machine (.ok ()) after ↔
      ∃ files, machine.files.write machine.folder path text = .ok files ∧
        after = { machine with files } :=
  ends_change_ok_iff fun machine files => files.write machine.folder path text

theorem ends_rename_ok_iff {blame : FileFault → Failure} {path target : String} :
    Ends (Command.attempt blame (Host.rename path target)) machine (.ok ()) after ↔
      ∃ files, machine.files.rename machine.folder path target = .ok files ∧
        after = { machine with files } :=
  ends_change_ok_iff fun machine files => files.rename machine.folder path target

theorem Path.exists_child_eq (folder : String) :
    ∃ front, ∀ name, Path.child folder name = front ++ name := by
  unfold Path.child
  split
  · exact ⟨folder, fun _ => rfl⟩
  · exact ⟨folder ++ "/", fun _ => rfl⟩

theorem Command.run_home? (machine : Machine) :
    (Command.home? : StateM Machine (Option String)).run machine =
      (((machine.environment.lookup "HOME").filter fun home => !home.isEmpty).or machine.home,
        machine) := by
  rw [home?, Machine.run_bind, Machine.run_environment?]
  dsimp only
  cases (machine.environment.lookup "HOME").filter fun home : String => !home.isEmpty <;> rfl

theorem Command.quiet_home? : Quiet (ExceptT.lift Command.home?) :=
  quiet_lift fun machine => congrArg Prod.snd (Command.run_home? machine)

theorem Command.settled_home? : Settled (ExceptT.lift Command.home?) :=
  settled_lift fun hlater => by rw [Command.run_home?, Command.run_home?, hlater.same]

theorem Command.settled_environment? (name : String) :
    Settled (ExceptT.lift (Host.environment? name)) :=
  settled_lift fun hlater => by
    rw [Machine.run_environment?, Machine.run_environment?, hlater.same]

/-! ### Selections -/

namespace Store

theorem quiet_find : Quiet (find : Act Store) := by
  unfold find
  refine quiet_bind Command.quiet_home? fun home => ?_
  cases home with
  | none => exact quiet_throw _
  | some home => exact quiet_bind (quiet_lift fun _ => rfl) fun _ => quiet_pure _

theorem settled_find : Settled (find : Act Store) := by
  unfold find
  refine settled_bind Command.quiet_home? Command.settled_home? fun home => ?_
  cases home with
  | none => exact settled_throw _
  | some home =>
    exact settled_bind (quiet_lift fun _ => rfl) (Command.settled_environment? _)
      fun _ => settled_pure _

theorem quiet_load (store : Store) : Quiet (store.load : Act Selections) := by
  unfold load
  refine quiet_bind (quiet_lift fun _ => rfl) fun outcome => ?_
  split
  · exact fun _ => rfl
  · exact quiet_pure _
  · exact quiet_throw _

/-- Where the file and its draft are. -/
def places (store : Store) (folder : Place) : List Place :=
  [Files.placeOf folder store.file, Files.placeOf folder store.draft]

theorem exists_inFolder_eq {store : Store} (h : Ends find machine (.ok store) after) :
    ∃ caches, store = inFolder caches := by
  unfold find at h
  rcases ends_bind_iff.mp h with ⟨_, he, -⟩ | ⟨home, _, -, h⟩
  · cases he
  · cases home with
    | none => cases (ends_throw_iff.mp h).1
    | some home =>
      rcases ends_bind_iff.mp h with ⟨_, he, -⟩ | ⟨caches, _, -, h⟩
      · cases he
      · exact ⟨_, Except.ok.inj (ends_pure_iff.mp h).1⟩

theorem placeOf_file_ne_placeOf_draft {store : Store} (h : Ends find machine (.ok store) after)
    (folder : Place) : Files.placeOf folder store.file ≠ Files.placeOf folder store.draft := by
  obtain ⟨caches, rfl⟩ := exists_inFolder_eq h
  obtain ⟨front, hfront⟩ := Path.exists_child_eq (Path.child caches "bimq")
  have hfile : (inFolder caches).file = front ++ "selections.json" := hfront _
  have hdraft : (inFolder caches).draft = front ++ "selections.tmp" := hfront _
  obtain ⟨first, around, hf⟩ :=
    Files.names_placeOf_append folder front "selections.json" (by decide) (by decide)
  obtain ⟨second, other, hd⟩ :=
    Files.names_placeOf_append folder front "selections.tmp" (by decide) (by decide)
  intro he
  rw [hfile, hdraft] at he
  rw [he, hd, List.cons.injEq] at hf
  have hlast := congrArg (fun s => s.toList.getLast?) hf.1
  simp at hlast

theorem ends_load {store : Store} {selections : Selections}
    (h : Ends store.load machine (.ok selections) after) :
    (∃ text, machine.files.read machine.folder store.file = .ok text ∧
        Selections.ofText? text = some selections) ∨
      machine.files.read machine.folder store.file = .error .notFound ∧ selections = .empty := by
  unfold load at h
  rcases ends_bind_iff.mp h with ⟨_, he, -⟩ | ⟨outcome, between, hread, h⟩
  · cases he
  · obtain rfl : outcome = machine.files.read machine.folder store.file :=
      Except.ok.inj (ends_lift_iff.mp hread).1
    split at h
    · next text htext =>
      refine Or.inl ⟨text, htext, ?_⟩
      have hr := (ends_mk_pure_iff.mp h).1
      unfold ofText at hr
      split at hr
      · next found hfound => rwa [Except.ok.inj hr]
      · cases hr
    · next hmissing => exact Or.inr ⟨hmissing, Except.ok.inj (ends_pure_iff.mp h).1⟩
    · cases (ends_throw_iff.mp h).1

theorem isStorable_of_ends_load {store : Store} {selections : Selections}
    (h : Ends store.load machine (.ok selections) after) : selections.IsStorable := by
  rcases ends_load h with ⟨text, -, htext⟩ | ⟨-, rfl⟩
  · exact Selections.isStorable_of_ofText? htext
  · exact Selections.isStorable_empty

/-- Selections that are not saved may be in the draft, but not in the file. -/
theorem ends_save {store : Store} {selections : Selections} {result : Except Failure Unit}
    (h : Ends (store.save selections) machine result after) :
    ∃ files, after = { machine with files } ∧
      ((∃ failure, result = .error failure) ∧
          Files.Spares [Files.placeOf machine.folder store.draft] machine.files files ∨
        result = .ok () ∧ Files.Spares (store.places machine.folder) machine.files files ∧
          files.read machine.folder store.file = .ok selections.render) := by
  unfold save at h
  rcases ends_bind_iff.mp h with ⟨failure, hr, hmake⟩ | ⟨_, _, hmake, h⟩
  · obtain ⟨files, rfl, hfiles⟩ := ends_makeFolders hmake
    exact ⟨files, rfl, Or.inl ⟨⟨failure, hr⟩, hfiles.mono (List.nil_subset _)⟩⟩
  obtain ⟨made, rfl, hmade⟩ := ends_makeFolders hmake
  have hmade := hmade.mono (List.nil_subset [Files.placeOf machine.folder store.draft])
  rcases ends_bind_iff.mp h with ⟨failure, hr, hwrite⟩ | ⟨_, _, hwrite, h⟩
  all_goals rcases ends_change (fun machine files =>
    files.write machine.folder store.draft selections.render) hwrite with
      ⟨_, he, rfl⟩ | ⟨written, he, rfl, hwritten⟩
  · exact ⟨made, rfl, Or.inl ⟨⟨failure, hr⟩, hmade⟩⟩
  · cases he
  · cases he
  have hspares := hmade.trans (Files.spares_write hwritten)
  rcases ends_change (fun machine files => files.rename machine.folder store.draft store.file) h
    with ⟨failure, hr, rfl⟩ | ⟨files, hr, rfl, hfiles⟩
  · exact ⟨written, rfl, Or.inl ⟨⟨failure, hr⟩, hspares⟩⟩
  · obtain ⟨hrenamed, text, htext, hread⟩ := Files.rename_eq_ok hfiles
    obtain rfl : text = selections.render :=
      Option.some.inj (htext.symm.trans (Files.text?_write hwritten))
    refine ⟨files, rfl, Or.inr ⟨hr, (hspares.mono ?_).trans hrenamed, hread⟩⟩
    exact List.subset_cons_self _ _

theorem read_of_save {store : Store} {selections : Selections}
    (h : Ends (store.save selections) machine (.ok ()) after) :
    after.files.read after.folder store.file = .ok selections.render := by
  obtain ⟨files, rfl, ⟨⟨_, he⟩, -⟩ | ⟨-, -, hread⟩⟩ := ends_save h
  · cases he
  · exact hread

/-- Selections are loaded as they were saved. -/
theorem ends_load_of_save {store : Store} {selections : Selections}
    (hstorable : selections.IsStorable)
    (h : Ends (store.save selections) machine (.ok ()) after) :
    Ends store.load after (.ok selections) after := by
  have hread : (Host.read store.file : StateM Machine _).run after =
      (.ok selections.render, after) := congrArg (·, after) (read_of_save h)
  rw [load, ends_lift_bind_iff, hread]
  refine ends_mk_pure_iff.mpr ⟨?_, rfl⟩
  rw [ofText, Selections.ofText?_render hstorable]

/-- Whether selections can be saved is up to the files and not to the selections. -/
theorem exists_ends_save {store : Store} {others : Selections} (selections : Selections)
    (h : Ends (store.save others) machine (.ok ()) after) :
    ∃ after, Ends (store.save selections) machine (.ok ()) after := by
  rcases ends_bind_iff.mp h with ⟨_, he, -⟩ | ⟨_, made, hmake, h⟩
  · cases he
  rcases ends_bind_iff.mp h with ⟨_, he, -⟩ | ⟨_, _, hwrite, hrename⟩
  · cases he
  obtain ⟨written, hwritten, rfl⟩ := ends_write_ok_iff.mp hwrite
  obtain ⟨_, hrenamed, -⟩ := ends_rename_ok_iff.mp hrename
  obtain ⟨hlocate, hslash, hfolder, rfl⟩ := Files.write_eq_ok_iff.mp hwritten
  have halike := Files.alike_put made.files others.render selections.render
    (Files.ne_root_of_content? hfolder)
  have hwritten : made.files.write made.folder store.draft selections.render = .ok _ :=
    Files.write_eq_ok_iff.mpr ⟨hlocate, hslash, hfolder, rfl⟩
  obtain ⟨files, hrenamed⟩ := halike.exists_rename hrenamed
  refine ⟨{ made with files }, hmake.bind ?_⟩
  exact Ends.bind (ends_write_ok_iff.mpr ⟨_, hwritten, rfl⟩)
    (ends_rename_ok_iff.mpr ⟨files, hrenamed, rfl⟩)

end Store

/-! ### Settings -/

namespace Settings

theorem quiet_findFile (named : Option String) : Quiet (findFile named : Act String) := by
  unfold findFile
  split
  · exact quiet_pure _
  · refine quiet_bind (quiet_lift fun _ => rfl) fun folder => ?_
    cases folder with
    | some folder => exact quiet_bind (quiet_pure _) fun _ => quiet_pure _
    | none =>
      refine quiet_bind Command.quiet_home? fun home => ?_
      cases home with
      | some home => exact quiet_bind (quiet_pure _) fun _ => quiet_pure _
      | none => exact quiet_bind (quiet_throw _) fun _ => quiet_pure _

theorem settled_findFile (named : Option String) : Settled (findFile named : Act String) := by
  unfold findFile
  split
  · exact settled_pure _
  · refine settled_bind (quiet_lift fun _ => rfl) (Command.settled_environment? _) fun folder => ?_
    cases folder with
    | some folder => exact settled_bind (quiet_pure _) (settled_pure _) fun _ => settled_pure _
    | none =>
      refine settled_bind Command.quiet_home? Command.settled_home? fun home => ?_
      cases home with
      | some home => exact settled_bind (quiet_pure _) (settled_pure _) fun _ => settled_pure _
      | none => exact settled_bind (quiet_throw _) (settled_throw _) fun _ => settled_pure _

theorem quiet_load (file : String) : Quiet (load file : Act Settings) := by
  unfold load
  refine quiet_bind (quiet_lift fun _ => rfl) fun isThere => ?_
  split
  · exact quiet_pure _
  · refine quiet_bind (quiet_attempt _ fun _ => rfl) fun text => ?_
    split
    · exact quiet_pure _
    · exact quiet_throw _

theorem ends_load {file : String} {settings : Settings}
    (h : Ends (load file) machine (.ok settings) after) :
    (∃ text, machine.files.read machine.folder file = .ok text ∧ ofText text = .ok settings) ∨
      settings = .unset := by
  unfold load at h
  rw [ends_lift_bind_iff] at h
  split at h
  · exact Or.inr (Except.ok.inj (ends_pure_iff.mp h).1)
  rcases ends_bind_iff.mp h with ⟨_, he, -⟩ | ⟨text, _, hread, h⟩
  · cases he
  split at h
  · next found hfound =>
    obtain rfl := Except.ok.inj (ends_pure_iff.mp h).1
    exact Or.inl ⟨text, (ends_attempt_ok_iff.mp hread).1, hfound⟩
  · cases (ends_throw_iff.mp h).1

theorem ends_load_of_read {file text : String} {settings : Settings}
    (hread : machine.files.read machine.folder file = .ok text)
    (htext : ofText text = .ok settings) : Ends (load file) machine (.ok settings) machine := by
  have hthere : ((Host.isThere file : StateM Machine Bool).run machine).1 = true :=
    Files.isThere_of_read hread
  rw [load, ends_lift_bind_iff, hthere]
  refine Ends.bind (ends_attempt_ok_iff.mpr ⟨hread, rfl⟩) ?_
  rw [htext]
  exact ends_pure_iff.mpr ⟨rfl, rfl⟩

/-- What becomes of the files when settings are saved on a disk. -/
inductive Saves (disk : Disk) (machine : Machine) (file : String) (settings : Settings) :
    Except Failure Unit → Files → Prop
  | unsaved {failure : Failure} {files : Files} (hfiles : Files.Spares [] machine.files files) :
      Saves disk machine file settings (.error failure) files
  | cut {length : Nat} {fault : FileFault} {files : Files}
      (hfate : disk.fate file settings.render = .cut length fault)
      (hfiles : Files.Spares [Files.placeOf machine.folder file] machine.files files)
      (hread : files.read machine.folder file = .ok (Disk.front length settings.render)) :
      Saves disk machine file settings (.error (.settings (.unwritable fault))) files
  | dropped {files : Files} (hfate : disk.fate file settings.render = .dropped)
      (hfiles : Files.Spares [] machine.files files) :
      Saves disk machine file settings (.ok ()) files
  | saved {files : Files} (hfate : disk.fate file settings.render = .written)
      (hfiles : Files.Spares [Files.placeOf machine.folder file] machine.files files)
      (hread : files.read machine.folder file = .ok settings.render) :
      Saves disk machine file settings (.ok ()) files

/-- Folders that are made before settings are saved change no file. -/
theorem Saves.of_made {disk : Disk} {made files : Files} {file : String} {settings : Settings}
    {result : Except Failure Unit} (hmade : Files.Spares [] machine.files made)
    (h : Saves disk { machine with files := made } file settings result files) :
    Saves disk machine file settings result files := by
  have hmade' := hmade.mono (List.nil_subset [Files.placeOf machine.folder file])
  cases h with
  | unsaved hfiles => exact .unsaved (hmade.trans hfiles)
  | cut hfate hfiles hread => exact .cut hfate (hmade'.trans hfiles) hread
  | dropped hfate hfiles => exact .dropped hfate (hmade.trans hfiles)
  | saved hfate hfiles hread => exact .saved hfate (hmade'.trans hfiles) hread

theorem saves_of_write {disk : Disk} {file : String} {settings : Settings}
    {result : Except Failure Unit}
    (h : Ends (Command.attempt (.settings <| .unwritable ·) (disk.write file settings.render))
      machine result after) :
    ∃ files, after = { machine with files } ∧ Saves disk machine file settings result files := by
  obtain ⟨put, rfl, hputs⟩ := Disk.puts_of_ends h
  cases hputs with
  | stopped fault => exact ⟨_, rfl, .unsaved (.refl _ _)⟩
  | cut hfate hfiles =>
    exact ⟨_, rfl, .cut hfate (Files.spares_write hfiles) (Files.read_of_write hfiles)⟩
  | dropped hfate => exact ⟨_, rfl, .dropped hfate (.refl _ _)⟩
  | written hfate hfiles =>
    exact ⟨_, rfl, .saved hfate (Files.spares_write hfiles) (Files.read_of_write hfiles)⟩

theorem saves_of_ends (disk : Disk) {file : String} {settings : Settings}
    {result : Except Failure Unit} (h : Ends (disk.on (settings.save file)) machine result after) :
    ∃ files, after = { machine with files } ∧ Saves disk machine file settings result files := by
  unfold Disk.on save at h
  split at h
  · rcases ends_bind_iff.mp h with ⟨failure, rfl, hmake⟩ | ⟨_, _, hmake, h⟩
    all_goals obtain ⟨made, rfl, hmade⟩ := ends_makeFolders hmake
    · exact ⟨made, rfl, .unsaved hmade⟩
    · obtain ⟨files, rfl, hfiles⟩ := saves_of_write h
      exact ⟨files, rfl, hfiles.of_made hmade⟩
  · exact saves_of_write h

/-- On a disk that does not fail, settings that are not saved leave all files as they were. -/
theorem ends_save {file : String} {settings : Settings} {result : Except Failure Unit}
    (h : Ends (settings.save file) machine result after) :
    ∃ files, after = { machine with files } ∧
      ((∃ failure, result = .error failure) ∧ Files.Spares [] machine.files files ∨
        result = .ok () ∧ Files.Spares [Files.placeOf machine.folder file] machine.files files) := by
  obtain ⟨files, rfl, hfiles⟩ := saves_of_ends Disk.sound h
  cases hfiles with
  | unsaved hfiles => exact ⟨files, rfl, Or.inl ⟨⟨_, rfl⟩, hfiles⟩⟩
  | saved _ hfiles => exact ⟨files, rfl, Or.inr ⟨rfl, hfiles⟩⟩
  | cut hfate | dropped hfate => cases hfate

end Settings

end ModelQuery
