import ModelQuery.Machine.Files
import ModelQuery.Proofs.Outcome
import ModelQuery.Proofs.Text.Cutting

/-! What is done to files in memory. Where a path leads can be told from its names alone, and all
that changes a file changes it where its path leads. -/

namespace ModelQuery.Files

/-! ### Where paths lead -/

/-- Where a name leads, if it leads anywhere. -/
def lead (place : Place) (name : String) : Place :=
  if name = "" ∨ name = "." then place
  else if name = ".." then place.around
  else place.inside name

/-- Where a path leads, if it leads anywhere. -/
def placeOf (folder : Place) (path : String) : Place :=
  (names path).foldl lead (start folder path)

theorem eq_lead_of_enter {place next : Place} {name : String} (h : enter place name = .ok next) :
    next = lead place name := by
  unfold enter at h
  unfold lead
  split at h
  · next hidle =>
    rw [if_pos hidle]
    exact (Except.ok.inj h).symm
  · next hidle =>
    rw [if_neg hidle]
    split at h
    · next hup =>
      rw [if_pos hup]
      exact (Except.ok.inj h).symm
    · next hup =>
      rw [if_neg hup]
      split at h
      · cases h
      · exact (Except.ok.inj h).symm

variable {files other : Files} {folder place : Place} {path : String}

theorem step_eq_ok_iff {next : Place} {name : String} :
    files.step place name = .ok next ↔
      files.content? place = some .folder ∧ enter place name = .ok next := by
  unfold step
  cases files.content? place with
  | none => simp
  | some entry => cases entry <;> simp

theorem eq_foldl_of_foldlM {ns : List String} {found : Place}
    (h : ns.foldlM files.step place = .ok found) : found = ns.foldl lead place := by
  induction ns generalizing place with
  | nil => exact (Except.ok.inj h).symm
  | cons name ns ih =>
    rw [List.foldlM_cons] at h
    obtain ⟨next, hstep, h⟩ := bind_eq_ok_iff.mp h
    rw [ih h, List.foldl_cons, eq_lead_of_enter (step_eq_ok_iff.mp hstep).2]

theorem placeOf_of_locate {found : Place} (h : files.locate folder path = .ok found) :
    found = placeOf folder path := by
  obtain ⟨-, -, h⟩ := bind_eq_ok_iff.mp h
  split at h
  · cases h
  · exact eq_foldl_of_foldlM h

theorem read_eq_ok_iff {text : String} : files.read folder path = .ok text ↔
    files.locate folder path = .ok (placeOf folder path) ∧
      files.content? (placeOf folder path) = some (.file text) := by
  unfold read
  cases hlocate : files.locate folder path with
  | error fault => simp
  | ok found =>
    obtain rfl := placeOf_of_locate hlocate
    simp only [ok_bind, true_and]
    cases files.content? (placeOf folder path) with
    | none => simp
    | some entry => cases entry <;> simp

theorem isThere_of_read {text : String} (h : files.read folder path = .ok text) :
    files.isThere folder path = true := by
  obtain ⟨hlocate, hcontent⟩ := read_eq_ok_iff.mp h
  simp [isThere, hlocate, hcontent]

/-! ### What stays -/

/-- The text of the file at a place. -/
def text? (files : Files) (place : Place) : Option String :=
  match files.content? place with
  | some (.file text) => some text
  | _ => none

theorem text?_eq_some_iff {text : String} :
    files.text? place = some text ↔ files.content? place = some (.file text) := by
  unfold text?
  cases files.content? place with
  | none => simp
  | some entry => cases entry <;> simp

theorem text?_of_read {text : String} (h : files.read folder path = .ok text) :
    files.text? (placeOf folder path) = some text :=
  text?_eq_some_iff.mpr (read_eq_ok_iff.mp h).2

/-- What is done spares all folders, and all files but those at some places. -/
structure Spares (places : List Place) (before after : Files) : Prop where
  folders : ∀ place, before.content? place = some .folder → after.content? place = some .folder
  texts : ∀ place, place ∉ places → after.text? place = before.text? place

namespace Spares

variable {places : List Place} {before after last : Files}

theorem refl (places : List Place) (files : Files) : Spares places files files :=
  ⟨fun _ h => h, fun _ _ => rfl⟩

theorem trans (h : Spares places before after) (h' : Spares places after last) :
    Spares places before last :=
  ⟨fun place hp => h'.folders place (h.folders place hp),
    fun place hp => (h'.texts place hp).trans (h.texts place hp)⟩

theorem mono {more : List Place} (h : Spares places before after) (hsub : places ⊆ more) :
    Spares more before after :=
  ⟨h.folders, fun place hp => h.texts place fun hm => hp (hsub hm)⟩

theorem foldlM_step {ns : List String} {found : Place} (h : Spares places before after)
    (hf : ns.foldlM before.step place = .ok found) : ns.foldlM after.step place = .ok found := by
  induction ns generalizing place with
  | nil => exact hf
  | cons name ns ih =>
    rw [List.foldlM_cons] at hf ⊢
    obtain ⟨next, hstep, hf⟩ := bind_eq_ok_iff.mp hf
    obtain ⟨hfolder, henter⟩ := step_eq_ok_iff.mp hstep
    rw [step_eq_ok_iff.mpr ⟨h.folders place hfolder, henter⟩, ok_bind]
    exact ih hf

theorem locate {found : Place} (h : Spares places before after)
    (hl : before.locate folder path = .ok found) : after.locate folder path = .ok found := by
  obtain ⟨_, haccept, hl⟩ := bind_eq_ok_iff.mp hl
  unfold Files.locate
  rw [haccept, ok_bind]
  split at hl
  · cases hl
  · next hne =>
    rw [if_neg hne]
    exact h.foldlM_step hl

/-- A file that is spared is read as before. -/
theorem read {text : String} (h : Spares places before after) (hp : placeOf folder path ∉ places)
    (hr : before.read folder path = .ok text) : after.read folder path = .ok text := by
  obtain ⟨hlocate, hcontent⟩ := read_eq_ok_iff.mp hr
  refine read_eq_ok_iff.mpr ⟨h.locate hlocate, ?_⟩
  rw [← text?_eq_some_iff, h.texts _ hp, text?_eq_some_iff]
  exact hcontent

end Spares

theorem text?_put (files : Files) (place other : Place) (text : String) (h : place ≠ .root) :
    (files.put place (.file text)).text? other =
      if other = place then some text else files.text? other := by
  unfold text?
  rw [content?_put files place other _ h]
  by_cases ho : other = place <;> simp [ho]

theorem content?_root (files : Files) : files.content? .root = some .folder := by
  rw [content?, if_pos rfl]

theorem ne_root_of_content? (h : files.content? place ≠ some .folder) : place ≠ .root :=
  fun he => h (he ▸ files.content?_root)

theorem lookup_filter_self (place : Place) (entries : List (Place × Entry)) :
    (entries.filter (·.1 ≠ place)).lookup place = none := by
  rw [List.lookup_eq_none_iff]
  intro entry hm
  have hne : entry.1 ≠ place := by simpa using (List.mem_filter.mp hm).2
  exact bne_iff_ne.mpr hne.symm

theorem content?_remove (files : Files) (place other : Place) (h : place ≠ .root) :
    (files.remove place).content? other =
      if other = place then none else files.content? other := by
  by_cases ho : other = place
  · subst ho
    rw [if_pos rfl, content?, if_neg h, remove, lookup_filter_self]
  · by_cases hr : other = .root
    · rw [if_neg ho, hr, content?_root, content?_root]
    · rw [if_neg ho, content?, if_neg hr, content?, if_neg hr, remove, lookup_filter_ne ho]

/-- A text that is put where no folder is. -/
theorem spares_put {text : String} (h : files.content? place ≠ some .folder) :
    Spares [place] files (files.put place (.file text)) := by
  have hroot := ne_root_of_content? h
  refine ⟨fun other hf => ?_, fun other ho => ?_⟩
  · rw [content?_put files place other _ hroot, if_neg, hf]
    rintro rfl
    exact h hf
  · rw [text?_put files place other text hroot, if_neg (by simpa using ho)]

/-- A folder that is put where nothing is. -/
theorem spares_put_folder (h : files.content? place = none) :
    Spares [] files (files.put place .folder) := by
  have hfolder : files.content? place ≠ some .folder := by simp [h]
  have hroot := ne_root_of_content? hfolder
  refine ⟨fun other hf => ?_, fun other _ => ?_⟩
  · rw [content?_put files place other _ hroot, hf, ite_self]
  · unfold text?
    rw [content?_put files place other _ hroot]
    by_cases ho : other = place
    · simp [ho, h]
    · rw [if_neg ho]

theorem spares_remove (h : files.content? place ≠ some .folder) :
    Spares [place] files (files.remove place) := by
  have hroot := ne_root_of_content? h
  refine ⟨fun other hf => ?_, fun other ho => ?_⟩
  · rw [content?_remove files place other hroot, if_neg, hf]
    rintro rfl
    exact h hf
  · have hne : other ≠ place := by simpa using ho
    rw [text?, content?_remove files place other hroot, if_neg hne, text?]

/-! ### What is done -/

theorem spares_makeFrom (files : Files) (place : Place) (begun : Bool) (ns : List String) :
    Spares [] files (files.makeFrom place begun ns).1 := by
  induction ns generalizing files place begun with
  | nil => exact .refl [] files
  | cons name rest ih =>
    unfold makeFrom
    split
    · exact .refl [] files
    · split
      · next hnone => exact (spares_put_folder hnone).trans (ih _ _ _)
      · exact ih _ _ _
      · exact .refl [] files

theorem spares_makeFolders (files : Files) (folder : Place) (path : String) :
    Spares [] files (files.makeFolders folder path).1 := by
  unfold makeFolders
  split
  · exact .refl [] files
  · exact spares_makeFrom _ _ _ _

/-- In a path that ends with a name all names count. -/
theorem namesToWrite_eq (hne : path.isEmpty = false) (hslash : path.endsWith "/" = false) :
    namesToWrite path = names path := by
  have hlast : ∀ name ∈ (names path).reverse.head?, name.isEmpty = false := by
    intro name hname
    rw [List.head?_reverse, names, List.getLast?_map] at hname
    obtain ⟨piece, hpiece, rfl⟩ := Option.map_eq_some_iff.mp hname
    rw [← Bool.not_eq_true, String.isEmpty_iff] at hne ⊢
    rw [String.endsWith_eq_endsWith_toSlice, String.Slice.endsWith_string_eq_false_iff,
      String.copy_toSlice] at hslash
    intro hempty
    obtain rfl : piece = [] := String.ofList_eq_empty_iff.mp hempty
    rcases Text.getLast?_pieces hpiece with hnil | hsuffix
    · exact hne (String.toList_eq_nil_iff.mp hnil)
    · exact hslash hsuffix
  have hkeep : (names path).reverse.dropWhile String.isEmpty = (names path).reverse := by
    cases hnames : (names path).reverse with
    | nil => rfl
    | cons name around =>
      rw [hnames] at hlast
      rw [List.dropWhile_cons, if_neg (by simpa using hlast name rfl)]
  rw [namesToWrite, hslash, hkeep]
  exact List.reverse_reverse _

/-- A text is written where the path leads, if that is no folder and the path does not say so. -/
theorem write_eq_ok_iff {text : String} {after : Files} :
    files.write folder path text = .ok after ↔
      files.locate folder path = .ok (placeOf folder path) ∧ path.endsWith "/" = false ∧
        files.content? (placeOf folder path) ≠ some .folder ∧
        after = files.put (placeOf folder path) (.file text) := by
  constructor
  · intro h
    obtain ⟨_, haccept, h⟩ := bind_eq_ok_iff.mp h
    split at h
    · cases h
    next hne =>
    obtain ⟨place, hplace, h⟩ := bind_eq_ok_iff.mp h
    split at h
    · cases h
    next hfolder =>
    have hslash : path.endsWith "/" = false := by
      rw [← Bool.not_eq_true]
      intro hslash
      -- behind a slash nothing but a folder is found
      rw [namesToWrite, if_pos hslash, List.reverse_cons, List.foldlM_append] at hplace
      obtain ⟨found, -, hplace⟩ := bind_eq_ok_iff.mp hplace
      obtain ⟨next, hstep, hplace⟩ := bind_eq_ok_iff.mp hplace
      obtain ⟨hfound, henter⟩ := step_eq_ok_iff.mp hstep
      obtain rfl : next = place := Except.ok.inj hplace
      rw [eq_lead_of_enter henter] at hfolder
      exact hfolder (by simpa [lead] using hfound)
    have hlocate : files.locate folder path = .ok place := by
      rw [locate, haccept, ok_bind, if_neg hne, ← namesToWrite_eq (by simpa using hne) hslash]
      exact hplace
    obtain rfl := placeOf_of_locate hlocate
    exact ⟨hlocate, hslash, hfolder, (Except.ok.inj h).symm⟩
  · rintro ⟨hlocate, hslash, hfolder, rfl⟩
    obtain ⟨_, haccept, hlocate⟩ := bind_eq_ok_iff.mp hlocate
    split at hlocate
    · cases hlocate
    next hne =>
    rw [write, haccept, ok_bind, if_neg hne, namesToWrite_eq (by simpa using hne) hslash, hlocate,
      ok_bind, if_neg hfolder]
    rfl

theorem spares_write {text : String} {after : Files}
    (h : files.write folder path text = .ok after) :
    Spares [placeOf folder path] files after := by
  obtain ⟨-, -, hfolder, rfl⟩ := write_eq_ok_iff.mp h
  exact spares_put hfolder

theorem text?_write {text : String} {after : Files}
    (h : files.write folder path text = .ok after) :
    after.text? (placeOf folder path) = some text := by
  obtain ⟨-, -, hfolder, rfl⟩ := write_eq_ok_iff.mp h
  rw [text?_put _ _ _ _ (ne_root_of_content? hfolder), if_pos rfl]

/-- What was written is read. -/
theorem read_of_write {text : String} {after : Files}
    (h : files.write folder path text = .ok after) : after.read folder path = .ok text := by
  refine read_eq_ok_iff.mpr ⟨?_, text?_eq_some_iff.mp (text?_write h)⟩
  exact (spares_write h).locate (write_eq_ok_iff.mp h).1

theorem rename_eq_ok_iff {target : String} {after : Files} :
    files.rename folder path target = .ok after ↔
      files.locate folder path = .ok (placeOf folder path) ∧
        files.locate folder target = .ok (placeOf folder target) ∧
        files.content? (placeOf folder target) ≠ some .folder ∧
        ∃ text, files.text? (placeOf folder path) = some text ∧
          after = (files.remove (placeOf folder path)).put (placeOf folder target) (.file text) := by
  constructor
  · intro h
    obtain ⟨source, hsource, h⟩ := bind_eq_ok_iff.mp h
    obtain ⟨found, hfound, h⟩ := bind_eq_ok_iff.mp h
    obtain rfl := placeOf_of_locate hsource
    obtain rfl := placeOf_of_locate hfound
    split at h
    · cases h
    · cases h
    · cases h
    next text htext htarget =>
    exact ⟨hsource, hfound, htarget, text, text?_eq_some_iff.mpr htext, (Except.ok.inj h).symm⟩
  · rintro ⟨hsource, hfound, htarget, text, htext, rfl⟩
    rw [text?_eq_some_iff] at htext
    rw [rename, hsource, ok_bind, hfound, ok_bind, htext]
    cases hcontent : files.content? (placeOf folder target) with
    | none => rfl
    | some entry =>
      cases entry with
      | folder => exact absurd hcontent htarget
      | file => rfl

/-- A file is renamed with all that stands in it. -/
theorem rename_eq_ok {target : String} {after : Files}
    (h : files.rename folder path target = .ok after) :
    Spares [placeOf folder target, placeOf folder path] files after ∧
      ∃ text, files.text? (placeOf folder path) = some text ∧
        after.read folder target = .ok text := by
  obtain ⟨-, hfound, htarget, text, htext, rfl⟩ := rename_eq_ok_iff.mp h
  have hpath : files.content? (placeOf folder path) ≠ some .folder := by
    simp [text?_eq_some_iff.mp htext]
  have hremoved : (files.remove (placeOf folder path)).content? (placeOf folder target) ≠
      some .folder := by
    rw [content?_remove _ _ _ (ne_root_of_content? hpath)]
    split
    · exact nofun
    · exact htarget
  have hspares : Spares [placeOf folder target, placeOf folder path] files
      ((files.remove (placeOf folder path)).put (placeOf folder target) (.file text)) :=
    ((spares_remove hpath).mono (by simp)).trans ((spares_put hremoved).mono (by simp))
  refine ⟨hspares, text, htext, read_eq_ok_iff.mpr ⟨hspares.locate hfound, ?_⟩⟩
  rw [content?_put _ _ _ _ (ne_root_of_content? hremoved), if_pos rfl]

/-! ### What does not depend on texts -/

/-- Whether folders are at the same places, and files are. -/
def Alike (files other : Files) : Prop :=
  ∀ place, files.content? place = other.content? place ∨
    (files.text? place).isSome ∧ (other.text? place).isSome

theorem alike_put (files : Files) (text text' : String) (hroot : place ≠ .root) :
    Alike (files.put place (.file text)) (files.put place (.file text')) := by
  intro other
  rw [text?_put _ _ _ _ hroot, text?_put _ _ _ _ hroot, content?_put _ _ _ _ hroot,
    content?_put _ _ _ _ hroot]
  by_cases ho : other = place <;> simp [ho]

theorem Alike.step_eq (h : Alike files other) : files.step = other.step := by
  funext place name
  rcases h place with he | ⟨hf, ho⟩
  · rw [step, step, he]
  · obtain ⟨text, hf⟩ := Option.isSome_iff_exists.mp hf
    obtain ⟨text', ho⟩ := Option.isSome_iff_exists.mp ho
    rw [step, step, text?_eq_some_iff.mp hf, text?_eq_some_iff.mp ho]

theorem Alike.locate_eq (h : Alike files other) (folder : Place) (path : String) :
    files.locate folder path = other.locate folder path := by
  rw [locate, locate, h.step_eq]

theorem Alike.exists_rename (h : Alike files other) {target : String} {after : Files}
    (hr : files.rename folder path target = .ok after) :
    ∃ after, other.rename folder path target = .ok after := by
  obtain ⟨hsource, hfound, htarget, text, htext, -⟩ := rename_eq_ok_iff.mp hr
  rw [h.locate_eq] at hsource hfound
  have hother : ∃ text, other.text? (placeOf folder path) = some text := by
    rcases h (placeOf folder path) with he | ⟨-, ho⟩
    · exact ⟨text, by rw [text?, ← he]; exact htext⟩
    · exact Option.isSome_iff_exists.mp ho
  have hfolder : other.content? (placeOf folder target) ≠ some .folder := by
    rcases h (placeOf folder target) with he | ⟨-, ho⟩
    · rwa [← he]
    · obtain ⟨text, ho⟩ := Option.isSome_iff_exists.mp ho
      simp [text?_eq_some_iff.mp ho]
  obtain ⟨text, htext⟩ := hother
  exact ⟨_, rename_eq_ok_iff.mpr ⟨hsource, hfound, hfolder, text, htext, rfl⟩⟩

/-! ### Paths of files in one folder -/

theorem pieces_append_of_not_mem {separator : Char} (front : List Char) {name : List Char}
    (h : separator ∉ name) : ∃ before last,
      Text.pieces separator (front ++ name) = before ++ [last ++ name] := by
  induction front using Text.cut_induction separator with
  | whole piece hp => exact ⟨[], piece, by rw [Text.pieces_of_not_mem (by simp [hp, h])]; rfl⟩
  | cut piece rest hp ih =>
    obtain ⟨before, last, ih⟩ := ih
    refine ⟨piece :: before, last, ?_⟩
    rw [List.append_assoc, List.cons_append, Text.pieces_cut hp, ih, List.cons_append]

/-- The last name of a path is the innermost one where it leads. -/
theorem names_placeOf_append (folder : Place) (front name : String)
    (h : '/' ∉ name.toList) (hlong : 2 < name.toList.length) : ∃ last around,
      (placeOf folder (front ++ name)).names = String.ofList (last ++ name.toList) :: around := by
  obtain ⟨before, last, hp⟩ := pieces_append_of_not_mem front.toList h
  have hlead : ∀ place, lead place (String.ofList (last ++ name.toList)) =
      place.inside (String.ofList (last ++ name.toList)) := by
    intro place
    have hne : ∀ short : String, short.toList.length ≤ 2 →
        String.ofList (last ++ name.toList) ≠ short := by
      rintro _ hshort rfl
      simp only [String.toList_ofList, List.length_append] at hshort
      omega
    rw [lead, if_neg (not_or.mpr ⟨hne "" (by decide), hne "." (by decide)⟩),
      if_neg (hne ".." (by decide))]
  have hplace : placeOf folder (front ++ name) = lead ((before.map String.ofList).foldl lead
      (start folder (front ++ name))) (String.ofList (last ++ name.toList)) := by
    rw [placeOf, names, String.toList_append, hp, List.map_append, List.foldl_append]
    rfl
  rw [hplace, hlead]
  exact ⟨last, _, rfl⟩

end ModelQuery.Files
