import ModelQuery.Settings.Basic

/-! Setting a setting. A new value is checked and taken, or it is refused, and no other setting
changes. Settings that came from checked values alone stay in their ranges. -/

namespace ModelQuery.Settings

/-- The settings but for one, which is absent. -/
def without (settings : Settings) : Setting → Settings
  | .model => { settings with model := none }
  | .catalog => { settings with catalog := none }
  | .lifetime => { settings with lifetime := none }
  | .pageSize => { settings with pageSize := none }
  | .color => { settings with color := none }
  | .level => { settings with level := none }

variable {setting : Setting}

theorem lifetime_without (settings : Settings) (hs : setting ≠ .lifetime) :
    (settings.without setting).lifetime = settings.lifetime := by
  cases setting with
  | lifetime => exact absurd rfl hs
  | _ => rfl

theorem pageSize_without (settings : Settings) (hs : setting ≠ .pageSize) :
    (settings.without setting).pageSize = settings.pageSize := by
  cases setting with
  | pageSize => exact absurd rfl hs
  | _ => rfl

theorem level_without (settings : Settings) (hs : setting ≠ .level) :
    (settings.without setting).level = settings.level := by
  cases setting with
  | level => exact absurd rfl hs
  | _ => rfl

/-- The words for a choice. -/
def words (choice : Bool) : List String :=
  if choice then ["true", "yes", "1", "on"] else ["false", "no", "0", "off"]

/-- Whether a setting is what a value says, in its range. -/
def Holds (settings : Settings) (value : String) : Setting → Prop
  | .model => settings.model = some value
  | .catalog => settings.catalog = some value
  | .lifetime => ∃ seconds, Number.int64? (Text.trim value.toList) = some seconds ∧
      1 ≤ seconds ∧ seconds ≤ Selections.maxLifetime ∧ settings.lifetime = some seconds
  | .pageSize => ∃ size, Number.int64? (Text.trim value.toList) = some size ∧
      1 ≤ size ∧ settings.pageSize = some size.toInt.toNat
  | .color => ∃ color, lowercased value ∈ words color ∧ settings.color = some color
  | .level => lowercased value ∈ levels ∧ settings.level = some (lowercased value)

theorem pos_iff_one_le {n : Int64} : 0 < n ↔ 1 ≤ n := by
  rw [Int64.lt_iff_toInt_lt, Int64.le_iff_toInt_le]
  exact Int.lt_iff_add_one_le

theorem positive?_eq_some_iff {value : String} {n : Int64} : positive? value = some n ↔
    Number.int64? (Text.trim value.toList) = some n ∧ 1 ≤ n := by
  rw [positive?, Option.bind_eq_some_iff]
  constructor
  · rintro ⟨m, hm, h⟩
    split at h
    · next hpos =>
      obtain rfl := Option.some.inj h
      exact ⟨hm, pos_iff_one_le.mp hpos⟩
    · cases h
  · rintro ⟨hn, hone⟩
    exact ⟨n, hn, if_pos (pos_iff_one_le.mpr hone)⟩

theorem boolean?_eq_some_iff {value : String} {choice : Bool} :
    boolean? value = some choice ↔ lowercased value ∈ words choice := by
  unfold boolean?
  dsimp only
  split
  · next hyes =>
    cases choice
    · simp only [words]
      refine iff_of_false nofun fun hno => ?_
      have hnone : ∀ word ∈ words true, word ∉ words false := by decide
      exact hnone _ hyes hno
    · exact iff_of_true rfl hyes
  · next hyes =>
    split
    · next hno =>
      cases choice
      · exact iff_of_true rfl hno
      · exact iff_of_false nofun hyes
    · next hno =>
      cases choice
      · exact iff_of_false nofun hno
      · exact iff_of_false nofun hyes

variable {settings changed : Settings} {key value : String}

theorem holds_of_assign (h : settings.assign setting value = .ok changed) :
    changed.without setting = settings.without setting ∧ changed.Holds value setting := by
  cases setting with
  | model | catalog =>
    obtain rfl := Except.ok.inj h
    exact ⟨rfl, rfl⟩
  | lifetime =>
    simp only [assign] at h
    split at h
    · cases h
    next seconds hseconds =>
    obtain ⟨hread, hlow⟩ := positive?_eq_some_iff.mp hseconds
    split at h
    · cases h
    next hhigh =>
    obtain rfl := Except.ok.inj h
    exact ⟨rfl, seconds, hread, hlow, Int64.not_lt.mp hhigh, rfl⟩
  | pageSize =>
    simp only [assign] at h
    split at h
    · cases h
    next size hsize =>
    obtain ⟨hread, hlow⟩ := positive?_eq_some_iff.mp hsize
    obtain rfl := Except.ok.inj h
    exact ⟨rfl, size, hread, hlow, rfl⟩
  | color =>
    simp only [assign] at h
    split at h
    · cases h
    next color hcolor =>
    obtain rfl := Except.ok.inj h
    exact ⟨rfl, color, boolean?_eq_some_iff.mp hcolor, rfl⟩
  | level =>
    simp only [assign] at h
    split at h
    · next hlevel =>
      obtain rfl := Except.ok.inj h
      exact ⟨rfl, hlevel, rfl⟩
    · cases h

/-- Two settings that hold what one value says and agree in the rest are the same. -/
theorem eq_of_without {other : Settings} (h : changed.without setting = other.without setting)
    (hvalue : changed.Holds value setting) (hother : other.Holds value setting) :
    changed = other := by
  obtain ⟨model, catalog, lifetime, pageSize, color, level⟩ := changed
  obtain ⟨model', catalog', lifetime', pageSize', color', level'⟩ := other
  cases setting with
  | color =>
    obtain ⟨choice, hchoice, hcolor⟩ := hvalue
    obtain ⟨other, hother, hcolor'⟩ := hother
    rw [← boolean?_eq_some_iff] at hchoice hother
    have hsame := hchoice.symm.trans hother
    simp_all [without]
  | model | catalog | level => simp_all [without, Holds]
  | lifetime | pageSize =>
    simp only [without, mk.injEq, Holds] at *
    grind

theorem exists_assign (settings : Settings) (h : changed.Holds value setting) :
    ∃ found, settings.assign setting value = .ok found := by
  cases setting with
  | model | catalog => exact ⟨_, rfl⟩
  | lifetime =>
    obtain ⟨seconds, hread, hlow, hhigh, -⟩ := h
    have hseconds := positive?_eq_some_iff.mpr ⟨hread, hlow⟩
    refine ⟨{ settings with lifetime := some seconds }, ?_⟩
    rw [assign, hseconds]
    exact if_neg (Int64.not_lt.mpr hhigh)
  | pageSize =>
    obtain ⟨size, hread, hlow, -⟩ := h
    have hsize := positive?_eq_some_iff.mpr ⟨hread, hlow⟩
    exact ⟨_, by rw [assign, hsize]⟩
  | color =>
    obtain ⟨color, hcolor, -⟩ := h
    have hcolor := boolean?_eq_some_iff.mpr hcolor
    exact ⟨_, by rw [assign, hcolor]⟩
  | level => exact ⟨_, if_pos h.1⟩

/-- A value is taken exactly if it says what the setting can hold, and nothing else changes. -/
theorem assign_eq_ok_iff : settings.assign setting value = .ok changed ↔
    changed.without setting = settings.without setting ∧ changed.Holds value setting := by
  refine ⟨holds_of_assign, fun ⟨hwithout, hvalue⟩ => ?_⟩
  obtain ⟨found, hfound⟩ := exists_assign settings hvalue
  obtain ⟨hwithout', hvalue'⟩ := holds_of_assign hfound
  rw [hfound, eq_of_without (hwithout.trans hwithout'.symm) hvalue hvalue']

theorem set_eq_ok_iff : settings.set key value = .ok changed ↔
    ∃ setting, setting.key = key ∧ changed.without setting = settings.without setting ∧
      changed.Holds value setting := by
  unfold set
  constructor
  · intro h
    split at h
    · next setting hsetting =>
      have hkey : setting.key = key := by simpa using List.find?_some hsetting
      exact ⟨setting, hkey, assign_eq_ok_iff.mp h⟩
    · cases h
  · rintro ⟨setting, rfl, h⟩
    rw [Setting.ofKey?_key]
    exact assign_eq_ok_iff.mpr h

theorem not_holds_unset (setting : Setting) (value : String) : ¬ unset.Holds value setting := by
  intro h
  cases setting with
  | model | catalog => cases h
  | lifetime =>
    obtain ⟨_, -, -, -, h⟩ := h
    cases h
  | pageSize =>
    obtain ⟨_, -, -, h⟩ := h
    cases h
  | color =>
    obtain ⟨_, -, h⟩ := h
    cases h
  | level => cases h.2

/-- No settings hold what a refused value says. -/
theorem not_holds_of_set_eq_error {refusal : Refusal} (h : settings.set key value = .error refusal)
    (hkey : setting.key = key) : ¬ changed.Holds value setting := by
  subst hkey
  rw [set, Setting.ofKey?_key] at h
  intro hvalue
  obtain ⟨found, hfound⟩ := exists_assign settings hvalue
  cases h.symm.trans hfound

/-! ### Ranges -/

/-- Settings in their ranges. -/
structure IsSound (settings : Settings) : Prop where
  lifetime : ∀ seconds ∈ settings.lifetime, 1 ≤ seconds ∧ seconds ≤ Selections.maxLifetime
  pageSize : ∀ size ∈ settings.pageSize, 1 ≤ size
  level : ∀ level ∈ settings.level, level ∈ levels

theorem isSound_unset : unset.IsSound := ⟨nofun, nofun, nofun⟩

/-- A setting that holds what a value says is in its range, whatever it was before. -/
theorem IsSound.of_set (h : settings.IsSound) (hset : settings.set key value = .ok changed) :
    changed.IsSound := by
  obtain ⟨setting, -, hwithout, hvalue⟩ := set_eq_ok_iff.mp hset
  refine ⟨?_, ?_, ?_⟩
  · by_cases hs : setting = .lifetime
    · subst hs
      obtain ⟨seconds, -, hlow, hhigh, hlifetime⟩ := hvalue
      rw [hlifetime]
      rintro _ ⟨⟩
      exact ⟨hlow, hhigh⟩
    · rw [← lifetime_without changed hs, hwithout, lifetime_without settings hs]
      exact h.lifetime
  · by_cases hs : setting = .pageSize
    · subst hs
      obtain ⟨size, -, hlow, hsize⟩ := hvalue
      rw [hsize]
      rintro _ ⟨⟩
      have hone : (1 : Int64).toInt ≤ size.toInt := Int64.le_iff_toInt_le.mp hlow
      have hto : (1 : Int64).toInt = 1 := by decide
      omega
    · rw [← pageSize_without changed hs, hwithout, pageSize_without settings hs]
      exact h.pageSize
  · by_cases hs : setting = .level
    · subst hs
      obtain ⟨hlevel, hl⟩ := hvalue
      rw [hl]
      rintro _ ⟨⟩
      exact hlevel
    · rw [← level_without changed hs, hwithout, level_without settings hs]
      exact h.level

end ModelQuery.Settings
