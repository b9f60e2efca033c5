import ModelQuery.Proofs.Command.Keeping

/-! How long a new selection lives. Settings that ask for a lifetime give it to the new selection and
leave it in the file of the selections. Under settings that ask for none, a new selection gets what
is in the file, whoever left it there. -/

namespace ModelQuery

open Act

namespace Selections

theorem clamp_eq_self {seconds : Int64} (hlow : 1 ≤ seconds) (hhigh : seconds ≤ maxLifetime) :
    clamp seconds = seconds := by
  have hone : (1 : Int64).toInt = 1 := by decide
  rw [Int64.le_iff_toInt_le] at hlow hhigh
  refine Int64.toInt_inj.mp ?_
  rw [toInt_clamp]
  omega

end Selections

namespace Command

variable {machine after : Machine} {context : Context} {store : Store}

theorem lifetime_of_withConfiguredLifetime {lifetime : Option Int64} {selections found : Selections}
    (h : withConfiguredLifetime lifetime selections = .ok found) :
    found.lifetime = lifetime.getD selections.lifetime ∧
      ∀ seconds ∈ lifetime, 1 ≤ seconds ∧ seconds ≤ Selections.maxLifetime := by
  unfold withConfiguredLifetime at h
  split at h
  · cases h
    exact ⟨rfl, nofun⟩
  · split at h
    · next seconds hbounds =>
      cases h
      refine ⟨Selections.clamp_eq_self hbounds.1 hbounds.2, fun _ hs => ?_⟩
      cases hs
      exact hbounds
    · cases h

/-- A search that ends well stores a selection that lives as long as the settings ask, or else as the
file said, and leaves that lifetime in the file. -/
theorem expires_of_effect {search : Search} {output : String}
    (hclock : ∀ n, (machine.clock n).IsMoment) (hlater : machine.Later after)
    (h : Effect machine context (.select search) (.ok output) after) :
    ∃ store loaded added selection, Ends Store.find machine (.ok store) machine ∧
      Ends store.load machine (.ok loaded) machine ∧ after.kept? store = some added ∧
      added.lifetime = context.settings.lifetime.getD loaded.lifetime ∧
      added.stored.get? (machine.tokens machine.drawn) = some selection ∧
      selection.created = machine.clock (machine.ticks + 1) ∧
      selection.expires =
        selection.created.plus (Selections.clamp added.lifetime).toInt ∧
      ∀ seconds ∈ context.settings.lifetime, 1 ≤ seconds ∧ seconds ≤ Selections.maxLifetime := by
  cases h with
  | shown hsearch => exact absurd rfl (hsearch search)
  | @selected _ _ _ _ ids store loaded stored _ hfind hload hstored _ hsaved =>
    obtain ⟨hlifetime, hbounds⟩ := lifetime_of_withConfiguredLifetime hstored
    have hadded := isStorable_create hload hstored (machine.tokens machine.drawn) ids
      (hclock (machine.ticks + 1))
    refine ⟨store, loaded, _, _, hfind, hload, kept?_of_saved hlater hsaved hadded, hlifetime,
      (Keyed.get?_insert ..).trans (if_pos rfl), rfl, rfl, hbounds⟩

/-! ### Runs -/

/-- The lifetime that a command asks for: the one of its settings, in a search that ends well. -/
def asked? (machine : Machine) (arguments : List String) : Option Int64 :=
  match read (machine.environment.lookup "BIMQ_CONFIG") arguments with
  | .error _ => none
  | .ok request =>
    match request.task, ((contextOf request : Act Context).run.run machine).1,
      ((run arguments : StateM Machine Outcome).run machine).1 with
    | .select _, .ok context, .done _ => context.settings.lifetime
    | _, _, _ => none

theorem asked?_of_select {arguments : List String} {request : Request} {search : Search}
    {output : String} (hread : read (machine.environment.lookup "BIMQ_CONFIG") arguments = .ok request)
    (hcontext : Ends (contextOf request) machine (.ok context) machine)
    (htask : request.task = .select search)
    (hdone : ((run arguments : StateM Machine Outcome).run machine).1 = .done output) :
    asked? machine arguments = context.settings.lifetime := by
  simp only [asked?, hread, htask, ← (ends_iff.mp hcontext).1, hdone]

theorem asked?_of_not_done {arguments : List String}
    (h : ∀ output, ((run arguments : StateM Machine Outcome).run machine).1 ≠ .done output) :
    asked? machine arguments = none := by
  unfold asked?
  split
  · rfl
  · split
    · next hdone => exact absurd hdone (h _)
    · rfl

theorem asked?_of_not_select {arguments : List String} {request : Request}
    {result : Except Failure String}
    (hread : read (machine.environment.lookup "BIMQ_CONFIG") arguments = .ok request)
    (hresult : ((run arguments : StateM Machine Outcome).run machine).1 =
      .ofResult request.json result)
    (hsearch : ∀ search output, request.task = .select search → result ≠ .ok output) :
    asked? machine arguments = none := by
  simp only [asked?, hread, hresult]
  split
  · next search context output htask _ hdone =>
    cases result with
    | error failure => cases hdone
    | ok shown => exact absurd rfl (hsearch search shown htask)
  · rfl

/-- The file of the selections has the lifetime that was asked for, or else the one it had. -/
theorem lifetime_run {arguments : List String} {selections : Selections}
    (hclock : ∀ n, (machine.clock n).IsMoment) (hseparate : machine.Separate arguments)
    (hfind : Ends Store.find machine (.ok store) machine)
    (hkept : machine.kept? store = some selections) :
    ∃ left, ((run arguments : StateM Machine Outcome).run machine).2.kept? store = some left ∧
      left.lifetime = (asked? machine arguments).getD selections.lifetime := by
  generalize hrun : (run arguments : StateM Machine Outcome).run machine = ran
  obtain ⟨outcome, after⟩ := ran
  have houtcome : ((run arguments : StateM Machine Outcome).run machine).1 = outcome :=
    congrArg Prod.fst hrun
  rcases run_cases hrun with ⟨hnone, rfl⟩ |
    ⟨request, context, result, hread, hcontext, hfile, hlater, heffect, hresult⟩
  · rw [asked?_of_not_done (houtcome ▸ hnone)]
    exact ⟨selections, hkept, rfl⟩
  by_cases hsearch : ∃ search output, request.task = .select search ∧ result = .ok output
  · obtain ⟨search, output, htask, rfl⟩ := hsearch
    rw [htask] at heffect
    obtain ⟨other, loaded, added, _, hother, hload, hadded, hlifetime, -⟩ :=
      expires_of_effect hclock hlater heffect
    obtain rfl : store = other := Except.ok.inj (ends_unique hfind hother).1
    obtain ⟨text, hr, htext⟩ := Machine.kept?_eq_some_iff.mp hkept
    obtain rfl : selections = loaded :=
      Option.some.inj (htext.symm.trans (eq_of_ends_load hload hr))
    rw [asked?_of_select hread hcontext htask (houtcome.trans hresult)]
    exact ⟨added, hadded, hlifetime⟩
  · have hsearch : ∀ search output, request.task = .select search → result ≠ .ok output :=
      fun search output htask hdone => hsearch ⟨search, output, htask, hdone⟩
    obtain ⟨left, hleft, hsame⟩ := kept?_of_effect hfind
      (hseparate request context.file store hread hfile hfind) hlater heffect hsearch hkept
    -- Purging at a moment after all others leaves the lifetime, so what is left has the same one.
    have hpast : machine.Past after ⟨Instant.last.seconds + 1, 0⟩ := by
      intro n _ _
      have hle := (hclock n).le_last
      rw [← Bool.not_eq_true, Instant.before_iff]
      dsimp only
      omega
    have hlifetime := congrArg Selections.lifetime (hsame _ hpast)
    rw [asked?_of_not_select hread (houtcome.trans hresult) hsearch]
    exact ⟨left, hleft, hlifetime⟩

/-- The lifetime that was asked for last, in the beginning `lifetime`. -/
def lastAsked (machine : Machine) (lifetime : Int64) : List (List String) → Int64
  | [] => lifetime
  | line :: lines => lastAsked ((run line : StateM Machine Outcome).run machine).2
      ((asked? machine line).getD lifetime) lines

/-- However many commands are run, the file of the selections has the lifetime that was asked for
last. -/
theorem lifetime_runAll {lines : List (List String)} {selections : Selections}
    (hclock : ∀ n, (machine.clock n).IsMoment) (hseparate : ∀ line ∈ lines, machine.Separate line)
    (hfind : Ends Store.find machine (.ok store) machine)
    (hkept : machine.kept? store = some selections) :
    ∃ left, (runAll machine lines).kept? store = some left ∧
      left.lifetime = lastAsked machine selections.lifetime lines := by
  induction lines generalizing machine selections with
  | nil => exact ⟨selections, hkept, rfl⟩
  | cons line lines ih =>
    obtain ⟨hline, hlines⟩ := List.forall_mem_cons.mp hseparate
    have hlater := later_of_run (Prod.eta ((run line : StateM Machine Outcome).run machine)).symm
    obtain ⟨left, hleft, hlifetime⟩ := lifetime_run hclock hline hfind hkept
    rw [lastAsked, ← hlifetime]
    refine ih ?_ (fun other hm => (hlines other hm).later hlater)
      ((ends_later_iff Store.settled_find Store.quiet_find hlater).mpr hfind) hleft
    rwa [hlater.clock]

/-- A new selection lives as long as the settings of its command ask. If they ask for no lifetime, it
lives as long as the file of the selections says, which is what was asked for last. -/
theorem expires_of_run_select {arguments : List String} {request : Request} {search : Search}
    {output : String} (hclock : ∀ n, (machine.clock n).IsMoment)
    (hread : read (machine.environment.lookup "BIMQ_CONFIG") arguments = .ok request)
    (htask : request.task = .select search)
    (hdone : ((run arguments : StateM Machine Outcome).run machine).1 = .done output) :
    let after := ((run arguments : StateM Machine Outcome).run machine).2
    ∃ context store loaded added selection,
      Ends (contextOf request) machine (.ok context) machine ∧
      Ends Store.find machine (.ok store) machine ∧
      Ends store.load machine (.ok loaded) machine ∧ after.kept? store = some added ∧
      added.stored.get? (machine.tokens machine.drawn) = some selection ∧
      selection.created = machine.clock (machine.ticks + 1) ∧
      (∀ seconds, context.settings.lifetime = some seconds →
        1 ≤ seconds ∧ seconds ≤ Selections.maxLifetime ∧
        selection.expires = selection.created.plus seconds.toInt ∧ added.lifetime = seconds) ∧
      (context.settings.lifetime = none →
        selection.expires = selection.created.plus (Selections.clamp loaded.lifetime).toInt ∧
        added.lifetime = loaded.lifetime) ∧
      ∀ start lines selections, machine = runAll start lines →
        (∀ line ∈ lines, start.Separate line) → start.kept? store = some selections →
        loaded.lifetime = lastAsked start selections.lifetime lines := by
  intro after
  have hrun := (Prod.eta ((run arguments : StateM Machine Outcome).run machine)).symm
  rcases run_cases hrun with ⟨hnone, -⟩ |
    ⟨asked, context, result, hasked, hcontext, -, hlater, heffect, hresult⟩
  · exact absurd hdone (hnone output)
  obtain rfl : request = asked := Except.ok.inj (hread.symm.trans hasked)
  rw [hdone] at hresult
  cases result with
  | error failure => cases hresult
  | ok shown =>
    rw [htask] at heffect
    obtain ⟨store, loaded, added, selection, hfind, hload, hadded, hlifetime, hstored, hcreated,
      hexpires, hbounds⟩ := expires_of_effect hclock hlater heffect
    refine ⟨context, store, loaded, added, selection, hcontext, hfind, hload, hadded, hstored,
      hcreated, fun seconds hseconds => ?_, fun hunset => ?_, ?_⟩
    · obtain ⟨hlow, hhigh⟩ := hbounds seconds hseconds
      rw [hseconds, Option.getD_some] at hlifetime
      rw [hexpires, hlifetime, Selections.clamp_eq_self hlow hhigh]
      exact ⟨hlow, hhigh, rfl, rfl⟩
    · rw [hunset, Option.getD_none] at hlifetime
      rw [hexpires, hlifetime]
      exact ⟨rfl, rfl⟩
    · rintro start lines selections rfl hseparate hkept
      have hearlier := later_runAll start lines
      have hclock' : ∀ n, (start.clock n).IsMoment := by
        rwa [← hearlier.clock]
      have hfind' :=
        (ends_later_iff Store.settled_find Store.quiet_find hearlier).mp hfind
      obtain ⟨left, hleft, hlast⟩ := lifetime_runAll hclock' hseparate hfind' hkept
      obtain ⟨text, hr, htext⟩ := Machine.kept?_eq_some_iff.mp hleft
      obtain rfl : left = loaded := Option.some.inj (htext.symm.trans (eq_of_ends_load hload hr))
      exact hlast

/-- Under settings that ask for no lifetime, a lifetime that other settings left in the file is given,
although it is not the usual one. -/
theorem expires_of_run_select_unset :
    let caches := Place.root.inside "cache"
    let folder := caches.inside "bimq"
    let machine : Machine := {
      environment := [("XDG_CACHE_HOME", "/cache")]
      home := some "/home"
      input := ""
      folder := .root
      files := ⟨[(caches, .folder), (folder, .folder),
        (folder.inside "selections.json", .file "\x7b\"ttl_secs\": 120\x7d"),
        (Place.root.inside "model", .file "\x7b\"objects\": []\x7d")]⟩
      clock := fun _ => ⟨10, 0⟩
      ticks := 0
      tokens := fun _ => "a"
      drawn := 0 }
    let line := ["--config", "unset", "select", "Part|NAME|IS_EQUAL|x", "--model", "model"]
    let search : Search := ⟨.filter "Part|NAME|IS_EQUAL|x", some "model", none, ⟨none, 0, false⟩⟩
    let request : Request := ⟨false, false, false, false, some "unset", .select search⟩
    let after := ((run line : StateM Machine Outcome).run machine).2
    (∀ n, (machine.clock n).IsMoment) ∧
      read (machine.environment.lookup "BIMQ_CONFIG") line = .ok request ∧
      ((run line : StateM Machine Outcome).run machine).1 = .done "No matching objects.\n" ∧
      ((contextOf request : Act Context).run.run machine).1 =
        .ok ⟨false, true, false, "unset", .unset⟩ ∧
      ∃ added selection, after.kept? (.inFolder "/cache") = some added ∧
        added.stored.get? "a" = some selection ∧
        selection.expires = selection.created.plus 120 ∧
        selection.expires ≠ selection.created.plus Selections.defaultLifetime.toInt := by
  intro caches folder machine line search request after
  have hmoment : (⟨10, 0⟩ : Instant).IsMoment := ⟨by decide, by decide, by decide, by decide⟩
  have hread : read (machine.environment.lookup "BIMQ_CONFIG") line = .ok request := by
    decide +kernel
  have hdone : ((run line : StateM Machine Outcome).run machine).1 =
      .done "No matching objects.\n" := by decide +kernel
  have hunset : ((contextOf request : Act Context).run.run machine).1 =
      .ok ⟨false, true, false, "unset", .unset⟩ := by decide +kernel
  have hfound : ((Store.find : Act Store).run.run machine).1 = .ok (.inFolder "/cache") := by
    decide +kernel
  have hfile : ((Store.load (.inFolder "/cache") : Act Selections).run.run machine).1 =
      .ok ⟨120, []⟩ := by decide +kernel
  refine ⟨fun _ => hmoment, hread, hdone, hunset, ?_⟩
  obtain ⟨context, store, loaded, added, selection, hcontext, hfind, hload, hkept, hget, hcreated, -,
    hlasting, -⟩ := expires_of_run_select (fun _ => hmoment) hread rfl hdone
  obtain rfl := Except.ok.inj ((ends_iff.mp hcontext).1.trans hunset)
  obtain rfl := Except.ok.inj ((ends_iff.mp hfind).1.trans hfound)
  obtain rfl := Except.ok.inj ((ends_iff.mp hload).1.trans hfile)
  have hexpires := (hlasting rfl).1
  refine ⟨added, selection, hkept, hget, hexpires, ?_⟩
  rw [hexpires, hcreated]
  decide

end Command

end ModelQuery
