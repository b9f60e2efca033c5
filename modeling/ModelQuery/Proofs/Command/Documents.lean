import ModelQuery.Proofs.Catalog.Documented
import ModelQuery.Proofs.Command.Store
import ModelQuery.Proofs.Criteria.Documented

/-! What is written as a document and read again: criteria, catalogs and stored selections. -/

namespace ModelQuery

open Act

/-- Whatever criteria or catalog was read is read again from how it is written. Selections are
loaded as they were saved, whatever their lifetime is, and whether they can be saved is not up to
them. -/
theorem read_as_written :
    (∀ text criteria, Criteria.ofText? text = some criteria →
      Criteria.ofText? criteria.toDocument.compact = some criteria ∧
        Criteria.ofText? criteria.toDocument.pretty = some criteria) ∧
    (∀ text catalog, Catalog.ofText text = .ok catalog →
      Catalog.ofText catalog.toDocument.compact = .ok catalog ∧
        Catalog.ofText catalog.toDocument.pretty = .ok catalog) ∧
    ∀ (store : Store) (selections : Selections), selections.IsStorable →
      (∀ machine after, Ends (store.save selections) machine (.ok ()) after →
        after.files.read after.folder store.file = .ok selections.render ∧
          Ends store.load after (.ok selections) after) ∧
      ∀ others machine between, Ends (store.save others) machine (.ok ()) between →
        ∃ after, Ends (store.save selections) machine (.ok ()) after := by
  refine ⟨fun _ _ => Criteria.ofText?_written, fun _ _ => Catalog.ofText_written,
    fun store selections hstorable => ⟨fun machine after hsave => ⟨?_, ?_⟩, ?_⟩⟩
  · exact Store.read_of_save hsave
  · exact Store.ends_load_of_save hstorable hsave
  · exact fun others machine between => Store.exists_ends_save selections

/-- Groups with fields that are absent or in their order, a kind given by a name, and a lifetime
below every one that is set. -/
theorem read_as_written_defaults :
    let criteriaText := "\x7b\"groups\":[\x7b\"groups\":[[\"OR\",[[\"Part\",\"LENGTH\",null,\"1\"]]]]" ++
      ",\"criteria\":[]\x7d]\x7d"
    let criteriaWritten := "\x7b\"groups\":[\x7b\"groups\":[\x7b\"logical_operator\":\"OR\"," ++
      "\"criteria\":[\x7b\"category\":\"Part\",\"property\":\"LENGTH\",\"value\":\"1\"\x7d]\x7d]\x7d]\x7d"
    let catalogText := "\x7b\"categories\":[\x7b\"name\":\"Part\",\"aliases\":[],\"wildcard\":false," ++
      "\"properties\":[[\"LENGTH\",\x7b\"number\":null\x7d]]\x7d]\x7d"
    let catalogWritten := "\x7b\"categories\":[\x7b\"name\":\"Part\"," ++
      "\"properties\":[\x7b\"name\":\"LENGTH\",\"kind\":\"number\"\x7d]\x7d]\x7d"
    let catalog : Catalog := ⟨[⟨"Part", [], false, [⟨"LENGTH", .number, []⟩]⟩]⟩
    let selections : Selections := ⟨-5, [("a", ⟨["1", "2"], ⟨0, 0⟩, ⟨600, 500000000⟩⟩)]⟩
    let machine : Machine :=
      { environment := [], home := none, input := "", folder := .root, files := .empty,
        clock := fun _ => ⟨0, 0⟩, ticks := 0, tokens := fun _ => "", drawn := 0 }
    let store := Store.inFolder "/cache"
    (∃ criteria, Criteria.ofText? criteriaText = some criteria ∧
      criteria.toDocument.compact = criteriaWritten ∧
      Criteria.ofText? criteriaWritten = some criteria) ∧
    (Catalog.ofText catalogText = .ok catalog ∧ catalog.toDocument.compact = catalogWritten ∧
      Catalog.ofText catalogWritten = .ok catalog) ∧
    selections.IsStorable ∧ ∃ after, Ends (store.save selections) machine (.ok ()) after ∧
      Ends store.load after (.ok selections) after := by
  intro criteriaText criteriaWritten catalogText catalogWritten catalog selections machine store
  obtain ⟨hcriteria, hcatalog, hselections⟩ := read_as_written
  refine ⟨?_, ?_, ?_⟩
  · have hread : (Criteria.ofText? criteriaText).isSome = true := by decide +kernel
    have hwritten : (Criteria.ofText? criteriaText).map (·.toDocument.compact) =
        some criteriaWritten := by decide +kernel
    obtain ⟨criteria, hread⟩ := Option.isSome_iff_exists.mp hread
    rw [hread, Option.map_some, Option.some.injEq] at hwritten
    refine ⟨criteria, hread, hwritten, ?_⟩
    rw [← hwritten]
    exact (hcriteria _ criteria hread).1
  · have hread : Catalog.ofText catalogText = .ok catalog := by decide +kernel
    have hwritten : catalog.toDocument.compact = catalogWritten := by decide +kernel
    refine ⟨hread, hwritten, ?_⟩
    rw [← hwritten]
    exact (hcatalog _ catalog hread).1
  · have hmoment : ∀ s n, 0 ≤ s → s ≤ 600 → n < 1000000000 → (⟨s, n⟩ : Instant).IsMoment := by
      intro s n hfirst hlast hnanos
      have hrange : Instant.firstSecond ≤ 0 ∧ 600 ≤ Instant.last.seconds := by decide +kernel
      exact ⟨by dsimp only; omega, by dsimp only; omega, by dsimp only; omega,
        fun h => absurd h (by dsimp only; omega)⟩
    have hstorable : selections.IsStorable := by
      refine ⟨List.pairwise_singleton _ _, fun entry hm => ?_⟩
      obtain rfl := List.mem_singleton.mp hm
      exact ⟨hmoment _ _ (by decide) (by decide) (by decide),
        hmoment _ _ (by decide) (by decide) (by decide)⟩
    have hsaved : ((store.save selections : Act Unit).run.run machine).1 = .ok () := by
      decide +kernel
    have hsave : Ends (store.save selections) machine (.ok ()) _ := ends_iff.mpr ⟨hsaved.symm, rfl⟩
    exact ⟨hstorable, _, hsave, ((hselections store selections hstorable).1 machine _ hsave).2⟩

end ModelQuery
