import ModelQuery.Proofs.Filter.Marker
import ModelQuery.Proofs.Outcome
import ModelQuery.Proofs.Text.Cutting

/-! Reading a run of clause text, clause by clause. A marker behind a clause of exactly four fields
reads the same whether it ends a run or stands inside one. -/

namespace ModelQuery.Clause

open Text

theorem fields_blank_append {blanks : List Char} (h : ∀ c ∈ blanks, isBlank c = true)
    (text : List Char) : fields (blanks ++ text) = fields text := by
  have ha : blanks.all isBlank = true := List.all_eq_true.mpr h
  simp only [fields, List.all_append, ha, Bool.true_and,
    map_trim_pieces_blank_append h (show isBlank '|' = false by decide)]

theorem fields_append_blank {blanks : List Char} (h : ∀ c ∈ blanks, isBlank c = true)
    (text : List Char) : fields (text ++ blanks) = fields text := by
  have ha : blanks.all isBlank = true := List.all_eq_true.mpr h
  simp only [fields, List.all_append, ha, Bool.and_true,
    map_trim_pieces_append_blank h (show isBlank '|' = false by decide)]

theorem read_blank_append {blanks : List Char} (h : ∀ c ∈ blanks, isBlank c = true)
    (text : List Char) (position : Nat) : read (blanks ++ text) position = read text position := by
  simp only [read, fields_blank_append h, trim_blank_append h]

theorem read_append_blank {blanks : List Char} (h : ∀ c ∈ blanks, isBlank c = true)
    (text : List Char) (position : Nat) : read (text ++ blanks) position = read text position := by
  simp only [read, fields_append_blank h, trim_append_blank h]

/-- Reading a clause fails for want of fields only, and the position matters to the fault alone. -/
theorem read_cases (text : List Char) :
    (∃ result, 3 ≤ text.count '|' ∧ ∀ position, read text position = .ok result) ∨
      ∃ count, ∀ position,
        read text position = .error (.shortClause (String.ofList (trim text)) position count) := by
  unfold read
  split
  · next category property operator value more hf =>
    refine Or.inl ⟨_, ?_, fun _ => rfl⟩
    have hlen := congrArg List.length hf
    by_cases hb : text.all isBlank = true
    · simp [fields, hb] at hf
    · simp only [fields, hb, Bool.false_eq_true, if_false, List.length_map, length_pieces,
        List.length_cons] at hlen
      omega
  · next short hs => exact Or.inr ⟨_, fun _ => rfl⟩

theorem readRun_whole {text : List Char} (h : ';' ∉ text) (joiner : Joiner) (position : Nat) :
    readRun joiner position text =
      (fun found => [(joiner, .leaf found.1)]) <$> read text (position + leadingBlanks text) := by
  simp only [readRun, pieces_of_not_mem h, readAll]
  cases read text (position + leadingBlanks text) <;> rfl

theorem readRun_cut {text : List Char} (h : ';' ∉ text) (rest : List Char) (joiner : Joiner)
    (position : Nat) :
    readRun joiner position (text ++ ';' :: rest) = do
      let found ← read text (position + leadingBlanks text)
      let later ← readRun found.2 (position + text.length + 1) rest
      return (joiner, .leaf found.1) :: later := by
  simp only [readRun, pieces_cut h, readAll]

/-- Reading a run fails for want of fields only, and the position matters to the fault alone. -/
theorem readRun_cases (joiner : Joiner) (text : List Char) :
    (∃ parts, ∀ position, readRun joiner position text = .ok parts) ∨
      ∀ position, ∃ short place count,
        readRun joiner position text = .error (.shortClause short place count) := by
  induction text using cut_induction ';' generalizing joiner with
  | whole piece hp =>
    simp only [readRun_whole hp]
    rcases read_cases piece with ⟨found, -, hf⟩ | ⟨count, hf⟩
    · exact Or.inl ⟨_, fun _ => by rw [hf, map_ok]⟩
    · exact Or.inr fun _ => ⟨_, _, _, by rw [hf, map_error]⟩
  | cut piece rest hp ih =>
    simp only [readRun_cut hp]
    rcases read_cases piece with ⟨found, -, hf⟩ | ⟨count, hf⟩
    · rcases ih found.2 with ⟨later, hl⟩ | hl
      · exact Or.inl ⟨_, fun _ => by rw [hf, ok_bind, hl, ok_bind, pure_eq_ok]⟩
      · refine Or.inr fun position => ?_
        obtain ⟨short, place, count, hs⟩ := hl (position + piece.length + 1)
        exact ⟨short, place, count, by rw [hf, ok_bind, hs, error_bind]⟩
    · exact Or.inr fun _ => ⟨_, _, _, by rw [hf, error_bind]⟩

theorem eq_shortClause_of_readRun {joiner : Joiner} {position : Nat} {text : List Char}
    {fault : Fault} (h : readRun joiner position text = .error fault) :
    ∃ short place count, fault = .shortClause short place count := by
  rcases readRun_cases joiner text with ⟨parts, hp⟩ | hf
  · rw [hp] at h
    cases h
  · obtain ⟨short, place, count, he⟩ := hf position
    exact ⟨short, place, count, Except.error.inj (h.symm.trans he)⟩

theorem stage_of_readRun {joiner : Joiner} {position : Nat} {text : List Char} {fault : Fault}
    (h : readRun joiner position text = .error fault) : fault.stage = .parse := by
  obtain ⟨short, place, count, rfl⟩ := eq_shortClause_of_readRun h
  rfl

/-- A text is a run of these parts, wherever it stands. -/
def IsRun (joiner : Joiner) (text : List Char) (parts : List (Joiner × Tree)) : Prop :=
  ∀ position, readRun joiner position text = .ok parts

theorem isRun_of_readRun {joiner : Joiner} {position : Nat} {text : List Char}
    {parts : List (Joiner × Tree)} (h : readRun joiner position text = .ok parts) :
    IsRun joiner text parts := by
  rcases readRun_cases joiner text with ⟨found, hf⟩ | hf
  · rw [hf, Except.ok.injEq] at h
    exact h ▸ hf
  · obtain ⟨short, place, count, he⟩ := hf position
    rw [he] at h
    cases h

theorem isRun_whole_iff {text : List Char} (h : ';' ∉ text) {joiner : Joiner}
    {parts : List (Joiner × Tree)} : IsRun joiner text parts ↔ ∃ found,
      (∀ position, read text position = .ok found) ∧ parts = [(joiner, .leaf found.1)] := by
  simp only [IsRun, readRun_whole h]
  rcases read_cases text with ⟨found, -, hf⟩ | ⟨count, hf⟩
  · simp [hf, eq_comm]
  · simp [hf]

theorem isRun_cut_iff {text : List Char} (h : ';' ∉ text) {rest : List Char} {joiner : Joiner}
    {parts : List (Joiner × Tree)} : IsRun joiner (text ++ ';' :: rest) parts ↔
      ∃ found later, (∀ position, read text position = .ok found) ∧ IsRun found.2 rest later ∧
        parts = (joiner, .leaf found.1) :: later := by
  rcases read_cases text with ⟨found, -, hf⟩ | ⟨count, hf⟩
  · rcases readRun_cases found.2 rest with ⟨later, hl⟩ | hl
    · simp [IsRun, readRun_cut h, hf, hl, eq_comm]
    · obtain ⟨short, place, count, he⟩ := hl (0 + text.length + 1)
      constructor
      · intro hr
        have hz := hr 0
        rw [readRun_cut h, hf, ok_bind, he, error_bind] at hz
        cases hz
      · rintro ⟨found', later, hf', hl', -⟩
        obtain rfl : found = found' := Except.ok.inj ((hf 0).symm.trans (hf' 0))
        rw [hl'] at he
        cases he
  · simp [IsRun, readRun_cut h, hf]

theorem isRun_append_blank {blanks : List Char} (h : ∀ c ∈ blanks, isBlank c = true)
    {text : List Char} {joiner : Joiner} {parts : List (Joiner × Tree)} :
    IsRun joiner (text ++ blanks) parts ↔ IsRun joiner text parts := by
  have hb : ';' ∉ blanks := fun hm => absurd (h _ hm) (by decide)
  induction text using cut_induction ';' generalizing joiner parts with
  | whole piece hp =>
    rw [isRun_whole_iff hp, isRun_whole_iff (by simp [hp, hb])]
    simp only [read_append_blank h]
  | cut piece rest hp ih =>
    rw [List.append_assoc, List.cons_append, isRun_cut_iff hp, isRun_cut_iff hp]
    simp only [ih]

theorem isRun_blank_append {blanks : List Char} (h : ∀ c ∈ blanks, isBlank c = true)
    {text : List Char} {joiner : Joiner} {parts : List (Joiner × Tree)} :
    IsRun joiner (blanks ++ text) parts ↔ IsRun joiner text parts := by
  have hb : ';' ∉ blanks := fun hm => absurd (h _ hm) (by decide)
  induction text using cut_induction ';' with
  | whole piece hp =>
    rw [isRun_whole_iff hp, isRun_whole_iff (by simp [hp, hb])]
    simp only [read_blank_append h]
  | cut piece rest hp =>
    rw [← List.append_assoc, isRun_cut_iff hp, isRun_cut_iff (by simp [hp, hb])]
    simp only [read_blank_append h]

theorem isRun_trim {text : List Char} {joiner : Joiner} {parts : List (Joiner × Tree)} :
    IsRun joiner (trim text) parts ↔ IsRun joiner text parts := by
  obtain ⟨front, back, he, hf, hb⟩ := exists_trim text
  conv_rhs => rw [he, isRun_blank_append hf, isRun_append_blank hb]

/-- The last clause of a text, its last character first. -/
def lastClause (text : List Char) : List Char :=
  text.reverse.takeWhile (· ≠ ';')

theorem lastClause_whole {text : List Char} (h : ';' ∉ text) : lastClause text = text.reverse := by
  exact List.takeWhile_eq_self_iff.mpr (all_ne_of_not_mem (by simpa using h))

theorem lastClause_cut (text rest : List Char) :
    lastClause (text ++ ';' :: rest) = lastClause rest := by
  have hs : (';' :: text.reverse).takeWhile (· ≠ ';') = [] := by simp
  simp only [lastClause, List.reverse_append, List.reverse_cons, List.append_assoc,
    List.singleton_append, List.takeWhile_append, hs, List.append_nil]
  split
  · next he => exact ((List.takeWhile_prefix _).eq_of_length he).symm
  · rfl

theorem lastClause_append {text more : List Char} (h : ';' ∉ more) :
    lastClause (text ++ more) = more.reverse ++ lastClause text := by
  have hsemi : ';' ∉ more.reverse := by simpa using h
  rw [lastClause, List.reverse_append,
    List.takeWhile_append_of_pos (all_ne_of_not_mem hsemi), lastClause]

theorem IsRun.first_bars {joiner : Joiner} {text : List Char} {parts : List (Joiner × Tree)}
    (h : IsRun joiner text parts) : 3 ≤ (text.takeWhile (· ≠ ';')).count '|' := by
  have hread : ∀ (piece : List Char) (found : Clause × Joiner),
      (∀ position, read piece position = .ok found) → 3 ≤ piece.count '|' := by
    intro piece found hf
    rcases read_cases piece with ⟨-, hc, -⟩ | ⟨count, he⟩
    · exact hc
    · exact absurd ((he 0).symm.trans (hf 0)) (by simp)
  induction text using cut_induction ';' with
  | whole piece hp =>
    obtain ⟨found, hf, -⟩ := (isRun_whole_iff hp).mp h
    rw [List.takeWhile_eq_self_iff.mpr (all_ne_of_not_mem hp)]
    exact hread piece found hf
  | cut piece rest hp =>
    obtain ⟨found, later, hf, -, -⟩ := (isRun_cut_iff hp).mp h
    rw [List.takeWhile_append_of_pos (all_ne_of_not_mem hp)]
    simpa using hread piece found hf

theorem IsRun.exists_not_blank {joiner : Joiner} {text : List Char}
    {parts : List (Joiner × Tree)} (h : IsRun joiner text parts) :
    ∃ c ∈ lastClause text, isBlank c = false := by
  induction text using cut_induction ';' generalizing joiner parts with
  | whole piece hp =>
    refine ⟨'|', ?_, by decide⟩
    have hbar : 0 < piece.count '|' := by
      have hf := h.first_bars
      have ht : piece.takeWhile (· ≠ ';') <+: piece := List.takeWhile_prefix _
      have hle := ht.sublist.count_le '|'
      omega
    simpa [lastClause_whole hp] using List.count_pos_iff.mp hbar
  | cut piece rest hp ih =>
    obtain ⟨found, later, -, hl, -⟩ := (isRun_cut_iff hp).mp h
    rw [lastClause_cut]
    exact ih hl

theorem readRun_cons_blank {c : Char} (h : isBlank c = true) (text : List Char) (joiner : Joiner)
    (position : Nat) :
    readRun joiner position (c :: text) = readRun joiner (position + 1) text := by
  have hread : ∀ piece place, read (c :: piece) place = read piece place :=
    fun piece place => @read_blank_append [c] (by simpa using h) piece place
  have hc : c ≠ ';' := fun he => absurd (he ▸ h) (by decide)
  induction text using cut_induction ';' with
  | whole piece hp =>
    rw [readRun_whole hp, readRun_whole (by simp [hp, Ne.symm hc]), leadingBlanks_cons h, hread]
    congr 2
    omega
  | cut piece rest hp =>
    rw [← List.cons_append, readRun_cut hp, readRun_cut (by simp [hp, Ne.symm hc]),
      leadingBlanks_cons h, hread, List.length_cons]
    simp only [Nat.add_assoc, Nat.add_comm 1]

theorem readRun_append_blank {blanks : List Char} (h : ∀ c ∈ blanks, isBlank c = true)
    {text : List Char} (hlast : ∃ c ∈ lastClause text, isBlank c = false) (joiner : Joiner)
    (position : Nat) :
    readRun joiner position (text ++ blanks) = readRun joiner position text := by
  have hb : ';' ∉ blanks := fun hm => absurd (h _ hm) (by decide)
  induction text using cut_induction ';' generalizing joiner position with
  | whole piece hp =>
    rw [lastClause_whole hp] at hlast
    have hsome : ∃ c ∈ piece, isBlank c = false := by simpa using hlast
    rw [readRun_whole hp, readRun_whole (by simp [hp, hb]), read_append_blank h,
      leadingBlanks_append_of_exists hsome]
  | cut piece rest hp ih =>
    rw [lastClause_cut] at hlast
    simp only [List.append_assoc, List.cons_append, readRun_cut hp, ih hlast]

/-- Trimming a run that begins and ends with a clause changes nothing, not even what is told of a
clause with too few fields. -/
theorem readRun_trim {text : List Char} (hhead : ∀ c ∈ text.head?, isBlank c = false)
    (hlast : ∃ c ∈ lastClause text, isBlank c = false) (joiner : Joiner) (position : Nat) :
    readRun joiner position (trim text) = readRun joiner position text := by
  obtain ⟨back, he, hback⟩ := exists_trim_append hhead
  have hsemi : ';' ∉ back := fun hm => absurd (hback _ hm) (by decide)
  rw [he, lastClause_append hsemi] at hlast
  obtain ⟨c, hc, hb⟩ := hlast
  have hmem : c ∈ lastClause (trim text) := by
    rcases List.mem_append.mp hc with hc | hc
    · simp [hback c (List.mem_reverse.mp hc)] at hb
    · exact hc
  conv_rhs => rw [he, readRun_append_blank hback ⟨c, hmem, hb⟩]

theorem fields_of_mem_bar {text : List Char} (h : '|' ∈ text) :
    fields text = (pieces '|' text).map trim := by
  have hb : text.all isBlank = false := List.all_eq_false.mpr ⟨'|', h, by decide⟩
  simp only [fields, hb, Bool.false_eq_true, if_false]

/-- The letters of a marker behind four fields are a fifth field, which names the joiner. -/
theorem read_append_letters {text letters : List Char} {joiner : Joiner}
    (hbars : text.count '|' = 3) (hl : Joiner.ofLetters? letters = some joiner) :
    ∃ clause, (∀ position, read text position = .ok (clause, .and)) ∧
      ∀ position, read (text ++ '|' :: letters) position = .ok (clause, joiner) := by
  have hbar : '|' ∈ text := List.count_pos_iff.mp (by omega)
  have hletters : '|' ∉ letters := Joiner.not_mem_letters hl (by decide)
  have hlen : (pieces '|' text).length = 4 := by rw [length_pieces, hbars]
  obtain ⟨a, b, c, d, hp⟩ : ∃ a b c d, pieces '|' text = [a, b, c, d] := by
    match hp : pieces '|' text, hlen with
    | [a, b, c, d], _ => exact ⟨a, b, c, d, rfl⟩
  have hf : fields text = [trim a, trim b, trim c, trim d] := by
    rw [fields_of_mem_bar hbar, hp]
    rfl
  have hfm : fields (text ++ '|' :: letters) = [trim a, trim b, trim c, trim d, letters] := by
    rw [fields_of_mem_bar (by simp), pieces_append_separator, hp, pieces_of_not_mem hletters]
    simp [Joiner.trim_letters hl]
  exact ⟨⟨String.ofList (trim a), String.ofList (trim b), String.ofList (trim c),
      String.ofList (trim d)⟩, fun _ => by simp [read, hf],
    fun _ => by simp [read, hfm, Joiner.ofField_letters hl]⟩

/-- A marker behind a clause of four fields joins what follows to it, as the end of a run would. -/
theorem readRun_append_mark {text mark : List Char} {next : Joiner}
    (hbars : (lastClause text).count '|' = 3) (hm : next.Marks mark) (rest : List Char)
    (joiner : Joiner) (position : Nat) :
    readRun joiner position (text ++ (mark ++ rest)) = do
      let parts ← readRun joiner position text
      let later ← readRun next (position + text.length + mark.length) rest
      return parts ++ later := by
  induction text using cut_induction ';' generalizing joiner position with
  | whole piece hp =>
    rw [lastClause_whole hp, List.count_reverse] at hbars
    obtain ⟨letters, hl, hsemi, rfl⟩ := hm.exists_letters
    obtain ⟨clause, hread, hmarked⟩ := read_append_letters hbars hl
    have he : piece ++ ('|' :: letters ++ [';'] ++ rest) =
        (piece ++ '|' :: letters) ++ ';' :: rest := by simp
    have hnot : ';' ∉ piece ++ '|' :: letters := by simpa [hp] using hsemi
    have hlen : position + (piece ++ '|' :: letters).length + 1 =
        position + piece.length + ('|' :: letters ++ [';']).length := by
      simp only [List.length_append, List.length_cons, List.length_nil]
      omega
    rw [he, readRun_cut hnot, readRun_whole hp, hmarked, hread, hlen]
    simp
  | cut piece rest' hp ih =>
    rw [lastClause_cut] at hbars
    have hlen : position + (piece ++ ';' :: rest').length + mark.length =
        position + piece.length + 1 + rest'.length + mark.length := by
      simp only [List.length_append, List.length_cons]
      omega
    rw [List.append_assoc, List.cons_append, readRun_cut hp, readRun_cut hp, hlen]
    cases read piece (position + leadingBlanks piece) with
    | error fault => simp only [error_bind]
    | ok found =>
      simp only [ok_bind, ih hbars]
      cases readRun found.2 (position + piece.length + 1) rest' with
      | error fault => simp only [error_bind]
      | ok parts =>
        cases readRun next (position + piece.length + 1 + rest'.length + mark.length) rest <;> rfl

theorem readRun_mark {mark : List Char} {next : Joiner} (hm : next.Marks mark) (rest : List Char)
    (joiner : Joiner) (position : Nat) :
    ∃ short, readRun joiner position (mark ++ rest) = .error (.shortClause short position 2) := by
  obtain ⟨letters, hl, hsemi, rfl⟩ := hm.exists_letters
  have hp : pieces '|' ('|' :: letters) = [[], letters] := by
    rw [← List.nil_append ('|' :: letters), pieces_cut (by simp),
      pieces_of_not_mem (Joiner.not_mem_letters hl (by decide))]
  have hf : fields ('|' :: letters) = [trim [], trim letters] := by
    rw [fields_of_mem_bar (by simp), hp]
    rfl
  have hz : leadingBlanks ('|' :: letters) = 0 := by
    simp [leadingBlanks, show isBlank '|' = false by decide]
  refine ⟨String.ofList (trim ('|' :: letters)), ?_⟩
  rw [List.append_assoc, List.singleton_append, readRun_cut hsemi, hz]
  simp [read, hf]

theorem IsRun.append_ne_mark {run text mark rest : List Char} {joiner next : Joiner}
    {parts : List (Joiner × Tree)} (h : IsRun joiner run parts) (hm : next.Marks mark) :
    run ++ text ≠ mark ++ rest := by
  intro he
  obtain ⟨letters, hl, hsemi, rfl⟩ := hm.exists_letters
  have hbars := h.first_bars
  have hle : (run.takeWhile (· ≠ ';')).count '|' ≤
      ((run ++ text).takeWhile (· ≠ ';')).count '|' := by
    rw [List.takeWhile_append]
    split
    · next hw =>
      rw [(List.takeWhile_prefix _).eq_of_length hw, List.count_append]
      omega
    · exact Nat.le_refl _
  have hfirst : ('|' :: letters ++ [';'] ++ rest).takeWhile (· ≠ ';') = '|' :: letters := by
    rw [List.append_assoc, List.takeWhile_append_of_pos (all_ne_of_not_mem hsemi)]
    simp
  have hbar : '|' ∉ letters := Joiner.not_mem_letters hl (by decide)
  have hcount : ('|' :: letters).count '|' = 1 := by
    simp [List.count_eq_zero_of_not_mem hbar]
  rw [he, hfirst, hcount] at hle
  omega

/-- Behind the last marker of a run stands a clause. -/
theorem IsRun.exists_not_blank_after {text mark rest : List Char} {joiner next : Joiner}
    {parts : List (Joiner × Tree)} (h : IsRun joiner (text ++ (mark ++ rest)) parts)
    (hm : next.Marks mark) : ∃ c ∈ rest, isBlank c = false := by
  obtain ⟨letters, -, -, rfl⟩ := hm.exists_letters
  have he : text ++ ('|' :: letters ++ [';'] ++ rest) =
      (text ++ '|' :: letters) ++ ';' :: rest := by simp
  obtain ⟨c, hc, hb⟩ := h.exists_not_blank
  rw [he, lastClause_cut] at hc
  exact ⟨c, List.mem_reverse.mp ((List.takeWhile_prefix _).subset hc), hb⟩

/-- A run may be cut at a marker behind a clause of four fields. -/
theorem isRun_append_mark_iff {text mark rest : List Char} {joiner next : Joiner}
    {parts : List (Joiner × Tree)} (hbars : (lastClause text).count '|' = 3)
    (hm : next.Marks mark) : IsRun joiner (text ++ (mark ++ rest)) parts ↔
      ∃ before after, IsRun joiner text before ∧ IsRun next rest after ∧
        parts = before ++ after := by
  constructor
  · intro h
    have hz := h 0
    rw [readRun_append_mark hbars hm] at hz
    obtain ⟨before, hb, hz⟩ := bind_eq_ok_iff.mp hz
    obtain ⟨after, ha, hz⟩ := bind_eq_ok_iff.mp hz
    exact ⟨before, after, isRun_of_readRun hb, isRun_of_readRun ha, (Except.ok.inj hz).symm⟩
  · rintro ⟨before, after, hb, ha, rfl⟩ position
    rw [readRun_append_mark hbars hm, hb, ok_bind, ha, ok_bind, pure_eq_ok]

/-- A run consists of clauses, and of one at least. -/
theorem IsRun.leaves {joiner : Joiner} {text : List Char} {parts : List (Joiner × Tree)}
    (h : IsRun joiner text parts) :
    parts ≠ [] ∧ ∀ part ∈ parts, ∃ clause, part.2 = .leaf clause := by
  induction text using cut_induction ';' generalizing joiner parts with
  | whole piece hp =>
    obtain ⟨found, -, rfl⟩ := (isRun_whole_iff hp).mp h
    simp
  | cut piece rest hp ih =>
    obtain ⟨found, later, -, hl, rfl⟩ := (isRun_cut_iff hp).mp h
    have hi := (ih hl).2
    simpa using hi

end ModelQuery.Clause
